import DocStore.Number.Powers

/-!
Double-precision numbers (IEEE 754 `binary64`) by their bits. Every finite one is a whole number of units of 2^-1074,
so comparing and rounding are integer arithmetic.
-/

namespace DocStore

/-- A double-precision number, infinity or not-a-number. -/
structure Binary64 where
  bits : UInt64
deriving DecidableEq, Repr, Inhabited

namespace Binary64

def word (x : Binary64) : Nat := x.bits.toNat

def negative (x : Binary64) : Bool := twoTo 63 ≤ x.word

def exponent (x : Binary64) : Nat := x.word / twoTo 52 % twoTo 11

def fraction (x : Binary64) : Nat := x.word % twoTo 52

def isNaN (x : Binary64) : Bool := x.exponent == 2047 && x.fraction != 0

def isFinite (x : Binary64) : Bool := x.exponent != 2047

/-- The magnitude in units of 2^-1074; infinity counts as 2^1024. -/
def magnitude (x : Binary64) : Nat :=
  if x.exponent = 0 then x.fraction else (twoTo 52 + x.fraction) * twoTo (x.exponent - 1)

/-- The value in units of 2^-1074. -/
def scaled (x : Binary64) : Int := if x.negative then -(x.magnitude : Int) else x.magnitude

/-- A whole number in units of 2^-1074. -/
def scaledInteger (n : Int) : Int := n * twoTo 1074

/-- The number with the given sign and the given bits below it. -/
def ofWord (sign : Bool) (low : Nat) : Binary64 := ⟨UInt64.ofNat ((if sign then twoTo 63 else 0) + low)⟩

def zero : Binary64 := ofWord false 0

def infinity (sign : Bool) : Binary64 := ofWord sign (2047 * twoTo 52)

/-- A quotient rounded to the nearest integer, a tie to the even one. -/
def roundedQuotient (num den : Nat) : Nat :=
  let q := num / den
  let r := num % den
  if 2 * r < den then q else if den < 2 * r then q + 1 else q + q % 2

/-- The exponent of the leading bit of `num / den`, at least that of the smallest normal number. -/
def binaryExponent (num den : Nat) : Int :=
  let e : Int := (num.log2 : Int) - (den.log2 : Int)
  -- `num / den` lies between 2^(e - 1) and 2^(e + 1)
  let fits := if 0 ≤ e then den * twoTo e.toNat ≤ num else den ≤ num * twoTo (-e).toNat
  max (if fits then e else e - 1) (-1022)

/-- The double nearest to `num / den`, a tie to the even significand; infinity if it lies beyond the largest double. -/
def ofRatio (sign : Bool) (num den : Nat) : Binary64 :=
  if num = 0 || den = 0 then ofWord sign 0
  else
    let e := binaryExponent num den
    let shift := 52 - e
    let q := if 0 ≤ shift then roundedQuotient (num * twoTo shift.toNat) den
      else roundedQuotient num (den * twoTo (-shift).toNat)
    let low := (e + 1022).toNat * twoTo 52 + q
    if 2047 * twoTo 52 ≤ low then infinity sign else ofWord sign low

def ofNat (n : Nat) : Binary64 := ofRatio false n 1

def ofInt (n : Int) : Binary64 := ofRatio (n < 0) n.natAbs 1

/-- The rounded product of two finite doubles. -/
def mul (x y : Binary64) : Binary64 :=
  ofRatio (x.negative != y.negative) (x.magnitude * y.magnitude) (twoTo 2148)

/-- The rounded quotient of two finite doubles, the second one not zero. -/
def div (x y : Binary64) : Binary64 :=
  ofRatio (x.negative != y.negative) x.magnitude y.magnitude

/-- The double nearest to a power of ten. -/
def pow10 (k : Nat) : Binary64 := ofNat (tenTo k)

def neg (x : Binary64) : Binary64 := ofWord (!x.negative) (x.word % twoTo 63)

end Binary64

end DocStore
