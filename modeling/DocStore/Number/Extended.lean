import DocStore.Number.Binary64

/-!
Positive numbers with a significand of 64 bits, which are held while a decimal is read that has to become a double.
Every product is rounded to such a significand, a tie to the even one; the exponent has no bounds.
-/

namespace DocStore

/-- The number `significand * 2^exponent`. -/
structure Extended where
  significand : Nat
  exponent : Int
deriving DecidableEq, Repr

namespace Extended

/-- The number nearest to `n * 2^e`. -/
def round (n : Nat) (e : Int) : Extended :=
  let excess := n.log2 - 63
  ⟨Binary64.roundedQuotient n (twoTo excess), e + excess⟩

def ofNat (n : Nat) : Extended := round n 0

/-- The number nearest to the inverse of a natural number that is not zero. -/
def inverse (n : Nat) : Extended :=
  let e := 64 + n.log2
  round (Binary64.roundedQuotient (twoTo e) n) (-(e : Int))

def mul (x y : Extended) : Extended := round (x.significand * y.significand) (x.exponent + y.exponent)

/-- The product with a factor that is taken several times. -/
def mulTimes (factor : Extended) (times : Nat) (x : Extended) : Extended := Nat.repeat (mul · factor) times x

/-- The product with a power of ten, first by hundreds of places, then by tens, then by single ones. -/
def scaleTen (power : Int) (x : Extended) : Extended :=
  let factor (places : Nat) := if power < 0 then inverse (tenTo places) else ofNat (tenTo places)
  let n := power.natAbs
  mulTimes (factor 1) (n % 10) (mulTimes (factor 10) (n % 100 / 10) (mulTimes (factor 100) (n / 100) x))

def largest : Nat := (twoTo 53 - 1) * twoTo 971

/-- The nearest double; infinity for whatever is larger than the largest one. -/
def toBinary64 (x : Extended) : Binary64 :=
  if x.exponent < 0 then Binary64.ofRatio false x.significand (twoTo (-x.exponent).toNat)
  else
    let n := x.significand * twoTo x.exponent.toNat
    if largest < n then Binary64.infinity false else Binary64.ofNat n

end Extended

end DocStore
