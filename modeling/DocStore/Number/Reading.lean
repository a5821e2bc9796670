import DocStore.Number.Binary64

/-!
Reading a decimal as a double. The significand takes digits for as long as it fits 64 bits; its nearest double is
then multiplied or divided by the double nearest to a power of ten, so the last bit may differ from the nearest
double of the text.
-/

namespace DocStore

/-- A decimal number as written: the digits before and after the point, and the signed exponent. -/
structure DecimalText where
  negative : Bool
  whole : List Char
  places : Option (List Char)
  power : Option (Bool × List Char)
deriving DecidableEq, Repr

namespace DecimalText

/-- A significand and the power of ten it is taken with. -/
structure Scaled where
  significand : Nat
  power : Int

/-- Takes a digit if the significand still fits 64 bits with it. -/
def Scaled.take? (s : Scaled) (c : Char) : Option Nat :=
  let n := 10 * s.significand + (c.toNat - 48)
  if n < twoTo 64 then some n else none

/-- Digits before the point: from the first one that does not fit on, each one only counts as a place. -/
def takeWhole (s : Scaled) : List Char → Scaled
  | [] => s
  | c :: cs =>
    match s.take? c with
    | some n => takeWhole ⟨n, s.power⟩ cs
    | none => ⟨s.significand, s.power + (cs.length + 1 : Nat)⟩

/-- Digits after the point: from the first one that does not fit on, they are dropped. -/
def takePlaces (s : Scaled) : List Char → Scaled
  | [] => s
  | c :: cs =>
    match s.take? c with
    | some n => takePlaces ⟨n, s.power - 1⟩ cs
    | none => s

/-- The value of the exponent's digits, at most `bound`. -/
def exponentValue (bound : Nat) (ds : List Char) : Nat :=
  ds.foldl (fun n c => min bound (10 * n + (c.toNat - 48))) 0

/-- Divides or multiplies by the power of ten, a power beyond 308 in steps. An infinite result is none. -/
def Scaled.value (f : Binary64) (power : Int) : Option Binary64 :=
  if power < -308 then
    if f.magnitude = 0 then some f else Scaled.value (f.div (Binary64.pow10 308)) (power + 308)
  else if power < 0 then some (f.div (Binary64.pow10 (-power).toNat))
  else if f.magnitude = 0 then some f
  else if 308 < power then none
  else
    let r := f.mul (Binary64.pow10 power.toNat)
    if r.isFinite then some r else none
termination_by (-power).toNat

/-- The double that a decimal is read as, none if it is too large. -/
def toBinary64? (t : DecimalText) : Option Binary64 :=
  let s := takePlaces (takeWhole ⟨0, 0⟩ t.whole) (t.places.getD [])
  let shift : Int :=
    match t.power with
    | none => 0
    | some (minus, ds) =>
      let n := exponentValue 2147483648 ds
      if minus then -(n : Int) else n
  (Scaled.value (Binary64.ofNat s.significand) (s.power + shift)).map fun x => if t.negative then x.neg else x

/-- The whole number as written, none if it has a point or an exponent. -/
def integer? (t : DecimalText) : Option Int :=
  if t.places.isSome || t.power.isSome then none
  else
    let n : Int := t.whole.foldl (fun n c => 10 * n + ((c.toNat - 48 : Nat) : Int)) 0
    some (if t.negative then -n else n)

end DecimalText

end DocStore
