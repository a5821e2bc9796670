import DocStore.Number.Binary64
import DocStore.Text.Decimal

/-!
The text of a double: the fewest decimal digits that read back as the same number, of those the nearest to it.
A number is written positionally if the exponent of its leading digit is at least -5 and below 16, and otherwise in
scientific form with a signed exponent.
-/

namespace DocStore.Binary64

/-- The fraction `num / den` that a magnitude stands for, and the two halves of the gaps to its neighbours: a fraction
    reads back as the number if it lies between `low` and `high`, which count as inside iff `closed`. -/
structure Interval where
  value : Nat
  low : Nat
  high : Nat
  den : Nat
  closed : Bool

/-- The numbers that round to the magnitude, all over one denominator. -/
def interval (x : Binary64) : Interval :=
  let gap := if x.exponent ≤ 1 then 1 else twoTo (x.exponent - 1)
  -- below a power of two the doubles stand twice as close
  let lowGap := if x.fraction = 0 && 1 < x.exponent then gap / 2 else gap
  ⟨4 * x.magnitude, 4 * x.magnitude - 2 * lowGap, 4 * x.magnitude + 2 * gap, 4 * twoTo 1074, x.fraction % 2 == 0⟩

/-- Whether `digits · 10^power` reads back as the number. -/
def Interval.holds (i : Interval) (digits : Nat) (power : Int) : Bool :=
  let (n, d) := if 0 ≤ power then (digits * tenTo power.toNat * i.den, 1) else (digits * i.den, tenTo (-power).toNat)
  if i.closed then i.low * d ≤ n && n ≤ i.high * d else i.low * d < n && n < i.high * d

/-- The exponent of the leading decimal digit of `num / den`. -/
def decimalExponent (num den : Nat) : Int :=
  if den ≤ num then ((Text.decimal (num / den)).length : Int) - 1
  -- `10^k · num / den` is at least one for the least such `k`
  else -((Text.decimal ((den - 1) / num)).length : Int)

/-- The decimals `digits · 10^power` that stand next to the number on the grid of `10^power`. -/
def Interval.neighbours (i : Interval) (power : Int) : Nat × Bool × Bool :=
  let (n, d) := if 0 ≤ power then (i.value, i.den * tenTo power.toNat) else (i.value * tenTo (-power).toNat, i.den)
  let q := n / d
  -- which of the two is nearer: the lower one, and whether both are equally near
  (q, 2 * (n % d) < d, 2 * (n % d) == d)

/-- The digits chosen on one grid, if one of the two neighbours reads back. -/
def Interval.onGrid (i : Interval) (power : Int) : Option Nat :=
  let (q, lower, tie) := i.neighbours power
  let first := if lower || (tie && q % 2 == 0) then q else q + 1
  let second := if first = q then q + 1 else q
  if 0 < first && i.holds first power then some first
  else if 0 < second && i.holds second power then some second
  else none

/-- The first grid, from the coarsest one on, with a decimal that reads back. -/
def Interval.shortest (i : Interval) (top : Int) : Nat → Nat × Int
  | 0 => (i.value * tenTo (16 - top).toNat / (i.den * tenTo (top - 16).toNat), top - 16)
  | left + 1 =>
    let power := top - (16 - (left : Int))
    match i.onGrid power with
    | some digits => (digits, power)
    | none => i.shortest top left

/-- The digits of the shortest decimal of a positive finite double, without zeros at the end, and the exponent of the
    leading one. -/
def shortest (x : Binary64) : List Char × Int :=
  let i := x.interval
  let (digits, power) := i.shortest (decimalExponent i.value i.den) 17
  let text := Text.decimal digits
  ((text.reverse.dropWhile (· == '0')).reverse, power + ((text.length : Int) - 1))

/-- Digits with a point after the first `whole` of them, filled up with zeros where they run out. -/
def positional (digits : List Char) (exponent : Int) : List Char :=
  if exponent < 0 then '0' :: '.' :: (List.replicate (-exponent - 1).toNat '0' ++ digits)
  else
    let whole := exponent.toNat + 1
    let rest := digits.drop whole
    digits.take whole ++ List.replicate (whole - digits.length) '0' ++ '.' :: (if rest.isEmpty then ['0'] else rest)

/-- Digits with a point after the first one and a signed exponent. -/
def scientific (digits : List Char) (exponent : Int) : List Char :=
  digits.take 1 ++ (if digits.length ≤ 1 then [] else '.' :: digits.drop 1) ++
    'e' :: (if exponent < 0 then '-' else '+') :: Text.decimal exponent.natAbs

def text (x : Binary64) : List Char :=
  let body :=
    if x.magnitude = 0 then ['0', '.', '0']
    else
      let (digits, exponent) := x.shortest
      if -5 ≤ exponent && exponent < 16 then positional digits exponent else scientific digits exponent
  if x.negative then '-' :: body else body

end DocStore.Binary64
