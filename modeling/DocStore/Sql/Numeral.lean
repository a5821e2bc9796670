import DocStore.Number.Extended
import DocStore.Number.Reading
import DocStore.Text.Case
import DocStore.Text.Decimal

/-!
Numerals of the engine. A text is a numeral if it is a decimal number with nothing but white space around it; its
double comes of at most twenty digits, by products of 64 bits.
-/

namespace DocStore.Sql.Numeral

open DecimalText (Scaled)

/-! ### Shape -/

/-- A sign before a number: whether it is a minus, and the rest. -/
def signOf : List Char → Bool × List Char
  | '-' :: cs => (true, cs)
  | '+' :: cs => (false, cs)
  | cs => (false, cs)

/-- The exponent after a significand, none if it is no exponent. -/
def exponentOf? : List Char → Option (Option (Bool × List Char))
  | [] => some none
  | c :: cs =>
    if c.toLower = 'e' then
      let (minus, ds) := signOf cs
      if ds.isEmpty || !ds.all Text.isDigit then none else some (some (minus, ds))
    else none

/-- Reads a number: a sign, digits that may have a point among them or at an end, and an exponent. -/
def decimalOf? (cs : List Char) : Option DecimalText :=
  let (negative, cs) := signOf cs
  let whole := cs.takeWhile Text.isDigit
  let (places, cs) :=
    match cs.dropWhile Text.isDigit with
    | '.' :: cs => (some (cs.takeWhile Text.isDigit), cs.dropWhile Text.isDigit)
    | cs => (none, cs)
  if whole.isEmpty && (places.getD []).isEmpty then none
  else (exponentOf? cs).map fun power => ⟨negative, whole, places, power⟩

def isSpace (c : Char) : Bool := c = ' ' || (9 ≤ c.toNat && c.toNat ≤ 13)

def ofText? (s : String) : Option DecimalText :=
  decimalOf? ((s.toList.dropWhile isSpace).reverse.dropWhile isSpace).reverse

/-! ### Value -/

/-- A significand takes no further digit from here on. -/
def full : Nat := (twoTo 64 - 10) / 10

/-- Digits before the point: once the significand is full, each one only counts as a place. -/
def takeWhole (s : Scaled) : List Char → Scaled
  | [] => s
  | c :: cs =>
    if full ≤ s.significand then ⟨s.significand, s.power + (cs.length + 1 : Nat)⟩
    else takeWhole ⟨10 * s.significand + (c.toNat - 48), s.power⟩ cs

/-- Digits after the point: once the significand is full, they are dropped. -/
def takePlaces (s : Scaled) : List Char → Scaled
  | [] => s
  | c :: cs =>
    if full ≤ s.significand then s else takePlaces ⟨10 * s.significand + (c.toNat - 48), s.power - 1⟩ cs

/-- The value of the exponent's digits; a row of them that goes on after ten thousand is ten thousand. -/
def exponentValue (ds : List Char) : Nat :=
  ds.foldl (fun n c => if n < 10000 then 10 * n + (c.toNat - 48) else 10000) 0

/-- Moves places of a power of ten into a significand that has room for them. -/
def fill (significand : Nat) : Nat → Scaled
  | 0 => ⟨significand, 0⟩
  | n + 1 =>
    if significand < (twoTo 64 - 1) / 10 then fill (10 * significand) n else ⟨significand, (n + 1 : Nat)⟩

/-- Drops zeros at the end of a significand that only undo places of a negative power. -/
def strip (significand : Nat) : Nat → Scaled
  | 0 => ⟨significand, 0⟩
  | n + 1 => if significand % 10 = 0 then strip (significand / 10) n else ⟨significand, -((n + 1 : Nat) : Int)⟩

/-- The significand and the power of ten that a numeral comes down to. -/
def scaled (t : DecimalText) : Scaled :=
  let s := takePlaces (takeWhole ⟨0, 0⟩ t.whole) (t.places.getD [])
  let shift : Int :=
    match t.power with
    | none => 0
    | some (minus, ds) => if minus then -(exponentValue ds : Int) else exponentValue ds
  let power := s.power + shift
  if power < 0 then strip s.significand (-power).toNat else fill s.significand power.toNat

/-- The double of a numeral, infinity if it is too large. -/
def real (t : DecimalText) : Binary64 :=
  let s := scaled t
  let x := ((Extended.ofNat s.significand).scaleTen s.power).toBinary64
  if t.negative then x.neg else x

end DocStore.Sql.Numeral
