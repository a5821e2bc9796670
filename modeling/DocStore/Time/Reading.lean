import DocStore.Number.Powers
import DocStore.Text.Blank
import DocStore.Time.Instant

/-!
Timestamps as text. Three forms are read: RFC 3339, a looser form of it with blanks and short fields, and a timestamp
without an offset, which is taken as UTC.
-/

namespace DocStore

namespace Timestamp

/-- What is read so far is the text less the given rest. -/
abbrev Scan (α : Type) := List Char → Option (α × List Char)

/-- At least `least` and at most `most` digits. -/
def digits? (least : Nat) (most : Option Nat) : Scan Nat := fun cs =>
  let ds := match most with
    | some n => (cs.take n).takeWhile Text.isDigit
    | none => cs.takeWhile Text.isDigit
  if ds.length < least then none else some (Text.digitsValue ds, cs.drop ds.length)

def char? (c : Char) : Scan Unit
  | c' :: cs => if c = c' then some ((), cs) else none
  | [] => none

/-- Nanoseconds after a point, none counting as zero; places after the ninth are dropped. -/
def fraction? : Scan Nat
  | '.' :: cs =>
    let ds := (cs.take 9).takeWhile Text.isDigit
    if ds.isEmpty then none
    else
      let rest := cs.drop ds.length
      some (Text.digitsValue ds * tenTo (9 - ds.length), if ds.length = 9 then rest.dropWhile Text.isDigit else rest)
  | cs => some (0, cs)

/-- The letter or blank between a date and a time. -/
def separator? : Scan Unit
  | c :: cs => if c = 'T' || c = 't' || c = ' ' then some ((), cs) else none
  | [] => none

structure Fields where
  date : Date
  hour : Nat
  minute : Nat
  second : Nat
  nano : Nat

/-- The instant of the fields at an offset in seconds east of UTC. A second 60 is a leap second. -/
def Fields.instant? (f : Fields) (offset : Int) : Option Instant :=
  if !f.date.isValid || 23 < f.hour || 59 < f.minute || 60 < f.second then none
  else if f.date.year < Date.firstYear || Date.lastYear < f.date.year then none
  else
    let ofDay : Int := 3600 * f.hour + 60 * f.minute + (min f.second 59 : Nat)
    let second := f.date.toDays * 86400 + ofDay - offset
    let day := second / 86400
    if day < (Date.mk Date.firstYear 1 1).toDays || (Date.mk Date.lastYear 12 31).toDays < day then none
    else some ⟨second, f.nano + (if f.second = 60 then 1000000000 else 0)⟩

/-- Hours and minutes of an offset after its sign, with what may stand between them. -/
def clock? (between : Scan Unit) : Scan Int := fun cs => do
  let (h, cs) ← digits? 2 (some 2) cs
  let (_, cs) ← between cs
  let (m, cs) ← digits? 2 (some 2) cs
  if 59 < m then none else some ((3600 * h + 60 * m : Nat), cs)

/-- An offset: `Z`, or a sign with hours and minutes. The minus sign may be the typographic one. -/
def offset? (between : Scan Unit) : Scan Int
  | c :: cs =>
    if c = 'Z' || c = 'z' then some (0, cs)
    else if c = '+' then clock? between cs
    else if c = '-' || c = '\u2212' then (clock? between cs).map fun (n, r) => (-n, r)
    else none
  | [] => none

/-! ### RFC 3339 -/

/-- The fields of RFC 3339 before the offset. -/
def strictFields? : Scan Fields := fun cs => do
  let (year, cs) ← digits? 4 (some 4) cs
  let (_, cs) ← char? '-' cs
  let (month, cs) ← digits? 2 (some 2) cs
  let (_, cs) ← char? '-' cs
  let (day, cs) ← digits? 2 (some 2) cs
  let (_, cs) ← separator? cs
  let (hour, cs) ← digits? 2 (some 2) cs
  let (_, cs) ← char? ':' cs
  let (minute, cs) ← digits? 2 (some 2) cs
  let (_, cs) ← char? ':' cs
  let (second, cs) ← digits? 2 (some 2) cs
  let (nano, cs) ← fraction? cs
  some (⟨⟨year, month, day⟩, hour, minute, second, nano⟩, cs)

/-- Reads RFC 3339; offsets reach up to 23:59. -/
def rfc3339? (cs : List Char) : Option Instant := do
  let (fields, cs) ← strictFields? cs
  let (offset, cs) ← offset? (char? ':') cs
  if !cs.isEmpty || 86340 < offset.natAbs then none else fields.instant? offset

/-! ### Loose forms -/

/-- A number of one or two digits, after blanks. -/
def short? : Scan Nat := fun cs => digits? 1 (some 2) (Text.trimStart cs)

def spacedChar? (c : Char) : Scan Unit := fun cs => char? c (Text.trimStart cs)

/-- A year after blanks: up to four digits, or any number of them after a sign. -/
def year? : Scan Int := fun cs =>
  match Text.trimStart cs with
  | '-' :: r => (digits? 1 none r).map fun (n, r) => (-(n : Int), r)
  | '+' :: r => (digits? 1 none r).map fun (n, r) => ((n : Int), r)
  | r => (digits? 1 (some 4) r).map fun (n, r) => ((n : Int), r)

def looseDate? : Scan Date := fun cs => do
  let (year, cs) ← year? cs
  let (_, cs) ← spacedChar? '-' cs
  let (month, cs) ← short? cs
  let (_, cs) ← spacedChar? '-' cs
  let (day, cs) ← short? cs
  some (⟨year, month, day⟩, cs)

/-- A time of day of a loose form and the blanks after it. -/
def looseTime? (date : Date) : Scan Fields := fun cs => do
  let (hour, cs) ← short? cs
  let (_, cs) ← spacedChar? ':' cs
  let (minute, cs) ← short? cs
  let (_, cs) ← spacedChar? ':' cs
  let (second, cs) ← short? cs
  let (nano, cs) ← fraction? cs
  some (⟨date, hour, minute, second, nano⟩, Text.trimStart cs)

/-- Reads a timestamp without an offset, with a `T` between date and time. -/
def naive? (cs : List Char) : Option Instant := do
  let (date, cs) ← looseDate? cs
  let (_, cs) ← spacedChar? 'T' cs
  let (fields, cs) ← looseTime? date cs
  if cs.isEmpty then fields.instant? 0 else none

def colons? : Scan Unit := fun cs => some ((), cs.dropWhile fun c => c = ':' || Text.isBlank c)

/-- Reads the looser form of RFC 3339. -/
def loose? (cs : List Char) : Option Instant := do
  let (date, cs) ← looseDate? cs
  let (_, cs) ← separator? cs
  let (fields, cs) ← looseTime? date cs
  let (offset, cs) ←
    if (cs.take 3).map Char.toLower == ['u', 't', 'c'] then some ((0 : Int), cs.drop 3) else offset? colons? cs
  if !(Text.trimStart cs).isEmpty || 86400 ≤ offset.natAbs then none else fields.instant? offset

end Timestamp

/-- Reads the timestamp of a document: RFC 3339, or else without an offset. -/
def Instant.ofDocument? (s : String) : Option Instant :=
  match Timestamp.rfc3339? s.toList with
  | some i => some i
  | none => Timestamp.naive? s.toList

/-- Reads a timestamp that was sent on its own. -/
def Instant.ofMessage? (s : String) : Option Instant := Timestamp.loose? s.toList

end DocStore
