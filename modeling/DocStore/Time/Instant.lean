import DocStore.Text.Decimal
import DocStore.Time.Calendar

/-!
Instants of UTC with nanoseconds. A leap second is second 59 with nanoseconds from one thousand million on. The text
of an instant has as many places as asked for; what is left over is cut off.
-/

namespace DocStore

structure Instant where
  /-- seconds since 1970-01-01T00:00:00Z -/
  second : Int
  nano : Nat
deriving DecidableEq, Repr, Inhabited

namespace Instant

/-- A year of four digits, or with a sign if it lies outside 0 to 9999. -/
def yearText (y : Int) : List Char :=
  if 0 ≤ y && y ≤ 9999 then Text.padded 4 y.toNat
  else (if y < 0 then '-' else '+') :: Text.padded 4 y.natAbs

def wholeText (i : Instant) : List Char :=
  let date := Date.ofDays (i.second / 86400)
  let rest := (i.second % 86400).toNat
  let second := rest % 60 + i.nano / 1000000000
  yearText date.year ++ '-' :: Text.padded 2 date.month ++ '-' :: Text.padded 2 date.day ++
    'T' :: Text.padded 2 (rest / 3600) ++ ':' :: Text.padded 2 (rest / 60 % 60) ++ ':' :: Text.padded 2 second

def subsecond (i : Instant) : Nat := i.nano % 1000000000

/-- The text with microseconds, as it is stored in a column. -/
def columnText (i : Instant) : String :=
  String.ofList (i.wholeText ++ '.' :: Text.padded 6 (i.subsecond / 1000) ++ ['Z'])

/-- The text with the fewest places of 0, 3, 6 and 9 that lose nothing. -/
def text (i : Instant) : String :=
  let n := i.subsecond
  let places :=
    if n = 0 then []
    else if n % 1000000 = 0 then '.' :: Text.padded 3 (n / 1000000)
    else if n % 1000 = 0 then '.' :: Text.padded 6 (n / 1000)
    else '.' :: Text.padded 9 n
  String.ofList (i.wholeText ++ places ++ ['Z'])

def truncated (i : Instant) : Instant := ⟨i.second, i.nano / 1000 * 1000⟩

/-- Earlier in time; a leap second comes after the second it is written as. -/
def earlier (a b : Instant) : Prop := a.second < b.second ∨ (a.second = b.second ∧ a.nano < b.nano)

end Instant

end DocStore
