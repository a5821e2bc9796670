import DocStore.Number.Powers
import DocStore.Text.Case
import DocStore.Text.Hex

/-!
GUIDs: 128-bit identifiers, ordered as numbers. Their text is 32 lower-case hexadecimal digits in five groups, so the
order of texts is the order of the numbers.
-/

namespace DocStore

structure Guid where
  value : BitVec 128
deriving DecidableEq, Repr, Inhabited

namespace Guid

def isNil (g : Guid) : Bool := g.value == 0

/-- The digit that tells how a GUID was made; those that are handed out here have 7. -/
def version (g : Guid) : Nat := g.value.toNat / twoTo 76 % 16

instance : Ord Guid := ⟨fun a b => compare a.value.toNat b.value.toNat⟩

def groups : List Nat := [8, 4, 4, 4, 12]

/-- Digits in groups with hyphens between them. -/
def hyphenated : List Nat → List Char → List Char
  | [], _ => []
  | [n], cs => cs.take n
  | n :: ns, cs => cs.take n ++ '-' :: hyphenated ns (cs.drop n)

def text (g : Guid) : String := String.ofList (hyphenated groups (Text.hexDigits 32 g.value.toNat))

/-- The number of 32 hexadecimal digits. -/
def ofDigits? (cs : List Char) : Option Guid :=
  if cs.length = 32 then (Text.hexNumber? cs).map fun n => ⟨BitVec.ofNat 128 n⟩ else none

/-- Reads digits in groups with hyphens between them. -/
def ofHyphenated? (cs : List Char) : Option Guid :=
  let digits := cs.filter (· != '-')
  if cs == hyphenated groups digits then ofDigits? digits else none

/-- Reads a GUID: bare digits, digits in groups, or digits in groups within braces or after `urn:uuid:`. -/
def ofText? (s : String) : Option Guid :=
  let cs := s.toList
  if cs.length = 32 then ofDigits? cs
  else if cs.head? == some '\x7b' && cs.getLast? == some '\x7d' then ofHyphenated? cs.tail.dropLast
  else if "urn:uuid:".toList == Text.foldCase (cs.take 9) then ofHyphenated? (cs.drop 9)
  else ofHyphenated? cs

/-- The GUIDs handed out one after the other, in ascending order: version 7, the position as the time stamp. -/
def inSequence (n : Nat) : Guid :=
  let stamp := 0x019000000000 + n
  ⟨BitVec.ofNat 128 (stamp * twoTo 80 + 7 * twoTo 76 + 2 * twoTo 62)⟩

end Guid

end DocStore
