import DocStore.Text.Hex
import DocStore.Text.Ranges

/-!
A text shown inside a message: characters that would not be seen, or that would end a quotation, are written as
escapes.
-/

namespace DocStore.Text

/-- The control characters of the category `Cc`. -/
def isControl (c : Char) : Bool := c.toNat < 0x20 || (0x7F ≤ c.toNat && c.toNat < 0xA0)

/-- One character as shown; a mark at the start of a text has nothing to join and is escaped as well. -/
def shownChar (atStart : Bool) (c : Char) : List Char :=
  if c = '\x00' then ['\\', '0']
  else if c = '\t' then ['\\', 't']
  else if c = '\r' then ['\\', 'r']
  else if c = '\n' then ['\\', 'n']
  else if c = '\\' || c = '"' || c = '\'' then ['\\', c]
  else if within unseen c || (atStart && within joining c) then
    ['\\', 'u', '\x7b'] ++ hexadecimal c.toNat ++ ['\x7d']
  else [c]

def shown (s : String) : String :=
  match s.toList with
  | [] => ""
  | c :: cs => String.ofList (shownChar true c ++ cs.flatMap (shownChar false))

end DocStore.Text
