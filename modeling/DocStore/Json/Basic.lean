import DocStore.Number.Shortest
import DocStore.Text.Hex

/-!
JSON values and their text. The members of an object stand in the order of the list; a document's objects are kept
sorted by key, without repetitions.
-/

namespace DocStore

/-- A number of a document: an integer of 64 bits, signed or not, or a double. -/
inductive Json.Number where
  | integer (n : Int)
  | double (x : Binary64)
deriving DecidableEq, Repr

inductive Json where
  | null
  | bool (b : Bool)
  | number (n : Json.Number)
  | string (s : String)
  | array (items : List Json)
  | object (members : List (String × Json))
deriving Repr, Inhabited

namespace Json

def integer (n : Int) : Json := .number (.integer n)

/-- Gives a key a value among members sorted by key, replacing the value it has. -/
def insertMember (k : String) (v : Json) : List (String × Json) → List (String × Json)
  | [] => [(k, v)]
  | (k', v') :: ms =>
    if k < k' then (k, v) :: (k', v') :: ms
    else if k = k' then (k, v) :: ms
    else (k', v') :: insertMember k v ms

/-- The members sorted by key; of repeated keys the last one counts. -/
def sortedMembers (ms : List (String × Json)) : List (String × Json) :=
  ms.foldl (fun acc (k, v) => insertMember k v acc) []

def member? (k : String) : Json → Option Json
  | .object ms => (ms.find? (·.1 == k)).map (·.2)
  | _ => none

/-- The integer of a number that is a signed 64-bit one. -/
def int64? : Json → Option Int
  | .number (.integer n) => if Text.isInt64 n then some n else none
  | _ => none

/-- The number as a double; integers are rounded to the nearest one. -/
def double? : Json → Option Binary64
  | .number (.integer n) => some (Binary64.ofInt n)
  | .number (.double x) => some x
  | _ => none

def string? : Json → Option String
  | .string s => some s
  | _ => none

def bool? : Json → Option Bool
  | .bool b => some b
  | _ => none

def isObject : Json → Bool
  | .object _ => true
  | _ => false

/-! ### Text -/

/-- One character of a quoted text: quotes, backslashes and controls are escaped. -/
def quotedChar (c : Char) : List Char :=
  if c = '"' then ['\\', '"']
  else if c = '\\' then ['\\', '\\']
  else if c = '\n' then ['\\', 'n']
  else if c = '\r' then ['\\', 'r']
  else if c = '\t' then ['\\', 't']
  else if c = '\x08' then ['\\', 'b']
  else if c = '\x0c' then ['\\', 'f']
  else if c.toNat < 0x20 then ['\\', 'u'] ++ Text.hexDigits 4 c.toNat
  else [c]

def quoted (s : String) : String := String.ofList ('"' :: (s.toList.flatMap quotedChar ++ ['"']))

/-- A double that is not finite has no JSON text of its own and is written as null. -/
def Number.text : Number → String
  | .integer n => String.ofList (Text.integerText n)
  | .double x => if x.isFinite then String.ofList x.text else "null"

mutual

def text : Json → String
  | .null => "null"
  | .bool b => if b then "true" else "false"
  | .number n => n.text
  | .string s => quoted s
  | .array items => "[" ++ itemsText items ++ "]"
  | .object members => "\x7b" ++ membersText members ++ "\x7d"

def itemsText : List Json → String
  | [] => ""
  | [v] => v.text
  | v :: vs => v.text ++ "," ++ itemsText vs

def membersText : List (String × Json) → String
  | [] => ""
  | [(k, v)] => quoted k ++ ":" ++ v.text
  | (k, v) :: ms => quoted k ++ ":" ++ v.text ++ "," ++ membersText ms

end

end Json

end DocStore
