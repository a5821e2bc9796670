import DocStore.Guid
import DocStore.Number.Binary64
import DocStore.Time.Instant

/-!
Typed scalars: the codes of members, the values that are indexed, compared and bound to statements, and which codes
go together.
-/

namespace DocStore

/-- The type of a member, which decides the column of its values and how they compare. -/
inductive TypeCode where
  | string
  | integer
  | fractal
  | bool
  | dateTime
  | guid
deriving DecidableEq, Repr, Inhabited

namespace TypeCode

def name : TypeCode → String
  | string => "String"
  | integer => "Integer"
  | fractal => "Fractal"
  | bool => "Bool"
  | dateTime => "DateTime"
  | guid => "Guid"

def all : List TypeCode := [string, integer, fractal, bool, dateTime, guid]

def ofName? (s : String) : Option TypeCode := all.find? (·.name == s)

def column (c : TypeCode) : String := c.name ++ "Value"

def isNumeric : TypeCode → Bool
  | integer | fractal => true
  | _ => false

/-- Whether values of the codes can be compared. -/
def comparableWith (a b : TypeCode) : Bool := a == b || (a.isNumeric && b.isNumeric)

/-- Whether a literal of a code can stand for a value of the member's: an integer can for a fractal. -/
def accepts (member literal : TypeCode) : Bool := member == literal || (member == fractal && literal == integer)

/-- Whether values of the code have an order of their own. -/
def isOrdered : TypeCode → Bool
  | bool | guid => false
  | _ => true

end TypeCode

/-- A scalar, or none. -/
inductive Value where
  | null
  | string (s : String)
  | integer (n : Int)
  | fractal (x : Binary64)
  | bool (b : Bool)
  | dateTime (i : Instant)
  | guid (g : Guid)
deriving DecidableEq, Repr, Inhabited

namespace Value

def code? : Value → Option TypeCode
  | null => none
  | string _ => some .string
  | integer _ => some .integer
  | fractal _ => some .fractal
  | bool _ => some .bool
  | dateTime _ => some .dateTime
  | guid _ => some .guid

def isNull : Value → Bool
  | null => true
  | _ => false

/-- The name of the value's kind, as messages give it. -/
def kind (v : Value) : String :=
  match v.code? with
  | some c => c.name
  | none => "Null"

end Value

/-- A value bound to a placeholder, under the placeholder's name. -/
structure Parameter where
  name : String
  value : Value
deriving DecidableEq, Repr

end DocStore
