import DocStore.Error
import DocStore.Json.Basic
import DocStore.Text.Blank
import DocStore.Value

/-!
Ids of structures: the four id types, ids as callers give them, and their conversion. An id that conversion accepts
from outside is valid: identities are positive, GUIDs not nil, strings not blank.
-/

namespace DocStore

/-- How the structures of a type are identified. -/
inductive IdType where
  | identity
  | bigIdentity
  | guid
  | string
deriving DecidableEq, Repr, Inhabited

namespace IdType

def name : IdType → String
  | identity => "Identity"
  | bigIdentity => "BigIdentity"
  | guid => "Guid"
  | string => "String"

def all : List IdType := [identity, bigIdentity, guid, string]

def ofName? (s : String) : Option IdType := all.find? (·.name == s)

/-- Identities are numbers that the store counts up. -/
def isIdentity : IdType → Bool
  | identity | bigIdentity => true
  | _ => false

end IdType

/-- The id of a structure. -/
inductive DocId where
  | identity (n : Int)
  | bigIdentity (n : Int)
  | guid (g : Guid)
  | string (s : String)
deriving DecidableEq, Repr, Inhabited

namespace DocId

def idType : DocId → IdType
  | identity _ => .identity
  | bigIdentity _ => .bigIdentity
  | guid _ => .guid
  | string _ => .string

/-- The text of an id in messages. -/
def text : DocId → String
  | identity n | bigIdentity n => String.ofList (Text.integerText n)
  | guid g => g.text
  | string s => s

/-- The id as a value bound to a statement. -/
def toValue : DocId → Value
  | identity n | bigIdentity n => .integer n
  | guid g => .guid g
  | string s => .string s

/-- The id as a member of a document. -/
def toJson : DocId → Json
  | identity n | bigIdentity n => .integer n
  | guid g => .string g.text
  | string s => .string s

/-- The place of an id's type among the id types. -/
def rank : DocId → Nat
  | identity _ => 0
  | bigIdentity _ => 1
  | guid _ => 2
  | string _ => 3

/-- Ids of one type compare by what they hold; identities come before big ones, then GUIDs, then strings. -/
protected def compare : DocId → DocId → Ordering
  | identity a, identity b | bigIdentity a, bigIdentity b => Ord.compare a b
  | guid a, guid b => Ord.compare a b
  | string a, string b => Ord.compare a b
  | a, b => Ord.compare a.rank b.rank

instance : Ord DocId := ⟨DocId.compare⟩

end DocId

/-- An id as a caller gives it. -/
inductive RawId where
  | int (n : Int)
  | guid (g : Guid)
  | text (s : String)
  | json (v : Json)
  | id (i : DocId)

namespace DocId

/-- Why an id cannot be used. -/
inductive Fault where
  | outOfRange (n : Int)
  | notPositive (n : Int)
  | notInteger (shown : String)
  | notGuid (text : String)
  | nilGuid
  | blank
  | integerRefused (n : Int)
  | guidRefused (g : Guid)
  | otherType (given wanted : IdType)
  | unsupportedJson (v : Json)

def Fault.message : Fault → String
  | .outOfRange n => String.ofList (Text.integerText n) ++ " is out of range"
  | .notPositive n => String.ofList (Text.integerText n) ++ " is not positive"
  | .notInteger shown => shown ++ " is not an integer"
  | .notGuid text => s!"'{text}' is not a GUID"
  | .nilGuid => "nil GUID"
  | .blank => "blank string"
  | .integerRefused n => "integer " ++ String.ofList (Text.integerText n) ++ " cannot be used"
  | .guidRefused g => "GUID " ++ g.text ++ " cannot be used"
  | .otherType given wanted => given.name ++ " id cannot be used as " ++ wanted.name ++ " id"
  | .unsupportedJson v => "unsupported JSON id " ++ v.text

def ofInt (n : Int) : IdType → Except Fault DocId
  | .identity =>
    if !Text.isInt32 n then .error (.outOfRange n)
    else if n ≤ 0 then .error (.notPositive n)
    else .ok (identity n)
  | .bigIdentity => if n ≤ 0 then .error (.notPositive n) else .ok (bigIdentity n)
  | .guid | .string => .error (.integerRefused n)

def ofGuid (g : Guid) : IdType → Except Fault DocId
  | .guid => if g.isNil then .error .nilGuid else .ok (guid g)
  | .identity | .bigIdentity | .string => .error (.guidRefused g)

/-- A text as an id. White space around a number or a GUID does not count; a string is kept as it is. -/
def ofString (s : String) : IdType → Except Fault DocId
  | .string => if Text.isBlankText s then .error .blank else .ok (string s)
  | .guid =>
    match Guid.ofText? (String.ofList (Text.trim s.toList)) with
    | some g => ofGuid g .guid
    | none => .error (.notGuid s)
  | t =>
    match Text.int64? (Text.trim s.toList) with
    | some n => ofInt n t
    | none => .error (.notInteger s!"'{s}'")

def ofJson (v : Json) (t : IdType) : Except Fault DocId :=
  match v with
  | .number n =>
    match v.int64? with
    | some i => ofInt i t
    | none => .error (.notInteger n.text)
  | .string s => ofString s t
  | _ => .error (.unsupportedJson v)

/-- An id as an id of a type: itself if it has the type, and identities of the two sizes as far as they fit. -/
def ofId : DocId → IdType → Except Fault DocId
  | i@(identity n), t =>
    match t with
    | .identity => .ok i
    | .bigIdentity => .ok (bigIdentity n)
    | _ => .error (.otherType .identity t)
  | i@(bigIdentity n), t =>
    match t with
    | .bigIdentity => .ok i
    | .identity => ofInt n .identity
    | _ => .error (.otherType .bigIdentity t)
  | i, t => if i.idType = t then .ok i else .error (.otherType i.idType t)

/-- Converts an id to an id type, or tells why it cannot be used. -/
def convert? (raw : RawId) (t : IdType) : Except Fault DocId :=
  match raw with
  | .int n => ofInt n t
  | .guid g => ofGuid g t
  | .text s => ofString s t
  | .json v => ofJson v t
  | .id i => ofId i t

def convert (raw : RawId) (t : IdType) : Except ValidationError DocId :=
  (convert? raw t).mapError fun f => .invalidId t.name f.message

/-- An id that callers can be given: positive and within its size, not nil, not blank. -/
def IsValid : DocId → Prop
  | identity n => 0 < n ∧ n ≤ 2147483647
  | bigIdentity n => 0 < n ∧ n ≤ Text.maxInt64
  | guid g => ¬g.isNil
  | string s => ¬Text.isBlankText s

end DocId

end DocStore
