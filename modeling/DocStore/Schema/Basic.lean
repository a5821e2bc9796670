import DocStore.DocId
import DocStore.Schema.Name
import DocStore.Sha256
import DocStore.Text.Utf8

/-!
Schemas: what is known of a structure type. A schema names its key, its id type and its members, from which its tables
and its fingerprint follow.
-/

namespace DocStore

/-- A member that can be queried. -/
structure Member where
  /-- the names on the way to the member, joined by dots -/
  path : String
  /-- the name its type was declared with, for information only -/
  declared : String
  code : TypeCode
  /-- no two index rows of the member hold the same value -/
  unique : Bool
  /-- a structure may have several values for the member -/
  enumerable : Bool
deriving DecidableEq, Repr, Inhabited

structure Schema where
  key : Key
  ns : String
  name : String
  idType : IdType
  /-- in the order of their paths -/
  members : List Member
  fingerprint : String
deriving DecidableEq, Repr, Inhabited

/-- The member of every structure that holds its id. -/
def idMember : String := "StructureId"

namespace Schema

/-- What the names of both tables begin with. -/
def stem (s : Schema) : String := if s.ns.isEmpty then s.name else s.ns ++ "_" ++ s.name

/-- The table of payloads under a stem. -/
def structureTableOf (stem : String) : String := stem ++ "Structure"

/-- The table of index rows under a stem. -/
def indexesTableOf (stem : String) : String := stem ++ "Indexes"

def structureTable (s : Schema) : String := structureTableOf s.stem

def indexesTable (s : Schema) : String := indexesTableOf s.stem

def member? (s : Schema) (path : String) : Option Member := s.members.find? (·.path == path)

/-- The member of a path, which must be declared. -/
def requireMember (s : Schema) (path : String) : Except QueryError Member :=
  match s.member? path with
  | some m => .ok m
  | none => .error (.unknownMember s.key.text path)

/-! ### Fingerprints -/

/-- What the shape of a member contributes to the fingerprint. -/
def memberImage (m : Member) : List UInt8 :=
  0 :: Text.utf8 m.path ++ 0 :: Text.utf8 m.code.name ++ [if m.unique then 1 else 0, if m.enumerable then 1 else 0]

/-- The bytes that stand for a shape: key, id type and members. -/
def shapeImage (key : Key) (idType : IdType) (members : List Member) : List UInt8 :=
  Text.utf8 key.text ++ 0 :: Text.utf8 idType.name ++ members.flatMap memberImage

def fingerprintOf (key : Key) (idType : IdType) (members : List Member) : String :=
  Sha256.hex (shapeImage key idType members)

end Schema

end DocStore
