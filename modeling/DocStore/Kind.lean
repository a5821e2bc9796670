import DocStore.Payload
import DocStore.Schema.Registry

/-!
Structure types: what a type says of itself, and structures as a session is given them and reads them.
-/

namespace DocStore

/-- A structure: what serializing it gives or why that fails, and its id if it has one already. -/
structure Item where
  serialized : Except String Json
  id? : Option DocId
deriving Repr, Inhabited

namespace Item

/-- The document of a structure; null if it cannot be serialized. -/
def document (i : Item) : Json :=
  match i.serialized with
  | .ok v => v
  | .error _ => .null

/-- The document of a structure as it is written, without the members that are left out. -/
def written (excluded : List String) (i : Item) : Except SerializationError Json :=
  match i.serialized with
  | .ok v => .ok (Payload.strip excluded v)
  | .error reason => .error (.serialize reason)

/-- The text of a structure without the members that are left out. -/
def text (excluded : List String) (i : Item) : Except SerializationError String := (i.written excluded).map Json.text

end Item

structure Kind where
  ns : String
  name : String
  idType : IdType
  /-- adds what the type says of itself to a schema under construction, or puts another one in its place -/
  describe : SchemaBuilder → SchemaBuilder
  /-- reads a structure from its payload -/
  read? : String → Option Item

namespace Kind

def key (k : Kind) : Key := Key.ofNames k.ns k.name

/-- The schema under construction that the type leaves, given one under its own names. -/
def described (k : Kind) : SchemaBuilder := k.describe ((SchemaBuilder.new k.name k.idType).declare (.inNamespace k.ns))

/-- Builds the schema of the type as it describes itself now. -/
def schema (k : Kind) : Except ValidationError Schema := k.described.build

/-- Reads a structure from its payload, or tells that it is none. -/
def read (k : Kind) (text : String) : Except SerializationError Item :=
  match k.read? text with
  | some i => .ok i
  | none => .error (.deserialize "the payload does not have the shape of the type")

end Kind

end DocStore
