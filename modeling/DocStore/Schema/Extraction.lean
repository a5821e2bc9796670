import DocStore.Schema.Builder
import DocStore.Time.Reading

/-!
Index rows of a document: the scalars that the member paths lead to, as typed values. A path leads through the members
of objects and into every element of the arrays on its way; nulls and missing members yield nothing.
-/

namespace DocStore

/-- A value of a document under the path of its member. -/
structure IndexEntry where
  path : String
  code : TypeCode
  value : Value
deriving DecidableEq, Repr

namespace Extraction

mutual

/-- The scalars of a value at the end of a path, in document order. -/
def scalars : Json → List String → List Json
  | .null, _ => []
  | .array items, ss => scalarsOfItems items ss
  | .object ms, ss => scalarsOfMember ms ss
  | v, ss => if ss.isEmpty then [v] else []

def scalarsOfItems : List Json → List String → List Json
  | [], _ => []
  | v :: vs, ss => scalars v ss ++ scalarsOfItems vs ss

/-- Follows the first name of the path into the member that has it. -/
def scalarsOfMember : List (String × Json) → List String → List Json
  | [], _ => []
  | (k, v) :: ms, ss =>
    match ss with
    | [] => []
    | s :: rest => if k == s then scalars v rest else scalarsOfMember ms ss

end

/-- A scalar as a value of a code. -/
def convert? (code : TypeCode) (v : Json) : Option Value :=
  match code with
  | .string => v.string?.map .string
  | .integer => v.int64?.map .integer
  | .fractal => v.double?.map .fractal
  | .bool => v.bool?.map .bool
  | .dateTime => (v.string?.bind Instant.ofDocument?).map .dateTime
  | .guid => (v.string?.bind Guid.ofText?).map .guid

/-- The entries of scalars of one member, none of which may have another type. -/
def entriesOf (m : Member) : List Json → Except ValidationError (List IndexEntry)
  | [] => .ok []
  | v :: vs =>
    match convert? m.code v with
    | none => .error (.invalidValue m.path (v.text ++ " is not a " ++ m.code.name ++ " value"))
    | some x => (entriesOf m vs).map (⟨m.path, m.code, x⟩ :: ·)

def entries (doc : Json) : List Member → Except ValidationError (List IndexEntry)
  | [] => .ok []
  | m :: ms =>
    match entriesOf m (scalars doc (SchemaBuilder.segments m.path)) with
    | .error e => .error e
    | .ok es => (entries doc ms).map (es ++ ·)

end Extraction

/-- The index entries of a document: member by member in the order of the paths. -/
def Schema.extract (s : Schema) (doc : Json) : Except ValidationError (List IndexEntry) :=
  Extraction.entries doc s.members

end DocStore
