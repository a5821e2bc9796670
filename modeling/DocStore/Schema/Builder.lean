import DocStore.Schema.Basic
import DocStore.Text.Shown

/-!
Building schemas: declarations are collected first and checked all together at the end, names before members and
members in the order of their declaration.
-/

namespace DocStore

/-- One declaration of a schema under construction. -/
inductive Declaration where
  | member (path : String) (code : TypeCode) (unique enumerable : Bool)
  /-- names the type of the member declared last -/
  | declaredAs (name : String)
  | inNamespace (ns : String)
  | idType (t : IdType)
deriving Repr

/-- A schema under construction. -/
structure SchemaBuilder where
  ns : String
  name : String
  idType : IdType
  members : List Member
deriving Repr

namespace SchemaBuilder

def new (name : String) (idType : IdType) : SchemaBuilder := ⟨"", name, idType, []⟩

/-- Names the type of the last member. -/
def nameLast (name : String) : List Member → List Member
  | [] => []
  | [m] => [{ m with declared := name }]
  | m :: ms => m :: nameLast name ms

def declare (b : SchemaBuilder) : Declaration → SchemaBuilder
  | .member path code unique enumerable =>
    { b with members := b.members ++ [⟨path, code.name, code, unique, enumerable⟩] }
  | .declaredAs name => { b with members := nameLast name b.members }
  | .inNamespace ns => { b with ns := ns }
  | .idType t => { b with idType := t }

def declareAll (b : SchemaBuilder) (ds : List Declaration) : SchemaBuilder := ds.foldl declare b

/-- Why a member path cannot be declared. -/
inductive PathFault where
  | emptySegment (path : String)
  | controlCharacters (path : String)
  | reserved
  | repeated (path : String)

def PathFault.message : PathFault → String
  | .emptySegment path => s!"'{path}' has an empty segment"
  | .controlCharacters path =>
    let shown := Text.shown path
    s!"'{shown}' contains control characters"
  | .reserved => idMember ++ " is reserved for the id column"
  | .repeated path => s!"'{path}' is declared twice"

def segmentsOf : List Char → List (List Char)
  | [] => [[]]
  | c :: cs =>
    if c = '.' then [] :: segmentsOf cs
    else
      match segmentsOf cs with
      | s :: ss => (c :: s) :: ss
      | [] => [[c]]

def segments (path : String) : List String := (segmentsOf path.toList).map String.ofList

/-- What is wrong with a path beside the paths declared before it. -/
def pathFault? (before : List Member) (path : String) : Option PathFault :=
  if (segmentsOf path.toList).any List.isEmpty then some (.emptySegment path)
  else if path.toList.any Text.isControl then some (.controlCharacters path)
  else if path = idMember then some .reserved
  else if before.any (·.path == path) then some (.repeated path)
  else none

/-- Puts a member at its place among members in the order of their paths. -/
def insertSorted (m : Member) : List Member → List Member
  | [] => [m]
  | m' :: ms => if m.path < m'.path then m :: m' :: ms else m' :: insertSorted m ms

/-- The declared members in the order of their paths. -/
def collect (acc : List Member) : List Member → Except PathFault (List Member)
  | [] => .ok acc
  | m :: ms =>
    match pathFault? acc m.path with
    | some f => .error f
    | none => collect (insertSorted m acc) ms

def checkNames (b : SchemaBuilder) : Except ValidationError Unit := do
  validateIdentifier b.name
  if b.ns.isEmpty then pure () else validateIdentifier b.ns

def build (b : SchemaBuilder) : Except ValidationError Schema := do
  b.checkNames
  let members ← (collect [] b.members).mapError fun f => .invalidValue "member_path" f.message
  let key := Key.ofNames b.ns b.name
  pure ⟨key, b.ns, b.name, b.idType, members, Schema.fingerprintOf key b.idType members⟩

end SchemaBuilder

/-- A schema that building can give. -/
def Schema.Builds (s : Schema) : Prop := ∃ b : SchemaBuilder, b.build = .ok s

end DocStore
