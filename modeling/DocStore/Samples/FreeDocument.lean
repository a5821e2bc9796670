import DocStore.Kind

/-!
Types that hold any JSON document, one per id type. What they declare of their members can change; a structure's id is
the member of that name, if it is a number or a string.
-/

namespace DocStore.Samples.FreeDocument

/-- The id that a document carries. Where GUIDs are used, a string that reads as one is a GUID. -/
def id? (guids : Bool) (v : Json) : Option DocId :=
  match v.member? idMember with
  | some (.number n) => ((Json.number n).int64?).map .bigIdentity
  | some (.string s) =>
    match if guids then Guid.ofText? s else none with
    | some g => some (.guid g)
    | none => some (.string s)
  | _ => none

/-- The type of a name, with what it declares now. -/
def kind (ns name : String) (idType : IdType) (declarations : List Declaration) : Kind :=
  { ns, name, idType
    describe := (·.declareAll declarations)
    read? := fun s => (Json.ofText? s).map fun v => ⟨.ok v, id? (idType == .guid) v⟩ }

end DocStore.Samples.FreeDocument
