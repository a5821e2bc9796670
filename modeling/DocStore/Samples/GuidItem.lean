import DocStore.Kind
import DocStore.Message.Decoder

/-! A sample type with GUIDs: a number and a truth value. -/

namespace DocStore.Samples

open Message Decoder

structure GuidItem where
  id? : Option Guid
  value : Int
  active : Bool
deriving Repr

namespace GuidItem

/-- The document of an item; an id it does not have is left out. -/
def document (i : GuidItem) : Json :=
  .object (Json.sortedMembers
    ((i.id?.map fun g => (idMember, Json.string g.text)).toList ++
      [("Value", .integer i.value), ("Active", .bool i.active)]))

def decoder : Decoder GuidItem := fun d t =>
  match fields [idMember, "Value", "Active"] d t with
  | some ([id, value, active], d) => do
    pure ⟨← defaulted none (nullable guid) d id, ← required int64 d value, ← defaulted false bool d active⟩
  | _ => none

def toItem (i : GuidItem) : Item := ⟨.ok i.document, i.id?.map .guid⟩

def kind : Kind :=
  { ns := ""
    name := "GuidItem"
    idType := .guid
    describe := (·.declareAll [.member "Value" .integer false false, .member "Active" .bool false false])
    read? := fun s => (decoder.ofText? s).map toItem }

end GuidItem

end DocStore.Samples
