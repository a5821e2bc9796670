import DocStore.Kind
import DocStore.Message.Decoder

/-! A sample type in a namespace, with strings as ids and a unique value. -/

namespace DocStore.Samples

open Message Decoder

structure StringItem where
  id : String
  value : String
deriving Repr

namespace StringItem

def document (i : StringItem) : Json :=
  .object (Json.sortedMembers [(idMember, .string i.id), ("Value", .string i.value)])

def decoder : Decoder StringItem := fun d t =>
  match fields [idMember, "Value"] d t with
  | some ([id, value], d) => do pure ⟨← required string d id, ← required string d value⟩
  | _ => none

def toItem (i : StringItem) : Item := ⟨.ok i.document, some (.string i.id)⟩

def kind : Kind :=
  { ns := "catalog"
    name := "StringItem"
    idType := .string
    describe := (·.declareAll [.member "Value" .string true false])
    read? := fun s => (decoder.ofText? s).map toItem }

end StringItem

end DocStore.Samples
