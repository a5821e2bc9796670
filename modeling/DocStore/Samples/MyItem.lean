import DocStore.Kind
import DocStore.Message.Decoder

/-! A sample type with identities: numbers, texts, tags and a timestamp. -/

namespace DocStore.Samples

open Message Decoder

structure MyItem where
  id? : Option Int
  int1 : Int
  int2 : Int
  name : String
  score : Binary64
  tags : List String
  createdAt : Option Instant
deriving Repr

namespace MyItem

/-- The document of an item; an id or a timestamp it does not have is left out. -/
def document (i : MyItem) : Json :=
  .object (Json.sortedMembers
    ((i.id?.map fun n => (idMember, Json.integer n)).toList ++
      [("Int1", .integer i.int1), ("Int2", .integer i.int2), ("Name", .string i.name),
        ("Score", .number (.double i.score)), ("Tags", .array (i.tags.map .string))] ++
      (i.createdAt.map fun t => ("CreatedAt", Json.string t.text)).toList))

def decoder : Decoder MyItem := fun d t =>
  match fields [idMember, "Int1", "Int2", "Name", "Score", "Tags", "CreatedAt"] d t with
  | some ([id, int1, int2, name, score, tags, createdAt], d) => do
    pure ⟨← defaulted none (nullable int32) d id, ← required int64 d int1, ← required int64 d int2,
      ← required string d name, ← required double d score, ← defaulted [] (list string) d tags,
      ← defaulted none (nullable instant) d createdAt⟩
  | _ => none

def toItem (i : MyItem) : Item := ⟨.ok i.document, i.id?.map .identity⟩

def kind : Kind :=
  { ns := ""
    name := "MyItem"
    idType := .identity
    describe := (·.declareAll
      [.member "Int1" .integer false false, .member "Int2" .integer false false, .member "Name" .string false false,
        .member "Score" .fractal false false, .member "Tags" .string false true,
        .member "CreatedAt" .dateTime false false])
    read? := fun s => (decoder.ofText? s).map toItem }

end MyItem

end DocStore.Samples
