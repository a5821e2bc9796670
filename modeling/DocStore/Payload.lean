import DocStore.DocId
import DocStore.Json.Reading
import DocStore.Schema.Extraction

/-!
Payloads: the JSON texts that are stored. Excluded members of a document are left out, and the id is written into it
before its values are extracted.
-/

namespace DocStore.Payload

/-- The document without the excluded members; members of members stay. -/
def strip (excluded : List String) : Json → Json
  | .object ms => .object (ms.filter fun (k, _) => !excluded.contains k)
  | v => v

def read (text : String) : Except SerializationError Json :=
  match Json.ofText? text with
  | some v => .ok v
  | none => .error (.deserialize "the text is not a JSON document")

/-- Reads a document and leaves out the excluded members. -/
def parse (excluded : List String) (text : String) : Except SerializationError Json :=
  (read text).map (strip excluded)

/-- The text of a document without the excluded members. -/
def serialize (excluded : List String) (v : Json) : String := (strip excluded v).text

/-- What is said of a document that is no object. -/
def notObject (s : Schema) : ValidationError :=
  .invalidValue s.key.text "structures must serialize to JSON objects"

/-- The document with its id written into it, as the text that is stored and the entries that are indexed. -/
def withId (s : Schema) (v : Json) (id : DocId) : Except ValidationError (String × List IndexEntry) :=
  match v with
  | .object ms =>
    let doc := Json.object (Json.insertMember idMember id.toJson ms)
    (s.extract doc).map fun es => (doc.text, es)
  | _ => .error (notObject s)

end DocStore.Payload
