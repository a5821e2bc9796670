import DocStore.Samples.FreeDocument
import DocStore.Samples.GuidItem
import DocStore.Samples.MyItem
import DocStore.Samples.StringItem

/-! The sample types by their names. There is a type of free documents for each id type. -/

namespace DocStore.Samples

/-- The type of a name; a type of free documents has the declarations that are given. -/
def kind? (name : String) (declarations : List Declaration) : Option Kind :=
  match name with
  | "MyItem" => some MyItem.kind
  | "GuidItem" => some GuidItem.kind
  | "StringItem" => some StringItem.kind
  | "DocI" => some (FreeDocument.kind "" name .identity declarations)
  | "DocB" => some (FreeDocument.kind "" name .bigIdentity declarations)
  | "DocG" => some (FreeDocument.kind "" name .guid declarations)
  | "DocS" => some (FreeDocument.kind "ns" name .string declarations)
  | _ => none

end DocStore.Samples
