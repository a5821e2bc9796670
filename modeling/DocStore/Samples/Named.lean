import DocStore.Message.Decoder
import DocStore.Session.Basic

/-! A view of structures that shows nothing but a name. -/

namespace DocStore.Samples.Named

open Message Decoder

def decoder : Decoder String := fun d t =>
  match fields ["Name"] d t with
  | some ([name], d) => required string d name
  | _ => none

def view : View := .structure fun s => (decoder.ofText? s).map fun name => .object [("Name", .string name)]

end DocStore.Samples.Named
