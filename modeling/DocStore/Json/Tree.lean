import DocStore.Json.Token

/-!
A JSON text as a tree of its tokens. Its grammar is checked; its numbers are not yet rounded, its strings may still be
ill formed, and the members of an object stand as they were written.
-/

namespace DocStore.Json

inductive Tree where
  | null
  | bool (b : Bool)
  | number (t : DecimalText)
  | string (content : Option String)
  | array (items : List Tree)
  | object (members : List (Option String × Tree))
deriving Repr, Inhabited

namespace Tree

/-- A container that is still open, with what it holds so far in reverse order. -/
inductive Frame where
  | array (items : List Tree)
  | object (members : List (Option String × Tree)) (key : Option String)

/-- What may come next while a text is read. -/
inductive State where
  | value (stack : List Frame)
  /-- after an opening bracket -/
  | itemOrEnd (stack : List Frame)
  /-- after an opening brace -/
  | keyOrEnd (stack : List Frame)
  /-- after a comma in an object -/
  | key (members : List (Option String × Tree)) (stack : List Frame)
  | colon (members : List (Option String × Tree)) (key : Option String) (stack : List Frame)
  /-- after a value: a comma, or the end of the innermost container -/
  | next (top : Frame) (stack : List Frame)
  | finished (t : Tree)

/-- A value is complete: it joins the innermost open container. -/
def State.accept (t : Tree) : List Frame → State
  | [] => .finished t
  | .array items :: stack => .next (.array (t :: items)) stack
  | .object members k :: stack => .next (.object ((k, t) :: members) k) stack

/-- A token where a value is expected. -/
def State.start (stack : List Frame) : Token → Option State
  | .null => some (accept .null stack)
  | .bool b => some (accept (.bool b) stack)
  | .number t => some (accept (.number t) stack)
  | .string s => some (accept (.string s) stack)
  | .beginArray => some (.itemOrEnd stack)
  | .beginObject => some (.keyOrEnd stack)
  | _ => none

def State.step : State → Token → Option State
  | .value stack, t => start stack t
  | .itemOrEnd stack, .endArray => some (accept (.array []) stack)
  | .itemOrEnd stack, t => start (.array [] :: stack) t
  | .keyOrEnd stack, .endObject => some (accept (.object []) stack)
  | .keyOrEnd stack, .string k => some (.colon [] k stack)
  | .key members stack, .string k => some (.colon members k stack)
  | .colon members k stack, .colon => some (.value (.object members k :: stack))
  | .next (.array items) stack, .comma => some (.value (.array items :: stack))
  | .next (.array items) stack, .endArray => some (accept (.array items.reverse) stack)
  | .next (.object members _) stack, .comma => some (.key members stack)
  | .next (.object members _) stack, .endObject => some (accept (.object members.reverse) stack)
  | _, _ => none

def ofTokens? (ts : List Token) : Option Tree :=
  match ts.foldlM State.step (State.value []) with
  | some (.finished t) => some t
  | _ => none

def ofText? (s : String) : Option Tree := (Token.ofText? s.toList).bind ofTokens?

end Tree

end DocStore.Json
