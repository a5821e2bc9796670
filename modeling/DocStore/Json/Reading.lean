import DocStore.Json.Basic
import DocStore.Json.Tree

/-!
The value of a JSON text: numbers are rounded, ill-formed strings and containers nested too deeply are refused, and of
members with one key the last counts.
-/

namespace DocStore.Json

/-- How many containers may be open at once. -/
def maxDepth : Nat := 127

namespace Number

/-- The number of a decimal: an integer of 64 bits if it is written as one, otherwise a double. A zero with a sign is
    no integer. -/
def ofDecimal? (t : DecimalText) : Option Number :=
  match t.integer? with
  | some n =>
    if (0 ≤ n && n < twoTo 64 && !t.negative) || (Text.minInt64 ≤ n && n < 0) then some (.integer n)
    else t.toBinary64?.map .double
  | none => t.toBinary64?.map .double

end Number

mutual

/-- The value of a tree with at most `depth` containers around one another. -/
def ofTree? (depth : Nat) : Tree → Option Json
  | .null => some .null
  | .bool b => some (.bool b)
  | .number t => (Number.ofDecimal? t).map .number
  | .string s => s.map .string
  | .array items =>
    match depth with
    | 0 => none
    | d + 1 => (itemsOfTrees? d items).map .array
  | .object members =>
    match depth with
    | 0 => none
    | d + 1 => (membersOfTrees? d members).map fun ms => .object (sortedMembers ms)

def itemsOfTrees? (depth : Nat) : List Tree → Option (List Json)
  | [] => some []
  | t :: ts =>
    match ofTree? depth t, itemsOfTrees? depth ts with
    | some v, some vs => some (v :: vs)
    | _, _ => none

def membersOfTrees? (depth : Nat) : List (Option String × Tree) → Option (List (String × Json))
  | [] => some []
  | (k, t) :: ts =>
    match k, ofTree? depth t, membersOfTrees? depth ts with
    | some k, some v, some vs => some ((k, v) :: vs)
    | _, _, _ => none

end

def ofText? (s : String) : Option Json := (Tree.ofText? s).bind (ofTree? maxDepth)

end DocStore.Json
