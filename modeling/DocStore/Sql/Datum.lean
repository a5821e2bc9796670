import DocStore.DocId
import DocStore.Query.Predicate
import DocStore.Sql.Numeral

/-!
What the engine stores and compares: nulls, numbers and texts. Numbers of the two kinds compare by their exact values,
texts by their characters; in an order, nulls come before numbers and numbers before texts. A column with an affinity
turns what is stored in it, and what it is compared with, into its own kind if nothing is lost.
-/

namespace DocStore.Sql

inductive Datum where
  | null
  | integer (n : Int)
  | real (x : Binary64)
  | text (s : String)
deriving DecidableEq, Repr, Inhabited

namespace Datum

/-- A value as it is bound: truth values are 0 and 1, instants and GUIDs are texts; what is not a number is null. -/
def ofValue : Value → Datum
  | .null => null
  | .string s => text s
  | .integer n => integer n
  | .fractal x => if x.isNaN then null else real x
  | .bool b => integer (if b then 1 else 0)
  | .dateTime i => text i.columnText
  | .guid g => text g.text

def isNull : Datum → Bool
  | null => true
  | _ => false

/-- The place of a kind among the kinds. -/
def rank : Datum → Nat
  | null => 0
  | integer _ | real _ => 1
  | text _ => 2

def units : Datum → Int
  | integer n => Binary64.scaledInteger n
  | real x => x.scaled
  | null | text _ => 0

/-- The order of all that can be stored. -/
protected def compare : Datum → Datum → Ordering
  | integer a, integer b => Ord.compare a b
  | text a, text b => Ord.compare a b
  | a, b => (Ord.compare a.rank b.rank).then (Ord.compare a.units b.units)

instance : Ord Datum := ⟨Datum.compare⟩

/-- A comparison as a condition; with a null it is neither true nor false. -/
def test (op : Comparison) (a b : Datum) : Option Bool :=
  if a.isNull || b.isNull then none else some (op.holds (compare a b))

/-- The least of the data that are not null, or null if there are none. -/
def least : List Datum → Datum
  | [] => null
  | d :: ds =>
    let m := least ds
    if d.isNull then m else if m.isNull || compare d m != .gt then d else m

end Datum

/-! ### Affinity -/

/-- What a column turns its data into. -/
inductive Affinity where
  | integer
  | text
deriving DecidableEq, Repr, Inhabited

namespace Affinity

def ofIdType (t : IdType) : Affinity := if t.isIdentity then integer else text

/-- A whole number that is held as a double, as the integer that it is. -/
def ofReal (x : Binary64) : Datum :=
  let n := x.scaled / twoTo 1074
  if x.isFinite && x.scaled % twoTo 1074 = 0 && Text.minInt64 < n && n < Text.maxInt64 then .integer n else .real x

/-- The number that a text stands for, or the text itself. -/
def numberOf (s : String) : Datum :=
  match Numeral.ofText? s with
  | none => .text s
  | some t =>
    match t.integer?.filter Text.isInt64 with
    | some n => .integer n
    | none => ofReal (Numeral.real t)

/-- What becomes of a datum in the column, or beside it in a comparison. -/
def apply : Affinity → Datum → Datum
  | integer, .text s => numberOf s
  | integer, .real x => ofReal x
  | text, .integer n => .text (String.ofList (Text.integerText n))
  | _, d => d

end Affinity

end DocStore.Sql
