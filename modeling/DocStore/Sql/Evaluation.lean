import DocStore.Sql.Datum
import DocStore.Sql.Like
import DocStore.Sql.Statement

/-!
The meaning of statements over tables. Conditions have three truth values, `none` being the one that comes of nulls; a
row is selected where the condition is true. Rows are selected, put in order and cut to the page, in this order.
-/

namespace DocStore.Sql

/-- A row gives a datum for each column; one that it does not have counts as null. -/
abbrev Row := Column → Datum

/-- The rows of each table, in the order in which they were inserted. -/
abbrev Tables := String → List Row

/-- The rows in sight, the innermost first. -/
abbrev Sight := List (Label × Row)

namespace Truth

/-- Both; false if one of them is false. -/
def and : Option Bool → Option Bool → Option Bool
  | some false, _ | _, some false => some false
  | some true, t => t
  | none, _ => none

/-- One of them; true if one of them is true. -/
def or : Option Bool → Option Bool → Option Bool
  | some true, _ | _, some true => some true
  | some false, t => t
  | none, _ => none

def not (t : Option Bool) : Option Bool := t.map (!·)

def all (ts : List (Option Bool)) : Option Bool := ts.foldr and (some true)

def any (ts : List (Option Bool)) : Option Bool := ts.foldr or (some false)

end Truth

def ColumnRef.datum (c : ColumnRef) (sight : Sight) : Datum :=
  match sight.find? (·.1 = c.label) with
  | some (_, row) => row c.column
  | none => .null

section

variable (ps : List Datum) (sight : Sight)

def Operand.datum : Operand → Datum
  | column c => c.datum sight
  | slot n => ps.getD n .null
  | text s => .text s
  | number n => .integer n

def Equation.truth (e : Equation) : Option Bool := (e.left.datum ps sight).test e.op (e.right.datum ps sight)

/-- Pattern matching of texts; with a null it is neither true nor false. -/
def like (escape : Char) : Datum → Datum → Option Bool
  | .text s, .text p => some (Like.isLike escape p s)
  | _, _ => none

end

/-- The rows of a table, each put in sight under a label, for which every condition is true. -/
def rowsWhere (rows : List Row) (label : Label) (sight : Sight) (truths : Sight → List (Option Bool)) : List Row :=
  rows.filter fun r => Truth.all (truths ((label, r) :: sight)) == some true

section

variable (ts : Tables) (ps : List Datum)

/-- The value of a select of one value; null if there is no row. -/
def Scalar.datum (sight : Sight) (q : Scalar) : Datum :=
  let found := (rowsWhere (ts q.table) q.label sight fun s => q.conditions.map (Equation.truth ps s)).map (· q.value)
  if q.minimum then Datum.least found else found.headD .null

def Test.truth (sight : Sight) : Test → Option Bool
  | compare e => e.truth ps sight
  | compareScalar l op r => (l.datum ps sight).test op (r.datum ts ps sight)
  | like l p e => Sql.like e (l.datum ps sight) (p.datum ps sight)
  | oneOf l rs => Truth.any (rs.map fun r => (l.datum ps sight).test .eq (r.datum ps sight))
  | between l lo hi =>
    Truth.and ((l.datum ps sight).test .ge (lo.datum ps sight)) ((l.datum ps sight).test .le (hi.datum ps sight))

mutual

def Condition.truth (sight : Sight) : Condition → Option Bool
  | .test t => t.truth ts ps sight
  | .rowExists table label tests =>
    some (!(rowsWhere (ts table) label sight fun s => tests.map (Test.truth ts ps s)).isEmpty)
  | .all cs => Truth.all (Condition.truths sight cs)
  | .any cs => Truth.any (Condition.truths sight cs)
  | .not c => Truth.not (Condition.truth sight c)

def Condition.truths (sight : Sight) : List Condition → List (Option Bool)
  | [] => []
  | c :: cs => Condition.truth sight c :: Condition.truths sight cs

end

/-- Whether a row satisfies a condition; every row satisfies none. -/
def satisfies (c : Option Condition) (r : Row) : Bool :=
  match c with
  | none => true
  | some c => c.truth ts ps [(.row, r)] == some true

/-! ### Order -/

def orderIn : Direction → Datum → Datum → Ordering
  | .asc, a, b => compare a b
  | .desc, a, b => compare b a

/-- The order of two rows by their keys in turn. -/
def keyOrder : List Direction → List Datum → List Datum → Ordering
  | d :: ds, a :: as, b :: bs => (orderIn d a b).then (keyOrder ds as bs)
  | _, _, _ => .eq

/-- A row with what it is sorted by. -/
def sortKeys (sortings : List SortTerm) (r : Row) : List Datum :=
  sortings.map (·.key.datum ts ps [(.row, r)]) ++ [r .id]

/-- The rows in the order of the sort terms, then of their ids. -/
def sorted (sortings : List SortTerm) (rows : List Row) : List Row :=
  let directions := sortings.map (·.direction) ++ [.asc]
  let keyed := rows.map fun r => (sortKeys ts ps sortings r, r)
  (keyed.mergeSort fun a b => keyOrder directions a.1 b.1 != .gt).map (·.2)

/-! ### Pages and statements -/

/-- A number of rows that is bound to a slot. -/
def rowNumber (slot : Nat) : Nat :=
  match ps.getD slot .null with
  | .integer n => n.toNat
  | _ => 0

def PageSlots.cut (p : PageSlots) (rows : List Row) : List Row :=
  (rows.drop ((p.offset.map (rowNumber ps)).getD 0)).take (rowNumber ps p.count)

def Statement.rows (s : Statement) : List Row :=
  let found := sorted ts ps s.sortings ((ts s.table).filter (satisfies ts ps s.filter))
  match s.page with
  | some p => p.cut ps found
  | none => found

end

end DocStore.Sql
