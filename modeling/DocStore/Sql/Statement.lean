import DocStore.Sql.Dialect

/-!
The statements that queries compile to, as data, and their text in a dialect. Conditions nest; a select inside a
condition ranges over one table under a label, and its conditions may name that label and those around it.
-/

namespace DocStore.Sql

/-- The name under which a select sees the row it ranges over. -/
inductive Label where
  /-- the structure's own row -/
  | row
  /-- an index row of the structure -/
  | index (n : Nat)
  /-- an index row of the member compared with -/
  | right (n : Nat)
  /-- an index row that a sort key is taken from -/
  | sort (n : Nat)
deriving DecidableEq, Repr

inductive Column where
  | id
  | payload
  | path
  | value (c : TypeCode)
deriving DecidableEq, Repr

structure ColumnRef where
  label : Label
  column : Column
deriving DecidableEq, Repr

inductive Operand where
  | column (c : ColumnRef)
  /-- the parameter in a position -/
  | slot (n : Nat)
  | text (s : String)
  | number (n : Nat)
deriving DecidableEq, Repr

structure Equation where
  left : Operand
  op : Comparison
  right : Operand
deriving DecidableEq, Repr

/-- A select of one value: that of the first row that satisfies the conditions, or the least one. -/
structure Scalar where
  minimum : Bool
  value : Column
  table : String
  label : Label
  conditions : List Equation
deriving DecidableEq, Repr

/-- A test of the rows in sight. -/
inductive Test where
  | compare (e : Equation)
  | compareScalar (left : Operand) (op : Comparison) (right : Scalar)
  | like (left pattern : Operand) (escape : Char)
  | oneOf (left : Operand) (rs : List Operand)
  | between (left low high : Operand)
deriving DecidableEq, Repr

inductive Condition where
  | test (t : Test)
  /-- some row of the table satisfies every test -/
  | rowExists (table : String) (label : Label) (tests : List Test)
  | all (cs : List Condition)
  | any (cs : List Condition)
  | not (c : Condition)
deriving Repr, Inhabited

structure SortTerm where
  key : Scalar
  direction : Direction
deriving DecidableEq, Repr

structure PageSlots where
  count : Nat
  offset : Option Nat
deriving DecidableEq, Repr

/-- A select of payloads. After the sort terms, the id decides. -/
structure Statement where
  table : String
  filter : Option Condition
  sortings : List SortTerm
  page : Option PageSlots
deriving Repr, Inhabited

/-! ### Text -/

def Label.text : Label → String
  | row => "s"
  | index n => "si" ++ String.ofList (Text.decimal n)
  | right n => "sub" ++ String.ofList (Text.decimal n)
  | sort n => "so" ++ String.ofList (Text.decimal n)

def Column.name : Column → String
  | id => "StructureId"
  | payload => "Json"
  | path => "MemberPath"
  | value c => c.column

def joined (separator : String) : List String → String
  | [] => ""
  | [s] => s
  | s :: ss => s ++ separator ++ joined separator ss

variable (d : Dialect)

def ColumnRef.text (c : ColumnRef) : String := c.label.text ++ "." ++ d.identifier c.column.name

def Operand.sql : Operand → String
  | column c => c.text d
  | slot n => d.placeholder n
  | text s => d.literal s
  | number n => String.ofList (Text.decimal n)

def Equation.text (e : Equation) : String := e.left.sql d ++ " " ++ e.op.sql ++ " " ++ e.right.sql d

def source (table : String) (label : Label) : String := d.identifier table ++ " " ++ label.text

def Scalar.text (q : Scalar) : String :=
  let value := (ColumnRef.mk q.label q.value).text d
  "(select " ++ (if q.minimum then "min(" ++ value ++ ")" else value) ++ " from " ++ source d q.table q.label ++
    " where " ++ joined " and " (q.conditions.map (Equation.text d)) ++ ")"

def Test.text : Test → String
  | compare e => e.text d
  | compareScalar l op r => l.sql d ++ " " ++ op.sql ++ " " ++ r.text d
  | like l p e => l.sql d ++ " like " ++ p.sql d ++ " escape " ++ d.literal (String.singleton e)
  | oneOf l rs => l.sql d ++ " in (" ++ joined ", " (rs.map (Operand.sql d)) ++ ")"
  | between l lo hi => l.sql d ++ " between " ++ lo.sql d ++ " and " ++ hi.sql d

mutual

def Condition.text : Condition → String
  | .test t => t.text d
  | .rowExists table label tests =>
    "exists (select 1 from " ++ source d table label ++ " where " ++ joined " and " (tests.map (Test.text d)) ++ ")"
  | .all cs => "(" ++ Condition.textOfAll " and " cs ++ ")"
  | .any cs => "(" ++ Condition.textOfAll " or " cs ++ ")"
  | .not c => "(not " ++ Condition.text c ++ ")"

def Condition.textOfAll (separator : String) : List Condition → String
  | [] => ""
  | [c] => Condition.text c
  | c :: cs => Condition.text c ++ separator ++ Condition.textOfAll separator cs

end

def SortTerm.text (t : SortTerm) : String := t.key.text d ++ " " ++ t.direction.sql

def PageSlots.text (p : PageSlots) : String := d.page (d.placeholder p.count) (p.offset.map d.placeholder)

def Statement.text (s : Statement) : String :=
  "select " ++ (ColumnRef.mk .row .payload).text d ++ " from " ++ source d s.table .row ++
    (match s.filter with
      | some c => " where " ++ c.text d
      | none => "") ++
    " order by " ++
    joined ", " (s.sortings.map (SortTerm.text d) ++ [(ColumnRef.mk .row .id).text d ++ " " ++ Direction.asc.sql]) ++
    (match s.page with
      | some p => " " ++ p.text d
      | none => "")

end DocStore.Sql
