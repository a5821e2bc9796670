import DocStore.Proofs.Sql.Selects
import DocStore.Sql.RawSelect

/-! The grammar of conditions and statements. Readers take tokens off the front of a text by the rules of SQL, without
    regard to what wrote it: `not` binds stronger than `and`, and `and` stronger than `or`; brackets and selects bind
    strongest, and what stands next decides what is read. Words are read as they are written here, in lower case. -/

namespace DocStore.Sql

/-! ### Readers -/

/-- Takes tokens off the front for a result, unless they are not what is looked for. -/
abbrev Reader := StateT (List Token) Option

namespace Reader

variable {α β : Type}

/-- The result of a text of which nothing is left. -/
def whole (r : Reader α) (ts : List Token) : Option α :=
  (r ts).bind fun (x, rest) => if rest = [] then some x else none

/-- What one token stands for. -/
def one (f : Token → Option α) : Reader α
  | [] => none
  | t :: ts => (f t).map (·, ts)

def token (t : Token) : Reader Unit := one fun u => if u = t then some () else none

def tokens : List Token → Reader Unit
  | [] => pure ()
  | t :: ts => do
    token t
    tokens ts

/-- Reads on in one way behind a token, and in another way where it does not come next. -/
def after (t : Token) (found missing : Reader α) : Reader α
  | [] => missing []
  | u :: ts => if u = t then found ts else missing (u :: ts)

/-- A part and the bracket that closes it. -/
def closed (part : Reader α) : Reader α := do
  let x ← part
  token (.sign ")")
  pure x

/-- One part or more with a separator between them, so many at most. -/
def partsWithin (separator : Token) (part : Reader α) : Nat → Reader (List α)
  | 0 => failure
  | n + 1 => do
    let x ← part
    after separator ((x :: ·) <$> partsWithin separator part n) (pure [x])

def parts (separator : Token) (part : Reader α) : Reader (List α) :=
  fun ts => partsWithin separator part (ts.length + 1) ts

end Reader

open Reader

/-! ### Names and numbers -/

/-- The label of a text. -/
def Label.ofText? (s : String) : Option Label :=
  let l : Option Label := match s.toList with
    | 's' :: 'i' :: ds => (Text.natural? ds).map index
    | 's' :: 'u' :: 'b' :: ds => (Text.natural? ds).map right
    | 's' :: 'o' :: ds => (Text.natural? ds).map sort
    | _ => some row
  l.filter (·.text = s)

def Column.ofName? (s : String) : Option Column :=
  ([id, payload, path] ++ TypeCode.all.map value).find? (·.name = s)

/-- The position that a placeholder stands for. -/
def slotOf? (d : Dialect) (s : String) : Option Nat :=
  let n : Option Nat := match d, s.toList with
    | .sqlite, _ :: ds => (Text.natural? ds).map (· - 1)
    | .sqlServer, _ :: _ :: ds => Text.natural? ds
    | _, _ => none
  n.filter (d.placeholder · = s)

namespace Reader

def name : Reader String := one fun
  | .name s => some s
  | _ => none

def label : Reader Label := one fun
  | .word s => Label.ofText? s
  | _ => none

def column : Reader ColumnRef := do
  let l ← label
  token (.sign ".")
  let c ← one fun
    | .name s => Column.ofName? s
    | _ => none
  pure ⟨l, c⟩

def comparison : Reader Comparison := one fun
  | .sign s => RawSelect.operatorOf? s
  | _ => none

def direction : Reader Direction := one fun
  | .word s => [Direction.asc, .desc].find? (·.sql = s)
  | _ => none

def character : Reader Char := one fun
  | .literal s => match s.toList with
    | [c] => some c
    | _ => none
  | _ => none

variable (d : Dialect)

def slot : Reader Nat := one fun
  | .placeholder s => slotOf? d s
  | _ => none

def operand : Reader Operand := fun ts =>
  match ts with
  | .literal s :: ts => some (.text s, ts)
  | .number n :: ts => some (.number n, ts)
  | .placeholder _ :: _ => (Operand.slot <$> slot d) ts
  | _ => (Operand.column <$> column) ts

/-! ### Tests -/

def equation : Reader Equation := do
  let left ← operand d
  let op ← comparison
  let right ← operand d
  pure ⟨left, op, right⟩

/-- What a select of one value asks for, and whether it is the least one. -/
def scalarValue : Reader (Bool × ColumnRef) :=
  after (.word "min")
    (do
      token (.sign "(")
      (true, ·) <$> closed column)
    ((false, ·) <$> column)

/-- A select of one value, behind its opening bracket. The value is one of the table's. -/
def scalar : Reader Scalar := do
  token (.word "select")
  let (minimum, value) ← scalarValue
  token (.word "from")
  let table ← name
  token (.word value.label.text)
  token (.word "where")
  Scalar.mk minimum value.column table value.label <$> closed (parts (.word "and") (equation d))

/-- What is compared with the left side. -/
def comparisonOf (left : Operand) : Reader Test := do
  let op ← comparison
  after (.sign "(") (Test.compareScalar left op <$> scalar d)
    ((fun right => Test.compare ⟨left, op, right⟩) <$> operand d)

/-- What a test says of its left side. -/
def testOf (left : Operand) : Reader Test :=
  after (.word "like")
    (do
      let pattern ← operand d
      token (.word "escape")
      Test.like left pattern <$> character) <|
  after (.word "in")
    (do
      token (.sign "(")
      Test.oneOf left <$> closed (parts (.sign ",") (operand d))) <|
  after (.word "between")
    (do
      let low ← operand d
      token (.word "and")
      Test.between left low <$> operand d)
    (comparisonOf d left)

def test : Reader Test := do
  let left ← operand d
  testOf d left

/-! ### Conditions -/

/-- A select that asks whether there is a row, behind the word `exists`. -/
def rowExists : Reader Condition := do
  tokens [.sign "(", .word "select", .number 1, .word "from"]
  let table ← name
  let label ← label
  token (.word "where")
  Condition.rowExists table label <$> closed (parts (.word "and") (test d))

end Reader

/-- Conditions taken together, one of them being itself. -/
def Condition.group (together : List Condition → Condition) : List Condition → Condition
  | [c] => c
  | cs => together cs

namespace Reader

/-- Conditions with `and` and `or` between them. -/
def disjunction (part : Reader Condition) : Reader Condition :=
  Condition.group .any <$> parts (.word "or") (Condition.group .all <$> parts (.word "and") part)

/-- A condition that `and` and `or` take as a whole, with at most so many brackets or `not` within each other. -/
def primary (d : Dialect) : Nat → Reader Condition
  | 0 => failure
  | n + 1 =>
    after (.word "not") (.not <$> primary d n) <|
    after (.sign "(") (closed (disjunction (primary d n))) <|
    after (.word "exists") (rowExists d) (.test <$> test d)

variable (d : Dialect)

def condition : Reader Condition := fun ts => disjunction (primary d (ts.length + 1)) ts

/-! ### Statements -/

/-- Sort terms, so many at most, and the id behind them. -/
def sortingsWithin : Nat → Reader (List SortTerm)
  | 0 => failure
  | n + 1 =>
    after (.sign "(")
      (do
        let key ← scalar d
        let order ← direction
        token (.sign ",")
        (⟨key, order⟩ :: ·) <$> sortingsWithin n)
      (do
        tokens ((ColumnRef.mk .row .id).tokens ++ [.word Direction.asc.sql])
        pure [])

def sortings : Reader (List SortTerm) := fun ts => sortingsWithin d (ts.length + 1) ts

def page : Reader (Option PageSlots) :=
  match d with
  | .sqlite =>
    after (.word "limit")
      (do
        let count ← slot d
        let offset ← after (.word "offset") (some <$> slot d) (pure none)
        pure (some ⟨count, offset⟩))
      (pure none)
  | .sqlServer =>
    after (.word "offset")
      (do
        let offset ← after (.number 0) (pure none) (some <$> slot d)
        tokens [.word "rows", .word "fetch", .word "next"]
        let count ← slot d
        tokens [.word "rows", .word "only"]
        pure (some ⟨count, offset⟩))
      (pure none)

def statement : Reader Statement := do
  token (.word "select")
  tokens (ColumnRef.mk .row .payload).tokens
  token (.word "from")
  let table ← name
  token (.word Label.row.text)
  let filter ← after (.word "where") (some <$> condition d) (pure none)
  tokens [.word "order", .word "by"]
  let terms ← sortings d
  let slots ← page d
  pure ⟨table, filter, terms, slots⟩

end Reader

def Condition.ofText? (d : Dialect) (s : String) : Option Condition := (Token.ofText? d s).bind (condition d).whole

def Statement.ofText? (d : Dialect) (s : String) : Option Statement := (Token.ofText? d s).bind (statement d).whole

end DocStore.Sql
