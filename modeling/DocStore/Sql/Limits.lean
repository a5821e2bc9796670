import DocStore.Sql.Evaluation

/-!
What the engine refuses because of its size. Reading a text, it counts the slots and how deeply conditions nest; once
the tables are there, it counts in the selects inside the conditions, and the sort terms; running the statement, it
measures the patterns that it comes to.
-/

namespace DocStore.Sql

/-! ### Bounds -/

def greatestHeight : Nat := 1000

def mostSlots : Nat := 32766

def mostSortTerms : Nat := 2000

def mostPatternBytes : Nat := 50000

/-- What there is too much of. -/
inductive Excess where
  | height
  | slots
  | sortTerms
  | pattern
deriving DecidableEq, Repr

/-- The byte at which a part of SQL text begins outside of quotes, counted on from `n`; the end if it does not. -/
def placeOf (part : List Char) (quote : Option Char) (n : Nat) : List Char → Nat
  | [] => n
  | c :: cs =>
    match quote with
    | some q => placeOf part (if c = q then none else some q) (n + c.utf8Size) cs
    | none =>
      if part.isPrefixOf (c :: cs) then n
      else placeOf part (if c = '"' || c = '\'' then some c else none) (n + c.utf8Size) cs

/-- What is said about a text; the first slot that is too many is shown in it. -/
def Excess.message (sql : String) : Excess → String
  | height => "Expression tree is too large (maximum depth " ++ String.ofList (Text.decimal greatestHeight) ++ ")"
  | slots =>
    "variable number must be between ?1 and ?" ++ String.ofList (Text.decimal mostSlots) ++ " in " ++ sql ++
      " at offset " ++
      String.ofList (Text.decimal (placeOf (Dialect.sqlite.placeholder mostSlots).toList none 0 sql.toList))
  | sortTerms => "too many terms in ORDER BY clause"
  | pattern => "LIKE or GLOB pattern too complex"

/-! ### Heights -/

/-- The height of an operand; a column stands with the label of its row. -/
def Operand.height : Operand → Nat
  | column _ => 2
  | slot _ | text _ | number _ => 1

def Equation.height (e : Equation) : Nat := max e.left.height e.right.height + 1

/-- The height of conditions joined to one another from the left on. -/
def chainHeight : List Nat → Nat
  | [] => 0
  | h :: hs => hs.foldl (fun n h => max n h + 1) h

/-- The height of the conditions of a select of one value. -/
def Scalar.conditionHeight (q : Scalar) : Nat := chainHeight (q.conditions.map Equation.height)

/-- The height of a select of one value: its value or its conditions, and the select around them. -/
def Scalar.height (q : Scalar) : Nat := max (if q.minimum then 3 else 2) q.conditionHeight + 1

def Test.height : Test → Nat
  | compare e => e.height
  | compareScalar l _ r => max l.height r.height + 1
  | like l p _ => max l.height p.height + 1
  | oneOf l rs => rs.foldl (fun n r => max n r.height) l.height + 1
  | between l lo hi => max l.height (max lo.height hi.height) + 1

/-- The height of the conditions of the select in a test, if there is one. -/
def Test.innerHeight : Test → Nat
  | compareScalar _ _ r => r.conditionHeight
  | compare _ | like _ _ _ | oneOf _ _ | between _ _ _ => 0

/-- One more than a height, within the bound. -/
def raised (n : Nat) : Except Excess Nat := if n < greatestHeight then .ok (n + 1) else .error .height

/-! ### Slots -/

def Operand.slots : Operand → List Nat
  | slot n => [n]
  | column _ | text _ | number _ => []

def Test.slots : Test → List Nat
  | compare e => e.left.slots ++ e.right.slots
  | compareScalar l _ r => l.slots ++ r.conditions.flatMap fun e => e.left.slots ++ e.right.slots
  | like l p _ => l.slots ++ p.slots
  | oneOf l rs => l.slots ++ rs.flatMap Operand.slots
  | between l lo hi => l.slots ++ lo.slots ++ hi.slots

/-- Refuses slots beyond the last one. -/
def checkSlots (slots : List Nat) : Except Excess Unit :=
  if slots.all (· < mostSlots) then .ok () else .error .slots

/-! ### Reading a statement -/

mutual

/-- The height of a condition, unless something is too much, in which case it is what the text comes to first. -/
def Condition.heightRead : Condition → Except Excess Nat
  | .test t => (checkSlots t.slots).map fun _ => t.height
  | .rowExists _ _ ts =>
    match checkSlots (ts.flatMap Test.slots) with
    | .error e => .error e
    | .ok _ => raised (chainHeight (ts.map Test.height))
  | .all cs | .any cs => Condition.chainRead none cs
  | .not c =>
    match Condition.heightRead c with
    | .error e => .error e
    | .ok n => raised n

/-- The height of conditions joined to what stands before them, which has a height if it is not empty. -/
def Condition.chainRead (before : Option Nat) : List Condition → Except Excess Nat
  | [] => .ok (before.getD 0)
  | c :: cs =>
    match Condition.heightRead c with
    | .error e => .error e
    | .ok n =>
      match before with
      | none => Condition.chainRead (some n) cs
      | some m =>
        match raised (max m n) with
        | .error e => .error e
        | .ok n => Condition.chainRead (some n) cs

end

/-- What a statement with a condition, and with slots after it, is refused for when its text is read. -/
def checkText (c : Option Condition) (slots : List Nat) : Except Excess Unit :=
  match c.map Condition.heightRead with
  | some (.error e) => .error e
  | some (.ok _) | none => checkSlots slots

/-- The slots of a statement that follow its condition: those of the page. -/
def Statement.slotsAfterFilter (s : Statement) : List Nat := (s.page.map fun p => p.count :: p.offset.toList).getD []

/-- How many sort terms a statement has; after those that are asked for comes the id. -/
def Statement.sortTermCount (s : Statement) : Nat := s.sortings.length + 1

/-! ### Resolving a statement -/

mutual

def Condition.height : Condition → Nat
  | .test t => t.height
  | .rowExists _ _ ts => chainHeight (ts.map Test.height) + 1
  | .all cs | .any cs => chainHeight (Condition.heights cs)
  | .not c => Condition.height c + 1

def Condition.heights : List Condition → List Nat
  | [] => []
  | c :: cs => Condition.height c :: Condition.heights cs

end

mutual

/-- The height that the selects in a condition add to it at most. -/
def Condition.innerHeight : Condition → Nat
  | .test t => t.innerHeight
  | .rowExists _ _ ts => chainHeight (ts.map Test.height) + (ts.map Test.innerHeight).foldl max 0
  | .all cs | .any cs => Condition.innerHeightOfAll cs
  | .not c => Condition.innerHeight c

def Condition.innerHeightOfAll : List Condition → Nat
  | [] => 0
  | c :: cs => max (Condition.innerHeight c) (Condition.innerHeightOfAll cs)

end

/-- What a statement with a condition and sort terms is refused for when its names are resolved. -/
def checkNames (c : Option Condition) (sortTerms : Nat) : Except Excess Unit :=
  if greatestHeight < (c.map fun c => c.height + c.innerHeight).getD 0 then .error .height
  else if mostSortTerms < sortTerms then .error .sortTerms
  else .ok ()

/-! ### Running a statement -/

def isLongPattern : Datum → Bool
  | .text p => mostPatternBytes < p.utf8ByteSize
  | .null | .integer _ | .real _ => false

/-- Whether a test matches with too long a pattern. -/
def Test.isLong (ps : List Datum) (sight : Sight) : Test → Bool
  | like _ p _ => isLongPattern (p.datum ps sight)
  | compare _ | compareScalar _ _ _ | oneOf _ _ | between _ _ _ => false

section

variable (ts : Tables) (ps : List Datum)

/-- Whether trying tests in turn, up to the first one that fails, comes to too long a pattern. -/
def comesToLong (sight : Sight) : List Test → Bool
  | [] => false
  | t :: tests => t.isLong ps sight || (t.truth ts ps sight == some true && comesToLong sight tests)

mutual

/-- Whether finding out if a condition is true comes to too long a pattern. What is joined is tried in turn, up to the
    first part that decides. -/
def Condition.breaks (sight : Sight) : Condition → Bool
  | .test t => t.isLong ps sight
  | .rowExists table label tests => (ts table).any fun r => comesToLong ts ps ((label, r) :: sight) tests
  | .all cs => Condition.breaksBefore true sight cs
  | .any cs => Condition.breaksBefore false sight cs
  | .not c => Condition.breaks sight c

/-- The same of conditions that are tried as long as they are true, or as long as they are false. -/
def Condition.breaksBefore (b : Bool) (sight : Sight) : List Condition → Bool
  | [] => false
  | c :: cs =>
    Condition.breaks sight c ||
      ((Condition.truth ts ps sight c == some true) == b && Condition.breaksBefore b sight cs)

end

end

mutual

/-- The conditions that have to hold one by one for a condition to hold. -/
def Condition.conjuncts : Condition → List Condition
  | .test t => [.test t]
  | .rowExists table label tests => [.rowExists table label tests]
  | .all cs => Condition.conjunctsOfAll cs
  | .any [c] => Condition.conjuncts c
  | .any cs => [.any cs]
  | .not c => [.not c]

def Condition.conjunctsOfAll : List Condition → List Condition
  | [] => []
  | c :: cs => Condition.conjuncts c ++ Condition.conjunctsOfAll cs

end

mutual

/-- Whether a condition looks at no row. -/
def Condition.isConstant : Condition → Bool
  | .test _ => true
  | .rowExists _ _ _ => false
  | .all cs | .any cs => Condition.areConstant cs
  | .not c => Condition.isConstant c

def Condition.areConstant : List Condition → Bool
  | [] => true
  | c :: cs => Condition.isConstant c && Condition.areConstant cs

end

/-- Whether selecting from rows by a condition comes to too long a pattern. Conjuncts that look at no row are tried
    before all rows. -/
def breaksOn (ts : Tables) (ps : List Datum) (c : Condition) (rows : List Row) : Bool :=
  let (constant, others) := c.conjuncts.partition Condition.isConstant
  constant.all (fun c => c.truth ts ps [] == some true) &&
    rows.any fun r => Condition.breaksBefore ts ps true [(.row, r)] others

/-- What a statement with a condition is refused for when it runs over rows. -/
def checkRows (ts : Tables) (ps : List Datum) (c : Option Condition) (rows : List Row) : Except Excess Unit :=
  match c with
  | none => .ok ()
  | some c => if ps.any isLongPattern && breaksOn ts ps c rows then .error .pattern else .ok ()

/-- Rows up to the one with which a number of them satisfies a condition. -/
def rowsUpTo (ts : Tables) (ps : List Datum) (c : Option Condition) (n : Nat) : List Row → List Row
  | [] => []
  | r :: rs =>
    if n = 0 then [] else r :: rowsUpTo ts ps c (if satisfies ts ps c r then n - 1 else n) rs

/-- The rows that a statement looks at: all of its table, but in the order of their ids, and only until the page is
    full, if it sorts by nothing else. -/
def Statement.visited (ts : Tables) (ps : List Datum) (s : Statement) : List Row :=
  match s.sortings, s.page with
  | [], some p =>
    rowsUpTo ts ps s.filter ((p.offset.map (rowNumber ps)).getD 0 + rowNumber ps p.count) (sorted ts ps [] (ts s.table))
  | _, _ => ts s.table

end DocStore.Sql
