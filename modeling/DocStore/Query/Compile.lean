import DocStore.Query.Filter
import DocStore.Sql.Statement

/-!
Compiling filters and queries to statements. Each condition on a member becomes a select over the index rows of the
structure in question; labels are numbered and literals bound in the order in which they are met, so both are known
from where a part starts.
-/

namespace DocStore

open Sql

/-! ### Parts of conditions -/

/-- What every select over index rows says first: whose rows, and of which member. -/
def ofMember (inner outer : Label) (path : String) : List Equation :=
  [⟨.column ⟨inner, .id⟩, .eq, .column ⟨outer, .id⟩⟩, ⟨.column ⟨inner, .path⟩, .eq, .text path⟩]

/-- Some index row of the member satisfies the tests. -/
def memberExists (s : Schema) (m : Member) (label : Label) (tests : List Test) : Condition :=
  .rowExists s.indexesTable label ((ofMember label .row m.path).map .compare ++ tests)

def valueOf (label : Label) (m : Member) : Operand := .column ⟨label, .value m.code⟩

/-- The first value of a member for the structure of an index row. -/
def firstValue (s : Schema) (m : Member) (label outer : Label) : Scalar :=
  ⟨false, .value m.code, s.indexesTable, label, ofMember label outer m.path⟩

def leastValue (s : Schema) (m : Member) (label : Label) : Scalar :=
  ⟨true, .value m.code, s.indexesTable, label, ofMember label .row m.path⟩

/-! ### Filters -/

namespace Filter

mutual

/-- How many labels a filter needs. -/
def labelCount : Filter → Nat
  | .present _ | .compare _ _ _ | .textMatch _ _ _ | .oneOf _ _ | .between _ _ _ => 1
  | .compareMembers _ _ _ => 2
  | .never => 0
  | .all fs | .any fs => labelCountOfAll fs
  | .not f => labelCount f

def labelCountOfAll : List Filter → Nat
  | [] => 0
  | f :: fs => labelCount f + labelCountOfAll fs

end

mutual

def bound (d : Dialect) : Filter → List Value
  | .present _ | .compareMembers _ _ _ | .never => []
  | .compare _ _ v => [v]
  | .textMatch _ op t => [.string (d.pattern op t)]
  | .oneOf _ vs => vs
  | .between _ lo hi => [lo, hi]
  | .all fs | .any fs => boundOfAll d fs
  | .not f => bound d f

def boundOfAll (d : Dialect) : List Filter → List Value
  | [] => []
  | f :: fs => bound d f ++ boundOfAll d fs

end

mutual

/-- The condition of a filter whose first label and first slot have the given numbers. -/
def condition (d : Dialect) (s : Schema) (label slot : Nat) : Filter → Condition
  | .present m => memberExists s m (.index label) []
  | .compare m op _ =>
    memberExists s m (.index label) [.compare ⟨valueOf (.index label) m, op, .slot slot⟩]
  | .compareMembers l op r =>
    memberExists s l (.index label)
      [.compareScalar (valueOf (.index label) l) op (firstValue s r (.right (label + 1)) (.index label))]
  | .textMatch m _ _ =>
    memberExists s m (.index label) [.like (valueOf (.index label) m) (.slot slot) Dialect.likeEscape]
  | .never => .test (.compare ⟨.number 1, .eq, .number 0⟩)
  | .oneOf m vs =>
    memberExists s m (.index label)
      [.oneOf (valueOf (.index label) m) ((List.range vs.length).map fun i => .slot (slot + i))]
  | .between m _ _ =>
    memberExists s m (.index label) [.between (valueOf (.index label) m) (.slot slot) (.slot (slot + 1))]
  | .all fs => .all (conditions d s label slot fs)
  | .any fs => .any (conditions d s label slot fs)
  | .not f => .not (condition d s label slot f)

def conditions (d : Dialect) (s : Schema) (label slot : Nat) : List Filter → List Condition
  | [] => []
  | f :: fs =>
    condition d s label slot f :: conditions d s (label + f.labelCount) (slot + (f.bound d).length) fs

end

end Filter

/-! ### Compiled statements -/

/-- Values bound in order, each under the name of its placeholder. -/
def parameters (d : Dialect) (vs : List Value) : List Parameter :=
  vs.mapIdx fun i v => ⟨d.placeholder i, v⟩

/-- A condition on the structures of a set, or none, with the values it binds. -/
structure CompiledFilter where
  dialect : Dialect
  condition : Option Condition
  bound : List Value
deriving Repr, Inhabited

namespace CompiledFilter

def text (c : CompiledFilter) : String :=
  match c.condition with
  | some x => x.text c.dialect
  | none => ""

def isEmpty (c : CompiledFilter) : Bool := c.text.isEmpty

/-- The condition after the keyword that introduces it. -/
def clause (c : CompiledFilter) : String := if c.isEmpty then "" else " where " ++ c.text

def parameters (c : CompiledFilter) : List Parameter := DocStore.parameters c.dialect c.bound

end CompiledFilter

/-- A select of payloads with the values it binds. -/
structure CompiledQuery where
  dialect : Dialect
  statement : Statement
  bound : List Value
  includes : List String
deriving Repr, Inhabited

namespace CompiledQuery

def text (c : CompiledQuery) : String := c.statement.text c.dialect

def parameters (c : CompiledQuery) : List Parameter := DocStore.parameters c.dialect c.bound

end CompiledQuery

/-- Compiles a predicate on its own, for counting, finding and deleting. -/
def Schema.compileFilter (s : Schema) (d : Dialect) : Option Predicate → Except QueryError CompiledFilter
  | none => .ok ⟨d, none, []⟩
  | some p => (p.check s).map fun f => ⟨d, some (f.condition d s 0 0), f.bound d⟩

/-! ### Queries -/

namespace Query

/-- A page has something on it, and starts later only in a stated order. -/
def checkPaging (q : Query) : Except QueryError Unit :=
  match q.paging with
  | none => .ok ()
  | some p =>
    if p.count = 0 then .error (.invalidPaging "count must be positive")
    else if 0 < p.offset && q.sortings.isEmpty then .error .pagingWithoutOrdering
    else .ok ()

def checkIncludes (s : Schema) : List String → Except QueryError Unit
  | [] => .ok ()
  | path :: paths =>
    match s.requireMember path with
    | .error e => .error e
    | .ok _ => checkIncludes s paths

/-- The members that sortings refer to. -/
def resolveSortings (s : Schema) : List Sorting → Except QueryError (List (Member × Direction))
  | [] => .ok []
  | t :: ts =>
    match s.resolve t.member with
    | .error e => .error e
    | .ok m => (resolveSortings s ts).map ((m, t.direction) :: ·)

def checkFilter (s : Schema) : Option Predicate → Except QueryError (Option Filter)
  | none => .ok none
  | some p => (p.check s).map some

/-- A number of a page as a 64-bit integer. -/
def pageNumber (what : String) (n : Nat) : Except QueryError Value :=
  if (n : Int) ≤ Text.maxInt64 then .ok (.integer n)
  else .error (.invalidPaging
    (what ++ " " ++ String.ofList (Text.decimal n) ++ " exceeds " ++ String.ofList (Text.integerText Text.maxInt64)))

/-- The numbers of a page: its count, and its offset unless that is zero. -/
def pageNumbers : Option Paging → Except QueryError (Option (Value × Option Value))
  | none => .ok none
  | some p => do
    let count ← pageNumber "count" p.count
    if p.offset = 0 then pure (some (count, none))
    else
      let offset ← pageNumber "offset" p.offset
      pure (some (count, some offset))

/-- The slots of a page whose first one has the given number, and the values bound to them. -/
def bindPage (d : Dialect) (slot : Nat) : Value × Option Value → PageSlots × List Value
  | (count, none) => (⟨slot, none⟩, [count])
  | (count, some offset) =>
    if d.countFirst then (⟨slot, some (slot + 1)⟩, [count, offset]) else (⟨slot + 1, some slot⟩, [offset, count])

/-- The sort terms of members, with labels from a number on. -/
def sortTerms (s : Schema) (label : Nat) : List (Member × Direction) → List SortTerm
  | [] => []
  | (m, d) :: ts => ⟨leastValue s m (.sort label), d⟩ :: sortTerms s (label + 1) ts

/-- A query whose parts all have a meaning over the schema. -/
structure Checked where
  filter : Option Filter
  sortings : List (Member × Direction)
  page : Option (Value × Option Value)
  includes : List String

def check (s : Schema) (q : Query) : Except QueryError Checked := do
  q.checkPaging
  checkIncludes s q.includes
  let filter ← checkFilter s q.predicate
  let sortings ← resolveSortings s q.sortings
  let page ← pageNumbers q.paging
  pure ⟨filter, sortings, page, q.includes⟩

def Checked.compile (s : Schema) (d : Dialect) (c : Checked) : CompiledQuery :=
  let bound := (c.filter.map (·.bound d)).getD []
  let page := c.page.map (bindPage d bound.length)
  let labels := (c.filter.map (·.labelCount)).getD 0
  { dialect := d
    statement :=
      { table := s.structureTable
        filter := c.filter.map (·.condition d s 0 0)
        sortings := sortTerms s labels c.sortings
        page := page.map (·.1) }
    bound := bound ++ (page.map (·.2)).getD []
    includes := c.includes }

end Query

def Schema.compileQuery (s : Schema) (d : Dialect) (q : Query) : Except QueryError CompiledQuery :=
  (q.check s).map (·.compile s d)

/-- A statement that a caller wrote, with the values for its placeholders in their order. -/
structure RawQuery where
  sql : String
  parameters : List Parameter
deriving Repr, Inhabited

namespace RawQuery

/-- Adds a value for the next placeholder. -/
def bind (q : RawQuery) (name : String) (v : Value) : RawQuery :=
  { q with parameters := q.parameters ++ [⟨name, v⟩] }

end RawQuery

end DocStore
