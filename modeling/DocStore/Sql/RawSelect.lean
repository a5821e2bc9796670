import DocStore.Query.Compile
import DocStore.Sql.Evaluation
import DocStore.Sql.Token

/-!
Selects that callers write themselves: payloads of one table, in the order of a column, where one column may be
compared with a placeholder.
-/

namespace DocStore.Sql

/-- A comparison of a column with the parameter of a number, the first one being 1. -/
structure RawSelect.Filter where
  column : Column
  op : Comparison
  number : Nat
deriving DecidableEq, Repr

structure RawSelect where
  table : String
  filter : Option RawSelect.Filter
  column : Column
  direction : Direction
deriving DecidableEq, Repr

namespace RawSelect

def isKeyword (word : String) : Token → Bool
  | .word s => Text.sameName s word
  | _ => false

/-- The tokens after some keywords. -/
def afterKeywords? : List String → List Token → Option (List Token)
  | [], ts => some ts
  | w :: ws, t :: ts => if isKeyword w t then afterKeywords? ws ts else none
  | _ :: _, [] => none

def columnOf? (name : String) : Option Column :=
  [Column.id, .payload].find? fun c => Text.sameName c.name name

def operatorOf? (sign : String) : Option Comparison :=
  [Comparison.eq, .ne, .lt, .le, .gt, .ge].find? (·.sql == sign)

def numberOf? (placeholder : String) : Option Nat :=
  match placeholder.toList with
  | '?' :: ds => (Text.natural? ds).filter (0 < ·)
  | _ => none

/-- The comparison after the keyword that introduces it, if there is one. -/
def filterOf? : List Token → Option (Option Filter × List Token)
  | .word w :: .name column :: .sign op :: .placeholder p :: ts =>
    if Text.sameName w "where" then do pure (some ⟨← columnOf? column, ← operatorOf? op, ← numberOf? p⟩, ts) else none
  | ts => some (none, ts)

/-- The direction at the end, upwards if none is given. -/
def directionOf? : List Token → Option Direction
  | [] => some .asc
  | [t] => if isKeyword "asc" t then some .asc else if isKeyword "desc" t then some .desc else none
  | _ => none

def ofTokens? (ts : List Token) : Option RawSelect := do
  match ← afterKeywords? ["select"] ts with
  | .name payload :: ts =>
    if columnOf? payload ≠ some .payload then none
    else
      match ← afterKeywords? ["from"] ts with
      | .name table :: ts =>
        let (filter, ts) ← filterOf? ts
        match ← afterKeywords? ["order", "by"] ts with
        | .name column :: ts => pure ⟨table, filter, ← columnOf? column, ← directionOf? ts⟩
        | _ => none
      | _ => none
  | _ => none

def ofText? (sql : String) : Option RawSelect := (Token.ofText? .sqlite sql).bind ofTokens?

def parameterCount (q : RawSelect) : Nat := (q.filter.map (·.number)).getD 0

/-- Whether a row passes a comparison. A parameter beside the id column takes on the affinity of that column. -/
def Filter.accepts (f : Filter) (affinity : Affinity) (ps : List Datum) (r : Row) : Bool :=
  let bound := ps.getD (f.number - 1) .null
  (r f.column).test f.op (if f.column = Column.id then affinity.apply bound else bound) == some true

/-- The rows that a select finds among the rows of its table, whose ids have an affinity. -/
def run (q : RawSelect) (affinity : Affinity) (ps : List Datum) (rows : List Row) : List Row :=
  let found : List Row := rows.filter fun r => (q.filter.map fun f => f.accepts affinity ps r).getD true
  found.mergeSort fun a b => orderIn q.direction (a q.column) (b q.column) != Ordering.gt

end RawSelect

end DocStore.Sql
