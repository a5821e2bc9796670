import DocStore.Query.Compile
import DocStore.Sql.Limits
import DocStore.Sql.RawSelect
import DocStore.Store.Basic

/-! Reads of a store: by ids, by intervals of ids, by compiled statements and by statements of the caller's own. -/

namespace DocStore.Store

open Sql (Datum Affinity Row)

/-- A read that may miss a table. -/
def reading {α : Type} (f : Store → Except StoreError α) : Do α := Step.query fun st => (f st).mapError Error.store

/-! ### By id -/

def fetch (s : Schema) (id : DocId) : Do (Option String) := reading fun st => do
  let t ← st.structureSet s
  pure ((t.rows.find? fun r => t.finds (t.idDatum id) r.id).map (·.payload))

def holds (s : Schema) (id : DocId) : Do Bool := reading fun st => do
  let t ← st.structureSet s
  pure (t.rows.any fun r => t.finds (t.idDatum id) r.id)

/-- An id as it is read back from its column. -/
def idOf (t : IdType) (d : Datum) : Except Error DocId :=
  match d with
  | .integer n => (DocId.convert (.int n) t).mapError Error.validation
  | .text s => (DocId.convert (.text s) t).mapError Error.validation
  | .null => .error (.store (.queryFailed "unexpected StructureId column value Null"))
  | .real x =>
    .error (.store (.queryFailed ("unexpected StructureId column value Real(" ++ (Json.Number.double x).text ++ ")")))

def idsOf (t : IdType) : List Datum → Except Error (List DocId)
  | [] => .ok []
  | d :: ds =>
    match idOf t d with
    | .error e => .error e
    | .ok id => (idsOf t ds).map (id :: ·)

/-- Cuts a list into parts of at most `n + 1` items. -/
def chunks {α : Type} (n : Nat) : List α → List (List α)
  | [] => []
  | x :: xs => (x :: xs.take n) :: chunks n (xs.drop n)
termination_by xs => xs.length
decreasing_by simp only [List.length_drop, List.length_cons]; omega

def idChunks (ids : List DocId) : List (List DocId) := chunks 499 ids

/-- The structures of some ids with their ids, which are visited in their own order. -/
def fetchChunk (s : Schema) (st : Store) (ids : List DocId) : Except Error (List (DocId × String)) := do
  let t ← (st.structureSet s).mapError Error.store
  let found := byId (t.rowsWhere (t.findsAny (ids.map t.idDatum)))
  let back ← idsOf s.idType (found.map (·.id))
  pure (back.zip (found.map (·.payload)))

def fetchChunks (s : Schema) (st : Store) : List (List DocId) → Except Error (List (DocId × String))
  | [] => .ok []
  | ids :: rest =>
    match fetchChunk s st ids with
    | .error e => .error e
    | .ok found => (fetchChunks s st rest).map (found ++ ·)

/-- The structures of the ids that exist, with their ids; a repeated id counts once in each chunk. -/
def fetchMany (s : Schema) (ids : List DocId) : Do (List (DocId × String)) :=
  Step.query fun st => fetchChunks s st (idChunks ids)

/-! ### By the order of ids -/

def fetchInterval (s : Schema) (low high : DocId) : Do (List String) := reading fun st => do
  let t ← st.structureSet s
  pure (orderedPayloads (t.rowsWhere (within (t.idDatum low) (t.idDatum high))))

def fetchAll (s : Schema) : Do (List String) := reading fun st => do
  let t ← st.structureSet s
  pure (orderedPayloads t.rows)

def count (s : Schema) : Do Nat := reading fun st => do
  let t ← st.structureSet s
  pure t.rows.length

/-! ### By statements -/

def payloadOf (r : Row) : String :=
  match r .payload with
  | .text s => s
  | _ => ""

/-- What the values of a statement are bound as. -/
def boundData (vs : List Value) : List Datum := vs.map Datum.ofValue

/-- Refuses a statement of which there is too much. -/
def bounded (sql : String) (r : Except Sql.Excess Unit) : Except StoreError Unit :=
  r.mapError fun x => .queryFailed (x.message sql)

def select (q : CompiledQuery) : Do (List String) := reading fun st => do
  let s := q.statement
  let ps := boundData q.bound
  bounded q.text (Sql.checkText s.filter s.slotsAfterFilter)
  if !st.hasTable s.table then throw (.queryFailed (noTable s.table))
  bounded q.text (Sql.checkNames s.filter s.sortTermCount)
  bounded q.text (Sql.checkRows st.tables ps s.filter (s.visited st.tables ps))
  pure ((s.rows st.tables ps).map payloadOf)

/-- What a statement selects from before its condition. -/
def fromStructures (s : Schema) : String := " from " ++ Sql.source .sqlite s.structureTable .row

/-- The text of a statement that counts the structures with a condition. -/
def countText (s : Schema) (f : CompiledFilter) : String := "select count(*)" ++ fromStructures s ++ f.clause

/-- The text of a statement that selects the ids of the structures with a condition. -/
def idsText (s : Schema) (f : CompiledFilter) : String :=
  let id := (Sql.ColumnRef.mk .row .id).text .sqlite
  "select " ++ id ++ fromStructures s ++ f.clause ++ " order by " ++ id

/-- The structures that satisfy a compiled filter, as a statement with a number of sort terms finds them. -/
def filtered (s : Schema) (f : CompiledFilter) (sql : String) (sortTerms : Nat) (st : Store) :
    Except StoreError (List StructureRow) := do
  let ps := boundData f.bound
  bounded sql (Sql.checkText f.condition [])
  let t ← st.structureSet s
  bounded sql (Sql.checkNames f.condition sortTerms)
  bounded sql (Sql.checkRows st.tables ps f.condition (t.rows.map (·.row)))
  pure (t.rows.filter fun r => Sql.satisfies st.tables ps f.condition r.row)

def countWhere (s : Schema) (f : CompiledFilter) : Do Nat :=
  reading fun st => (filtered s f (countText s f) 0 st).map (·.length)

/-- The ids of the structures that satisfy a compiled filter, in their order. -/
def idsWhere (s : Schema) (f : CompiledFilter) : Do (List DocId) := Step.query fun st => do
  let found ← (filtered s f (idsText s f) 1 st).mapError Error.store
  idsOf s.idType ((byId found).map (·.id))

/-! ### Statements of the caller's own -/

/-- What is said when more or fewer parameters are given than needed. Of those given, one too many is counted. -/
def parameterMismatch (given needed : Nat) : StoreError :=
  let got := String.ofList (Text.decimal (min given (needed + 1)))
  .queryFailed ("Wrong number of parameters passed to query. Got " ++ got ++ ", needed " ++
    String.ofList (Text.decimal needed))

def affinityOf (st : Store) (name : String) : Affinity :=
  (st.sets.findSome? fun (_, t) => if (t.rowsOf? name).isSome then some t.affinity else none).getD default

/-- The payloads that a statement of the caller's own selects. -/
def selectRaw (q : RawQuery) : Do (List String) := reading fun st =>
  match Sql.RawSelect.ofText? q.sql with
  | none => .error (.queryFailed "the statement is no select of payloads")
  | some r =>
    match st.rowsOf? r.table with
    | none => .error (.queryFailed (noTable r.table))
    | some rows =>
      if q.parameters.length ≠ r.parameterCount then
        .error (parameterMismatch q.parameters.length r.parameterCount)
      else
        let ps := boundData (q.parameters.map (·.value))
        .ok ((r.run (st.affinityOf r.table) ps rows).map payloadOf)

end DocStore.Store
