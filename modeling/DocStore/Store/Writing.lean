import DocStore.Schema.Extraction
import DocStore.Store.Reading
import DocStore.Store.Shapes

/-!
Writes to a store: inserting, replacing and deleting structures with their index rows, and reserving identities. A
write that fails leaves nothing behind.
-/

namespace DocStore.Store

open Sql (Datum)

/-! ### Rows of one set -/

namespace TableSet

/-- Adds a structure whose id is not there yet. -/
def insertRow (t : TableSet) (id : Datum) (payload : String) : Except StoreError TableSet :=
  match t.affinity, id with
  | .integer, .null | .integer, .real _ | .integer, .text _ => .error (.queryFailed "datatype mismatch")
  | _, _ =>
    if t.rows.any fun r => same r.id id then
      .error (.queryFailed ("UNIQUE constraint failed: " ++ t.structureTable ++ "." ++ Sql.Column.id.name))
    else .ok { t with rows := t.rows ++ [⟨id, payload⟩] }

/-- Whether an index forbids a row beside another one. -/
def forbids (r : IndexRow) (i : Index) (r' : IndexRow) : Bool :=
  match i.unique with
  | some (path, code) =>
    r.path == path && r.code == code && r'.path == path && r'.code == code && same r.value r'.value
  | none => false

/-- Adds an index row that no unique index forbids. -/
def insertIndexRow (t : TableSet) (r : IndexRow) : Except StoreError TableSet :=
  if t.indexes.any fun i => t.indexRows.any (forbids r i) then .error (.queryFailed (t.notUnique r.code))
  else .ok { t with indexRows := t.indexRows ++ [r] }

/-- Adds the index rows of a structure one after the other. -/
def insertEntries (id : Datum) : TableSet → List IndexEntry → Except StoreError TableSet
  | t, [] => .ok t
  | t, e :: es =>
    match t.insertIndexRow ⟨id, e.path, e.code, .ofValue e.value⟩ with
    | .error err => .error err
    | .ok t => insertEntries id t es

def withoutIndexRows (t : TableSet) (p : Datum → Bool) : TableSet :=
  { t with indexRows := t.indexRows.filter fun r => !p r.id }

def withoutRows (t : TableSet) (p : Datum → Bool) : TableSet := { t with rows := t.rows.filter fun r => !p r.id }

def withPayload (t : TableSet) (id : Datum) (payload : String) : TableSet :=
  { t with rows := t.rows.map fun r => if same r.id id then { r with payload := payload } else r }

end TableSet

/-! ### Structures -/

/-- A write that may miss a table or break a rule of one. -/
def writing {α : Type} (f : Store → Except StoreError (α × Store)) : Do α :=
  Step.transaction fun st => (f st).mapError Error.store

def insert (s : Schema) (id : DocId) (payload : String) (es : List IndexEntry) : Do Unit := writing fun st => do
  let t ← st.structureSet s
  let key := t.idDatum id
  let t ← t.insertRow key payload
  let t ← t.insertEntries key es
  pure ((), st.putSet t)

/-- Replaces the payload and the index rows of a structure that is there. -/
def replace (s : Schema) (id : DocId) (payload : String) (es : List IndexEntry) : Do Unit := writing fun st => do
  let t ← st.structureSet s
  let key := t.idDatum id
  if !t.rows.any fun r => t.finds key r.id then throw (.notFound s.key.text id.text)
  let t ← ((t.withPayload key payload).withoutIndexRows (same · key)).insertEntries key es
  pure ((), st.putSet t)

/-- Deletes the structures of some ids; tells how many there were. -/
def deleteChunk (s : Schema) (st : Store) (ids : List DocId) : Except StoreError (Nat × Store) := do
  let t ← st.indexSet s
  let keys := ids.map t.idDatum
  let p := t.findsAny keys
  pure ((t.rowsWhere p).length, st.putSet ((t.withoutIndexRows fun d => keys.any (same d)).withoutRows p))

def deleteChunks (s : Schema) : Store → List (List DocId) → Except StoreError (Nat × Store)
  | st, [] => .ok (0, st)
  | st, ids :: rest =>
    match deleteChunk s st ids with
    | .error e => .error e
    | .ok (n, st) => (deleteChunks s st rest).map fun (m, st) => (n + m, st)

/-- Deletes the structures of ids; tells how many there were. -/
def deleteMany (s : Schema) (ids : List DocId) : Do Nat := writing fun st => deleteChunks s st (idChunks ids)

/-- Deletes the structures of an interval of ids; tells how many there were. -/
def deleteInterval (s : Schema) (low high : DocId) : Do Nat := writing fun st => do
  let t ← st.indexSet s
  let p := within (t.idDatum low) (t.idDatum high)
  pure ((t.rowsWhere p).length, st.putSet ((t.withoutIndexRows p).withoutRows p))

/-! ### Identities -/

/-- The greatest of zero and some ids; none if one of them is a text. -/
def greatestId? (rows : List StructureRow) : Option Int :=
  rows.foldr (fun r m =>
    match r.id, m with
    | .integer n, some m => some (max n m)
    | _, _ => none) (some 0)

/-- What is said when the greatest id is a text. -/
def noGreatestId : StoreError :=
  .queryFailed ("Invalid column type Text at index: 0, name: coalesce(max(" ++
    Dialect.sqlite.identifier Sql.Column.id.name ++ "), 0)")

/-- Refuses to count up ids that are no identities. -/
def checkIdentities (operation : String) (s : Schema) : Except Error Unit :=
  if s.idType.isIdentity then .ok () else .error (.unsupported (.idType operation s.key.text s.idType.name))

/-- Reserves a block of identities after all that are stored or were reserved; tells the first one of the block.

    A program counts in 64 bits here: the two agree as long as the end of the block, `first + count`, is not above
    `Text.maxInt64`. What a program does with a greater block is left open. -/
def reserve (s : Schema) (count : Nat) : Do Int := writing fun st =>
  match st.bookkeeping with
  | none => .error (.queryFailed noIdentities)
  | some b => do
    let t ← st.structureSet s
    match greatestId? t.rows with
    | none => throw noGreatestId
    | some n =>
      let first := max ((b.nextIds.get? s.key).getD 1) (n + 1)
      pure (first, { st with bookkeeping := some { b with nextIds := b.nextIds.insert s.key (first + count) } })

end DocStore.Store
