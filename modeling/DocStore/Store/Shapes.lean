import DocStore.Store.Basic

/-!
The life of a database and of the sets in it: creating and dropping the database, bringing a set to the shape of a
schema, dropping a set. Each of them is done as a whole or not at all.
-/

namespace DocStore.Store

open Sql (Affinity)

/-! ### The database -/

def isCreated (st : Store) : Bool := st.bookkeeping.isSome

/-- The store with a database, which stays as it is if there is one. -/
def created (st : Store) : Store := { st with bookkeeping := some (st.bookkeeping.getD {}) }

/-- Whether a name looks like one of the engine's own tables, an underscore in the pattern being any character. -/
def isEngineName (name : String) : Bool := Sql.Like.isLike Dialect.likeEscape "sqlite_%" name

/-- The store without a database; sets whose tables look like the engine's own stay. -/
def emptied (st : Store) : Store :=
  { st with bookkeeping := none, sets := st.sets.filter fun (_, t) => isEngineName t.structureTable }

/-- Makes the database that a change leads to, unless the store may only be read. -/
def creating (f : Store → Store) : Do Unit := Step.transaction fun st =>
  if st.readOnly then .error (.store (.databaseFailed "attempt to write a readonly database")) else .ok ((), f st)

def create : Do Unit := creating created

def ensureNew : Do Unit := creating fun st => st.emptied.created

def dropDatabase : Do Unit := Step.update emptied

def openExisting : Do Unit := Step.transaction fun st =>
  if st.isCreated then .ok ((), st.created)
  else .error (.store (.databaseFailed ("database at " ++ st.location ++ " does not exist")))

/-! ### Names of tables and indexes -/

/-- Refuses a name that the engine keeps for itself. -/
def checkName (name : String) : Except String Unit :=
  if Text.startsWithName "sqlite_" name then .error ("object name reserved for internal use: " ++ name) else .ok ()

/-- Refuses a name for a table that is not there yet, if an index has it. -/
def checkTable (st : Store) (name : String) : Except String Unit := do
  checkName name
  if !st.hasTable name && st.hasIndex name then throw ("there is already an index named " ++ name)

/-! ### Indexes -/

/-- Whether two rows of the path hold the same value in the column of the code. -/
def hasRepeat (path : String) (code : TypeCode) : List IndexRow → Bool
  | [] => false
  | r :: rs =>
    (r.path == path && r.code == code &&
      rs.any fun r' => r'.path == path && r'.code == code && same r.value r'.value) ||
    hasRepeat path code rs

/-- What a row that is there already is refused with. -/
def TableSet.notUnique (t : TableSet) (code : TypeCode) : String :=
  "UNIQUE constraint failed: " ++ t.indexesTable ++ "." ++ code.column

/-- Gives a set an index, unless an index of that name is there. -/
def ensureIndex (s : Schema) (st : Store) (i : Index) : Except String Store := do
  checkName i.name
  if st.hasTable i.name then throw ("there is already a table named " ++ i.name)
  match st.set? s with
  | none => pure st
  | some t =>
    if st.hasIndex i.name then pure st
    else
      match i.unique with
      | some (path, code) =>
        if hasRepeat path code t.indexRows then throw (t.notUnique code)
        pure (st.putSet { t with indexes := t.indexes ++ [i] })
      | none => pure (st.putSet { t with indexes := t.indexes ++ [i] })

/-- The indexes that a set of a schema has: of the ids, of the paths and of the unique members. -/
def indexesOf (s : Schema) : List Index :=
  let table := s.indexesTable
  [⟨table ++ "_" ++ Sql.Column.id.name, none⟩, ⟨table ++ "_" ++ Sql.Column.path.name, none⟩] ++
    (s.members.filter (·.unique)).map fun m => ⟨table ++ "_uq_" ++ m.path, some (m.path, m.code)⟩

/-! ### Shapes -/

def withTables (s : Schema) (st : Store) : Except String Store := do
  st.checkTable s.structureTable
  st.checkTable s.indexesTable
  match st.set? s with
  | some _ => pure st
  | none => pure (st.putSet { stem := s.stem, affinity := Affinity.ofIdType s.idType })

/-- The set without the index rows of members that a schema does not have. -/
def TableSet.withoutStale (t : TableSet) (s : Schema) : TableSet :=
  { t with indexRows := t.indexRows.filter fun r => s.members.any (·.path == r.path) }

def shaped (s : Schema) (st : Store) : Except String Store := do
  let st ← withTables s st
  let st ← (indexesOf s).foldlM (ensureIndex s) st
  match st.set? s with
  | some t => pure (st.putSet (t.withoutStale s))
  | none => pure st

def schemaFailed (s : Schema) (reason : String) : Error := .store (.schemaFailed s.key.text reason)

/-- What the table of fingerprints is missed as. -/
def noSchemas : String := noTable "quarry_schemas"

/-- What the table of identities is missed as. -/
def noIdentities : String := noTable "quarry_identities"

/-- Brings the set of a schema to its shape; nothing is done if it was brought to this shape last. -/
def upsert (s : Schema) : Do Unit := Step.transaction fun st =>
  match st.bookkeeping with
  | none => .error (.store (.databaseFailed ("database is not initialized: " ++ noSchemas)))
  | some b =>
    if b.fingerprints.get? s.key = some s.fingerprint then .ok ((), st)
    else
      match shaped s st with
      | .error reason => .error (schemaFailed s reason)
      | .ok st =>
        .ok ((), { st with bookkeeping := some { b with fingerprints := b.fingerprints.insert s.key s.fingerprint } })

/-- Drops the set of a schema and forgets its fingerprint and its identities. -/
def drop (s : Schema) : Do Unit := Step.transaction fun st =>
  match st.bookkeeping with
  | none => .error (schemaFailed s noSchemas)
  | some b =>
    .ok ((), { st with
      sets := st.sets.erase (folded s.stem)
      bookkeeping := some ⟨b.fingerprints.erase s.key, b.nextIds.erase s.key⟩ })

end DocStore.Store
