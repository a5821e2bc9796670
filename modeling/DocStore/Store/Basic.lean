import DocStore.Assoc
import DocStore.Error
import DocStore.Schema.Basic
import DocStore.Sql.Evaluation
import DocStore.Step

/-!
The store: for each structure type a set of two tables, one of payloads and one of index rows, and the bookkeeping that
tells which shapes the sets were brought to and which identities come next. A store whose bookkeeping is missing does
not count as a database, whatever tables it holds.
-/

namespace DocStore

open Sql (Datum Affinity Row Tables)

namespace Store

structure StructureRow where
  id : Datum
  payload : String
deriving DecidableEq, Repr

/-- A value of a structure, in the value column of its code. -/
structure IndexRow where
  id : Datum
  path : String
  code : TypeCode
  value : Datum
deriving DecidableEq, Repr

/-- An index of a table of index rows. -/
structure Index where
  name : String
  /-- the path whose rows hold no value twice in the column of the code -/
  unique : Option (String × TypeCode)
deriving DecidableEq, Repr

/-- The two tables of a set. Their names keep the spelling with which they were created. -/
structure TableSet where
  stem : String
  affinity : Affinity
  rows : List StructureRow := []
  indexRows : List IndexRow := []
  indexes : List Index := []
deriving DecidableEq, Repr, Inhabited

structure Bookkeeping where
  fingerprints : Assoc Key String := []
  nextIds : Assoc Key Int := []
deriving DecidableEq, Repr, Inhabited

end Store

structure Store where
  location : String := ":memory:"
  readOnly : Bool := false
  bookkeeping : Option Store.Bookkeeping := none
  /-- the sets by their folded stems -/
  sets : Assoc String Store.TableSet := []
deriving DecidableEq, Repr, Inhabited

namespace Store

abbrev Do (α : Type) := Step Error Store α

/-! ### Rows -/

def StructureRow.row (r : StructureRow) : Row
  | .id => r.id
  | .payload => .text r.payload
  | .path | .value _ => .null

def IndexRow.row (r : IndexRow) : Row
  | .id => r.id
  | .path => .text r.path
  | .value c => if c = r.code then r.value else .null
  | .payload => .null

/-- Whether two data are equal; a null is equal to none. -/
def same (a b : Datum) : Bool := a.test .eq b == some true

/-- Whether a datum lies between two others, which count. -/
def within (low high d : Datum) : Bool := d.test .ge low == some true && d.test .le high == some true

/-! ### Sets -/

namespace TableSet

def structureTable (t : TableSet) : String := Schema.structureTableOf t.stem

def indexesTable (t : TableSet) : String := Schema.indexesTableOf t.stem

/-- The rows of the table of a name, if it is one of the two. -/
def rowsOf? (t : TableSet) (name : String) : Option (List Row) :=
  if Text.sameName name t.structureTable then some (t.rows.map StructureRow.row)
  else if Text.sameName name t.indexesTable then some (t.indexRows.map IndexRow.row)
  else none

/-- An id as the id columns hold it. -/
def idDatum (t : TableSet) (id : DocId) : Datum := t.affinity.apply (.ofValue id.toValue)

/-- Whether a datum can be looked for among the structures: ids that are identities are found by integers only, even
    where another number is equal to one of them. -/
def isKey (t : TableSet) : Datum → Bool
  | .integer _ => true
  | _ => t.affinity != .integer

/-- Whether looking for a datum finds the structure of an id. -/
def finds (t : TableSet) (key id : Datum) : Bool := t.isKey key && same id key

/-- Whether looking for some data finds the structure of an id. Of equal ones the last one counts. -/
def findsAny (t : TableSet) (keys : List Datum) (id : Datum) : Bool := (keys.reverse.find? (same id)).any t.isKey

def rowsWhere (t : TableSet) (p : Datum → Bool) : List StructureRow := t.rows.filter fun r => p r.id

end TableSet

def byId (rows : List StructureRow) : List StructureRow := rows.mergeSort fun a b => compare a.id b.id != .gt

/-- The payloads of rows in the order of the ids. -/
def orderedPayloads (rows : List StructureRow) : List String := (byId rows).map (·.payload)

/-! ### Names -/

/-- A name with the cases of its ASCII letters made equal. -/
def folded (s : String) : String := String.ofList (Text.foldCase s.toList)

def set? (st : Store) (s : Schema) : Option TableSet := st.sets.get? (folded s.stem)

def putSet (st : Store) (t : TableSet) : Store := { st with sets := st.sets.insert (folded t.stem) t }

/-- The rows of the table of a name. -/
def rowsOf? (st : Store) (name : String) : Option (List Row) := st.sets.findSome? fun (_, t) => t.rowsOf? name

def tables (st : Store) : Tables := fun name => (st.rowsOf? name).getD []

def hasTable (st : Store) (name : String) : Bool := (st.rowsOf? name).isSome

def hasIndex (st : Store) (name : String) : Bool :=
  st.sets.any fun (_, t) => t.indexes.any fun i => Text.sameName name i.name

/-! ### Missing tables -/

def noTable (name : String) : String := "no such table: " ++ name

/-- The set of a schema, asked for by the table of payloads. -/
def structureSet (st : Store) (s : Schema) : Except StoreError TableSet :=
  match st.set? s with
  | some t => .ok t
  | none => .error (.queryFailed (noTable s.structureTable))

/-- The set of a schema, asked for by the table of index rows. -/
def indexSet (st : Store) (s : Schema) : Except StoreError TableSet :=
  match st.set? s with
  | some t => .ok t
  | none => .error (.queryFailed (noTable s.indexesTable))

end Store

end DocStore
