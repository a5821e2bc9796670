import DocStore.Session.Reading

/-!
Writes of a session. Every write that the store accepted is followed by the removal of what the cache holds for it. Items
without an id are given one: a new GUID, or an identity from a block that is reserved for the whole batch.
-/

namespace DocStore.Session

open Cache (Provider)
open Database (Do)

variable (ses : Session)

def missingId : Error := .validation (.requiredFieldMissing idMember)

/-- Takes what the cache holds for ids out. -/
def invalidate (s : Schema) (ids : List DocId) : Do Unit := Database.onCache (Provider.removeMany s.key ids)

/-- Clears what the cache holds for a type. -/
def invalidateAll (s : Schema) : Do Unit := Database.onCache (Provider.clearFor s.key)

/-! ### Ids -/

def takeGuids (count : Nat) : Do (List DocId) := Step.change fun db =>
  ((List.range count).map fun i => .guid (Guid.inSequence (db.guids + i)), { db with guids := db.guids + count })

def block (first : Int) (count : Nat) : List RawId := (List.range count).map fun (i : Nat) => .int (first + (i : Int))

/-- The most identities that are reserved at once: the client counts them in 32 bits. -/
def greatestBlock : Nat := 4294967295

def blockTooLarge (count : Nat) : Error :=
  .validation (.invalidValue "items" s!"cannot reserve {count} identities at once")

/-- A block of new identities. -/
def assignBlock (s : Schema) (count : Nat) : Do (List DocId) :=
  if greatestBlock < count then Step.fail (blockTooLarge count)
  else do
    let first ← Database.onStore (ses.client.reserve s count)
    Step.ofExcept (convertAll s (block first count))

/-- As many new ids as asked for. -/
def assignIds (s : Schema) (count : Nat) : Do (List DocId) :=
  if count = 0 then pure []
  else
    match s.idType with
    | .guid => takeGuids count
    | .identity | .bigIdentity => ses.assignBlock s count
    | .string => Step.fail missingId

/-! ### Inserting -/

/-- Writes a document under an id. -/
def writeDocument (s : Schema) (document : Json) (id : DocId) : Do Unit := do
  let (payload, es) ← Step.ofExcept ((Payload.withId s document id).mapError Error.validation)
  ses.onStore (Store.insert s id payload es)
  invalidate s [id]

def documentOf (item : Item) : Do Json := do
  let db ← Step.state
  Step.ofExcept ((item.written db.config.excluded).mapError Error.serialization)

def insertItem (s : Schema) (item : Item) (id : DocId) : Do Unit := do
  let document ← documentOf item
  ses.writeDocument s document id

/-- Inserts items one after the other; those without an id take the next one of the given ids. -/
def insertEach (s : Schema) : List Item → List DocId → Do (List DocId)
  | [], _ => pure []
  | item :: items, assigned =>
    match item.id?, assigned with
    | some id, assigned => do
      let id ← Step.ofExcept (convert s (.id id))
      ses.insertItem s item id
      let ids ← insertEach s items assigned
      pure (id :: ids)
    | none, id :: assigned => do
      ses.insertItem s item id
      let ids ← insertEach s items assigned
      pure (id :: ids)
    | none, [] => Step.fail missingId

/-- Inserts items, for those of which without an id new ones are taken all at once. -/
def insertItems (s : Schema) (items : List Item) : Do (List DocId) := do
  let assigned ← ses.assignIds s (items.filter fun i => i.id?.isNone).length
  ses.insertEach s items assigned

/-- Inserts several items; tells their ids. -/
def insertMany (k : Kind) (items : List Item) : Do (List DocId) :=
  if items.isEmpty then Step.fail (.validation (.emptyCollection "items"))
  else do
    let s ← ses.prepare k
    ses.insertItems s items

def onlyId : List DocId → Do DocId
  | [id] => pure id
  | _ => Step.fail missingId

/-- Inserts an item; tells its id. -/
def insert (k : Kind) (item : Item) : Do DocId := do
  let ids ← ses.insertMany k [item]
  onlyId ids

/-! ### Inserting texts -/

/-- What a text was read as: a document, and the id that it carries, if any. -/
structure Parsed where
  document : Json
  id? : Option DocId
deriving Repr, Inhabited

def idOf (s : Schema) (document : Json) : Except Error (Option DocId) :=
  match document.member? idMember with
  | none | some .null => .ok none
  | some v => (convert s (.json v)).map some

/-- What a text is read as; it has to be that of an object. -/
def parsedOf (excluded : List String) (s : Schema) (text : String) : Except Error Parsed := do
  let document ← (Payload.parse excluded text).mapError Error.serialization
  if !document.isObject then throw (.validation (Payload.notObject s))
  let id? ← idOf s document
  pure ⟨document, id?⟩

/-- What texts are read as; the first one that cannot be read decides. -/
def parsedAll (excluded : List String) (s : Schema) : List String → Except Error (List Parsed)
  | [] => .ok []
  | t :: ts =>
    match parsedOf excluded s t with
    | .error e => .error e
    | .ok p => (parsedAll excluded s ts).map (p :: ·)

/-- Writes documents that were read one after the other; those without an id take the next one of the given ids. -/
def writeEach (s : Schema) : List Parsed → List DocId → Do (List DocId)
  | [], _ => pure []
  | p :: ps, assigned =>
    match p.id?, assigned with
    | some id, assigned => do
      ses.writeDocument s p.document id
      let ids ← writeEach s ps assigned
      pure (id :: ids)
    | none, id :: assigned => do
      ses.writeDocument s p.document id
      let ids ← writeEach s ps assigned
      pure (id :: ids)
    | none, [] => Step.fail missingId

/-- Inserts several structures given as texts, all of which are read before the first is written. -/
def insertManyJson (k : Kind) (texts : List String) : Do (List DocId) :=
  if texts.isEmpty then Step.fail (.validation (.emptyCollection "payloads"))
  else do
    let s ← ses.prepare k
    let db ← Step.state
    let ps ← Step.ofExcept (parsedAll db.config.excluded s texts)
    let assigned ← ses.assignIds s (ps.filter fun p => p.id?.isNone).length
    ses.writeEach s ps assigned

def insertJson (k : Kind) (text : String) : Do DocId := do
  let ids ← ses.insertManyJson k [text]
  onlyId ids

/-! ### Replacing and deleting -/

/-- Replaces a stored structure by an item that carries its id. -/
def update (k : Kind) (item : Item) : Do Unit := do
  let s ← ses.prepare k
  match item.id? with
  | none => Step.fail missingId
  | some id =>
    let id ← Step.ofExcept (convert s (.id id))
    let document ← documentOf item
    let (payload, es) ← Step.ofExcept ((Payload.withId s document id).mapError Error.validation)
    ses.onStore (Store.replace s id payload es)
    invalidate s [id]

/-- Deletes structures by their ids; tells how many there were. -/
def deleteMany (k : Kind) (raws : List RawId) : Do Nat := do
  let s ← ses.prepare k
  let ids ← Step.ofExcept (convertSome s raws)
  let n ← ses.onStore (Store.deleteMany s ids)
  invalidate s ids
  pure n

/-- Deletes a structure; tells whether there was one. -/
def delete (k : Kind) (raw : RawId) : Do Bool := do
  let n ← ses.deleteMany k [raw]
  pure (0 < n)

/-- Deletes the structures of an interval of identities; tells how many there were. -/
def deleteInterval (k : Kind) (low high : RawId) : Do Nat := do
  let s ← ses.prepare k
  Step.ofExcept (Store.checkIdentities "delete_by_id_interval" s)
  let low ← Step.ofExcept (convert s low)
  let high ← Step.ofExcept (convert s high)
  let n ← ses.onStore (Store.deleteInterval s low high)
  invalidateAll s
  pure n

/-- Deletes the structures that satisfy a predicate; tells how many there were. -/
def deleteQuery (k : Kind) (p : Predicate) : Do Nat := do
  let s ← ses.prepare k
  let f ← Step.ofExcept (filterOf s p)
  let ids ← ses.onStore (Store.idsWhere s f)
  if ids.isEmpty then pure 0
  else
    let n ← ses.onStore (Store.deleteMany s ids)
    invalidateAll s
    pure n

end DocStore.Session
