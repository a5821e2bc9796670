import DocStore.Session.Basic

/-! Reads of a session: by id through the cache, by intervals, queries and counts straight from the store. -/

namespace DocStore.Session

open Cache (Provider)
open Database (Do)

variable (ses : Session)

/-! ### By id -/

def get (k : Kind) (raw : RawId) : Do (Option String) := do
  let s ← ses.prepare k
  let id ← Step.ofExcept (convert s raw)
  Database.consuming (ses.client.guarded (Store.fetch s id)) (Provider.consume s.key id (ses.fetcher s) ses.mode)

def getAs (k : Kind) (raw : RawId) (v : View) : Do (Option String) := do
  match ← ses.get k raw with
  | none => pure none
  | some payload =>
    let shown ← viewed (v.render payload)
    pure (some shown)

/-- Payloads fetched without a cache, in the order of the ids. -/
def fetchInOrder (s : Schema) (ids : List DocId) : Store.Do (List String) := do
  let rows ← ses.client.guarded (Store.fetchMany s ids)
  pure (Cache.inOrder ids (Assoc.insertAll [] rows))

/-- The payloads of the ids that exist, in the order of the ids. -/
def getMany (k : Kind) (raws : List RawId) : Do (List String) := do
  let s ← ses.prepare k
  let ids ← Step.ofExcept (convertSome s raws)
  Database.consuming (ses.fetchInOrder s ids) (Provider.consumeMany s.key ids (ses.fetcher s) ses.mode)

def getManyAs (k : Kind) (raws : List RawId) (v : View) : Do (List String) := do
  let payloads ← ses.getMany k raws
  viewed (v.renderAll payloads)

def holds (k : Kind) (raw : RawId) : Do Bool := do
  let s ← ses.prepare k
  let id ← Step.ofExcept (convert s raw)
  Database.consuming (ses.client.guarded (Store.holds s id)) (Provider.exists? s.key id (ses.fetcher s) ses.mode)

/-- The structures of an interval of identities, in their order. -/
def getInterval (k : Kind) (low high : RawId) : Do (List String) := do
  let s ← ses.prepare k
  Step.ofExcept (Store.checkIdentities "get_by_id_interval" s)
  let low ← Step.ofExcept (convert s low)
  let high ← Step.ofExcept (convert s high)
  let payloads ← ses.onStore (Store.fetchInterval s low high)
  viewed ((View.ofKind k).renderAll payloads)

/-! ### Queries -/

def dialect : Dialect := .sqlite

def filterOf (s : Schema) (p : Predicate) : Except Error CompiledFilter :=
  (s.compileFilter dialect (some p)).mapError Error.query

/-- The payloads that a query asks for; one that asks for nothing in particular gets all. -/
def query (k : Kind) (q : Query) : Do (List String) := do
  let s ← ses.prepare k
  if q.isEmpty then ses.onStore (Store.fetchAll s)
  else
    let compiled ← Step.ofExcept ((s.compileQuery dialect q).mapError Error.query)
    ses.onStore (Store.select compiled)

def queryAs (k : Kind) (q : Query) (v : View) : Do (List String) := do
  let payloads ← ses.query k q
  viewed (v.renderAll payloads)

/-- How many structures satisfy the predicate of a query. -/
def count (k : Kind) (q : Query) : Do Nat := do
  let s ← ses.prepare k
  match q.predicate with
  | none => ses.onStore (Store.count s)
  | some p =>
    let f ← Step.ofExcept (filterOf s p)
    ses.onStore (Store.countWhere s f)

def countAll (k : Kind) : Do Nat := ses.count k {}

/-- The payloads that a statement of the caller's own selects. -/
def raw (k : Kind) (q : RawQuery) : Do (List String) := do
  if Text.isBlankText q.sql then Step.fail (.validation (.requiredFieldMissing "sql"))
  else
    let _ ← ses.prepare k
    ses.onStore (Store.selectRaw q)

def rawAs (k : Kind) (q : RawQuery) (v : View) : Do (List String) := do
  let payloads ← ses.raw k q
  viewed (v.renderAll payloads)

end DocStore.Session
