import DocStore.Cache.Reading
import DocStore.Kind
import DocStore.Store.Client

/-!
A database: its configuration, the store, the registered schemas, the shapes that the store is known to have, and the
cache if there is one. A set is brought to the shape of its schema before its cached payloads count again, so the cache
is cleared first whenever tables are created, changed or dropped.
-/

namespace DocStore

open Cache (Provider Fetcher)

structure Database where
  config : Config
  store : Store := {}
  registry : Registry := {}
  shapes : UpsertedShapes := {}
  cache : Option Provider := none
  /-- how many GUIDs have been handed out as ids -/
  guids : Nat := 0

instance : Inhabited Database := ⟨{ config := {} }⟩

namespace Database

abbrev Do (α : Type) := Step Error Database α

/-! ### Setting up -/

def cacheOf (c : CacheConfig) : Option Provider :=
  if c.enabled then
    some (c.structures.foldl (fun p k => (p.enableFor ⟨k⟩).2) { autoEnable := c.autoEnable })
  else none

/-- A database of a configuration, with the cache that it asks for. -/
def new (config : Config) : Except Error Database := do
  config.validate.mapError Error.config
  pure { config, cache := cacheOf config.cache }

/-- A database of a configuration with a given cache; of the cache's settings only the mode counts. -/
def withCache (config : Config) (cache : Provider) : Except Error Database := do
  config.validate.mapError Error.config
  pure { config, cache := some cache }

/-! ### Parts -/

def onStore {α : Type} (m : Store.Do α) : Do α := Step.within (·.store) (fun store db => { db with store }) m

/-- A step on the cache, if there is one. -/
def onCache (m : Provider.Do Unit) : Do Unit := fun db =>
  match db.cache with
  | none => (.ok (), db)
  | some p =>
    let (r, p) := m p
    (r.mapError Error.cache, { db with cache := some p })

/-- A read that goes through the cache if there is one. -/
def consuming {α : Type} (uncached : Store.Do α) (cached : Step Error (Provider × Store) α) : Do α := fun db =>
  match db.cache with
  | none => onStore uncached db
  | some p =>
    let (r, p, store) := cached (p, db.store)
    (r, { db with cache := some p, store })

/-! ### Lifecycle -/

/-- Clears the cache and forgets what shapes the store has. -/
def resetCaches : Do Unit := do
  onCache Provider.clear
  Step.update fun db => { db with shapes := {} }

/-- Carries a call of the lifecycle out on the store, nothing being known of its shapes from then on. -/
def manage (call : Store.Call) : Do Unit := do
  resetCaches
  onStore (Store.perform call)

/-! ### Schemas -/

/-- The schema of a type, registered now if it was not. -/
def schemaOf (k : Kind) : Do Schema := Step.transaction fun db =>
  match db.registry.getOrBuild k.key k.schema with
  | .ok (s, registry) => .ok (s, { db with registry })
  | .error e => .error (.validation e)

/-- Registers a schema under its own key. -/
def register (s : Schema) : Do Schema := Step.change fun db =>
  let (s, registry) := db.registry.register s
  (s, { db with registry })

/-- Brings the set of a schema to its shape through a client. -/
def upsertWith (c : Store.Client) (s : Schema) : Do Unit := do
  onCache (Provider.clearFor s.key)
  onStore (c.guarded (Store.upsert s))
  Step.update fun db => { db with shapes := db.shapes.mark s }

/-- Brings the set of a schema to its shape unless it is known to have it. -/
def ensureSchema (c : Store.Client) (s : Schema) : Do Unit := do
  let db ← Step.state
  if db.shapes.isCurrent s then pure () else upsertWith c s

/-! ### Structure sets -/

def upsertSet (k : Kind) : Do Unit := do
  let s ← schemaOf k
  upsertWith {} s

/-- Drops a set with its payloads in the cache and its registered schema. -/
def dropSchema (s : Schema) : Do Unit := do
  onCache (Provider.clearFor s.key)
  onStore (Store.drop s)
  Step.update fun db => { db with shapes := db.shapes.forget s.key, registry := db.registry.remove s.key }

/-- The schemas of keys that are all registered. -/
def schemasOf (r : Registry) : List Key → Except Error (List Schema)
  | [] => .ok []
  | k :: ks =>
    match r.get? k with
    | none => .error (.validation (.unknownStructure k.text))
    | some s => (schemasOf r ks).map (s :: ·)

/-- Drops the sets of several keys one after the other, all of which have to be registered. -/
def dropKeys (ks : List Key) : Do Unit := do
  let ss ← Step.query fun db => schemasOf db.registry ks
  Step.forEach dropSchema ss

def dropSet (k : Kind) : Do Unit := do
  let _ ← schemaOf k
  dropKeys [k.key]

end Database

end DocStore
