import DocStore.Cache.Provider
import DocStore.Config

/-!
Reads by id that consult the cache first. What the cache lacks is asked of a fetcher; while a fetcher works, anything
may happen to the cache. A fetched payload is stored only in the mode that writes back, and only if nothing was removed
from the entry since before it was fetched.
-/

namespace DocStore.Cache

/-- The side of a read that asks the store. Its steps are on the provider too, and on a state of its own. -/
structure Fetcher (σ : Type) where
  fetch : DocId → Step Error (Provider × σ) (Option String)
  /-- the payloads of the ids that exist, in any order -/
  fetchMany : List DocId → Step Error (Provider × σ) (List (DocId × String))
  stored : DocId → Step Error (Provider × σ) Bool

/-- The ids without repetitions, each in the place where it came first. -/
def distinct : List DocId → List DocId
  | [] => []
  | id :: ids => id :: (distinct ids).filter (· ≠ id)

/-- The payloads of ids in the order of the ids; those without a payload are left out. -/
def inOrder (ids : List DocId) (found : Assoc DocId String) : List String := ids.filterMap found.get?

namespace Provider

variable {σ : Type}

/-- A step on the provider, beside the fetcher's own state. -/
def beside {α : Type} (m : Do α) : Step Error (Provider × σ) α :=
  Step.mapError Error.cache (Step.within (·.1) (fun p s => (p, s.2)) m)

/-- The entry to read from; none if the mode or the registry says so. -/
def entryForMode (k : Key) (mode : ConsumeMode) (p : Provider) : Option Handle × Provider :=
  match mode with
  | .ignore => (none, p)
  | _ => p.entryFor k

def consume (k : Key) (id : DocId) (f : Fetcher σ) (mode : ConsumeMode) :
    Step Error (Provider × σ) (Option String) := do
  match ← beside (Step.change (entryForMode k mode)) with
  | none => f.fetch id
  | some h =>
    match ← beside (onEntry h (Entry.get id)) with
    | some payload => pure (some payload)
    | none =>
      let generation ← beside (onEntry h Entry.currentGeneration)
      let fetched ← f.fetch id
      match fetched with
      | none => pure none
      | some payload =>
        if mode.writesBack then
          let _ ← beside (onEntry h (Entry.putIfGeneration generation id payload))
          pure (some payload)
        else pure (some payload)

/-- The ids that were found with their payloads. -/
def hitsOf (ids : List DocId) (cached : List (Option String)) : List (DocId × String) :=
  (ids.zip cached).filterMap fun (id, payload) => payload.map (id, ·)

/-- The ids that were not found, without repetitions. -/
def missesOf (ids : List DocId) (cached : List (Option String)) : List DocId :=
  distinct ((ids.zip cached).filterMap fun (id, payload) => if payload.isNone then some id else none)

/-- Reads several payloads; those the cache lacks are fetched all at once. -/
def consumeMany (k : Key) (ids : List DocId) (f : Fetcher σ) (mode : ConsumeMode) :
    Step Error (Provider × σ) (List String) := do
  match ← beside (Step.change (entryForMode k mode)) with
  | none =>
    let fetched ← f.fetchMany (distinct ids)
    pure (inOrder ids (Assoc.insertAll [] fetched))
  | some h =>
    let cached ← beside (onEntry h (Entry.getMany ids))
    let hits := Assoc.insertAll [] (hitsOf ids cached)
    let misses := missesOf ids cached
    if misses.isEmpty then pure (inOrder ids hits)
    else
      let generation ← beside (onEntry h Entry.currentGeneration)
      let fetched ← f.fetchMany misses
      if mode.writesBack && !fetched.isEmpty then
        let _ ← beside (onEntry h (Entry.putManyIfGeneration generation fetched))
        pure (inOrder ids (hits.insertAll fetched))
      else pure (inOrder ids (hits.insertAll fetched))

/-- Whether a structure exists: what is cached does, all else the fetcher knows. -/
def exists? (k : Key) (id : DocId) (f : Fetcher σ) (mode : ConsumeMode) : Step Error (Provider × σ) Bool := do
  match ← beside (Step.change (entryForMode k mode)) with
  | none => f.stored id
  | some h =>
    match ← beside (onEntry h (Entry.get id)) with
    | some _ => pure true
    | none => f.stored id

end Provider

end DocStore.Cache
