import DocStore.Cache.Reading

/-!
A fetcher for trials: it reads a fixed table, remembers what it was asked, can be made to fail, and can let a call of
the cache happen while it works.
-/

namespace DocStore.Cache

/-- What a fetcher was asked. -/
inductive Recorder.Request where
  | fetch (id : DocId)
  | fetchMany (ids : List DocId)
  | stored (id : DocId)
deriving DecidableEq, Repr

structure Recorder where
  rows : Assoc DocId String := []
  requests : List Recorder.Request := []
  /-- what every request fails with -/
  failure : Option Error := none
  /-- what happens to the cache after a request has read its rows -/
  during : Option Provider.Call := none
deriving Inhabited

namespace Recorder

/-- Notes a request, and fails if it has to. -/
def note (r : Request) : Step Error (Provider × Recorder) Unit := fun (p, s) =>
  let s := { s with requests := s.requests ++ [r] }
  match s.failure with
  | some e => (.error e, p, s)
  | none => (.ok (), p, s)

/-- Lets the call happen. -/
def interrupted : Step Error (Provider × Recorder) Unit := fun (p, s) =>
  match s.during with
  | none => (.ok (), p, s)
  | some call =>
    match Provider.perform call p with
    | (.ok _, p) => (.ok (), p, s)
    | (.error _, p) => (.error (.cache (.backend "during" "fetch action failed")), p, s)

/-- A request that reads something off the rows. -/
def request {α : Type} (r : Request) (read : Assoc DocId String → α) : Step Error (Provider × Recorder) α := do
  note r
  let (_, s) ← Step.state
  interrupted
  pure (read s.rows)

/-- The fetcher. Several rows come in the reverse order of the request. -/
def fetcher : Fetcher Recorder where
  fetch id := request (.fetch id) (·.get? id)
  fetchMany ids := request (.fetchMany ids) fun rows =>
    ids.reverse.filterMap fun id => (rows.get? id).map (id, ·)
  stored id := request (.stored id) (·.contains id)

/-- Gives an id a row. -/
def insertRow (s : Recorder) (id : DocId) (payload : String) : Recorder := { s with rows := s.rows.insert id payload }

end Recorder

end DocStore.Cache
