import DocStore.Store.Address
import DocStore.Store.Writing

/-!
Clients of a store. All clients work on the same data; a client that was closed answers every call by saying so, its
second closing too.
-/

namespace DocStore

namespace Store

/-- A handle on a store, until it is closed. -/
structure Client where
  closed : Bool := false
deriving DecidableEq, Repr, Inhabited

namespace Client

/-- Carries a step out if the client is open. -/
def guarded {α : Type} (c : Client) (m : Do α) : Do α :=
  if c.closed then Step.fail (.store .connectionClosed) else m

def close (c : Client) : Except Error Client :=
  if c.closed then .error (.store .connectionClosed) else .ok ⟨true⟩

/-- Reserves a block of identities. Whether ids are identities is looked at before whether the client is open. -/
def reserve (c : Client) (s : Schema) (count : Nat) : Do Int := do
  Step.ofExcept (checkIdentities "reserve_identities" s)
  c.guarded (Store.reserve s count)

/-! ### Calls as data -/

inductive Call where
  | upsert (s : Schema)
  | drop (s : Schema)
  | fetch (s : Schema) (id : DocId)
  | fetchMany (s : Schema) (ids : List DocId)
  | fetchInterval (s : Schema) (low high : DocId)
  | fetchAll (s : Schema)
  | select (q : CompiledQuery)
  | selectRaw (q : RawQuery)
  | count (s : Schema)
  | countWhere (s : Schema) (f : CompiledFilter)
  | holds (s : Schema) (id : DocId)
  | idsWhere (s : Schema) (f : CompiledFilter)
  | reserve (s : Schema) (count : Nat)
  | insert (s : Schema) (id : DocId) (payload : String) (es : List IndexEntry)
  | replace (s : Schema) (id : DocId) (payload : String) (es : List IndexEntry)
  | deleteMany (s : Schema) (ids : List DocId)
  | deleteInterval (s : Schema) (low high : DocId)
deriving Repr

inductive Reply where
  | done
  | payload (p : Option String)
  | payloads (ps : List String)
  | structures (rows : List (DocId × String))
  | ids (ids : List DocId)
  | number (n : Nat)
  | identity (n : Int)
  | bool (b : Bool)
deriving DecidableEq, Repr

/-- Carries a call out. -/
def perform (c : Client) : Call → Do Reply
  | .upsert s => (c.guarded (Store.upsert s)).map fun _ => .done
  | .drop s => (c.guarded (Store.drop s)).map fun _ => .done
  | .fetch s id => (c.guarded (Store.fetch s id)).map .payload
  | .fetchMany s ids => (c.guarded (Store.fetchMany s ids)).map .structures
  | .fetchInterval s low high => (c.guarded (Store.fetchInterval s low high)).map .payloads
  | .fetchAll s => (c.guarded (Store.fetchAll s)).map .payloads
  | .select q => (c.guarded (Store.select q)).map .payloads
  | .selectRaw q => (c.guarded (Store.selectRaw q)).map .payloads
  | .count s => (c.guarded (Store.count s)).map .number
  | .countWhere s f => (c.guarded (Store.countWhere s f)).map .number
  | .holds s id => (c.guarded (Store.holds s id)).map .bool
  | .idsWhere s f => (c.guarded (Store.idsWhere s f)).map .ids
  | .reserve s n => (c.reserve s n).map .identity
  | .insert s id payload es => (c.guarded (Store.insert s id payload es)).map fun _ => .done
  | .replace s id payload es => (c.guarded (Store.replace s id payload es)).map fun _ => .done
  | .deleteMany s ids => (c.guarded (Store.deleteMany s ids)).map .number
  | .deleteInterval s low high => (c.guarded (Store.deleteInterval s low high)).map .number

end Client

/-! ### The lifecycle as data -/

inductive Call where
  | ensureNew
  | create
  | openExisting
  | dropDatabase
deriving DecidableEq, Repr

/-- Carries a call of the lifecycle out. -/
def perform : Call → Do Unit
  | .ensureNew => ensureNew
  | .create => create
  | .openExisting => openExisting
  | .dropDatabase => dropDatabase

/-- Opens the store of a path. The path is said as it was given. -/
def openAt (path : String) : Except Error Store :=
  let failed (reason : String) : Error := .store (.connectionFailed (path ++ ": " ++ reason))
  match Address.ofPath path with
  | .error reason => .error (failed reason)
  | .ok a =>
    if a.isReachable then .ok { location := path, readOnly := a.isReadOnly }
    else .error (failed ("unable to open database file: " ++ path))

end Store

/-- A store with the clients that were handed out, by the names they were given. -/
structure Connections where
  store : Store := {}
  clients : Assoc String Store.Client := []
deriving Repr, Inhabited

namespace Connections

abbrev Do (α : Type) := Step Error Connections α

/-- The client of a name; without one, a closed client. -/
def client (c : Connections) (name : String) : Store.Client := (c.clients.get? name).getD ⟨true⟩

/-- Hands out a client under a name, which takes the place of an older one. -/
def connect (name : String) (c : Connections) : Connections := { c with clients := c.clients.insert name {} }

/-- Carries a call of a client out. -/
def perform (name : String) (call : Store.Client.Call) : Do Store.Client.Reply := fun c =>
  let (r, store) := (c.client name).perform call c.store
  (r, { c with store })

/-- Closes a client. -/
def close (name : String) : Do Unit := Step.transaction fun c => do
  let closed ← (c.client name).close
  pure ((), { c with clients := c.clients.insert name closed })

/-- Carries a call of the lifecycle out. -/
def manage (call : Store.Call) : Do Unit := Step.within (·.store) (fun store c => { c with store }) (Store.perform call)

end Connections

end DocStore
