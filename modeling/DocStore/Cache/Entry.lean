import DocStore.Assoc
import DocStore.DocId
import DocStore.Schema.Name
import DocStore.Step

/-!
The cache of one structure type: payloads by id, and a generation that every removal advances. Payloads that were
fetched while another generation was current are not stored.

Besides the entry that keeps payloads in memory there are entries for trials: one that does batches item by item, and
one of whose operations some always fail.
-/

namespace DocStore.Cache

/-- How an entry carries its operations out. -/
inductive Behaviour where
  /-- batches at once -/
  | memory
  /-- batches item by item -/
  | plain
  /-- clearing, reading or storing fails -/
  | failing (clear get put : Bool)
deriving DecidableEq, Repr, Inhabited

structure Entry where
  key : Key
  behaviour : Behaviour := .memory
  payloads : Assoc DocId String := []
  generation : UInt64 := 0
  hits : Nat := 0
  misses : Nat := 0
deriving Repr, Inhabited

/-- How an entry has been used. -/
structure Stats where
  hits : Nat
  misses : Nat
  count : Nat
deriving DecidableEq, Repr, Inhabited

/-- The part of the lookups that found a payload. -/
def Stats.hitRate (s : Stats) : Binary64 :=
  if s.hits + s.misses = 0 then Binary64.zero else Binary64.ofRatio false s.hits (s.hits + s.misses)

namespace Entry

abbrev Do (α : Type) := Step CacheError Entry α

def new (key : Key) (behaviour : Behaviour := .memory) : Entry := { key, behaviour }

/-! ### What the operations do to the payloads -/

/-- Counts a lookup. -/
def recorded (e : Entry) (found : Bool) : Entry :=
  if found then { e with hits := e.hits + 1 } else { e with misses := e.misses + 1 }

/-- Whatever was read before now is out of date. -/
def invalidated (e : Entry) : Entry := { e with generation := e.generation + 1 }

/-- The payload of an id, the lookup being counted. -/
def looked (e : Entry) (id : DocId) : Option String × Entry :=
  let found := e.payloads.get? id
  (found, e.recorded found.isSome)

/-- The payloads of several ids, each lookup being counted. -/
def lookedAll (e : Entry) (ids : List DocId) : List (Option String) × Entry :=
  let found := ids.map e.payloads.get?
  (found, found.foldl (fun e x => e.recorded x.isSome) e)

def stored (e : Entry) (items : List (DocId × String)) : Entry := { e with payloads := e.payloads.insertAll items }

/-- Stores payloads if no removal came since the generation. -/
def storedIf (e : Entry) (generation : UInt64) (items : List (DocId × String)) : Bool × Entry :=
  if e.generation = generation then (true, e.stored items) else (false, e)

def removed (e : Entry) (ids : List DocId) : Entry := { e with payloads := e.payloads.eraseAll ids }.invalidated

def emptied (e : Entry) : Entry := { e with payloads := [] }.invalidated

/-! ### Operations -/

/-- Fails if the operation is one that the entry always fails in. -/
def guarded (operation : String) (fails : Bool → Bool → Bool → Bool) : Do Unit := fun e =>
  match e.behaviour with
  | .failing clear get put =>
    if fails clear get put then (.error (.backend e.key.text ("injected " ++ operation ++ " failure")), e)
    else (.ok (), e)
  | _ => (.ok (), e)

def guardGet : Do Unit := guarded "get" fun _ get _ => get
def guardPut : Do Unit := guarded "put" fun _ _ put => put
def guardClear : Do Unit := guarded "clear" fun clear _ _ => clear

def get (id : DocId) : Do (Option String) := do
  guardGet
  Step.change (·.looked id)

def getMany (ids : List DocId) : Do (List (Option String)) := do
  let e ← Step.state
  match e.behaviour with
  | .plain => Step.each get ids
  | _ =>
    guardGet
    Step.change (·.lookedAll ids)

def put (id : DocId) (payload : String) : Do Unit := do
  guardPut
  Step.update (·.stored [(id, payload)])

def putMany (items : List (DocId × String)) : Do Unit := do
  let e ← Step.state
  match e.behaviour with
  | .plain => Step.forEach (fun (id, payload) => put id payload) items
  | _ =>
    guardPut
    Step.update (·.stored items)

def currentGeneration : Do UInt64 := Step.query fun e => .ok e.generation

/-- Stores payloads unless there was a removal since the generation; tells whether they were stored. -/
def putManyIfGeneration (generation : UInt64) (items : List (DocId × String)) : Do Bool := do
  guardPut
  Step.change (·.storedIf generation items)

def putIfGeneration (generation : UInt64) (id : DocId) (payload : String) : Do Bool :=
  putManyIfGeneration generation [(id, payload)]

def remove (id : DocId) : Do Unit := Step.update (·.removed [id])

/-- Removes several ids; only an entry in memory counts this as one removal. -/
def removeMany (ids : List DocId) : Do Unit := do
  let e ← Step.state
  match e.behaviour with
  | .memory => Step.update (·.removed ids)
  | _ => Step.forEach remove ids

def clear : Do Unit := do
  guardClear
  Step.update emptied

def stats : Do Stats := Step.query fun e => .ok ⟨e.hits, e.misses, e.payloads.length⟩

/-! ### Operations as data -/

inductive Call where
  | key
  | get (id : DocId)
  | getMany (ids : List DocId)
  | put (id : DocId) (payload : String)
  | putMany (items : List (DocId × String))
  | generation
  | putIfGeneration (generation : UInt64) (id : DocId) (payload : String)
  | putManyIfGeneration (generation : UInt64) (items : List (DocId × String))
  | remove (id : DocId)
  | removeMany (ids : List DocId)
  | clear
  | stats
deriving Repr

inductive Reply where
  | done
  | key (k : Key)
  | payload (p : Option String)
  | payloads (ps : List (Option String))
  | generation (g : UInt64)
  | stored (b : Bool)
  | stats (s : Stats)
deriving Repr

def perform : Call → Do Reply
  | .key => Step.query fun e => .ok (.key e.key)
  | .get id => do return .payload (← get id)
  | .getMany ids => do return .payloads (← getMany ids)
  | .put id payload => do
    put id payload
    return .done
  | .putMany items => do
    putMany items
    return .done
  | .generation => do return .generation (← currentGeneration)
  | .putIfGeneration g id payload => do return .stored (← putIfGeneration g id payload)
  | .putManyIfGeneration g items => do return .stored (← putManyIfGeneration g items)
  | .remove id => do
    remove id
    return .done
  | .removeMany ids => do
    removeMany ids
    return .done
  | .clear => do
    clear
    return .done
  | .stats => do return .stats (← stats)

end Entry

end DocStore.Cache
