import DocStore.Cache.Entry

/-!
The entries of all structure types. A type has an entry from when it is enabled until it is disabled; with
`autoEnable`, looking a type up enables it. Entries that were taken out of the registry live on for whoever still holds
them, so an entry is known by a handle and not by its key.
-/

namespace DocStore.Cache

abbrev Handle := Nat

structure Provider where
  /-- every entry there has been, by its handle -/
  entries : List Entry := []
  /-- the entries that serve their types now -/
  registered : Assoc Key Handle := []
  autoEnable : Bool := false
  /-- how the entry of a type behaves when it is created -/
  factory : Key → Behaviour := fun _ => .memory

instance : Inhabited Provider := ⟨{}⟩

namespace Provider

abbrev Do (α : Type) := Step CacheError Provider α

def entry (p : Provider) (h : Handle) : Entry := p.entries.getD h default

/-- The entry that serves a type. -/
def entryOf? (p : Provider) (k : Key) : Option Entry := (p.registered.get? k).map p.entry

/-! ### Registration -/

/-- Whether a type has an entry. -/
def handles (p : Provider) (k : Key) : Bool := p.registered.contains k

/-- Whether lookups of a type go through an entry. -/
def isEnabledFor (p : Provider) (k : Key) : Bool := p.autoEnable || p.handles k

def setAutoEnable (p : Provider) (on : Bool) : Provider := { p with autoEnable := on }

/-- The entry of a type, created if there is none. -/
def enableFor (k : Key) (p : Provider) : Handle × Provider :=
  match p.registered.get? k with
  | some h => (h, p)
  | none =>
    let h := p.entries.length
    (h, { p with entries := p.entries ++ [Entry.new k (p.factory k)], registered := p.registered.insert k h })

/-- Takes the entry of a type out of the registry; tells whether there was one. -/
def disableFor (k : Key) (p : Provider) : Bool × Provider :=
  (p.handles k, { p with registered := p.registered.erase k })

/-- The entry that serves a type; with `autoEnable` it is created if there is none. -/
def entryFor (k : Key) (p : Provider) : Option Handle × Provider :=
  match p.registered.get? k with
  | some h => (some h, p)
  | none =>
    if p.autoEnable then
      let (h, p') := p.enableFor k
      (some h, p')
    else (none, p)

/-- The types that have entries, in the order of their keys. -/
def structures (p : Provider) : List Key :=
  (p.registered.map (·.1)).mergeSort fun a b => compare a b != .gt

/-! ### Entries -/

def onEntry {α : Type} (h : Handle) (m : Entry.Do α) : Do α :=
  Step.within (·.entry h) (fun e p => { p with entries := p.entries.set h e }) m

/-- A step on the entry of a type, if it has one. -/
def onRegistered {α : Type} (k : Key) (otherwise : α) (m : Entry.Do α) : Do α := fun p =>
  match p.registered.get? k with
  | some h => onEntry h m p
  | none => (.ok otherwise, p)

/-- Clears entries one after the other, going on after a failure; gives the failures. -/
def clearEach : List Key → Do (List CacheFailure)
  | [] => pure []
  | k :: ks => do
    let outcome ← Step.attempt (onRegistered k () Entry.clear)
    let failures ← clearEach ks
    match outcome with
    | .ok () => pure failures
    | .error e => pure (⟨k.text, e.message⟩ :: failures)

/-- Clears the entries of all types, in the order of their keys. -/
def clear : Do Unit := do
  let p ← Step.state
  let failures ← clearEach p.structures
  if failures.isEmpty then pure () else Step.fail (.clearFailed (p.structures.map (·.text)) failures)

def clearFor (k : Key) : Do Unit := onRegistered k () Entry.clear

def remove (k : Key) (id : DocId) : Do Unit := onRegistered k () (Entry.remove id)

def removeMany (k : Key) (ids : List DocId) : Do Unit := onRegistered k () (Entry.removeMany ids)

def statsFor (k : Key) : Do (Option Stats) := onRegistered k none (do return some (← Entry.stats))

/-! ### Operations as data -/

inductive Call where
  | enable (k : Key)
  | disable (k : Key)
  | setAuto (on : Bool)
  | auto
  | isEnabled (k : Key)
  | handles (k : Key)
  | structures
  | clearAll
  | clearFor (k : Key)
  | remove (k : Key) (id : DocId)
  | removeMany (k : Key) (ids : List DocId)
  | stats (k : Key)
  /-- a call of the entry that serves the type -/
  | entry (k : Key) (call : Entry.Call)
deriving Repr

inductive Reply where
  | done
  | key (k : Key)
  | bool (b : Bool)
  | keys (ks : List Key)
  | stats (s : Option Stats)
  | entry (r : Entry.Reply)
  | noEntry
deriving Repr

def perform : Call → Do Reply
  | .enable k => do
    let h ← Step.change (enableFor k)
    let p ← Step.state
    return .key (p.entry h).key
  | .disable k => do return .bool (← Step.change (disableFor k))
  | .setAuto on => do
    Step.update (·.setAutoEnable on)
    return .done
  | .auto => Step.query fun p => .ok (.bool p.autoEnable)
  | .isEnabled k => Step.query fun p => .ok (.bool (p.isEnabledFor k))
  | .handles k => Step.query fun p => .ok (.bool (p.handles k))
  | .structures => Step.query fun p => .ok (.keys p.structures)
  | .clearAll => do
    clear
    return .done
  | .clearFor k => do
    clearFor k
    return .done
  | .remove k id => do
    remove k id
    return .done
  | .removeMany k ids => do
    removeMany k ids
    return .done
  | .stats k => do return .stats (← statsFor k)
  | .entry k call => do
    match ← Step.change (entryFor k) with
    | some h => return .entry (← onEntry h (Entry.perform call))
    | none => return .noEntry

end Provider

end DocStore.Cache
