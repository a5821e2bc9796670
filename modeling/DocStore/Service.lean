import DocStore.Session.Writing

/-!
A database in use: the database with the sessions that were opened on it, and all that can be asked of them as data, so
that whole histories can be spoken of.
-/

namespace DocStore

open Cache (Provider)

/-! ### Calls of a session -/

namespace Session

inductive Call where
  | schema (k : Kind)
  | get (k : Kind) (id : RawId) (v : View)
  | getMany (k : Kind) (ids : List RawId) (v : View)
  | holds (k : Kind) (id : RawId)
  | getInterval (k : Kind) (low high : RawId)
  | query (k : Kind) (q : Query) (v : View)
  | count (k : Kind) (q : Query)
  | countAll (k : Kind)
  | raw (k : Kind) (q : RawQuery) (v : View)
  | insert (k : Kind) (item : Item)
  | insertMany (k : Kind) (items : List Item)
  | insertJson (k : Kind) (text : String)
  | insertManyJson (k : Kind) (texts : List String)
  | update (k : Kind) (item : Item)
  | delete (k : Kind) (id : RawId)
  | deleteMany (k : Kind) (ids : List RawId)
  | deleteInterval (k : Kind) (low high : RawId)
  | deleteQuery (k : Kind) (p : Predicate)

inductive Reply where
  | done
  | schema (s : Schema)
  | payload (p : Option String)
  | payloads (ps : List String)
  | id (i : DocId)
  | ids (is : List DocId)
  | number (n : Nat)
  | bool (b : Bool)
deriving DecidableEq, Repr

def perform (ses : Session) : Call → Database.Do Reply
  | .schema k => (ses.prepare k).map .schema
  | .get k id v => (ses.getAs k id v).map .payload
  | .getMany k ids v => (ses.getManyAs k ids v).map .payloads
  | .holds k id => (ses.holds k id).map .bool
  | .getInterval k low high => (ses.getInterval k low high).map .payloads
  | .query k q v => (ses.queryAs k q v).map .payloads
  | .count k q => (ses.count k q).map .number
  | .countAll k => (ses.countAll k).map .number
  | .raw k q v => (ses.rawAs k q v).map .payloads
  | .insert k item => (ses.insert k item).map .id
  | .insertMany k items => (ses.insertMany k items).map .ids
  | .insertJson k text => (ses.insertJson k text).map .id
  | .insertManyJson k texts => (ses.insertManyJson k texts).map .ids
  | .update k item => (ses.update k item).map fun _ => .done
  | .delete k id => (ses.delete k id).map .bool
  | .deleteMany k ids => (ses.deleteMany k ids).map .number
  | .deleteInterval k low high => (ses.deleteInterval k low high).map .number
  | .deleteQuery k p => (ses.deleteQuery k p).map .number

end Session

/-! ### Calls of a service -/

/-- A database with the sessions that were opened on it, by the names they were given. -/
structure Service where
  database : Database
  sessions : Assoc String Session := []

instance : Inhabited Service := ⟨{ database := default }⟩

namespace Service

abbrev Do (α : Type) := Step Error Service α

inductive Call where
  /-- a call of the lifecycle -/
  | manage (c : Store.Call)
  | isCreated
  | register (s : Schema)
  | upsertSet (k : Kind)
  | dropSet (k : Kind)
  | dropKeys (ks : List Key)
  /-- a call of the cache -/
  | cache (c : Provider.Call)
  | openSession (name : String)
  | dispose (name : String)
  | isDisposed (name : String)
  | setMode (name : String) (m : ConsumeMode)
  | mode (name : String)
  /-- a call of a session -/
  | session (name : String) (c : Session.Call)

inductive Reply where
  | done
  | bool (b : Bool)
  | schema (s : Schema)
  | mode (m : ConsumeMode)
  | noCache
  | cache (r : Provider.Reply)
  | session (r : Session.Reply)

/-- The session of a name; without one, a disposed session. -/
def session (sv : Service) (name : String) : Session :=
  (sv.sessions.get? name).getD { client := ⟨true⟩, mode := .ignore, disposed := true }

def onDatabase {α : Type} (m : Database.Do α) : Do α :=
  Step.within (·.database) (fun database sv => { sv with database }) m

def onCache (c : Provider.Call) : Database.Do Reply := fun db =>
  match db.cache with
  | none => (.ok .noCache, db)
  | some p =>
    let (r, p) := Provider.perform c p
    ((r.map Reply.cache).mapError Error.cache, { db with cache := some p })

/-- Opens a session under a name, which takes the place of an older one. -/
def openSession (name : String) (sv : Service) : Service :=
  { sv with sessions := sv.sessions.insert name (Session.ofDatabase sv.database) }

def dispose (name : String) : Do Unit := Step.transaction fun sv =>
  match (sv.session name).dispose with
  | .ok ses => .ok ((), { sv with sessions := sv.sessions.insert name ses })
  | .error e => .error e

def setMode (name : String) (m : ConsumeMode) (sv : Service) : Service :=
  { sv with sessions := sv.sessions.insert name { sv.session name with mode := m } }

/-- Carries a call out. -/
def perform : Call → Do Reply
  | .manage c => (onDatabase (Database.manage c)).map fun _ => .done
  | .isCreated => Step.query fun sv => .ok (.bool sv.database.store.isCreated)
  | .register s => (onDatabase (Database.register s)).map .schema
  | .upsertSet k => (onDatabase (Database.upsertSet k)).map fun _ => .done
  | .dropSet k => (onDatabase (Database.dropSet k)).map fun _ => .done
  | .dropKeys ks => (onDatabase (Database.dropKeys ks)).map fun _ => .done
  | .cache c => onDatabase (onCache c)
  | .openSession name => (Step.update (openSession name)).map fun _ => .done
  | .dispose name => (dispose name).map fun _ => .done
  | .isDisposed name => Step.query fun sv => .ok (.bool (sv.session name).disposed)
  | .setMode name m => (Step.update (setMode name m)).map fun _ => .done
  | .mode name => Step.query fun sv => .ok (.mode (sv.session name).mode)
  | .session name c => fun sv => (onDatabase ((sv.session name).perform c)).map .session sv

/-- The service after some calls, whatever they answered. -/
def after (sv : Service) (cs : List Call) : Service := cs.foldl (fun sv c => (perform c sv).2) sv

end Service

end DocStore
