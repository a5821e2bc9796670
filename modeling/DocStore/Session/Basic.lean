import DocStore.Database

/-!
Sessions: a caller's access to a database through a client of its own. Whatever a session does with a structure type,
it first sees to it that the store has the type's set in the shape of its schema. A disposed session does nothing.
-/

namespace DocStore

open Cache (Provider Fetcher)

structure Session where
  client : Store.Client := {}
  mode : ConsumeMode
  disposed : Bool := false
deriving DecidableEq, Repr, Inhabited

/-- How payloads are given out. -/
inductive View where
  /-- as they are stored -/
  | payload
  /-- read as structures, of which the documents are shown -/
  | structure (read? : String → Option Json)

namespace View

def ofKind (k : Kind) : View := .structure fun s => (k.read? s).map (·.document)

/-- One payload as it is given out. -/
def render (v : View) (payload : String) : Except SerializationError String :=
  match v with
  | .payload => .ok payload
  | .structure read? =>
    match read? payload with
    | some doc => .ok doc.text
    | none => .error (.deserialize "the payload does not have the shape asked for")

/-- Several payloads as they are given out; the first one that cannot be read decides. -/
def renderAll (v : View) : List String → Except SerializationError (List String)
  | [] => .ok []
  | p :: ps =>
    match v.render p with
    | .error e => .error e
    | .ok s => (v.renderAll ps).map (s :: ·)

end View

namespace Session

open Database (Do)

/-- Opens a session in the mode of the configuration. -/
def ofDatabase (db : Database) : Session := { mode := db.config.cache.mode }

/-- Disposes of a session and closes its client. -/
def dispose (ses : Session) : Except Error Session :=
  if ses.disposed then .error (.session .alreadyDisposed)
  else
    match ses.client.close with
    | .ok client => .ok { ses with client, disposed := true }
    | .error e => .error e

variable (ses : Session)

/-- The schema of a type, to which the store is brought first. -/
def prepare (k : Kind) : Do Schema := do
  if ses.disposed then Step.fail (.session .alreadyDisposed)
  else
    let s ← Database.schemaOf k
    Database.ensureSchema ses.client s
    pure s

def convert (s : Schema) (raw : RawId) : Except Error DocId := (DocId.convert raw s.idType).mapError Error.validation

def convertAll (s : Schema) : List RawId → Except Error (List DocId)
  | [] => .ok []
  | raw :: raws =>
    match convert s raw with
    | .error e => .error e
    | .ok id => (convertAll s raws).map (id :: ·)

/-- Ids converted one after the other, of which there has to be one at least. -/
def convertSome (s : Schema) (raws : List RawId) : Except Error (List DocId) :=
  match convertAll s raws with
  | .error e => .error e
  | .ok [] => .error (.validation (.emptyCollection "ids"))
  | .ok ids => .ok ids

/-- A failure to read a payload, as one of the session. -/
def viewed {α : Type} (r : Except SerializationError α) : Do α := Step.ofExcept (r.mapError Error.serialization)

/-- A step on the store through the client of the session. -/
def onStore {α : Type} (m : Store.Do α) : Do α := Database.onStore (ses.client.guarded m)

/-- A step on the store through the client of the session, while the cache is being read. -/
def besideCache {α : Type} (m : Store.Do α) : Step Error (Provider × Store) α :=
  Step.within (·.2) (fun store s => (s.1, store)) (ses.client.guarded m)

/-- Reads through the cache come to the store by the session's client. -/
def fetcher (s : Schema) : Fetcher Store where
  fetch id := ses.besideCache (Store.fetch s id)
  fetchMany ids := ses.besideCache (Store.fetchMany s ids)
  stored id := ses.besideCache (Store.holds s id)

end Session

end DocStore
