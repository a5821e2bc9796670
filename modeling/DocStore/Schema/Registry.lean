import DocStore.Assoc
import DocStore.Schema.Builder

/-!
The registry of schemas by key, and the record of the shapes that the store has been given. A registered schema is
replaced only by one of another shape.
-/

namespace DocStore

/-- The registered schemas. -/
structure Registry where
  schemas : Assoc Key Schema := []
deriving Repr, Inhabited

namespace Registry

def get? (r : Registry) (k : Key) : Option Schema := r.schemas.get? k

/-- The schema registered under a key; if there is none, the one that is built now. -/
def getOrBuild (r : Registry) (k : Key) (build : Except ValidationError Schema) :
    Except ValidationError (Schema × Registry) :=
  match r.get? k with
  | some s => .ok (s, r)
  | none => build.map fun s => (s, ⟨r.schemas.insert k s⟩)

/-- Registers a schema under its own key, and tells which schema the key has now. -/
def register (r : Registry) (s : Schema) : Schema × Registry :=
  match r.get? s.key with
  | some s' => if s'.fingerprint = s.fingerprint then (s', r) else (s, ⟨r.schemas.insert s.key s⟩)
  | none => (s, ⟨r.schemas.insert s.key s⟩)

def remove (r : Registry) (k : Key) : Registry := ⟨r.schemas.erase k⟩

end Registry

/-- The fingerprints that the store has been brought to, by key. -/
structure UpsertedShapes where
  fingerprints : Assoc Key String := []
deriving Repr, Inhabited

namespace UpsertedShapes

/-- Whether the store has the shape of a schema. -/
def isCurrent (u : UpsertedShapes) (s : Schema) : Bool := u.fingerprints.get? s.key == some s.fingerprint

def mark (u : UpsertedShapes) (s : Schema) : UpsertedShapes := ⟨u.fingerprints.insert s.key s.fingerprint⟩

def forget (u : UpsertedShapes) (k : Key) : UpsertedShapes := ⟨u.fingerprints.erase k⟩

end UpsertedShapes

end DocStore
