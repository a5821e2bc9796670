import DocStore.Proofs.Coherence.Database
import DocStore.Session.Basic

/-! What the operations of a database keep. A property that does not depend on the cache or on which schemas of some
    types are registered is kept by all operations, if it is kept by the lifecycle, by bringing one set to its shape
    and by dropping one. -/

namespace DocStore

open Cache (Provider)

namespace Database

/-- A property of databases whose registered schemas are those of some types that the operations on sets keep. -/
structure Invariant (types : Schema → Prop) (I : Database → Prop) : Prop where
  registry : ∀ {db}, I db → ∀ e ∈ db.registry.schemas, types e.2
  withRegistry : ∀ {db registry}, I db → (∀ e ∈ registry.schemas, types e.2) → I { db with registry }
  withCache : ∀ {db} cache, I db → I { db with cache }
  manage : ∀ c, Step.Keeps I (manage c)
  upsertWith : ∀ {s}, types s → ∀ c, Step.Keeps I (upsertWith c s)
  dropSchema : ∀ {s}, types s → Step.Keeps I (dropSchema s)

theorem onCache_keeps {I : Database → Prop} (hI : ∀ {db} cache, I db → I { db with cache }) (m : Provider.Do Unit) :
    Step.Keeps I (onCache m) := by
  refine .of_state fun db hdb => ?_
  rw [onCache]
  split
  · exact hdb
  · exact hI _ hdb

namespace Invariant

variable {types : Schema → Prop} {I : Database → Prop} (h : Invariant types I) {s : Schema} {k : Kind}
include h

theorem schemaOf (hk : ∀ {s}, k.schema = .ok s → types s) : Step.Ensures I (schemaOf k) types := by
  refine .transaction fun db hdb s db' hdone => ?_
  split at hdone
  · rename_i hget
    cases hdone
    obtain ⟨hs, hregistry⟩ := Registry.getOrBuild_eq_ok hget (h.registry hdb) hk
    exact ⟨h.withRegistry hdb hregistry, hs⟩
  · cases hdone

theorem register (hs : types s) : Step.Keeps I (register s) :=
  .change fun _ hdb => ⟨h.withRegistry hdb (Registry.mem_register (h.registry hdb) hs), trivial⟩

theorem ensureSchema (hs : types s) (c : Store.Client) : Step.Keeps I (ensureSchema c s) := by
  refine .state fun db _ => ?_
  split
  · exact .pure trivial
  · exact h.upsertWith hs c

theorem upsertSet (hk : ∀ {s}, k.schema = .ok s → types s) : Step.Keeps I (upsertSet k) :=
  (h.schemaOf hk).bind fun _ hs => h.upsertWith hs {}

theorem dropKeys (ks : List Key) : Step.Keeps I (dropKeys ks) := by
  have hquery : Step.Ensures I (Step.query fun db => schemasOf db.registry ks : Do (List Schema)) fun ss =>
      ∀ s ∈ ss, types s :=
    .query fun _ hdb _ hss => types_schemasOf (h.registry hdb) hss
  exact hquery.bind fun _ hss => .forEach fun s hin => h.dropSchema (hss s hin)

theorem dropSet (hk : ∀ {s}, k.schema = .ok s → types s) : Step.Keeps I (dropSet k) :=
  (h.schemaOf hk).bind fun _ _ => h.dropKeys [k.key]

theorem prepare (ses : Session) (hk : ∀ {s}, k.schema = .ok s → types s) :
    Step.Ensures I (ses.prepare k) types := by
  unfold Session.prepare
  split
  · exact .fail _
  · exact (h.schemaOf hk).bind fun _ hs => .andThen (h.ensureSchema hs ses.client) fun _ => .pure hs

end Invariant

end Database

end DocStore
