import DocStore.Proofs.Cache.Keeping
import DocStore.Proofs.Database
import DocStore.Proofs.Store.InStep

/-! What a database does leaves its documents and their index rows in step: it comes to the store by the store's own
    writes only, each with a schema of one of the types. -/

namespace DocStore.Database

open Cache (Provider)
open Store (Apart)

/-- The registered schemas are those of some types, and what the store holds of the types is in step. -/
structure InStep (types : Schema → Prop) (excluded : List String) (db : Database) : Prop where
  config : db.config.excluded = excluded
  registry : ∀ e ∈ db.registry.schemas, types e.2
  store : db.store.InStep types excluded

variable {types : Schema → Prop} {excluded : List String} {α : Type}

/-! ### Parts -/

theorem onStore_ensures {P : α → Prop} {m : Store.Do α} (hm : Step.Ensures (Store.InStep types excluded) m P) :
    Step.Ensures (InStep types excluded) (onStore m) P :=
  .within hm (fun _ h => h.store) fun _ _ h hst => ⟨h.config, h.registry, hst⟩

theorem consuming_keeps {plain : Store.Do α} {cached : Step Error (Provider × Store) α}
    (hplain : Step.Keeps (Store.InStep types excluded) plain)
    (hcached : Step.Keeps (fun x : Provider × Store => x.2.InStep types excluded) cached) :
    Step.Keeps (InStep types excluded) (consuming plain cached) := by
  refine .of_state fun db hdb => ?_
  rw [consuming]
  split
  · exact (onStore_ensures hplain db hdb).1
  · exact ⟨hdb.config, hdb.registry, (hcached _ hdb.store).1⟩

/-! ### Operations -/

theorem InStep.withCache {db : Database} (cache : Option Provider) (h : InStep types excluded db) :
    InStep types excluded { db with cache } :=
  ⟨h.config, h.registry, h.store⟩

theorem manage_keeps (c : Store.Call) : Step.Keeps (InStep types excluded) (manage c) := by
  have hreset : Step.Keeps (InStep types excluded) resetCaches :=
    .andThen (onCache_keeps InStep.withCache _) fun _ => .update fun _ h => ⟨h.config, h.registry, h.store⟩
  exact .andThen hreset fun _ => onStore_ensures (Store.perform_keeps c)

/-- Whatever a database does, it leaves documents and index rows in step. -/
theorem invariant_inStep (ha : Apart types) : Invariant types (InStep types excluded) where
  registry h := h.registry
  withRegistry h hr := ⟨h.config, hr, h.store⟩
  withCache := InStep.withCache
  manage := manage_keeps
  upsertWith hs c := by
    refine .andThen (onCache_keeps InStep.withCache _) fun _ => ?_
    refine .andThen (onStore_ensures (Store.Client.guarded_ensures (Store.upsert_keeps ha hs) c)) fun _ => ?_
    exact .update fun _ h => ⟨h.config, h.registry, h.store⟩
  dropSchema hs := by
    refine .andThen (onCache_keeps InStep.withCache _) fun _ => ?_
    refine .andThen (onStore_ensures (Store.drop_keeps ha hs)) fun _ => ?_
    exact .update fun _ h => ⟨h.config, fun e he => h.registry e (List.mem_filter.mp he).1, h.store⟩

end DocStore.Database
