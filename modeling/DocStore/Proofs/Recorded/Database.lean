import DocStore.Proofs.Database
import DocStore.Proofs.Store.Recorded

/-! What a database knows of the shapes of its store is noted in the store too. Whatever changes a set is noted by the
    database only after the store has noted it, and what the database knows is forgotten with what the store has
    noted; so a failure between the two leaves the database behind the store and never ahead of it. -/

namespace DocStore.Database

open Cache (Provider)
open Store (Reached Separate)

/-- The registered schemas are those of some types, and the fingerprints that the store is known to have are those
    that it has. -/
structure Recorded (types : Schema → Prop) (db : Database) : Prop where
  registry : ∀ e ∈ db.registry.schemas, types e.2
  store : db.store.Reached types
  shapes : ∀ {k fp}, db.shapes.fingerprints.get? k = some fp → db.store.fingerprint? k = some fp

variable {types : Schema → Prop} {db : Database} {s : Schema}

theorem Recorded.fingerprint? (h : Recorded types db) (hs : db.shapes.isCurrent s = true) :
    db.store.fingerprint? s.key = some s.fingerprint :=
  h.shapes (eq_of_beq hs)

/-! ### Parts -/

theorem Recorded.withCache (cache : Option Provider) (h : Recorded types db) : Recorded types { db with cache } :=
  ⟨h.registry, h.store, h.shapes⟩

/-- A change of the store that is noted as soon as it is made; if it fails, nothing is. -/
theorem noted_keeps {I : Database → Prop} {m : Store.Do Unit} {f : Database → Database} (hm : Step.Whole m)
    (h : ∀ {db st}, I db → m db.store = (.ok (), st) → I (f { db with store := st })) :
    Step.Keeps I (onStore m >>= fun _ => Step.update f) := by
  refine .of_state fun db hdb => ?_
  rw [Step.bind_apply, onStore, Step.within]
  cases hr : m db.store with
  | mk r st =>
    cases r with
    | error e =>
      obtain rfl := hm hr
      exact hdb
    | ok u => exact h hdb hr

/-! ### Operations -/

theorem manage_recorded (c : Store.Call) : Step.Keeps (Recorded types) (manage c) := by
  rw [manage, resetCaches, Step.bind_assoc]
  refine .andThen (onCache_keeps Recorded.withCache _) fun _ => ?_
  exact .of_state fun db hdb => ⟨hdb.registry, hdb.store.manage c, nofun⟩

theorem upsertWith_recorded (hs : types s) (c : Store.Client) : Step.Keeps (Recorded types) (upsertWith c s) := by
  refine .andThen (onCache_keeps Recorded.withCache _) fun _ => ?_
  refine noted_keeps (Store.Client.guarded_whole (.transaction _) c) fun {db st} hdb hdone => ?_
  have hstore : (c.perform (.upsert s) db.store).2 = st := by
    rw [Store.Client.perform, Step.map_state, hdone]
  refine ⟨hdb.registry, hstore ▸ hdb.store.call c hs, fun {k fp} h => ?_⟩
  change (db.shapes.fingerprints.insert s.key s.fingerprint).get? k = some fp at h
  show st.fingerprint? k = some fp
  rw [Assoc.get?_insert] at h
  rw [Store.upsert_fingerprint? (Store.Client.guarded_eq_ok hdone)]
  split at h
  · rename_i hk
    rw [if_pos hk, h]
  · rename_i hk
    rw [if_neg hk, hdb.shapes h]

theorem dropSchema_recorded (hs : types s) : Step.Keeps (Recorded types) (dropSchema s) := by
  refine .andThen (onCache_keeps Recorded.withCache _) fun _ => noted_keeps (.transaction _) fun {db st} hdb hdone => ?_
  have hstore : (Store.Client.perform {} (.drop s) db.store).2 = st := by
    rw [Store.Client.perform, Step.map_state]
    exact congrArg Prod.snd hdone
  refine ⟨fun e he => hdb.registry e (List.mem_filter.mp he).1, hstore ▸ hdb.store.call {} hs, fun {k fp} h => ?_⟩
  change (db.shapes.fingerprints.erase s.key).get? k = some fp at h
  show st.fingerprint? k = some fp
  rw [Assoc.get?_erase] at h
  rw [Store.drop_fingerprint? hdone]
  split at h
  · cases h
  · rename_i hk
    rw [if_neg hk, hdb.shapes h]

/-- Whatever a database does, it knows no shape that is not noted in the store. -/
theorem invariant_recorded : Invariant types (Recorded types) where
  registry h := h.registry
  withRegistry h hr := ⟨hr, h.store, h.shapes⟩
  withCache := Recorded.withCache
  manage := manage_recorded
  upsertWith := upsertWith_recorded
  dropSchema := dropSchema_recorded

end DocStore.Database
