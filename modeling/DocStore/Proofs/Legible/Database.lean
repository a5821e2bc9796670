import DocStore.Proofs.Session.Kept
import DocStore.Proofs.Store.Legible

/-! What a database and its sessions do leaves ids that can be read back: the ids that are assigned can be, those that
    are converted can be, and those that are given as ids can be if they are valid. -/

namespace DocStore

open Cache (Provider)
open Store (Apart)

variable {types : Schema → Prop}

/-! ### Operations -/

namespace Database

/-- The registered schemas are those of some types, and the ids that the store holds of the types can be read back. -/
structure Legible (types : Schema → Prop) (db : Database) : Prop where
  registry : ∀ e ∈ db.registry.schemas, types e.2
  store : db.store.Everywhere (Store.TableSet.Legible types)

theorem Legible.withCache {db : Database} (cache : Option Provider) (h : Legible types db) :
    Legible types { db with cache } :=
  ⟨h.registry, h.store⟩

theorem onStore_legible {α : Type} {m : Store.Do α} (hm : Step.Keeps (Store.Everywhere (Store.TableSet.Legible types)) m) :
    Step.Keeps (Legible types) (onStore m) :=
  .within hm (fun _ h => h.store) fun _ _ h hst => ⟨h.registry, hst⟩

/-- Whatever a database does, it leaves ids that can be read back. -/
theorem invariant_legible (ha : Apart types) : Invariant types (Legible types) where
  registry h := h.registry
  withRegistry h hr := ⟨hr, h.store⟩
  withCache := Legible.withCache
  manage c := by
    have hreset : Step.Keeps (Legible types) resetCaches :=
      .andThen (onCache_keeps Legible.withCache _) fun _ => .update fun _ h => ⟨h.registry, h.store⟩
    exact .andThen hreset fun _ => onStore_legible (Store.everywhere_manage c)
  upsertWith {s} hs c := by
    have hupsert := Store.legible_keeps ha c (.upsert s) hs nofun
    refine .andThen (onCache_keeps Legible.withCache _) fun _ => .andThen (onStore_legible (.of_map hupsert)) fun _ => ?_
    exact .update fun _ h => ⟨h.registry, h.store⟩
  dropSchema {s} hs := by
    have hdrop := Store.legible_keeps ha {} (.drop s) hs nofun
    refine .andThen (onCache_keeps Legible.withCache _) fun _ => .andThen (onStore_legible (.of_map hdrop)) fun _ => ?_
    exact .update fun _ h => ⟨fun e he => h.registry e (List.mem_filter.mp he).1, h.store⟩

end Database

/-! ### Sessions -/

namespace Session

variable {ses : Session}

/-- A valid id stays one that can be read back when it is converted. -/
theorem readable_of_given {s : Schema} {i id : DocId} (hi : i.IsValid) (h : convert s (.id i) = .ok id) :
    id.idType = s.idType ∧ id.Readable := by
  have hconvert : DocId.convert (.id i) s.idType = .ok id := mapError_eq_ok.mp h
  exact ⟨idType_convert h, (DocId.readable_ofId hi.fits (DocId.convert_eq_ok.mp hconvert)).mpr hi.readable⟩

theorem keeping_legible (ha : Apart types) {s : Schema} (hs : types s) :
    ses.Keeping s (fun id => id.idType = s.idType ∧ id.Readable) (fun _ => True) (Database.Legible types) where
  guids _ hdb := ⟨hdb.registry, hdb.store⟩
  converted h hraw := ⟨idType_convert h, DocId.readable_convert hraw (mapError_eq_ok.mp h)⟩
  handedOut hguid n := ⟨hguid.symm, DocId.readable_inSequence n⟩
  stripped _ _ := trivial
  reserve count := Database.onStore_legible
    (.of_map (Store.legible_keeps ha ses.client (.reserve s count) trivial nofun))
  insert {_ id payload es} _ hid _ := by
    have hadds : (Store.Client.Call.insert s id payload es).AddsLegible types := by
      rintro _ _ _ ⟨⟩ ⟨⟩
      exact ⟨hs, hid⟩
    exact Database.onStore_legible (.of_map (Store.legible_keeps ha ses.client (.insert s id payload es) trivial hadds))
  replace {_ id payload es} _ _ _ := Database.onStore_legible
    (.of_map (Store.legible_keeps ha ses.client (.replace s id payload es) trivial nofun))
  deleteMany {ids} _ := Database.onStore_legible
    (.of_map (Store.legible_keeps ha ses.client (.deleteMany s ids) trivial nofun))
  deleteInterval low high := Database.onStore_legible
    (.of_map (Store.legible_keeps ha ses.client (.deleteInterval s low high) trivial nofun))

/-- Whatever a session is asked to do, it leaves ids that can be read back, if those that it is given are valid. -/
theorem perform_legible (ha : Apart types) (ses : Session) {c : Call} (hk : ∀ {s}, c.kind.schema = .ok s → types s)
    (hgiven : ∀ i, c.Gives i → i.IsValid) : Step.Keeps (Database.Legible types) (ses.perform c) :=
  perform_keeps (Database.invariant_legible ha) (keeping_legible ha) hk fun _ hi hid => readable_of_given (hgiven _ hi) hid

end Session

end DocStore
