import DocStore.Cache.Reading
import DocStore.Proofs.Cache.Provider

/-! Reading through the cache. What a batch answers is, for each id, what was cached or else what was fetched; what is
    fetched is exactly what was not cached. -/

namespace DocStore.Cache

/-! ### Ids without repetitions -/

theorem mem_distinct {id : DocId} : ∀ {ids : List DocId}, id ∈ distinct ids ↔ id ∈ ids
  | [] => Iff.rfl
  | id' :: ids => by
    rw [distinct, List.mem_cons, List.mem_cons, List.mem_filter, mem_distinct]
    by_cases h : id = id' <;> simp [h]

theorem nodup_distinct : ∀ ids : List DocId, (distinct ids).Nodup
  | [] => List.nodup_nil
  | id :: ids => by
    rw [distinct, List.nodup_cons]
    refine ⟨fun h => ?_, (nodup_distinct ids).filter _⟩
    simpa using (List.mem_filter.mp h).2

namespace Provider

variable {σ : Type}

/-! ### Steps beside a fetcher's own state -/

theorem beside_ok {α : Type} {m : Do α} {p p' : Provider} {a : α} (h : m p = (.ok a, p')) (s : σ) :
    (beside m : Step Error (Provider × σ) α) (p, s) = (.ok a, (p', s)) := by
  rw [beside, Step.mapError, Step.within, h]

theorem beside_onEntry {α : Type} {m : Entry.Do α} {h : Handle} {p : Provider} {a : α} {e : Entry}
    (hm : m (p.entry h) = (.ok a, e)) (s : σ) :
    (beside (onEntry h m) : Step Error (Provider × σ) α) (p, s) = (.ok a, (p.setEntry h e, s)) :=
  beside_ok (onEntry_ok hm) s

/-! ### Entries that are asked -/

/-- The provider after an entry was asked for ids. -/
def asked (p : Provider) (h : Handle) (ids : List DocId) : Provider := p.setEntry h ((p.entry h).lookedAll ids).2

section
variable {h : Handle} {p : Provider}

theorem serving_asked (hs : Serving h p) (ids : List DocId) : Serving h (p.asked h ids) where
  sound := hs.sound.setEntry _ _
  created := by
    rw [asked, length_setEntry]
    exact hs.created
  memory := by
    rw [asked, entry_setEntry hs.created, (Entry.lookedAll_keeps _ ids).2.2, hs.memory]

theorem generation_asked (hs : Serving h p) (ids : List DocId) (s : σ) :
    (beside (onEntry h Entry.currentGeneration) : Step Error (Provider × σ) UInt64) (p.asked h ids, s) =
      (.ok ((p.asked h ids).entry h).generation, (p.asked h ids, s)) := by
  have hread : Entry.currentGeneration ((p.asked h ids).entry h) =
      (.ok ((p.asked h ids).entry h).generation, (p.asked h ids).entry h) := rfl
  rw [beside_onEntry hread, setEntry_self (serving_asked hs ids).created]

end

/-! ### Hits and misses -/

section
variable (ids : List DocId) (g : DocId → Option String)

theorem hitsOf_map : hitsOf ids (ids.map g) = ids.filterMap fun id => (g id).map (id, ·) := by
  induction ids with
  | nil => rfl
  | cons id ids ih =>
    rw [hitsOf] at ih ⊢
    rw [List.map_cons, List.zip_cons_cons, List.filterMap_cons, List.filterMap_cons, ih]

theorem missesOf_map : missesOf ids (ids.map g) = distinct (ids.filter fun id => (g id).isNone) := by
  have hzip : ((ids.zip (ids.map g)).filterMap fun x => if x.2.isNone then some x.1 else none) =
      ids.filter fun id => (g id).isNone := by
    induction ids with
    | nil => rfl
    | cons id ids ih =>
      rw [List.map_cons, List.zip_cons_cons, List.filterMap_cons, ih, List.filter_cons]
      cases (g id).isNone <;> rfl
  exact congrArg distinct hzip

theorem mem_missesOf {id : DocId} : id ∈ missesOf ids (ids.map g) ↔ id ∈ ids ∧ g id = none := by
  rw [missesOf_map, mem_distinct, List.mem_filter, Option.isNone_iff_eq_none]

theorem get?_hitsOf (id : DocId) :
    (Assoc.insertAll [] (hitsOf ids (ids.map g))).get? id = if id ∈ ids then g id else none := by
  have hagree : ∀ x ∈ hitsOf ids (ids.map g), g x.1 = some x.2 := by
    intro x hx
    rw [hitsOf_map, List.mem_filterMap] at hx
    obtain ⟨id', -, hmap⟩ := hx
    obtain ⟨payload, hg, rfl⟩ := Option.map_eq_some_iff.mp hmap
    exact hg
  rw [Assoc.get?_insertAll_of hagree]
  cases hg : g id with
  | none => simp
  | some payload =>
    have hmem : id ∈ (hitsOf ids (ids.map g)).map (·.1) ↔ id ∈ ids := by
      rw [hitsOf_map, List.mem_map]
      constructor
      · rintro ⟨x, hx, rfl⟩
        obtain ⟨id', hin, hmap⟩ := List.mem_filterMap.mp hx
        obtain ⟨-, -, rfl⟩ := Option.map_eq_some_iff.mp hmap
        exact hin
      · intro hin
        exact ⟨(id, payload), List.mem_filterMap.mpr ⟨id, hin, by rw [hg]; rfl⟩, rfl⟩
    simp only [hmem]

/-- A batch answers what was fetched, or else what was cached, in the order of the ids. -/
theorem inOrder_hits_insertAll (fetched : List (DocId × String)) :
    inOrder ids ((Assoc.insertAll [] (hitsOf ids (ids.map g))).insertAll fetched) =
      ids.filterMap fun id => ((Assoc.insertAll [] fetched).get? id).or (g id) := by
  refine List.filterMap_congr fun id hid => ?_
  rw [Assoc.get?_insertAll, get?_hitsOf, if_pos hid]

end

end Provider

end DocStore.Cache
