import DocStore.Proofs.Cache.Held

/-! Reads whose fetcher leaves the cache alone. What they answer is what was held or else what was fetched, and
    what they leave is what was held, and of what was fetched as much as the mode says. -/

namespace DocStore.Cache.Provider

/-- From one provider to the next, which is in memory, no payload is added but some new ones of one type. -/
structure Gained (k : Key) (new : DocId → String → Prop) (p q : Provider) : Prop where
  memory : q.InMemory
  held : ∀ {k' : Key} {id : DocId} {x : String}, q.held? k' id = some x → p.held? k' id = some x ∨ (k' = k ∧ new id x)

section
variable {p : Provider} {k : Key} {h : Handle} {new : DocId → String → Prop}

theorem Shrunk.gained {q : Provider} (hpq : Shrunk p q) : Gained k new p q :=
  ⟨hpq.memory, fun hx => Or.inl (hpq.held hx)⟩

theorem Shrunk.trans_gained {q r : Provider} (hpq : Shrunk p q) (hqr : Gained k new q r) : Gained k new p r :=
  ⟨hqr.memory, fun hx => (hqr.held hx).imp_left hpq.held⟩

theorem stored_gained (hm : p.InMemory) (hk : p.registered.get? k = some h) {rows : List (DocId × String)}
    (hnew : ∀ {id x}, (Assoc.insertAll [] rows).get? id = some x → new id x) :
    Gained k new p (p.setEntry h ((p.entry h).stored rows)) where
  memory := hm.setEntry h (hm.entries h)
  held {k' id x} hx := by
    rw [held?_setEntry hm.sound hk] at hx
    split at hx
    · rename_i heq
      have hget : ((p.entry h).payloads.insertAll rows).get? id = some x := hx
      rw [Assoc.get?_insertAll] at hget
      rcases Option.or_eq_some_iff.mp hget with hrow | ⟨-, hold⟩
      · exact Or.inr ⟨heq, hnew hrow⟩
      · refine Or.inl ?_
        rw [heq, held?_of hk, hold]
    · exact Or.inl hx

theorem asked_shrunk (hm : p.InMemory) (hk : p.registered.get? k = some h) (ids : List DocId) :
    Shrunk p (p.asked h ids) :=
  .setEntry hm hk (Entry.shrunk_looked (hm.entries h) ids)

theorem entryForMode_shrunk (hm : p.InMemory) (k : Key) (mode : ConsumeMode) : Shrunk p (entryForMode k mode p).2 := by
  cases mode with
  | ignore => exact .refl hm
  | readOnly | update => exact .entryFor hm k

theorem registered_entryForMode {mode : ConsumeMode} {q : Provider} (hentry : entryForMode k mode p = (some h, q)) :
    q.registered.get? k = some h := by
  cases mode with
  | ignore => cases hentry
  | readOnly | update => exact registered_entryFor hentry

variable {σ : Type}

theorem beside_store (hm : p.InMemory) (rows : List (DocId × String)) (s : σ) :
    (beside (onEntry h (Entry.putManyIfGeneration (p.entry h).generation rows)) : Step Error (Provider × σ) Bool)
      (p, s) = (.ok true, (p.setEntry h ((p.entry h).stored rows), s)) := by
  refine beside_onEntry ?_ s
  rw [Entry.putManyIfGeneration_memory (hm.entries h), Entry.storedIf, if_pos rfl]

theorem change_entryForMode {found : Option Handle} {mode : ConsumeMode} {q : Provider}
    (hentry : entryForMode k mode p = (found, q)) (s : σ) :
    (beside (Step.change (entryForMode k mode)) : Step Error (Provider × σ) (Option Handle)) (p, s) =
      (.ok found, (q, s)) := by
  refine beside_ok ?_ s
  rw [Step.change, hentry]

/-- An entry that is asked for an id tells what it holds, and holds no more from then on. -/
theorem beside_get {q : Provider} (hshrunk : Shrunk p q) (hk : q.registered.get? k = some h) (id : DocId) (s : σ) :
    (beside (onEntry h (Entry.get id)) : Step Error (Provider × σ) (Option String)) (q, s) =
        (.ok ((q.entry h).payloads.get? id), (q.asked h [id], s)) ∧
      Shrunk p (q.asked h [id]) ∧ ∀ {x}, (q.entry h).payloads.get? id = some x → p.held? k id = some x :=
  ⟨beside_onEntry (Entry.get_memory (hshrunk.memory.entries h) id) s, hshrunk.trans (asked_shrunk hshrunk.memory hk [id]),
    fun hheld => hshrunk.held ((held?_of hk id).trans hheld)⟩

end

/-! ### One payload -/

section
variable {σ : Type} {p : Provider} (hm : p.InMemory) (k : Key) (id : DocId) {f : Fetcher σ} {s : σ}
include hm

theorem consume_fetching {r : Except Error (Option String)} (hfetch : ∀ q, f.fetch id (q, s) = (r, (q, s)))
    (mode : ConsumeMode) : ∃ answer q, consume k id f mode (p, s) = (answer, (q, s)) ∧
      Gained k (fun id' x => id' = id ∧ r = .ok (some x)) p q ∧
      (answer = r ∨ ∃ x, p.held? k id = some x ∧ answer = .ok (some x)) := by
  have hshrunk := entryForMode_shrunk hm k mode
  cases hentry : entryForMode k mode p with
  | mk found q =>
    rw [hentry] at hshrunk
    rw [consume, Step.bind_ok (change_entryForMode hentry s)]
    cases found with
    | none => exact ⟨r, q, hfetch q, hshrunk.gained, Or.inl rfl⟩
    | some h =>
      have hk := registered_entryForMode hentry
      obtain ⟨hget, hasked, hfound⟩ := beside_get hshrunk hk id s
      dsimp only
      rw [Step.bind_ok hget]
      cases hheld : (q.entry h).payloads.get? id with
      | some x => exact ⟨.ok (some x), q.asked h [id], rfl, hasked.gained, Or.inr ⟨x, hfound hheld, rfl⟩⟩
      | none =>
        -- the fetcher leaves the cache alone, so the generation read before it is still the current one
        have hgeneration := generation_asked (hshrunk.memory.serving hk) [id] s
        show ∃ answer q',
          ((beside (onEntry h Entry.currentGeneration) >>= _) (q.asked h [id], s)) = (answer, (q', s)) ∧ _
        rw [Step.bind_ok hgeneration]
        cases r with
        | error e =>
          rw [Step.bind_error (hfetch _)]
          exact ⟨_, _, rfl, hasked.gained, Or.inl rfl⟩
        | ok fetched =>
          rw [Step.bind_ok (hfetch _)]
          cases fetched with
          | none => exact ⟨_, _, rfl, hasked.gained, Or.inl rfl⟩
          | some x =>
            dsimp only
            split
            · have hstore := beside_store (h := h) hasked.memory [(id, x)] s
              refine ⟨_, _, Step.bind_ok hstore _, ?_, Or.inl rfl⟩
              refine hasked.trans_gained (stored_gained hasked.memory hk ?_)
              intro id' x' hx
              rw [Assoc.insertAll_cons, Assoc.get?_insertAll, Assoc.get?_insert] at hx
              split at hx
              · rename_i heq
                cases hx
                exact ⟨heq.symm, rfl⟩
              · cases hx
            · exact ⟨_, _, rfl, hasked.gained, Or.inl rfl⟩

theorem exists?_fetching {r : Except Error Bool} (hfetch : ∀ q, f.stored id (q, s) = (r, (q, s))) (mode : ConsumeMode) :
    ∃ answer q, exists? k id f mode (p, s) = (answer, (q, s)) ∧ Shrunk p q ∧
      (answer = r ∨ ∃ x, p.held? k id = some x ∧ answer = .ok true) := by
  have hshrunk := entryForMode_shrunk hm k mode
  cases hentry : entryForMode k mode p with
  | mk found q =>
    rw [hentry] at hshrunk
    rw [exists?, Step.bind_ok (change_entryForMode hentry s)]
    cases found with
    | none => exact ⟨r, q, hfetch q, hshrunk, Or.inl rfl⟩
    | some h =>
      have hk := registered_entryForMode hentry
      obtain ⟨hget, hasked, hfound⟩ := beside_get hshrunk hk id s
      dsimp only
      rw [Step.bind_ok hget]
      cases hheld : (q.entry h).payloads.get? id with
      | some x => exact ⟨.ok true, q.asked h [id], rfl, hasked, Or.inr ⟨x, hfound hheld, rfl⟩⟩
      | none => exact ⟨r, _, hfetch _, hasked, Or.inl rfl⟩

end

/-! ### Several payloads -/

/-- What a read of several ids answers when some payloads are held and the others are fetched. -/
def answered (ids : List DocId) (held : DocId → Option String)
    (fetched : List DocId → Except Error (List (DocId × String))) : Except Error (List String) :=
  let misses := distinct (ids.filter fun id => (held id).isNone)
  if misses.isEmpty then .ok (ids.filterMap held)
  else (fetched misses).map fun rows => ids.filterMap fun id => ((Assoc.insertAll [] rows).get? id).or (held id)

section
variable {ids : List DocId} {held : DocId → Option String} {fetched : List DocId → Except Error (List (DocId × String))}

/-- If what is held and what is fetched agree with a function, so does what is answered. -/
theorem answered_eq {g : DocId → Option String} (hheld : ∀ {id x}, held id = some x → g id = some x)
    (hfetched : ∀ ids', (∀ id ∈ ids', id ∈ ids) → ∃ rows, fetched ids' = .ok rows ∧ (∀ x ∈ rows, g x.1 = some x.2) ∧
      ∀ id ∈ ids', (Assoc.insertAll [] rows).get? id = g id) :
    answered ids held fetched = .ok (ids.filterMap g) := by
  have hmiss : ∀ {id}, id ∈ distinct (ids.filter fun id => (held id).isNone) ↔ id ∈ ids ∧ held id = none := by
    intro id
    rw [mem_distinct, List.mem_filter, Option.isNone_iff_eq_none]
  unfold answered
  dsimp only
  split
  · rename_i hnone
    rw [List.isEmpty_iff] at hnone
    refine congrArg Except.ok (List.filterMap_congr fun id hid => ?_)
    cases hx : held id with
    | none =>
      have hin := hmiss.mpr ⟨hid, hx⟩
      rw [hnone] at hin
      cases hin
    | some x => exact (hheld hx).symm
  · obtain ⟨rows, hrows, hagree, hall⟩ := hfetched _ fun id hid => (hmiss.mp hid).1
    rw [hrows]
    refine congrArg Except.ok (List.filterMap_congr fun id hid => ?_)
    cases hx : held id with
    | none => rw [Option.or_none, hall id (hmiss.mpr ⟨hid, hx⟩)]
    | some x =>
      rw [Assoc.get?_insertAll_of hagree, hheld hx]
      split <;> rfl

theorem answered_error {e : Error} (hids : ids ≠ []) (hheld : ∀ id, held id = none)
    (hfetched : ∀ ids', ids' ≠ [] → fetched ids' = .error e) : answered ids held fetched = .error e := by
  have hmiss : distinct (ids.filter fun id => (held id).isNone) ≠ [] := by
    obtain ⟨id, hid⟩ := List.exists_mem_of_ne_nil ids hids
    refine List.ne_nil_of_mem (mem_distinct.mpr (List.mem_filter.mpr ⟨hid, ?_⟩))
    rw [hheld]
    rfl
  rw [answered, if_neg (by simpa using hmiss), hfetched _ hmiss]
  rfl

end

section
variable {σ : Type} {p : Provider} (hm : p.InMemory) (k : Key) {ids : List DocId} {f : Fetcher σ} {s : σ}
include hm

theorem consumeMany_fetching {r : List DocId → Except Error (List (DocId × String))}
    (hfetch : ∀ ids q, f.fetchMany ids (q, s) = (r ids, (q, s))) (hids : ids ≠ []) (mode : ConsumeMode) :
    ∃ held q, consumeMany k ids f mode (p, s) = (answered ids held r, (q, s)) ∧
      (∀ {id x}, held id = some x → p.held? k id = some x) ∧
      Gained k (fun id x => ∃ ids' rows, r ids' = .ok rows ∧ (Assoc.insertAll [] rows).get? id = some x) p q := by
  have hshrunk := entryForMode_shrunk hm k mode
  cases hentry : entryForMode k mode p with
  | mk found q =>
    rw [hentry] at hshrunk
    rw [consumeMany, Step.bind_ok (change_entryForMode hentry s)]
    cases found with
    | none =>
      refine ⟨fun _ => none, q, ?_, nofun, hshrunk.gained⟩
      have hall : (ids.filter fun id => (none : Option String).isNone) = ids := List.filter_eq_self.mpr fun _ _ => rfl
      have hsome : (distinct ids).isEmpty = false := by
        obtain ⟨id, hid⟩ := List.exists_mem_of_ne_nil ids hids
        exact List.isEmpty_eq_false_iff.mpr (List.ne_nil_of_mem (mem_distinct.mpr hid))
      simp only [answered, hall, hsome, Bool.false_eq_true, if_false, Option.or_none]
      cases hr : r (distinct ids) with
      | error e => exact Step.bind_error ((hfetch _ q).trans (by rw [hr])) _
      | ok rows => exact Step.bind_ok ((hfetch _ q).trans (by rw [hr])) _
    | some h =>
      have hk := registered_entryForMode hentry
      have hasked := asked_shrunk hshrunk.memory hk ids
      have hgained : ∀ {new}, Gained k new p (q.asked h ids) := (hshrunk.trans hasked).gained
      have hget := Entry.getMany_memory (hshrunk.memory.entries h) ids
      refine ⟨(q.entry h).payloads.get?, ?_⟩
      have hheld : ∀ {id x}, (q.entry h).payloads.get? id = some x → p.held? k id = some x := fun {id x} hx =>
        hshrunk.held ((held?_of hk id).trans hx)
      dsimp only
      rw [Step.bind_ok (beside_onEntry hget s)]
      simp only [missesOf_map, answered]
      split
      · rename_i hnone
        refine ⟨q.asked h ids, ?_, hheld, hgained⟩
        have hhits := inOrder_hits_insertAll ids (q.entry h).payloads.get? []
        exact congrArg (fun answer => (Except.ok answer, (q.asked h ids, s))) hhits
      · -- as in the read of one payload, nothing happens to the generation meanwhile
        have hgeneration := generation_asked (hshrunk.memory.serving hk) ids s
        show ∃ q', ((beside (onEntry h Entry.currentGeneration) >>= _) (q.asked h ids, s)) = (_, (q', s)) ∧ _ ∧ _
        rw [Step.bind_ok hgeneration]
        simp only [← inOrder_hits_insertAll ids (q.entry h).payloads.get?]
        cases hr : r (distinct (ids.filter fun id => ((q.entry h).payloads.get? id).isNone)) with
        | error e =>
          rw [Step.bind_error ((hfetch _ _).trans (by rw [hr]))]
          exact ⟨_, rfl, hheld, hgained⟩
        | ok rows =>
          rw [Step.bind_ok ((hfetch _ _).trans (by rw [hr]))]
          split
          · have hstore := beside_store (h := h) hasked.memory rows s
            refine ⟨_, Step.bind_ok hstore _, hheld, ?_⟩
            exact (hshrunk.trans hasked).trans_gained
              (stored_gained hasked.memory hk fun hx => ⟨_, rows, hr, hx⟩)
          · exact ⟨_, rfl, hheld, hgained⟩

end

end DocStore.Cache.Provider
