import DocStore.Proofs.Cache.Reading

/-! Writing back what was fetched. While a fetcher works, others may use the cache in any way; each removal from
    the entry that the read started with advances its generation, so that nothing is written back after one. -/

namespace DocStore.Cache

open Provider (Serving)

/-! ### What may happen during a fetch -/

/-- What others do to the cache: a call of the registry or of an entry that serves a type, or a call of an entry that
    someone holds, registered or not. -/
inductive Event where
  | call (c : Provider.Call)
  | held (h : Handle) (c : Entry.Call)

namespace Event

/-- The provider after an event. -/
def after (p : Provider) : Event → Provider
  | call c => (Provider.perform c p).2
  | held h c => (Provider.onEntry h (Entry.perform c) p).2

/-- Whether an event takes payloads out of the entry of a handle. -/
def invalidates (h : Handle) (p : Provider) : Event → Bool
  | call .clearAll => p.registered.any (·.2 == h)
  | call (.clearFor k) | call (.remove k _) | call (.removeMany k _) => p.registered.get? k == some h
  | call (.entry k c) => p.registered.get? k == some h && c.removes
  | call _ => false
  | held h' c => h' == h && c.removes

end Event

namespace Provider

/-- The provider after several events. -/
def afterAll (p : Provider) (es : List Event) : Provider := es.foldl Event.after p

/-- Whether one of several events takes payloads out of the entry of a handle. -/
def invalidated (h : Handle) : Provider → List Event → Bool
  | _, [] => false
  | p, e :: es => e.invalidates h p || invalidated h (e.after p) es

/-! ### One event -/

/-- From one provider to the next, the entry of a handle is in memory and its generation is advanced as often as
    said. -/
structure Advanced (h : Handle) (n : Nat) (p q : Provider) : Prop where
  serving : Serving h q
  generation : (q.entry h).generation = (p.entry h).generation + UInt64.ofNat n

/-- Once if something is true, else not at all. -/
def once (b : Bool) : Nat := if b then 1 else 0

namespace Advanced

variable {h : Handle} {p q : Provider}

theorem refl (hs : Serving h p) : Advanced h 0 p p := ⟨hs, (UInt64.add_zero _).symm⟩

theorem trans {n m : Nat} {r : Provider} (hpq : Advanced h n p q) (hqr : Advanced h m q r) :
    Advanced h (n + m) p r where
  serving := hqr.serving
  generation := by rw [hqr.generation, hpq.generation, UInt64.add_assoc, UInt64.ofNat_add]

theorem of_entry_eq (hs : Serving h q) (heq : q.entry h = p.entry h) : Advanced h 0 p q :=
  ⟨hs, by rw [heq]; exact (UInt64.add_zero _).symm⟩

theorem onEntry {α : Type} (hs : Serving h p) {m : Entry.Do α} {b : Bool}
    (hm : ∀ {e : Entry}, e.behaviour = .memory →
      (m e).2.behaviour = .memory ∧ (m e).2.generation = e.generation + if b then 1 else 0) (h' : Handle) :
    Advanced h (once (h' == h && b)) p (onEntry h' m p).2 := by
  rw [onEntry_apply]
  by_cases heq : h' = h
  · subst heq
    obtain ⟨hbehaviour, hgeneration⟩ := hm hs.memory
    refine ⟨⟨hs.sound.setEntry _ _, by rw [length_setEntry]; exact hs.created, ?_⟩, ?_⟩
    · rw [entry_setEntry hs.created, hbehaviour]
    · rw [entry_setEntry hs.created, hgeneration, beq_self_eq_true, Bool.true_and]
      cases b <;> rfl
  · have hsame := entry_setEntry_ne (p := p) heq (m (p.entry h')).2
    rw [beq_false_of_ne heq, Bool.false_and]
    exact of_entry_eq ⟨hs.sound.setEntry _ _, by rw [length_setEntry]; exact hs.created, hsame ▸ hs.memory⟩ hsame

theorem onRegistered {α : Type} (hs : Serving h p) {m : Entry.Do α} {b : Bool}
    (hm : ∀ {e : Entry}, e.behaviour = .memory →
      (m e).2.behaviour = .memory ∧ (m e).2.generation = e.generation + if b then 1 else 0) (k : Key) (a : α) :
    Advanced h (once (p.registered.get? k == some h && b)) p (onRegistered k a m p).2 := by
  cases hk : p.registered.get? k with
  | none =>
    rw [onRegistered_none hk]
    exact refl hs
  | some h' =>
    rw [onRegistered_some hk]
    exact onEntry hs hm h'

end Advanced

theorem clear_advances {e : Entry} (hm : e.behaviour = .memory) :
    (Entry.clear e).2.behaviour = .memory ∧ (Entry.clear e).2.generation = e.generation + if true then 1 else 0 := by
  rw [Entry.clear_memory hm]
  exact ⟨hm, rfl⟩

theorem removeMany_advances (ids : List DocId) {e : Entry} (hm : e.behaviour = .memory) :
    (Entry.removeMany ids e).2.behaviour = .memory ∧
      (Entry.removeMany ids e).2.generation = e.generation + if true then 1 else 0 := by
  rw [Entry.removeMany_memory hm]
  exact ⟨hm, rfl⟩

theorem onRegistered_registered {α : Type} (k : Key) (a : α) (m : Entry.Do α) (p : Provider) :
    (onRegistered k a m p).2.registered = p.registered := by
  unfold onRegistered
  cases p.registered.get? k <;> rfl

section
variable {h : Handle} {p : Provider}

/-- Clearing types one after the other advances an entry once for each of them that it serves. -/
theorem clearEach_advanced : ∀ (ks : List Key) {p : Provider}, Serving h p →
    Advanced h (ks.countP fun k => p.registered.get? k == some h) p (clearEach ks p).2
  | [], _, hs => .refl hs
  | k :: ks, p, hs => by
    have hone := Advanced.onRegistered hs clear_advances k ()
    have hrest := clearEach_advanced ks hone.serving
    rw [onRegistered_registered] at hrest
    rw [clearEach_cons, List.countP_cons, Nat.add_comm]
    refine cast ?_ (hone.trans hrest)
    simp only [once, Bool.and_true]

theorem countP_structures (hs : p.Sound) :
    (p.structures.countP fun k => p.registered.get? k == some h) = once (p.registered.any (·.2 == h)) := by
  cases hany : p.registered.any (·.2 == h) with
  | false =>
    rw [List.any_eq_false] at hany
    refine List.countP_eq_zero.mpr fun k _ hk => ?_
    exact hany _ (Assoc.mem_of_get? (beq_iff_eq.mp hk)) (beq_self_eq_true h)
  | true =>
    obtain ⟨⟨k, h'⟩, hmem, heq⟩ := List.any_eq_true.mp hany
    obtain rfl : h' = h := beq_iff_eq.mp heq
    have hk := Assoc.get?_of_mem hs.keys hmem
    have hiff : ∀ k' ∈ p.structures, ((p.registered.get? k' == some h') = true ↔ (k' == k) = true) := by
      intro k' _
      rw [beq_iff_eq, beq_iff_eq]
      exact ⟨fun hk' => hs.key_unique hk' hk, fun heq => heq ▸ hk⟩
    rw [List.countP_congr hiff]
    exact List.count_eq_one_of_mem (nodup_structures hs) (mem_structures.mpr (List.mem_map_of_mem (f := (·.1)) hmem))

/-- An event advances an entry in memory once if it takes payloads out of it, else not. -/
theorem after_advanced (hs : Serving h p) (e : Event) : Advanced h (once (e.invalidates h p)) p (e.after p) := by
  cases e with
  | held h' c => exact .onEntry hs (fun hm => Entry.perform_memory hm c) h'
  | call c =>
    cases c with
    | enable k => exact .of_entry_eq (hs.enableFor k) (entry_enableFor hs.created).1
    | disable k => exact .of_entry_eq ⟨hs.sound.disableFor k, hs.created, hs.memory⟩ rfl
    | setAuto on => exact .of_entry_eq ⟨hs.sound.setAutoEnable on, hs.created, hs.memory⟩ rfl
    | auto | isEnabled k | handles k | structures => exact .refl hs
    | clearAll =>
      have hclear : (Event.call .clearAll).after p = (clearEach p.structures p).2 :=
        (Step.bind_pure_state _ _ p).trans (clear_state p)
      rw [hclear, Event.invalidates, ← countP_structures hs.sound]
      exact clearEach_advanced _ hs
    | clearFor k =>
      rw [Event.after, perform, Step.bind_pure_state, Event.invalidates, ← Bool.and_true (_ == _)]
      exact .onRegistered hs clear_advances k ()
    | remove k id =>
      rw [Event.after, perform, Step.bind_pure_state, Event.invalidates, ← Bool.and_true (_ == _)]
      exact .onRegistered hs (fun hm => ⟨hm, rfl⟩) k ()
    | removeMany k ids =>
      rw [Event.after, perform, Step.bind_pure_state, Event.invalidates, ← Bool.and_true (_ == _)]
      exact .onRegistered hs (removeMany_advances ids) k ()
    | stats k =>
      have hno : (Event.call (.stats k)).invalidates h p = (p.registered.get? k == some h && false) := by
        rw [Bool.and_false]
        rfl
      rw [Event.after, perform, Step.bind_pure_state, hno]
      exact .onRegistered hs (fun hm => ⟨hm, (UInt64.add_zero _).symm⟩) k none
    | entry k c =>
      have hfound : (Step.change (entryFor k) : Do (Option Handle)) p = (.ok (p.entryFor k).1, (p.entryFor k).2) := rfl
      have hcreated : Advanced h 0 p (p.entryFor k).2 := .of_entry_eq (hs.entryFor k) (entry_entryFor hs.created).1
      have hsame : (p.registered.get? k == some h) = ((p.entryFor k).1 == some h) := by
        rw [Bool.eq_iff_iff, beq_iff_eq, beq_iff_eq, registered_entryFor_of_lt hs.created]
      -- the call may create the entry that it goes to, but not the one of the handle
      rw [Event.after, perform, Step.bind_ok hfound, Event.invalidates, hsame]
      cases (p.entryFor k).1 with
      | none => exact hcreated
      | some h' =>
        have hcall := Advanced.onEntry hcreated.serving (fun hm => Entry.perform_memory hm c) h'
        show Advanced h (once (h' == h && c.removes)) p _
        rw [Step.bind_pure_state, ← Nat.zero_add (once _)]
        exact hcreated.trans hcall

/-- After several events an entry in memory has another generation exactly if one of them took payloads out of it. -/
theorem afterAll_advanced : ∀ (es : List Event) {p : Provider}, Serving h p →
    ∃ n ≤ es.length, (n = 0 ↔ invalidated h p es = false) ∧ Advanced h n p (p.afterAll es)
  | [], _, hs => ⟨0, Nat.le_refl 0, by simp [invalidated], .refl hs⟩
  | e :: es, p, hs => by
    have hone := after_advanced hs e
    obtain ⟨n, hle, hzero, hrest⟩ := afterAll_advanced es hone.serving
    refine ⟨once (e.invalidates h p) + n, ?_, ?_, hone.trans hrest⟩
    · have hbool : once (e.invalidates h p) ≤ 1 := by cases e.invalidates h p <;> decide
      rw [List.length_cons, Nat.add_comm es.length]
      exact Nat.add_le_add hbool hle
    · rw [invalidated, Bool.or_eq_false_iff, ← hzero, Nat.add_eq_zero_iff]
      cases e.invalidates h p <;> simp [once]

end

/-! ### Registries after any events -/

theorem sound_new : ({} : Provider).Sound := ⟨List.nodup_nil, List.nodup_nil, nofun⟩

theorem Sound.after {p : Provider} (hs : p.Sound) (e : Event) : (e.after p).Sound := by
  cases e with
  | held h c => exact hs.onEntry h _
  | call c =>
    cases c with
    | enable k => exact hs.enableFor k
    | disable k => exact hs.disableFor k
    | setAuto on => exact hs.setAutoEnable on
    | auto | isEnabled k | handles k | structures => exact hs
    | clearAll =>
      rw [Event.after, perform, Step.bind_pure_state, clear_state]
      exact hs.clearEach _
    | clearFor k | remove k id | removeMany k ids =>
      rw [Event.after, perform, Step.bind_pure_state]
      exact hs.onRegistered k () _
    | stats k =>
      rw [Event.after, perform, Step.bind_pure_state]
      exact hs.onRegistered k none _
    | entry k c =>
      have hfound : (Step.change (Provider.entryFor k) : Do (Option Handle)) p =
          (.ok (p.entryFor k).1, (p.entryFor k).2) := rfl
      rw [Event.after, perform, Step.bind_ok hfound]
      cases (p.entryFor k).1 with
      | none => exact hs.entryFor k
      | some h =>
        show Sound (_ : Except CacheError Reply × Provider).2
        rw [Step.bind_pure_state]
        exact (hs.entryFor k).onEntry h _

theorem Sound.afterAll : ∀ (es : List Event) {p : Provider}, p.Sound → (p.afterAll es).Sound
  | [], _, hs => hs
  | e :: es, _, hs => Sound.afterAll es (hs.after e)

/-! ### The write-back -/

/-- What a read that fetched rows leaves of what the events during the fetch had left: the entry that it started
    with has got the rows unless one of the events took payloads out of it, and no other entry has changed. -/
structure WroteBack (h : Handle) (es : List Event) (rows : List (DocId × String)) (during after final : Provider) :
    Prop where
  payloads : (final.entry h).payloads =
    if invalidated h during es then (after.entry h).payloads else (after.entry h).payloads.insertAll rows
  others : ∀ h', h' ≠ h → final.entry h' = after.entry h'
  registered : final.registered = after.registered

section
variable {h : Handle} {p : Provider}

/-- Rows are stored with the generation of before exactly if no event took payloads out of the entry. -/
theorem storedIf_wroteBack (hs : Serving h p) {es : List Event} (hfew : es.length < UInt64.size)
    (rows : List (DocId × String)) :
    WroteBack h es rows p (p.afterAll es)
      ((p.afterAll es).setEntry h (((p.afterAll es).entry h).storedIf (p.entry h).generation rows).2) := by
  obtain ⟨n, hle, hzero, hadv⟩ := afterAll_advanced es hs
  have hsame : ((p.afterAll es).entry h).generation = (p.entry h).generation ↔ invalidated h p es = false := by
    -- the counter has not come round to where it was
    have hlt : n < UInt64.size := Nat.lt_of_le_of_lt hle hfew
    rw [hadv.generation, UInt64.add_eq_left, ← hzero, ← UInt64.toNat_inj, UInt64.toNat_ofNat_of_lt' hlt]
    rfl
  refine ⟨?_, fun h' hne => entry_setEntry_ne (Ne.symm hne) _, rfl⟩
  rw [entry_setEntry hadv.serving.created, Entry.storedIf]
  cases hinv : invalidated h p es with
  | false => rw [if_pos (hsame.mpr hinv)]; rfl
  | true => rw [if_neg fun heq => by simp [hsame.mp heq] at hinv]; rfl

theorem wroteBack_nil (h : Handle) (p : Provider) (es : List Event) :
    WroteBack h es [] p (p.afterAll es) (p.afterAll es) :=
  ⟨(ite_self _).symm, fun _ _ => rfl, rfl⟩

end

section
variable {σ : Type} {p : Provider} {h : Handle}

theorem beside_putMany (hs : Serving h p) {es : List Event} (hfew : es.length < UInt64.size)
    (rows : List (DocId × String)) (s : σ) : ∃ stored final,
      (beside (onEntry h (Entry.putManyIfGeneration (p.entry h).generation rows)) : Step Error (Provider × σ) Bool)
        (p.afterAll es, s) = (.ok stored, (final, s)) ∧ WroteBack h es rows p (p.afterAll es) final := by
  obtain ⟨n, -, -, hadv⟩ := afterAll_advanced es hs
  have hput := Entry.putManyIfGeneration_memory hadv.serving.memory (p.entry h).generation rows
  exact ⟨_, _, beside_onEntry hput s, storedIf_wroteBack hs hfew rows⟩

theorem consume_wroteBack (hs : Serving h p) {k : Key} (f : Fetcher σ) {id : DocId} {fetched : Option String}
    {es : List Event} {s s' : σ} {q : Provider} (hstart : q.entryFor k = (some h, p))
    (hmiss : (p.entry h).payloads.get? id = none) (hfew : es.length < UInt64.size)
    (hfetch : f.fetch id (p.asked h [id], s) = (.ok fetched, ((p.asked h [id]).afterAll es, s'))) :
    ∃ final, consume k id f .update (q, s) = (.ok fetched, (final, s')) ∧
      WroteBack h es (fetched.toList.map (id, ·)) (p.asked h [id]) ((p.asked h [id]).afterAll es) final := by
  have hentry : (Step.change (entryForMode k .update) : Do (Option Handle)) q = (.ok (some h), p) :=
    congrArg (fun r : Option Handle × Provider => (Except.ok r.1, r.2)) hstart
  have hget : Entry.get id (p.entry h) = (.ok none, ((p.entry h).lookedAll [id]).2) := by
    rw [Entry.get_memory hs.memory, hmiss]
    rfl
  rw [consume, Step.bind_ok (beside_ok hentry s)]
  dsimp only
  rw [Step.bind_ok (beside_onEntry hget s)]
  dsimp only
  rw [← asked, Step.bind_ok (generation_asked hs [id] s), Step.bind_ok hfetch]
  cases fetched with
  | none => exact ⟨_, rfl, wroteBack_nil h _ es⟩
  | some payload =>
    obtain ⟨stored, final, hput, hwrote⟩ := beside_putMany (serving_asked hs [id]) hfew [(id, payload)] s'
    exact ⟨final, Step.bind_ok hput _, hwrote⟩

theorem consumeMany_wroteBack (hs : Serving h p) {k : Key} (f : Fetcher σ) {ids : List DocId}
    {fetched : List (DocId × String)} {es : List Event} {s s' : σ} {q : Provider} (hstart : q.entryFor k = (some h, p))
    (hmiss : ∃ id ∈ ids, (p.entry h).payloads.get? id = none) (hfew : es.length < UInt64.size)
    (hfetch : f.fetchMany (missesOf ids (ids.map (p.entry h).payloads.get?)) (p.asked h ids, s) =
      (.ok fetched, ((p.asked h ids).afterAll es, s'))) :
    ∃ final, consumeMany k ids f .update (q, s) =
        (.ok (ids.filterMap fun id => ((Assoc.insertAll [] fetched).get? id).or ((p.entry h).payloads.get? id)),
          (final, s')) ∧
      WroteBack h es fetched (p.asked h ids) ((p.asked h ids).afterAll es) final := by
  have hentry : (Step.change (entryForMode k .update) : Do (Option Handle)) q = (.ok (some h), p) :=
    congrArg (fun r : Option Handle × Provider => (Except.ok r.1, r.2)) hstart
  have hget := Entry.getMany_memory hs.memory ids
  have hmisses : (missesOf ids (ids.map (p.entry h).payloads.get?)).isEmpty = false := by
    obtain ⟨id, hin, hnone⟩ := hmiss
    rw [List.isEmpty_eq_false_iff]
    exact List.ne_nil_of_mem ((mem_missesOf ids _).mpr ⟨hin, hnone⟩)
  rw [consumeMany, Step.bind_ok (beside_ok hentry s)]
  dsimp only
  rw [Step.bind_ok (beside_onEntry hget s)]
  simp only [hmisses, Bool.false_eq_true, if_false]
  rw [← asked, Step.bind_ok (generation_asked hs ids s), Step.bind_ok hfetch, ← inOrder_hits_insertAll]
  cases fetched with
  | nil => exact ⟨_, rfl, wroteBack_nil h _ es⟩
  | cons row rows =>
    obtain ⟨stored, final, hput, hwrote⟩ := beside_putMany (serving_asked hs ids) hfew (row :: rows) s'
    exact ⟨final, Step.bind_ok hput _, hwrote⟩

end

/-- A removal during a fetch wins over the write-back. A read in the mode that writes back, from an entry in
    memory of any registry that calls lead to (`Sound.afterAll`), calls the fetcher for what the entry lacks;
    whatever events come before the fetcher returns, its rows are answered, and they are stored in the entry that
    the read started with exactly if none of the events took payloads out of that entry. -/
theorem invalidation_wins {σ : Type} {p p₀ : Provider} {k : Key} {h : Handle} (hsound : p.Sound)
    (hstart : p.entryFor k = (some h, p₀)) (hmemory : (p₀.entry h).behaviour = .memory) (f : Fetcher σ) (s s' : σ)
    (es : List Event) (hfew : es.length < UInt64.size) :
    (∀ id fetched, (p₀.entry h).payloads.get? id = none →
      f.fetch id (p₀.asked h [id], s) = (.ok fetched, ((p₀.asked h [id]).afterAll es, s')) →
      ∃ final, consume k id f .update (p, s) = (.ok fetched, (final, s')) ∧
        WroteBack h es (fetched.toList.map (id, ·)) (p₀.asked h [id]) ((p₀.asked h [id]).afterAll es) final) ∧
    (∀ ids fetched, (∃ id ∈ ids, (p₀.entry h).payloads.get? id = none) →
      f.fetchMany (missesOf ids (ids.map (p₀.entry h).payloads.get?)) (p₀.asked h ids, s) =
        (.ok fetched, ((p₀.asked h ids).afterAll es, s')) →
      ∃ final, consumeMany k ids f .update (p, s) =
          (.ok (ids.filterMap fun id => ((Assoc.insertAll [] fetched).get? id).or ((p₀.entry h).payloads.get? id)),
            (final, s')) ∧
        WroteBack h es fetched (p₀.asked h ids) ((p₀.asked h ids).afterAll es) final) := by
  have hp₀ : p₀ = (p.entryFor k).2 := by rw [hstart]
  have hsound₀ : p₀.Sound := hp₀ ▸ hsound.entryFor k
  have hs : Serving h p₀ := ⟨hsound₀, hsound₀.lt_length (registered_entryFor hstart), hmemory⟩
  exact ⟨fun id fetched hmiss hfetch => consume_wroteBack hs f hstart hmiss hfew hfetch,
    fun ids fetched hmiss hfetch => consumeMany_wroteBack hs f hstart hmiss hfew hfetch⟩

/-- A cache that one type uses, after calls that enabled it and stored a payload. -/
def noteCache : Provider :=
  ({} : Provider).afterAll [.call (.enable ⟨"Note"⟩), .call (.entry ⟨"Note"⟩ (.put (.identity 2) "cached"))]

/-- A fetcher that answers the payload `old` for every id, some events happening meanwhile. -/
def eventful (es : List Event) : Fetcher Unit where
  fetch _ := fun (p, s) => (.ok (some "old"), (p.afterAll es, s))
  fetchMany ids := fun (p, s) => (.ok (ids.map (·, "old")), (p.afterAll es, s))
  stored _ := fun (p, s) => (.ok true, (p.afterAll es, s))

theorem invalidation_wins_notes :
    (∃ final, consume ⟨"Note"⟩ (.identity 1) (eventful [.call (.remove ⟨"Note"⟩ (.identity 9))]) .update
          (noteCache, ()) = (.ok (some "old"), (final, ())) ∧
        (final.entry 0).payloads = [(.identity 2, "cached")]) ∧
      ∃ final, consumeMany ⟨"Note"⟩ [.identity 2, .identity 1]
          (eventful [.call (.disable ⟨"Note"⟩), .call (.enable ⟨"Note"⟩)]) .update (noteCache, ()) =
        (.ok ["cached", "old"], (final, ())) ∧
          (final.entry 0).payloads = [(.identity 2, "cached"), (.identity 1, "old")] ∧
          final.registered = [(⟨"Note"⟩, 1)] ∧ (final.entry 1).payloads = [] := by
  have hsound : noteCache.Sound := sound_new.afterAll _
  have hstart : entryFor ⟨"Note"⟩ noteCache = (some 0, noteCache) := rfl
  constructor
  · obtain ⟨final, hrun, hwrote⟩ := (invalidation_wins hsound hstart rfl
      (eventful [.call (.remove ⟨"Note"⟩ (.identity 9))]) () () _ (by decide)).1 (.identity 1) (some "old") rfl rfl
    exact ⟨final, hrun, hwrote.payloads.trans (by decide)⟩
  · obtain ⟨final, hrun, hwrote⟩ := (invalidation_wins hsound hstart rfl
      (eventful [.call (.disable ⟨"Note"⟩), .call (.enable ⟨"Note"⟩)]) () () _ (by decide)).2
      [.identity 2, .identity 1] [(.identity 1, "old")] ⟨.identity 1, by decide, rfl⟩ rfl
    refine ⟨final, hrun, hwrote.payloads.trans (by decide), hwrote.registered.trans (by decide), ?_⟩
    rw [hwrote.others 1 (by decide)]
    decide

end Provider

end DocStore.Cache
