import DocStore.Proofs.Cache.Reading

/-! What a cache holds in memory. No call but those that put payloads in adds any, and what is taken out is
    gone; a read adds what it has fetched to the entry of its type. -/

namespace DocStore.Cache

/-! ### Entries -/

namespace Entry

/-- Whether a call puts payloads in. -/
def Call.puts : Call → Bool
  | .put .. | .putMany _ | .putIfGeneration .. | .putManyIfGeneration .. => true
  | _ => false

/-- From one entry to the next, which is in memory, no payload is added. -/
structure Shrunk (e e' : Entry) : Prop where
  memory : e'.behaviour = .memory
  payloads : ∀ {id : DocId} {x : String}, e'.payloads.get? id = some x → e.payloads.get? id = some x

section
variable {e : Entry} (hm : e.behaviour = .memory)
include hm

theorem shrunk_removed (ids : List DocId) : Shrunk e (e.removed ids) where
  memory := hm
  payloads {id x} h := by
    have hget : (e.payloads.eraseAll ids).get? id = some x := h
    rw [Assoc.get?_eraseAll] at hget
    split at hget
    · cases hget
    · exact hget

theorem shrunk_looked (ids : List DocId) : Shrunk e (e.lookedAll ids).2 := by
  obtain ⟨hpayloads, -, hbehaviour⟩ := lookedAll_keeps e ids
  exact ⟨hbehaviour.trans hm, fun h => by rwa [hpayloads] at h⟩

theorem shrunk_emptied : Shrunk e e.emptied := ⟨hm, fun hx => by cases hx⟩

/-- A call that puts nothing in adds nothing. -/
theorem perform_shrunk {c : Call} (hc : c.puts = false) : Shrunk e (perform c e).2 := by
  cases c with
  | key | generation | stats => exact ⟨hm, id⟩
  | get id =>
    rw [perform, Step.bind_ok (get_memory hm id)]
    exact shrunk_looked hm [id]
  | getMany ids =>
    rw [perform, Step.bind_ok (getMany_memory hm ids)]
    exact shrunk_looked hm ids
  | put | putMany | putIfGeneration | putManyIfGeneration => cases hc
  | remove id => exact shrunk_removed hm [id]
  | removeMany ids =>
    rw [perform, Step.bind_ok (removeMany_memory hm ids)]
    exact shrunk_removed hm ids
  | clear =>
    rw [perform, Step.bind_ok (clear_memory hm)]
    exact shrunk_emptied hm

end

end Entry

namespace Provider

/-! ### Entries of all types -/

/-- All entries are in memory, and so are those that will be created. -/
structure InMemory (p : Provider) : Prop where
  sound : p.Sound
  entries : ∀ h, (p.entry h).behaviour = .memory
  factory : ∀ k, p.factory k = .memory

/-- The payload of an id in the entry that serves a type. -/
def held? (p : Provider) (k : Key) (id : DocId) : Option String := (p.entryOf? k).bind (·.payloads.get? id)

/-- From one provider to the next, which is in memory, the entries that serve types get no payload. -/
structure Shrunk (p q : Provider) : Prop where
  memory : q.InMemory
  held : ∀ {k : Key} {id : DocId} {x : String}, q.held? k id = some x → p.held? k id = some x

section
variable {p : Provider} {k : Key} {h : Handle}

theorem held?_of (hk : p.registered.get? k = some h) (id : DocId) : p.held? k id = (p.entry h).payloads.get? id := by
  rw [held?, entryOf?, hk]
  rfl

theorem held?_none (hk : p.registered.get? k = none) (id : DocId) : p.held? k id = none := by
  rw [held?, entryOf?, hk]
  rfl

theorem held?_eq_some {id : DocId} {x : String} :
    p.held? k id = some x ↔ ∃ h, p.registered.get? k = some h ∧ (p.entry h).payloads.get? id = some x := by
  cases hk : p.registered.get? k with
  | none =>
    rw [held?_none hk]
    exact ⟨nofun, by rintro ⟨h, hh, -⟩; cases hh⟩
  | some h =>
    rw [held?_of hk]
    exact ⟨fun hx => ⟨h, rfl, hx⟩, by rintro ⟨_, ⟨⟩, hx⟩; exact hx⟩

theorem InMemory.serving (hm : p.InMemory) (hk : p.registered.get? k = some h) : Serving h p :=
  ⟨hm.sound, hm.sound.lt_length hk, hm.entries h⟩

theorem InMemory.setEntry (hm : p.InMemory) (h : Handle) {e : Entry} (he : e.behaviour = .memory) :
    (p.setEntry h e).InMemory where
  sound := hm.sound.setEntry h e
  entries h' := by
    by_cases hne : h = h'
    · subst hne
      by_cases hin : h < p.entries.length
      · rw [entry_setEntry hin, he]
      · rw [setEntry_of_le (Nat.le_of_not_lt hin), hm.entries]
    · rw [entry_setEntry_ne hne, hm.entries]
  factory := hm.factory

theorem held?_setEntry (hs : p.Sound) (hk : p.registered.get? k = some h) (e : Entry) (k' : Key) (id : DocId) :
    (p.setEntry h e).held? k' id = if k' = k then e.payloads.get? id else p.held? k' id := by
  have hregistered : (p.setEntry h e).registered = p.registered := rfl
  split
  · rename_i heq
    rw [held?_of (h := h) (by rw [hregistered, heq, hk]), entry_setEntry (hs.lt_length hk)]
  · rename_i hne
    cases hk' : p.registered.get? k' with
    | none => rw [held?_none (by rw [hregistered, hk']), held?_none hk']
    | some h' =>
      have hother : h ≠ h' := fun heq => hne (hs.key_unique hk' (heq ▸ hk))
      rw [held?_of (h := h') (by rw [hregistered, hk']), held?_of hk', entry_setEntry_ne hother]

namespace Shrunk

theorem refl (hm : p.InMemory) : Shrunk p p := ⟨hm, id⟩

theorem trans {q r : Provider} (h : Shrunk p q) (h' : Shrunk q r) : Shrunk p r :=
  ⟨h'.memory, fun hr => h.held (h'.held hr)⟩

theorem held_none {q : Provider} (hpq : Shrunk p q) {id : DocId} (hnone : p.held? k id = none) :
    q.held? k id = none := by
  cases hq : q.held? k id with
  | none => rfl
  | some x =>
    rw [hpq.held hq] at hnone
    cases hnone

theorem setEntry (hm : p.InMemory) (hk : p.registered.get? k = some h) {e : Entry} (he : Entry.Shrunk (p.entry h) e) :
    Shrunk p (p.setEntry h e) where
  memory := hm.setEntry h he.memory
  held {k' id x} hx := by
    rw [held?_setEntry hm.sound hk] at hx
    split at hx
    · rename_i heq
      rw [heq, held?_of hk]
      exact he.payloads hx
    · exact hx

theorem onRegistered {α : Type} (hm : p.InMemory) {m : Entry.Do α}
    (hshrunk : ∀ {e : Entry}, e.behaviour = .memory → Entry.Shrunk e (m e).2) (k : Key) (a : α) :
    Shrunk p (onRegistered k a m p).2 := by
  cases hk : p.registered.get? k with
  | none =>
    rw [onRegistered_none hk]
    exact .refl hm
  | some h =>
    rw [onRegistered_some hk]
    exact .setEntry hm hk (hshrunk (hm.entries h))

theorem enableFor (hm : p.InMemory) (k : Key) : Shrunk p (p.enableFor k).2 := by
  cases hk : p.registered.get? k with
  | some h =>
    rw [enableFor_some hk]
    exact .refl hm
  | none =>
    have hentry := entry_enableFor_none hk
    refine ⟨⟨hm.sound.enableFor k, ?_, ?_⟩, ?_⟩
    · intro h
      rcases hentry h with heq | ⟨heq, -⟩
      · rw [heq, hm.entries]
      · rw [heq]
        exact hm.factory k
    · rw [enableFor_none hk]
      exact hm.factory
    · intro k' id x hx
      obtain ⟨h, hh, hpayload⟩ := held?_eq_some.mp hx
      rcases hentry h with heq | ⟨heq, rfl⟩
      · rw [heq] at hpayload
        refine held?_eq_some.mpr ⟨h, ?_, hpayload⟩
        rw [enableFor_none hk, ← Assoc.insert_of_get?_none hk, Assoc.get?_insert] at hh
        split at hh
        · -- there was no entry yet where the new one stands
          cases hh
          rw [entry_of_le (Nat.le_refl _)] at hpayload
          cases hpayload
        · exact hh
      · rw [heq] at hpayload
        cases hpayload

theorem entryFor (hm : p.InMemory) (k : Key) : Shrunk p (p.entryFor k).2 := by
  cases hk : p.registered.get? k with
  | some h =>
    rw [entryFor_some hk]
    exact .refl hm
  | none =>
    rw [entryFor_none hk]
    split
    · exact .enableFor hm k
    · exact .refl hm

theorem disableFor (hm : p.InMemory) (k : Key) : Shrunk p (p.disableFor k).2 where
  memory := ⟨hm.sound.disableFor k, hm.entries, hm.factory⟩
  held {k' id x} hx := by
    obtain ⟨h, hh, hpayload⟩ := held?_eq_some.mp hx
    have hget : (p.registered.erase k).get? k' = some h := hh
    rw [Assoc.get?_erase] at hget
    split at hget
    · cases hget
    · exact held?_eq_some.mpr ⟨h, hget, hpayload⟩

theorem setAutoEnable (hm : p.InMemory) (on : Bool) : Shrunk p (p.setAutoEnable on) where
  memory := ⟨hm.sound.setAutoEnable on, hm.entries, hm.factory⟩
  held := id

end Shrunk

/-! ### Nothing held -/

/-- A provider in memory that holds nothing. -/
structure Blank (p : Provider) : Prop where
  memory : p.InMemory
  held : ∀ k id, p.held? k id = none

theorem blank_new (on : Bool) : Blank { autoEnable := on } where
  memory := ⟨⟨List.nodup_nil, List.nodup_nil, nofun⟩, fun _ => rfl, fun _ => rfl⟩
  held _ _ := rfl

theorem Blank.enableFor (hp : p.Blank) (k : Key) : (p.enableFor k).2.Blank where
  memory := (Shrunk.enableFor hp.memory k).memory
  held k' id := (Shrunk.enableFor hp.memory k).held_none (hp.held k' id)

/-! ### Removals -/

theorem clearFor_held (hm : p.InMemory) (k : Key) : ∃ q, clearFor k p = (.ok (), q) ∧ Shrunk p q ∧
    ∀ id, q.held? k id = none := by
  cases hk : p.registered.get? k with
  | none => exact ⟨p, onRegistered_none hk .., .refl hm, held?_none hk⟩
  | some h =>
    have hmem := hm.entries h
    refine ⟨p.setEntry h (p.entry h).emptied, ?_, .setEntry hm hk (Entry.shrunk_emptied hmem), fun id => ?_⟩
    · rw [clearFor, onRegistered_some hk, onEntry_ok (Entry.clear_memory hmem)]
    · rw [held?_setEntry hm.sound hk, if_pos rfl]
      rfl

theorem removeMany_held (hm : p.InMemory) (k : Key) (ids : List DocId) : ∃ q, removeMany k ids p = (.ok (), q) ∧
    Shrunk p q ∧ ∀ id ∈ ids, q.held? k id = none := by
  cases hk : p.registered.get? k with
  | none => exact ⟨p, onRegistered_none hk .., .refl hm, fun id _ => held?_none hk id⟩
  | some h =>
    have hmem := hm.entries h
    refine ⟨_, ?_, .setEntry hm hk (Entry.shrunk_removed hmem ids), fun id hid => ?_⟩
    · rw [removeMany, onRegistered_some hk, onEntry_ok (Entry.removeMany_memory hmem ids)]
    · rw [held?_setEntry hm.sound hk, if_pos rfl]
      exact (Assoc.get?_eraseAll ..).trans (if_pos hid)

theorem clearEach_held : ∀ (ks : List Key) {p : Provider}, p.InMemory → ∃ q, clearEach ks p = (.ok [], q) ∧ Shrunk p q ∧
    ∀ k ∈ ks, ∀ id, q.held? k id = none
  | [], p, hm => ⟨p, rfl, .refl hm, nofun⟩
  | k :: ks, p, hm => by
    obtain ⟨p₁, hone, hshrunk, hnone⟩ := clearFor_held hm k
    obtain ⟨q, hrest, hshrunk', hnone'⟩ := clearEach_held ks hshrunk.memory
    have hattempt : (Step.attempt (onRegistered k () Entry.clear) : Do (Except CacheError Unit)) p =
        (.ok (.ok ()), p₁) := by
      rw [Step.attempt]
      show (_, (clearFor k p).2) = _
      rw [hone]
      exact congrArg (fun r : Except CacheError Unit × Provider => (Except.ok r.1, p₁)) hone
    refine ⟨q, ?_, hshrunk.trans hshrunk', ?_⟩
    · rw [clearEach, Step.bind_ok hattempt, Step.bind_ok hrest]
      rfl
    · intro k' hk' id
      rcases List.mem_cons.mp hk' with rfl | hk'
      · exact hshrunk'.held_none (hnone id)
      · exact hnone' k' hk' id

theorem clear_held (hm : p.InMemory) : ∃ q, clear p = (.ok (), q) ∧ q.Blank := by
  obtain ⟨q, hclear, hshrunk, hnone⟩ := clearEach_held p.structures hm
  have hstate : (Step.state : Do Provider) p = (.ok p, p) := rfl
  refine ⟨q, ?_, hshrunk.memory, fun k id => ?_⟩
  · rw [clear, Step.bind_ok hstate, Step.bind_ok hclear]
    rfl
  · by_cases hk : k ∈ p.structures
    · exact hnone k hk id
    · exact hshrunk.held_none (held?_none (Assoc.get?_eq_none.mpr fun hin => hk (mem_structures.mpr hin)) id)

end

/-! ### Calls -/

/-- Whether a call puts payloads in. -/
def Call.puts : Call → Bool
  | .entry _ c => c.puts
  | _ => false

/-- A call that puts nothing in adds nothing. -/
theorem perform_shrunk {p : Provider} (hm : p.InMemory) {c : Call} (hc : c.puts = false) :
    Shrunk p (perform c p).2 := by
  cases c with
  | enable k => exact .enableFor hm k
  | disable k => exact .disableFor hm k
  | setAuto on => exact .setAutoEnable hm on
  | auto | isEnabled k | handles k | structures => exact .refl hm
  | clearAll =>
    obtain ⟨q, hclear, hblank⟩ := clear_held hm
    rw [perform, Step.bind_ok hclear]
    refine ⟨hblank.memory, fun {k id x} hx => ?_⟩
    have hheld : q.held? k id = some x := hx
    rw [hblank.held] at hheld
    cases hheld
  | clearFor k =>
    obtain ⟨q, hclear, hshrunk, -⟩ := clearFor_held hm k
    rw [perform, Step.bind_ok hclear]
    exact hshrunk
  | remove k id =>
    rw [perform, Step.bind_pure_state]
    exact .onRegistered hm (fun hmem => Entry.shrunk_removed hmem [id]) k ()
  | removeMany k ids =>
    obtain ⟨q, hremove, hshrunk, -⟩ := removeMany_held hm k ids
    rw [perform, Step.bind_ok hremove]
    exact hshrunk
  | stats k =>
    rw [perform, Step.bind_pure_state]
    exact .onRegistered hm (fun hmem => ⟨hmem, id⟩) k none
  | entry k c =>
    have hfound : (Step.change (entryFor k) : Do (Option Handle)) p = (.ok (p.entryFor k).1, (p.entryFor k).2) := rfl
    have hcreated := Shrunk.entryFor hm k
    rw [perform, Step.bind_ok hfound]
    cases hentry : p.entryFor k with
    | mk found p₁ =>
      rw [hentry] at hcreated
      cases found with
      | none => exact hcreated
      | some h =>
        show Shrunk p (_ : Except CacheError Reply × Provider).2
        rw [Step.bind_pure_state]
        exact hcreated.trans (.setEntry hcreated.memory (registered_entryFor hentry)
          (Entry.perform_shrunk (hcreated.memory.entries h) hc))

end Provider

end DocStore.Cache
