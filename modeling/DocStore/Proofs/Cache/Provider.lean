import DocStore.Cache.Provider
import DocStore.Proofs.Assoc
import DocStore.Proofs.Cache.Entry
import Mathlib.Data.List.Nodup

/-! The registry of entries. A type has one entry at most and an entry serves one type at most; whatever is created is
    created behind all that there has been, so a handle means the same entry for ever. -/

namespace DocStore.Cache.Provider

/-! ### Entries by their handles -/

/-- The provider with another entry under a handle. -/
def setEntry (p : Provider) (h : Handle) (e : Entry) : Provider := { p with entries := p.entries.set h e }

section
variable (p : Provider) (h h' : Handle) (e : Entry)

@[simp] theorem length_setEntry : (p.setEntry h e).entries.length = p.entries.length := List.length_set

end

section
variable {p : Provider} {h h' : Handle}

theorem entry_setEntry (hin : h < p.entries.length) (e : Entry) : (p.setEntry h e).entry h = e := by
  simp [setEntry, entry, hin]

theorem entry_setEntry_ne (hne : h ≠ h') (e : Entry) : (p.setEntry h e).entry h' = p.entry h' := by
  simp [setEntry, entry, List.getElem?_set_ne hne]

/-- Under a handle that no entry has been given, nothing is put. -/
theorem setEntry_of_le (hout : p.entries.length ≤ h) (e : Entry) : p.setEntry h e = p := by
  rw [setEntry, List.set_eq_of_length_le hout]

theorem entry_of_le (hout : p.entries.length ≤ h) : p.entry h = default := by
  rw [entry, List.getD_eq_getElem?_getD, List.getElem?_eq_none hout, Option.getD_none]

theorem setEntry_self (hin : h < p.entries.length) : p.setEntry h (p.entry h) = p := by
  have hentry : p.entry h = p.entries[h] := by simp [entry, hin]
  rw [setEntry, hentry, List.set_getElem_self]

theorem onEntry_apply {α : Type} (h : Handle) (m : Entry.Do α) (p : Provider) :
    onEntry h m p = ((m (p.entry h)).1, p.setEntry h (m (p.entry h)).2) := rfl

theorem onEntry_ok {α : Type} {m : Entry.Do α} {a : α} {e : Entry} (hm : m (p.entry h) = (.ok a, e)) :
    onEntry h m p = (.ok a, p.setEntry h e) := by
  rw [onEntry_apply, hm]

theorem onRegistered_some {α : Type} {k : Key} (hk : p.registered.get? k = some h) (a : α) (m : Entry.Do α) :
    onRegistered k a m p = onEntry h m p := by
  rw [onRegistered, hk]

theorem onRegistered_none {α : Type} {k : Key} (hk : p.registered.get? k = none) (a : α) (m : Entry.Do α) :
    onRegistered k a m p = (.ok a, p) := by
  rw [onRegistered, hk]

end

/-! ### Registries that make sense -/

/-- Each type has one entry at most, each entry serves one type at most, and what is registered is there. -/
structure Sound (p : Provider) : Prop where
  keys : (p.registered.map (·.1)).Nodup
  handles : (p.registered.map (·.2)).Nodup
  bound : ∀ h ∈ p.registered.map (·.2), h < p.entries.length

/-- An entry in memory that has been created. -/
structure Serving (h : Handle) (p : Provider) : Prop where
  sound : p.Sound
  created : h < p.entries.length
  memory : (p.entry h).behaviour = .memory

theorem mem_handles {p : Provider} {k : Key} {h : Handle} (hk : p.registered.get? k = some h) :
    h ∈ p.registered.map (·.2) :=
  List.mem_map_of_mem (f := (·.2)) (Assoc.mem_of_get? hk)

namespace Sound

variable {p : Provider}

theorem lt_length (hs : p.Sound) {k : Key} {h : Handle} (hk : p.registered.get? k = some h) : h < p.entries.length :=
  hs.bound h (mem_handles hk)

theorem key_unique (hs : p.Sound) {k k' : Key} {h : Handle} (hk : p.registered.get? k = some h)
    (hk' : p.registered.get? k' = some h) : k = k' :=
  congrArg Prod.fst (List.inj_on_of_nodup_map hs.handles (Assoc.mem_of_get? hk) (Assoc.mem_of_get? hk') rfl)

theorem setEntry (hs : p.Sound) (h : Handle) (e : Entry) : (p.setEntry h e).Sound where
  keys := hs.keys
  handles := hs.handles
  bound h' hh' := by
    rw [length_setEntry]
    exact hs.bound h' hh'

theorem onEntry {α : Type} (hs : p.Sound) (h : Handle) (m : Entry.Do α) : (onEntry h m p).2.Sound := hs.setEntry h _

theorem onRegistered {α : Type} (hs : p.Sound) (k : Key) (a : α) (m : Entry.Do α) : (onRegistered k a m p).2.Sound := by
  cases hk : p.registered.get? k with
  | none => rwa [onRegistered_none hk]
  | some h =>
    rw [onRegistered_some hk]
    exact hs.onEntry h m

theorem setAutoEnable (hs : p.Sound) (on : Bool) : (p.setAutoEnable on).Sound := ⟨hs.keys, hs.handles, hs.bound⟩

theorem disableFor (hs : p.Sound) (k : Key) : (p.disableFor k).2.Sound where
  keys := hs.keys.sublist (List.filter_sublist.map _)
  handles := hs.handles.sublist (List.filter_sublist.map _)
  bound h hh := hs.bound h ((List.filter_sublist.map _).subset hh)

end Sound

/-! ### Creating entries -/

section
variable {p : Provider} {k : Key}

theorem enableFor_some {h : Handle} (hk : p.registered.get? k = some h) : p.enableFor k = (h, p) := by
  rw [enableFor, hk]

theorem enableFor_none (hk : p.registered.get? k = none) :
    p.enableFor k = (p.entries.length,
      { p with entries := p.entries ++ [Entry.new k (p.factory k)],
               registered := p.registered ++ [(k, p.entries.length)] }) := by
  rw [enableFor, hk, ← Assoc.insert_of_get?_none hk]

theorem entryFor_some {h : Handle} (hk : p.registered.get? k = some h) : p.entryFor k = (some h, p) := by
  rw [entryFor, hk]

theorem entryFor_none (hk : p.registered.get? k = none) :
    p.entryFor k = if p.autoEnable then (some (p.enableFor k).1, (p.enableFor k).2) else (none, p) := by
  rw [entryFor, hk]

theorem Sound.enableFor (hs : p.Sound) (k : Key) : (p.enableFor k).2.Sound := by
  cases hk : p.registered.get? k with
  | some h => rwa [enableFor_some hk]
  | none =>
    rw [enableFor_none hk]
    refine ⟨?_, ?_, ?_⟩
    · rw [List.map_append, List.nodup_append]
      refine ⟨hs.keys, List.nodup_singleton _, ?_⟩
      rintro k₁ h₁ k₂ h₂ rfl
      rw [List.mem_singleton.mp h₂] at h₁
      exact Assoc.get?_eq_none.mp hk h₁
    · rw [List.map_append, List.nodup_append]
      refine ⟨hs.handles, List.nodup_singleton _, ?_⟩
      rintro h₁ hin h₂ hlast rfl
      have hlt := hs.bound h₁ hin
      rw [List.mem_singleton.mp hlast] at hlt
      exact Nat.lt_irrefl _ hlt
    · intro h hh
      rw [List.map_append, List.mem_append] at hh
      rw [List.length_append, List.length_singleton]
      rcases hh with hh | hh
      · exact Nat.lt_succ_of_lt (hs.bound h hh)
      · rw [List.mem_singleton.mp hh]
        exact Nat.lt_succ_self _

theorem Sound.entryFor (hs : p.Sound) (k : Key) : (p.entryFor k).2.Sound := by
  cases hk : p.registered.get? k with
  | some h => rwa [entryFor_some hk]
  | none =>
    rw [entryFor_none hk]
    split
    · exact hs.enableFor k
    · exact hs

theorem entry_enableFor {h : Handle} (hin : h < p.entries.length) :
    (p.enableFor k).2.entry h = p.entry h ∧ h < (p.enableFor k).2.entries.length := by
  cases hk : p.registered.get? k with
  | some h' =>
    rw [enableFor_some hk]
    exact ⟨rfl, hin⟩
  | none =>
    rw [enableFor_none hk]
    refine ⟨by simp [entry, List.getElem?_append_left hin], ?_⟩
    rw [List.length_append]
    exact Nat.lt_add_right _ hin

/-- The entry of a type that had none stands behind the others. -/
theorem entry_enableFor_none (hk : p.registered.get? k = none) (h : Handle) :
    (p.enableFor k).2.entry h = p.entry h ∨
      (p.enableFor k).2.entry h = Entry.new k (p.factory k) ∧ h = p.entries.length := by
  rcases Nat.lt_trichotomy h p.entries.length with hlt | rfl | hgt
  · exact Or.inl (entry_enableFor hlt).1
  · rw [enableFor_none hk]
    exact Or.inr ⟨by simp [entry], rfl⟩
  · have hend : (p.enableFor k).2.entries.length ≤ h := by
      rw [enableFor_none hk, List.length_append]
      exact hgt
    exact Or.inl ((entry_of_le hend).trans (entry_of_le (Nat.le_of_lt hgt)).symm)

theorem entry_entryFor {h : Handle} (hin : h < p.entries.length) :
    (p.entryFor k).2.entry h = p.entry h ∧ h < (p.entryFor k).2.entries.length := by
  cases hk : p.registered.get? k with
  | some h' =>
    rw [entryFor_some hk]
    exact ⟨rfl, hin⟩
  | none =>
    rw [entryFor_none hk]
    split
    · exact entry_enableFor hin
    · exact ⟨rfl, hin⟩

theorem registered_entryFor {h : Handle} {p' : Provider} (he : p.entryFor k = (some h, p')) :
    p'.registered.get? k = some h := by
  cases hk : p.registered.get? k with
  | some h' =>
    rw [entryFor_some hk] at he
    cases he
    exact hk
  | none =>
    rw [entryFor_none hk] at he
    split at he
    · rw [enableFor_none hk] at he
      cases he
      have hend : (p.registered ++ [(k, p.entries.length)]).get? k = some p.entries.length := by
        rw [← Assoc.insert_of_get?_none hk, Assoc.get?_insert, if_pos rfl]
      exact hend
    · cases he

/-- The entry that serves a type after an entry was looked for is the one there was, if it is not the one found. -/
theorem registered_entryFor_of_lt {h : Handle} (hin : h < p.entries.length) :
    (p.entryFor k).1 = some h ↔ p.registered.get? k = some h := by
  cases hk : p.registered.get? k with
  | some h' => rw [entryFor_some hk]
  | none =>
    rw [entryFor_none hk]
    split
    · rw [enableFor_none hk]
      refine ⟨fun heq => ?_, nofun⟩
      rw [Option.some.injEq] at heq
      exact absurd (heq ▸ hin) (Nat.lt_irrefl _)
    · exact ⟨nofun, nofun⟩

end

namespace Serving

variable {h : Handle} {p : Provider}

theorem enableFor (hs : Serving h p) (k : Key) : Serving h (p.enableFor k).2 := by
  obtain ⟨hentry, hin⟩ := entry_enableFor (k := k) hs.created
  exact ⟨hs.sound.enableFor k, hin, hentry ▸ hs.memory⟩

theorem entryFor (hs : Serving h p) (k : Key) : Serving h (p.entryFor k).2 := by
  obtain ⟨hentry, hin⟩ := entry_entryFor (k := k) hs.created
  exact ⟨hs.sound.entryFor k, hin, hentry ▸ hs.memory⟩

end Serving

/-! ### Clearing all -/

/-- Clearing goes on after a failure. -/
theorem clearEach_cons (k : Key) (ks : List Key) (p : Provider) :
    (clearEach (k :: ks) p).2 = (clearEach ks (onRegistered k () Entry.clear p).2).2 := by
  have hattempt : (Step.attempt (onRegistered k () Entry.clear) : Do (Except CacheError Unit)) p =
      (.ok (onRegistered k () Entry.clear p).1, (onRegistered k () Entry.clear p).2) := rfl
  rw [clearEach, Step.bind_ok hattempt, Step.bind_apply]
  cases clearEach ks (onRegistered k () Entry.clear p).2 with
  | mk r q =>
    cases r with
    | error e => rfl
    | ok failures => cases (onRegistered k () Entry.clear p).1 <;> rfl

theorem Sound.clearEach : ∀ (ks : List Key) {p : Provider}, p.Sound → (clearEach ks p).2.Sound
  | [], _, hs => hs
  | k :: ks, _, hs => by
    rw [clearEach_cons]
    exact Sound.clearEach ks (hs.onRegistered k () _)

theorem clear_state (p : Provider) : (clear p).2 = (clearEach p.structures p).2 := by
  have hstate : (Step.state : Do Provider) p = (.ok p, p) := rfl
  rw [clear, Step.bind_ok hstate, Step.bind_apply]
  cases clearEach p.structures p with
  | mk r q =>
    cases r with
    | error e => rfl
    | ok failures => cases hf : failures.isEmpty <;> simp only [hf] <;> rfl

theorem mem_structures {p : Provider} {k : Key} : k ∈ p.structures ↔ k ∈ p.registered.map (·.1) :=
  List.mem_mergeSort

theorem nodup_structures {p : Provider} (hs : p.Sound) : p.structures.Nodup :=
  (List.mergeSort_perm _ _).nodup_iff.mpr hs.keys

end DocStore.Cache.Provider
