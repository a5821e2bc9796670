import DocStore.Assoc

/-! Tables after many changes. The last of several entries given to a key is the one that is found. -/

namespace DocStore.Assoc

variable {κ α : Type} [DecidableEq κ]

theorem insertAll_cons (t : Assoc κ α) (k : κ) (a : α) (items : List (κ × α)) :
    insertAll t ((k, a) :: items) = insertAll (insert k a t) items := rfl

/-- What is found after many insertions is among what was inserted, or was there before. -/
theorem get?_insertAll (t : Assoc κ α) (items : List (κ × α)) (k : κ) :
    (insertAll t items).get? k = ((insertAll [] items).get? k).or (t.get? k) := by
  induction items generalizing t with
  | nil => rfl
  | cons item items ih =>
    obtain ⟨k', a⟩ := item
    rw [insertAll_cons, insertAll_cons, ih, ih (insert k' a []), Option.or_assoc, get?_insert, get?_insert]
    by_cases h : k' = k <;> simp [h]

theorem get?_insertAll_cons (k' : κ) (a : α) (items : List (κ × α)) (k : κ) :
    (insertAll [] ((k', a) :: items)).get? k =
      ((insertAll [] items).get? k).or (if k' = k then some a else none) := by
  rw [insertAll_cons, get?_insertAll, get?_insert, get?_nil]

/-- If all that was inserted agrees with a function, so does what is found. -/
theorem get?_insertAll_of {items : List (κ × α)} {g : κ → Option α} (h : ∀ x ∈ items, g x.1 = some x.2) (k : κ) :
    (insertAll [] items).get? k = if k ∈ items.map (·.1) then g k else none := by
  induction items with
  | nil => rfl
  | cons item items ih =>
    obtain ⟨k', a⟩ := item
    have hg : g k' = some a := h (k', a) (List.mem_cons_self ..)
    have hrest := ih fun x hx => h x (List.mem_cons_of_mem _ hx)
    rw [get?_insertAll_cons, hrest]
    by_cases hk : k' = k
    · subst hk
      split <;> simp [hg]
    · simp only [if_neg hk, Option.or_none, List.map_cons, List.mem_cons, Ne.symm hk, false_or]

theorem get?_eraseAll (t : Assoc κ α) (ks : List κ) (k : κ) :
    (eraseAll t ks).get? k = if k ∈ ks then none else t.get? k := by
  induction ks generalizing t with
  | nil => rfl
  | cons k' ks ih =>
    show (eraseAll (erase t k') ks).get? k = _
    rw [ih, get?_erase]
    by_cases h : k' = k
    · simp [h]
    · simp only [if_neg h, List.mem_cons, Ne.symm h, false_or]

/-! ### Entries -/

theorem mem_insert {t : Assoc κ α} {k : κ} {a : α} {e : κ × α} (h : e ∈ insert k a t) : e = (k, a) ∨ e ∈ t := by
  induction t with
  | nil => exact Or.inl (List.mem_singleton.mp h)
  | cons e' t ih =>
    obtain ⟨k', a'⟩ := e'
    rw [insert] at h
    split at h
    · exact (List.mem_cons.mp h).imp_right (List.mem_cons_of_mem _)
    · rcases List.mem_cons.mp h with rfl | h
      · exact Or.inr (List.mem_cons_self ..)
      · exact (ih h).imp_right (List.mem_cons_of_mem _)

theorem insert_insert (t : Assoc κ α) (k : κ) (a a' : α) : insert k a' (insert k a t) = insert k a' t := by
  induction t with
  | nil => simp only [insert, if_pos]
  | cons e t ih =>
    obtain ⟨k', a''⟩ := e
    by_cases h : k' = k
    · simp only [insert, if_pos h, if_true]
    · simp only [insert, if_neg h, ih]

/-- Giving a key the entry that it has changes nothing. -/
theorem insert_of_get? {t : Assoc κ α} {k : κ} {a : α} (h : t.get? k = some a) : insert k a t = t := by
  induction t with
  | nil => cases h
  | cons e t ih =>
    obtain ⟨k', a'⟩ := e
    rw [get?_cons] at h
    by_cases hk : k' = k
    · rw [if_pos hk] at h
      rw [insert, if_pos hk, ← Option.some.inj h, hk]
    · rw [if_neg hk] at h
      rw [insert, if_neg hk, ih h]

/-! ### Keys -/

theorem mem_of_get? {t : Assoc κ α} {k : κ} {a : α} (h : t.get? k = some a) : (k, a) ∈ t := by
  induction t with
  | nil => simp at h
  | cons e t ih =>
    obtain ⟨k', a'⟩ := e
    rw [get?_cons] at h
    split at h
    · cases h
      rename_i hk
      exact hk ▸ List.mem_cons_self ..
    · exact List.mem_cons_of_mem _ (ih h)

theorem get?_eq_none {t : Assoc κ α} {k : κ} : t.get? k = none ↔ k ∉ t.map (·.1) := by
  induction t with
  | nil => simp
  | cons e t ih =>
    obtain ⟨k', a⟩ := e
    rw [get?_cons]
    by_cases h : k' = k
    · simp [h]
    · simp [h, ih, Ne.symm h]

/-- A table with one entry for each key finds every entry. -/
theorem get?_of_mem {t : Assoc κ α} (hnd : (t.map (·.1)).Nodup) {k : κ} {a : α} (h : (k, a) ∈ t) :
    t.get? k = some a := by
  induction t with
  | nil => cases h
  | cons e t ih =>
    obtain ⟨k', a'⟩ := e
    rw [List.map_cons, List.nodup_cons] at hnd
    rw [get?_cons]
    rcases List.mem_cons.mp h with heq | hmem
    · cases heq
      simp
    · have hne : k' ≠ k := fun heq => hnd.1 (heq ▸ List.mem_map_of_mem (f := (·.1)) hmem)
      simp [hne, ih hnd.2 hmem]

theorem insert_of_get?_none {t : Assoc κ α} {k : κ} (h : t.get? k = none) (a : α) : insert k a t = t ++ [(k, a)] := by
  induction t with
  | nil => rfl
  | cons e t ih =>
    obtain ⟨k', a'⟩ := e
    rw [get?_cons] at h
    split at h
    · cases h
    · rename_i hne
      rw [insert, if_neg hne, ih h]
      rfl

/-- A key gets an entry of its own only where it has none. -/
theorem nodup_insert {t : Assoc κ α} (h : (t.map (·.1)).Nodup) (k : κ) (a : α) : ((insert k a t).map (·.1)).Nodup := by
  induction t with
  | nil => simp [insert]
  | cons e t ih =>
    obtain ⟨k', a'⟩ := e
    rw [List.map_cons, List.nodup_cons] at h
    rw [insert]
    split
    · rename_i hk
      exact List.nodup_cons.mpr ⟨hk ▸ h.1, h.2⟩
    · rename_i hk
      refine List.nodup_cons.mpr ⟨fun hin => ?_, ih h.2⟩
      obtain ⟨e, he, heq⟩ := List.mem_map.mp hin
      rcases mem_insert he with rfl | he
      · exact hk heq.symm
      · exact h.1 (List.mem_map.mpr ⟨e, he, heq⟩)

/-! ### Entries changed in their places -/

section
variable {β : Type} (f : κ → α → β)

theorem get?_map (t : Assoc κ α) (k : κ) : get? (t.map fun e => (e.1, f e.1 e.2)) k = (t.get? k).map (f k) := by
  induction t with
  | nil => rfl
  | cons e t ih =>
    rw [List.map_cons, get?_cons, get?_cons, ih]
    split
    · rename_i hk
      rw [hk, Option.map_some]
    · rfl

theorem insert_map (t : Assoc κ α) (k : κ) (a : α) :
    insert k (f k a) (t.map fun e => (e.1, f e.1 e.2)) = (insert k a t).map fun e => (e.1, f e.1 e.2) := by
  induction t with
  | nil => rfl
  | cons e t ih =>
    rw [List.map_cons, insert, insert, ih]
    split <;> rfl

theorem erase_map (t : Assoc κ α) (k : κ) :
    erase (t.map fun e => (e.1, f e.1 e.2)) k = (erase t k).map fun e => (e.1, f e.1 e.2) := by
  rw [erase, erase, List.filter_map]
  rfl

end

end DocStore.Assoc
