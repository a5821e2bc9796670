import DocStore.Step

/-! Steps one after the other. The second of two steps begins where the first one ended, unless that one failed. -/

namespace DocStore.Step

variable {ε ε' σ τ α β : Type}

/-! ### Two steps -/

@[simp] theorem pure_apply (a : α) (s : σ) : (pure a : Step ε σ α) s = (.ok a, s) := rfl

theorem bind_apply (m : Step ε σ α) (f : α → Step ε σ β) (s : σ) :
    (m >>= f) s = match m s with
      | (.ok a, s') => f a s'
      | (.error e, s') => (.error e, s') := rfl

theorem bind_ok {m : Step ε σ α} {s s' : σ} {a : α} (h : m s = (.ok a, s')) (f : α → Step ε σ β) :
    (m >>= f) s = f a s' := by
  rw [bind_apply, h]

theorem bind_error {m : Step ε σ α} {s s' : σ} {e : ε} (h : m s = (.error e, s')) (f : α → Step ε σ β) :
    (m >>= f) s = (.error e, s') := by
  rw [bind_apply, h]

theorem bind_assoc {γ : Type} (m : Step ε σ α) (f : α → Step ε σ β) (g : β → Step ε σ γ) :
    m >>= f >>= g = m >>= fun a => f a >>= g := by
  funext s
  simp only [bind_apply]
  cases m s with
  | mk r s' => cases r <;> rfl

/-- What is answered in the end does not matter to the state. -/
theorem bind_pure_state (m : Step ε σ α) (f : α → β) (s : σ) : ((m >>= fun a => pure (f a)) s).2 = (m s).2 := by
  rw [bind_apply]
  cases m s with
  | mk r s' => cases r <;> rfl

theorem bind_pure (m : Step ε σ α) : m >>= pure = m := by
  funext s
  rw [bind_apply]
  cases m s with
  | mk r s' => cases r <;> rfl

theorem map_state (m : Step ε σ α) (f : α → β) (s : σ) : (m.map f s).2 = (m s).2 := bind_pure_state m f s

theorem map_answer (m : Step ε σ α) (f : α → β) (s : σ) : (m.map f s).1 = (m s).1.map f := by
  rw [Step.map]
  cases m s with
  | mk r s' => cases r <;> rfl

theorem map_eq_ok {m : Step ε σ α} {f : α → β} {s s' : σ} {b : β} :
    m.map f s = (.ok b, s') ↔ ∃ a, m s = (.ok a, s') ∧ f a = b := by
  rw [Step.map]
  cases m s with
  | mk r s'' =>
    cases r with
    | error e => exact ⟨nofun, by rintro ⟨a, h, -⟩; cases h⟩
    | ok a => exact ⟨by rintro ⟨⟩; exact ⟨a, rfl, rfl⟩, by rintro ⟨a, ⟨⟩, rfl⟩; rfl⟩

theorem bind_eq_ok {m : Step ε σ α} {f : α → Step ε σ β} {s s' : σ} {b : β} :
    (m >>= f) s = (.ok b, s') ↔ ∃ a s'', m s = (.ok a, s'') ∧ f a s'' = (.ok b, s') := by
  rw [bind_apply]
  cases m s with
  | mk r s'' =>
    cases r with
    | error e => exact ⟨nofun, by rintro ⟨a, s'', h, -⟩; cases h⟩
    | ok a => exact ⟨fun h => ⟨a, s'', rfl, h⟩, by rintro ⟨a, s'', ⟨⟩, h⟩; exact h⟩

theorem bind_eq_error {m : Step ε σ α} {f : α → Step ε σ β} {s s' : σ} {e : ε} :
    (m >>= f) s = (.error e, s') ↔ m s = (.error e, s') ∨ ∃ a s'', m s = (.ok a, s'') ∧ f a s'' = (.error e, s') := by
  cases hm : m s with
  | mk r s'' =>
    cases r with
    | error e' =>
      rw [bind_error hm]
      exact ⟨fun h => by cases h; exact Or.inl rfl, by rintro (⟨⟨⟩⟩ | ⟨a, s'', ⟨⟩, -⟩); rfl⟩
    | ok a =>
      rw [bind_ok hm]
      exact ⟨fun h => Or.inr ⟨a, s'', rfl, h⟩, by rintro (⟨⟨⟩⟩ | ⟨a, s'', ⟨⟩, h⟩); exact h⟩

/-! ### One step per item -/

theorem each_cons_ok {f : α → Step ε σ β} {a : α} {as : List α} {b : β} {bs : List β} {s s' s'' : σ}
    (hone : f a s = (.ok b, s')) (hrest : each f as s' = (.ok bs, s'')) :
    each f (a :: as) s = (.ok (b :: bs), s'') := by
  show (f a >>= fun b => each f as >>= fun bs => pure (b :: bs)) s = _
  rw [bind_ok hone, bind_ok hrest, pure_apply]

theorem forEach_cons_ok {f : α → Step ε σ Unit} {a : α} {as : List α} {u : Unit} {s s' : σ} {x : Except ε Unit × σ}
    (hone : f a s = (.ok u, s')) (hrest : forEach f as s' = x) : forEach f (a :: as) s = x :=
  (bind_ok hone fun _ => forEach f as).trans hrest

/-! ### Changes as a whole -/

section
variable {f : σ → Except ε (α × σ)} {s s' : σ}

theorem transaction_ok {a : α} (h : f s = .ok (a, s')) : Step.transaction f s = (.ok a, s') := by
  rw [Step.transaction, h]

theorem transaction_error {e : ε} (h : f s = .error e) : Step.transaction f s = (.error e, s) := by
  rw [Step.transaction, h]

theorem transaction_eq_ok {a : α} (h : Step.transaction f s = (.ok a, s')) : f s = .ok (a, s') := by
  cases hr : f s with
  | error e =>
    rw [transaction_error hr] at h
    cases h
  | ok x =>
    rw [transaction_ok hr] at h
    cases h
    rfl

theorem transaction_eq_error {e : ε} (h : Step.transaction f s = (.error e, s')) : s' = s := by
  cases hr : f s with
  | error e =>
    rw [transaction_error hr] at h
    cases h
    rfl
  | ok x =>
    rw [transaction_ok hr] at h
    cases h

end

/-- A step that changes nothing if it fails. -/
def Whole (m : Step ε σ α) : Prop := ∀ ⦃s s' : σ⦄ ⦃e : ε⦄, m s = (.error e, s') → s' = s

namespace Whole

theorem transaction (f : σ → Except ε (α × σ)) : Whole (Step.transaction f) := fun _ _ _ => transaction_eq_error

theorem of_reads {m : Step ε σ α} (h : ∀ s, (m s).2 = s) : Whole m := fun s _ _ hm => by
  rw [← h s, hm]

theorem map {m : Step ε σ α} (hm : Whole m) (f : α → β) : Whole (m.map f) := by
  intro s s' e h
  rw [Step.map] at h
  cases hr : m s with
  | mk r s'' =>
    rw [hr] at h
    cases r <;> cases h
    exact hm hr

theorem andThen {m : Step ε σ α} {f : α → Step ε σ β} (hm : ∀ s, (m s).2 = s) (hf : ∀ a, Whole (f a)) :
    Whole (m >>= f) := by
  intro s s' e h
  have hread := hm s
  cases hr : m s with
  | mk r s'' =>
    rw [hr] at hread
    cases hread
    cases r with
    | error e' =>
      rw [bind_error hr] at h
      cases h
      rfl
    | ok a =>
      rw [bind_ok hr] at h
      exact hf a h

end Whole

/-! ### What steps keep -/

/-- A step that leads from states with a property to such states only, and answers only what is said. -/
def Ensures (I : σ → Prop) (m : Step ε σ α) (P : α → Prop) : Prop :=
  ∀ s, I s → I (m s).2 ∧ ∀ a, (m s).1 = .ok a → P a

/-- A step that leads from states with a property to such states only, whatever it answers. -/
abbrev Keeps (I : σ → Prop) (m : Step ε σ α) : Prop := Ensures I m fun _ => True

namespace Ensures

variable {I : σ → Prop} {P : α → Prop} {Q : β → Prop} {m : Step ε σ α}

theorem of_state (h : ∀ s, I s → I (m s).2) : Keeps I m := fun s hs => ⟨h s hs, fun _ _ => trivial⟩

/-- Of a step that changes nothing if it fails only the successes count. -/
theorem of_whole (hw : Whole m) (h : ∀ {s a s'}, I s → m s = (.ok a, s') → I s') : Keeps I m := by
  refine of_state fun s hs => ?_
  cases hm : m s with
  | mk r s' =>
    cases r with
    | error e =>
      rw [hw hm]
      exact hs
    | ok a => exact h hs hm

theorem of_reads (h : ∀ s, (m s).2 = s) : Keeps I m := of_state fun s hs => (h s).symm ▸ hs

theorem mono {P' : α → Prop} (hm : Ensures I m P) (h : ∀ a, P a → P' a) : Ensures I m P' := fun s hs =>
  ⟨(hm s hs).1, fun a ha => h a ((hm s hs).2 a ha)⟩

theorem keeps (hm : Ensures I m P) : Keeps I m := hm.mono fun _ _ => trivial

theorem pure {a : α} (h : P a) : Ensures I (Pure.pure a : Step ε σ α) P := fun _ hs =>
  ⟨hs, fun _ ha => Except.ok.inj ha ▸ h⟩

theorem fail (e : ε) : Ensures I (Step.fail e : Step ε σ α) P := fun _ hs => ⟨hs, nofun⟩

theorem ofExcept {r : Except ε α} (h : ∀ a, r = .ok a → P a) : Ensures I (Step.ofExcept r : Step ε σ α) P :=
  fun _ hs => ⟨hs, h⟩

theorem checked (r : Except ε α) : Keeps I (Step.ofExcept r : Step ε σ α) := ofExcept fun _ _ => trivial

theorem bind {f : α → Step ε σ β} (hm : Ensures I m P) (hf : ∀ a, P a → Ensures I (f a) Q) :
    Ensures I (m >>= f) Q := by
  intro s hs
  have hfirst := hm s hs
  cases hms : m s with
  | mk r s' =>
    rw [hms] at hfirst
    cases r with
    | error e =>
      rw [bind_error hms]
      exact ⟨hfirst.1, nofun⟩
    | ok a =>
      rw [bind_ok hms]
      exact hf a (hfirst.2 a rfl) s' hfirst.1

/-- After a step whose answer does not matter. -/
theorem andThen {f : α → Step ε σ β} (hm : Keeps I m) (hf : ∀ a, Ensures I (f a) Q) : Ensures I (m >>= f) Q :=
  hm.bind fun a _ => hf a

theorem map {f : α → β} (hm : Ensures I m fun a => Q (f a)) : Ensures I (m.map f) Q := hm.bind fun _ h => .pure h

/-- What is made of the answer does not matter to the state. -/
theorem of_map {f : α → β} (hm : Keeps I (m.map f)) : Keeps I m := of_state fun s hs => m.map_state f s ▸ (hm s hs).1

theorem mapError {f : ε → ε'} (hm : Ensures I m P) : Ensures I (m.mapError f) P := by
  intro s hs
  have hfirst := hm s hs
  rw [Step.mapError]
  cases hms : m s with
  | mk r s' =>
    rw [hms] at hfirst
    cases r with
    | error e => exact ⟨hfirst.1, nofun⟩
    | ok a => exact ⟨hfirst.1, fun _ ha => hfirst.2 _ (congrArg _ (Except.ok.inj ha))⟩

/-- A step that looks at the state first. -/
theorem state {f : σ → Step ε σ α} (hf : ∀ s, I s → Ensures I (f s) P) : Ensures I (Step.state >>= f) P := fun s hs =>
  hf s hs s hs

theorem update {f : σ → σ} (h : ∀ s, I s → I (f s)) : Keeps I (Step.update f : Step ε σ Unit) := of_state h

theorem change {f : σ → α × σ} (h : ∀ s, I s → I (f s).2 ∧ P (f s).1) :
    Ensures I (Step.change f : Step ε σ α) P := fun s hs =>
  ⟨(h s hs).1, fun _ ha => Except.ok.inj ha ▸ (h s hs).2⟩

theorem query {f : σ → Except ε α} (h : ∀ s, I s → ∀ a, f s = .ok a → P a) : Ensures I (Step.query f) P := fun s hs =>
  ⟨hs, h s hs⟩

theorem transaction {f : σ → Except ε (α × σ)} (h : ∀ s, I s → ∀ a s', f s = .ok (a, s') → I s' ∧ P a) :
    Ensures I (Step.transaction f) P := by
  intro s hs
  cases hr : Step.transaction f s with
  | mk r s' =>
    cases r with
    | error e =>
      rw [transaction_eq_error hr]
      exact ⟨hs, nofun⟩
    | ok a =>
      have hdone := h s hs a s' (transaction_eq_ok hr)
      exact ⟨hdone.1, fun _ ha => Except.ok.inj ha ▸ hdone.2⟩

/-- A step on a part of the state. -/
theorem within {J : τ → Prop} {part : τ → σ} {put : σ → τ → τ} (hm : Ensures I m P) (hpart : ∀ t, J t → I (part t))
    (hput : ∀ t s, J t → I s → J (put s t)) : Ensures J (Step.within part put m) P := fun t ht =>
  ⟨hput t _ ht (hm _ (hpart t ht)).1, (hm _ (hpart t ht)).2⟩

theorem each {f : α → Step ε σ β} : ∀ {items : List α}, (∀ a ∈ items, Keeps I (f a)) → Keeps I (Step.each f items)
  | [], _ => .pure trivial
  | a :: _, hf => (hf a (List.mem_cons_self ..)).andThen fun _ =>
    (each fun a ha => hf a (List.mem_cons_of_mem _ ha)).andThen fun _ => .pure trivial

theorem forEach {f : α → Step ε σ Unit} : ∀ {items : List α}, (∀ a ∈ items, Keeps I (f a)) →
    Keeps I (Step.forEach f items)
  | [], _ => .pure trivial
  | a :: _, hf => (hf a (List.mem_cons_self ..)).andThen fun _ => forEach fun a ha => hf a (List.mem_cons_of_mem _ ha)

end Ensures

end DocStore.Step
