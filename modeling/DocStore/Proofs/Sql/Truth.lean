import DocStore.Sql.Evaluation

/-! Truth values. A condition that is never neither true nor false behaves as a Boolean; what is selected from a
    table is what every condition is true of. -/

namespace DocStore.Sql

/-! ### Three values -/

namespace Truth

@[simp] theorem and_some (a b : Bool) : Truth.and (some a) (some b) = some (a && b) := by
  cases a <;> cases b <;> rfl

@[simp] theorem or_some (a b : Bool) : Truth.or (some a) (some b) = some (a || b) := by
  cases a <;> cases b <;> rfl

@[simp] theorem not_some (a : Bool) : Truth.not (some a) = some !a := rfl

theorem all_cons (t : Option Bool) (ts : List (Option Bool)) : Truth.all (t :: ts) = Truth.and t (Truth.all ts) := rfl

theorem any_cons (t : Option Bool) (ts : List (Option Bool)) : Truth.any (t :: ts) = Truth.or t (Truth.any ts) := rfl

theorem all_singleton (t : Option Bool) : Truth.all [t] = t := by
  rcases t with _ | _ | _ <;> rfl

theorem any_singleton (t : Option Bool) : Truth.any [t] = t := by
  rcases t with _ | _ | _ <;> rfl

theorem and_eq_some_true {s t : Option Bool} : Truth.and s t = some true ↔ s = some true ∧ t = some true := by
  rcases s with _ | _ | _ <;> rcases t with _ | _ | _ <;> simp [Truth.and]

theorem or_eq_some_true {s t : Option Bool} : Truth.or s t = some true ↔ s = some true ∨ t = some true := by
  rcases s with _ | _ | _ <;> rcases t with _ | _ | _ <;> simp [Truth.or]

theorem all_eq_some_true {ts : List (Option Bool)} : Truth.all ts = some true ↔ ∀ t ∈ ts, t = some true := by
  induction ts with
  | nil => simp [Truth.all]
  | cons t ts ih => simp [all_cons, and_eq_some_true, ih]

theorem all_append (ts us : List (Option Bool)) :
    (Truth.all (ts ++ us) == some true) = ((Truth.all ts == some true) && (Truth.all us == some true)) := by
  rw [Bool.eq_iff_iff, Bool.and_eq_true, beq_iff_eq, beq_iff_eq, beq_iff_eq, all_eq_some_true, all_eq_some_true,
    all_eq_some_true, List.forall_mem_append]

theorem any_eq_some_true {ts : List (Option Bool)} : Truth.any ts = some true ↔ some true ∈ ts := by
  induction ts with
  | nil => simp [Truth.any]
  | cons t ts ih => rw [any_cons, or_eq_some_true, ih, List.mem_cons, eq_comm]

end Truth

/-! ### Rows -/

@[simp] theorem datum_front (label : Label) (c : Column) (r : Row) (sight : Sight) :
    ColumnRef.datum ⟨label, c⟩ ((label, r) :: sight) = r c := by
  simp [ColumnRef.datum]

theorem datum_behind {label label' : Label} (h : label' ≠ label) (c : Column) (r : Row) (sight : Sight) :
    ColumnRef.datum ⟨label, c⟩ ((label', r) :: sight) = ColumnRef.datum ⟨label, c⟩ sight := by
  simp [ColumnRef.datum, h]

end DocStore.Sql
