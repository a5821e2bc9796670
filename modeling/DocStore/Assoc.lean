/-! Tables with at most one entry per key, in the order in which their keys came. -/

namespace DocStore

abbrev Assoc (κ α : Type) := List (κ × α)

namespace Assoc

variable {κ α : Type} [DecidableEq κ]

/-- The entry of a key. -/
def get? (t : Assoc κ α) (k : κ) : Option α := (t.find? (·.1 = k)).map (·.2)

def contains (t : Assoc κ α) (k : κ) : Bool := (t.get? k).isSome

/-- Gives a key an entry, in the place of the one it has. -/
def insert (k : κ) (a : α) : Assoc κ α → Assoc κ α
  | [] => [(k, a)]
  | (k', a') :: t => if k' = k then (k, a) :: t else (k', a') :: insert k a t

/-- Gives several keys their entries, one after the other. -/
def insertAll (t : Assoc κ α) (items : List (κ × α)) : Assoc κ α :=
  items.foldl (fun t (k, a) => insert k a t) t

def erase (t : Assoc κ α) (k : κ) : Assoc κ α := t.filter (·.1 ≠ k)

/-- Takes the entries of several keys out. -/
def eraseAll (t : Assoc κ α) (ks : List κ) : Assoc κ α := ks.foldl erase t

@[simp] theorem get?_nil (k : κ) : get? ([] : Assoc κ α) k = none := rfl

theorem get?_cons (k k' : κ) (a : α) (t : Assoc κ α) :
    get? ((k', a) :: t) k = if k' = k then some a else get? t k := by
  unfold get?
  rw [List.find?_cons]
  by_cases h : k' = k <;> simp [h]

theorem get?_insert (t : Assoc κ α) (k k' : κ) (a : α) :
    get? (insert k a t) k' = if k = k' then some a else get? t k' := by
  induction t with
  | nil => simp [insert, get?_cons]
  | cons e t ih =>
    obtain ⟨k'', a''⟩ := e
    unfold insert
    by_cases h : k'' = k
    · subst h
      by_cases h' : k'' = k' <;> simp [get?_cons, h']
    · simp only [h, if_false, get?_cons, ih]
      by_cases h' : k'' = k'
      · subst h'
        simp [Ne.symm h]
      · simp [h']

theorem get?_erase (t : Assoc κ α) (k k' : κ) :
    get? (erase t k) k' = if k = k' then none else get? t k' := by
  induction t with
  | nil => simp [erase]
  | cons e t ih =>
    obtain ⟨k'', a''⟩ := e
    unfold erase at ih ⊢
    rw [List.filter_cons]
    by_cases h : k'' = k
    · subst h
      by_cases h' : k'' = k' <;> simp_all [get?_cons]
    · simp only [ne_eq, h, not_false_eq_true, decide_true, if_true, get?_cons, ih]
      by_cases h' : k'' = k'
      · subst h'
        simp [Ne.symm h]
      · simp [h']

end Assoc

end DocStore
