import DocStore.Proofs.Query.Condition
import DocStore.Proofs.Sql.Tables

/-! Members that are compared with. A comparison of two members takes the value of the right one from a select inside the
    condition. The right member is one that is declared not to be enumerable: if the index holds one row at most for such a
    member of a structure, no select of a compiled condition finds more than one, whatever row it is for. -/

namespace DocStore

open Sql

/-! ### Selects of one value -/

namespace Sql

/-- The rows that a select of one value finds. -/
def Scalar.rows (ts : Tables) (ps : List Datum) (sight : Sight) (q : Scalar) : List Row :=
  rowsWhere (ts q.table) q.label sight fun s => q.conditions.map (Equation.truth ps s)

/-- The value is taken from the first of them, or is the least one. -/
theorem Scalar.datum_eq_rows (ts : Tables) (ps : List Datum) (sight : Sight) (q : Scalar) : q.datum ts ps sight =
    if q.minimum then Datum.least ((q.rows ts ps sight).map (· q.value))
    else ((q.rows ts ps sight).map (· q.value)).headD .null := rfl

/-- A test with no select that finds two rows, whatever is bound and in sight. -/
def Test.OneValued (ts : Tables) : Test → Prop
  | compareScalar _ _ q => ∀ ps sight, (q.rows ts ps sight).length ≤ 1
  | compare _ | like _ _ _ | oneOf _ _ | between _ _ _ => True

/-- A test or select in which no select of one value finds two rows. -/
def Condition.PartOneValued (ts : Tables) : Condition → Prop
  | .test t => t.OneValued ts
  | .rowExists _ _ tests => ∀ t ∈ tests, t.OneValued ts
  | .all _ | .any _ | .not _ => True

/-- A condition in which no select of one value finds two rows. -/
abbrev Condition.OneValued (ts : Tables) (c : Condition) : Prop := c.MadeOf (PartOneValued ts)

end Sql

/-! ### Compiled conditions -/

theorem Schema.mem_of_resolve {s : Schema} {r : MemberRef} {m : Member} (h : s.resolve r = .ok m) : m ∈ s.members := by
  obtain ⟨m', hm', h⟩ := bind_eq_ok.mp h
  split at h
  · cases h
    unfold Schema.requireMember at hm'
    split at hm'
    · rename_i hfound
      cases hm'
      exact List.mem_of_find?_eq_some hfound
    · cases hm'
  · cases h

theorem rows_firstValue (s : Schema) (m : Member) {label outer : Label} (hne : label ≠ outer) (ts : Tables)
    (ps : List Datum) (sight : Sight) : (firstValue s m label outer).rows ts ps sight =
      rowsOf (ts s.indexesTable) (ColumnRef.datum ⟨outer, .id⟩ sight) m.path :=
  rowsWhere_ofMember_alone hne rfl

theorem memberExists_oneValued {ts : Tables} {s : Schema} {m : Member} {label : Label} {tests : List Test}
    (htests : ∀ t ∈ tests, t.OneValued ts) : (memberExists s m label tests).OneValued ts := by
  intro t ht
  rcases List.mem_append.mp ht with ht | ht
  · obtain ⟨e, -, rfl⟩ := List.mem_map.mp ht
    trivial
  · exact htests t ht

theorem checkCompare_oneValued {ts : Tables} {s : Schema} {d : Dialect} {r : MemberRef} {op : Comparison} {v : Value}
    {f : Filter} (h : Predicate.checkCompare s r op v = .ok f) (label slot : Nat) :
    (f.condition d s label slot).OneValued ts := by
  obtain ⟨m, -, ⟨-, x, -, rfl⟩ | ⟨-, ⟨-, rfl⟩ | ⟨-, rfl⟩⟩⟩ := Predicate.checkCompare_eq_ok h
  · rw [Filter.condition]
    exact memberExists_oneValued (List.forall_mem_singleton.mpr trivial)
  · rw [Filter.condition, Filter.condition]
    exact memberExists_oneValued (List.forall_mem_nil _)
  · rw [Filter.condition]
    exact memberExists_oneValued (List.forall_mem_nil _)

/-- Of each structure there is one index row at most for each member that is not enumerable. -/
def Schema.OneRowEach (s : Schema) (ts : Tables) : Prop :=
  ∀ m ∈ s.members, m.enumerable = false → ∀ id, (rowsOf (ts s.indexesTable) id m.path).length ≤ 1

section
variable {s : Schema} {ts : Tables} {d : Dialect}

mutual

theorem check_oneValued (hone : s.OneRowEach ts) : ∀ {p : Predicate} {f : Filter}, p.check s = .ok f →
    ∀ label slot, (f.condition d s label slot).OneValued ts
  | .compare .., _, h, label, slot => checkCompare_oneValued h label slot
  | .compareMembers .., _, h, label, slot => by
    obtain ⟨left, right, -, hr, hscalar, rfl⟩ := Predicate.checkMembers_eq_ok h
    rw [Filter.condition]
    refine memberExists_oneValued (List.forall_mem_singleton.mpr fun ps sight => ?_)
    have hne : Label.right (label + 1) ≠ .index label := nofun
    rw [rows_firstValue s right hne]
    exact hone right (Schema.mem_of_resolve hr) hscalar _
  | .textMatch .., _, h, label, slot => by
    obtain ⟨m, -, rfl⟩ := Predicate.checkTextMatch_eq_ok h
    rw [Filter.condition]
    exact memberExists_oneValued (List.forall_mem_singleton.mpr trivial)
  | .oneOf .., _, h, label, slot => by
    obtain ⟨m, -, ⟨-, rfl⟩ | ⟨-, xs, -, rfl⟩⟩ := Predicate.checkOneOf_eq_ok h
    · exact trivial
    · rw [Filter.condition]
      exact memberExists_oneValued (List.forall_mem_singleton.mpr trivial)
  | .between .., _, h, label, slot => by
    obtain ⟨m, lo, hi, -, -, -, rfl⟩ := Predicate.checkBetween_eq_ok h
    rw [Filter.condition]
    exact memberExists_oneValued (List.forall_mem_singleton.mpr trivial)
  | .anyElement .., _, h, label, slot =>
    checkCompare_oneValued (Predicate.checkAnyElement_eq_ok h).2 label slot
  | .all ps, _, h, label, slot => by
    obtain ⟨fs, hfs, rfl⟩ := Predicate.check_all_eq_ok h
    rw [Filter.condition]
    exact checkAll_oneValued hone hfs label slot
  | .any ps, _, h, label, slot => by
    obtain ⟨fs, hfs, rfl⟩ := Predicate.check_any_eq_ok h
    rw [Filter.condition]
    exact checkAll_oneValued hone hfs label slot
  | .not p, _, h, label, slot => by
    obtain ⟨g, hg, rfl⟩ := map_eq_ok.mp h
    rw [Filter.condition]
    exact check_oneValued hone hg label slot

theorem checkAll_oneValued (hone : s.OneRowEach ts) : ∀ {ps : List Predicate} {fs : List Filter},
    Predicate.checkAll s ps = .ok fs → ∀ label slot,
      Condition.AllMadeOf (Condition.PartOneValued ts) (Filter.conditions d s label slot fs)
  | [], _, h, _, _ => by
    cases h
    exact trivial
  | p :: ps, _, h, label, slot => by
    obtain ⟨g, gs, hg, hgs, rfl⟩ := Predicate.checkAll_cons_eq_ok h
    rw [Filter.conditions]
    exact ⟨check_oneValued hone hg label slot, checkAll_oneValued hone hgs _ _⟩

end

theorem checkFilter_oneValued (hone : s.OneRowEach ts) {p : Option Predicate} {f : Option Filter}
    (h : Query.checkFilter s p = .ok f) : ∀ c ∈ f.map (·.condition d s 0 0), c.OneValued ts := by
  cases p with
  | none =>
    cases h
    exact nofun
  | some p =>
    obtain ⟨filter, hcheck, rfl⟩ := map_eq_ok.mp h
    rintro _ ⟨⟩
    exact check_oneValued hone hcheck 0 0

theorem compileFilter_oneValued (hone : s.OneRowEach ts) {p : Option Predicate} {f : CompiledFilter}
    (h : s.compileFilter d p = .ok f) : ∀ c ∈ f.condition, c.OneValued ts := by
  cases p with
  | none =>
    cases h
    exact nofun
  | some p =>
    obtain ⟨filter, hcheck, rfl⟩ := map_eq_ok.mp h
    rintro _ ⟨⟩
    exact check_oneValued hone hcheck 0 0

theorem compileQuery_oneValued (hone : s.OneRowEach ts) {q : Query} {c : CompiledQuery}
    (h : s.compileQuery d q = .ok c) : ∀ x ∈ c.statement.filter, x.OneValued ts := by
  obtain ⟨checked, hcheck, rfl⟩ := map_eq_ok.mp h
  obtain ⟨-, -, hcheck⟩ := bind_eq_ok.mp hcheck
  obtain ⟨-, -, hcheck⟩ := bind_eq_ok.mp hcheck
  obtain ⟨filter, hfilter, hcheck⟩ := bind_eq_ok.mp hcheck
  obtain ⟨sortings, -, hcheck⟩ := bind_eq_ok.mp hcheck
  obtain ⟨page, -, hcheck⟩ := bind_eq_ok.mp hcheck
  cases hcheck
  exact checkFilter_oneValued hone hfilter

end

end DocStore
