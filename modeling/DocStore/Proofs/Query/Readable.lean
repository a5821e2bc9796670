import DocStore.Proofs.Query.Checked
import DocStore.Proofs.Sql.ReadBack
import DocStore.Query.Compile

/-! What is compiled can be read. A predicate that is checked has no empty list left in it, so the text of its filter is
    read back, and so is that of a query: by the precedence of `and`, `or` and `not` it says what was compiled. -/

namespace DocStore

open Sql

variable {s : Schema} {d : Dialect}

/-! ### Filters without empty lists -/

namespace Filter

mutual

/-- A filter in which no list is empty. -/
def Filled : Filter → Prop
  | .oneOf _ vs => vs ≠ []
  | .all fs | .any fs => fs ≠ [] ∧ AllFilled fs
  | .not f => Filled f
  | .present _ | .compare .. | .compareMembers .. | .textMatch .. | .never | .between .. => True

def AllFilled : List Filter → Prop
  | [] => True
  | f :: fs => Filled f ∧ AllFilled fs

end

end Filter

theorem checkCompare_filled {r : MemberRef} {op : Comparison} {v : Value} {f : Filter}
    (h : Predicate.checkCompare s r op v = .ok f) : f.Filled := by
  obtain ⟨m, -, ⟨-, x, -, rfl⟩ | ⟨-, ⟨-, rfl⟩ | ⟨-, rfl⟩⟩⟩ := Predicate.checkCompare_eq_ok h <;> trivial

mutual

theorem check_filled : ∀ {p : Predicate} {f : Filter}, p.check s = .ok f → f.Filled
  | .compare .., _, h => checkCompare_filled h
  | .compareMembers .., _, h => by
    obtain ⟨_, _, -, -, -, rfl⟩ := Predicate.checkMembers_eq_ok h
    trivial
  | .textMatch .., _, h => by
    obtain ⟨_, -, rfl⟩ := Predicate.checkTextMatch_eq_ok h
    trivial
  | .oneOf _ [], _, h => by
    obtain ⟨_, -, ⟨-, rfl⟩ | ⟨hne, -⟩⟩ := Predicate.checkOneOf_eq_ok h
    · trivial
    · exact absurd rfl hne
  | .oneOf _ (_ :: _), _, h => by
    obtain ⟨_, -, ⟨hnil, -⟩ | ⟨-, xs, hxs, rfl⟩⟩ := Predicate.checkOneOf_eq_ok h
    · cases hnil
    · obtain ⟨_, _, -, -, rfl⟩ := literals_cons_eq_ok hxs
      exact List.cons_ne_nil _ _
  | .between .., _, h => by
    obtain ⟨_, _, _, -, -, -, rfl⟩ := Predicate.checkBetween_eq_ok h
    trivial
  | .anyElement .., _, h => checkCompare_filled (Predicate.checkAnyElement_eq_ok h).2
  | .all ps, _, h => by
    have hne : ps ≠ [] := by
      rintro rfl
      cases h
    obtain ⟨fs, hfs, rfl⟩ := Predicate.check_all_eq_ok h
    obtain ⟨hfilled, hsome⟩ := checkAll_filled hfs
    exact ⟨hsome hne, hfilled⟩
  | .any ps, _, h => by
    have hne : ps ≠ [] := by
      rintro rfl
      cases h
    obtain ⟨fs, hfs, rfl⟩ := Predicate.check_any_eq_ok h
    obtain ⟨hfilled, hsome⟩ := checkAll_filled hfs
    exact ⟨hsome hne, hfilled⟩
  | .not p, _, h => by
    obtain ⟨g, hg, rfl⟩ := map_eq_ok.mp h
    have hfilled : g.Filled := check_filled hg
    exact hfilled

theorem checkAll_filled : ∀ {ps : List Predicate} {fs : List Filter}, Predicate.checkAll s ps = .ok fs →
    Filter.AllFilled fs ∧ (ps ≠ [] → fs ≠ [])
  | [], _, h => by
    cases h
    exact ⟨trivial, fun hne => absurd rfl hne⟩
  | p :: ps, _, h => by
    obtain ⟨g, gs, hg, hgs, rfl⟩ := Predicate.checkAll_cons_eq_ok h
    exact ⟨⟨check_filled hg, (checkAll_filled hgs).1⟩, fun _ => List.cons_ne_nil g gs⟩

end

/-! ### Conditions -/

theorem memberExists_proper {m : Member} {label : Label} {tests : List Test} (htests : ∀ t ∈ tests, t.Proper) :
    (memberExists s m label tests).Proper := by
  refine ⟨List.cons_ne_nil _ _, fun t ht => ?_⟩
  rcases List.mem_append.mp ht with ht | ht
  · obtain ⟨e, -, rfl⟩ := List.mem_map.mp ht
    trivial
  · exact htests t ht

namespace Filter

mutual

theorem condition_proper : ∀ (f : Filter) (label slot : Nat), f.Filled → (f.condition d s label slot).Proper
  | .present _, _, _, _ => by
    rw [condition]
    exact memberExists_proper (List.forall_mem_nil _)
  | .compare .., _, _, _ => by
    rw [condition]
    exact memberExists_proper (List.forall_mem_singleton.mpr trivial)
  | .compareMembers .., _, _, _ => by
    rw [condition]
    exact memberExists_proper (List.forall_mem_singleton.mpr (List.cons_ne_nil _ _))
  | .textMatch .., _, _, _ => by
    rw [condition]
    exact memberExists_proper (List.forall_mem_singleton.mpr trivial)
  | .never, _, _, _ => trivial
  | .oneOf _ vs, _, _, hvs => by
    have hslots : List.range vs.length ≠ [] := fun h => hvs (List.length_eq_zero_iff.mp (List.range_eq_nil.mp h))
    rw [condition]
    exact memberExists_proper (List.forall_mem_singleton.mpr fun h => hslots (List.map_eq_nil_iff.mp h))
  | .between .., _, _, _ => by
    rw [condition]
    exact memberExists_proper (List.forall_mem_singleton.mpr trivial)
  | .all fs, label, slot, hfs => by
    rw [condition]
    exact conditions_proper fs label slot hfs.1 hfs.2
  | .any fs, label, slot, hfs => by
    rw [condition]
    exact conditions_proper fs label slot hfs.1 hfs.2
  | .not f, label, slot, hf => by
    rw [condition]
    exact condition_proper f label slot hf

theorem conditions_proper : ∀ (fs : List Filter) (label slot : Nat), fs ≠ [] → AllFilled fs →
    conditions d s label slot fs ≠ [] ∧ Condition.AllProper (conditions d s label slot fs)
  | [], _, _, hne, _ => absurd rfl hne
  | [f], label, slot, _, hfs => ⟨List.cons_ne_nil _ _, condition_proper f label slot hfs.1, trivial⟩
  | f :: g :: fs, label, slot, _, hfs => by
    have hrest := conditions_proper (g :: fs) (label + f.labelCount) (slot + (f.bound d).length) (List.cons_ne_nil g fs)
      hfs.2
    rw [conditions]
    exact ⟨List.cons_ne_nil _ _, condition_proper f label slot hfs.1, hrest.2⟩

end

end Filter

/-! ### What is read back -/

/-- The text of a compiled filter is read as a condition that is as true as the one that was compiled. -/
theorem readBack_compileFilter {p : Predicate} {c : CompiledFilter} (h : s.compileFilter d (some p) = .ok c) :
    ∃ x read, c.condition = some x ∧ Condition.ofText? d c.text = some read ∧
      ∀ ts ps sight, read.truth ts ps sight = x.truth ts ps sight := by
  obtain ⟨f, hf, rfl⟩ := map_eq_ok.mp h
  have hproper := Filter.condition_proper (d := d) (s := s) f 0 0 (check_filled hf)
  exact ⟨_, _, rfl, Condition.ofText?_text d hproper, fun ts ps sight => Condition.truth_plain ts ps sight _⟩

theorem sortTerms_proper : ∀ (ms : List (Member × Direction)) (label : Nat),
    ∀ t ∈ Query.sortTerms s label ms, t.key.conditions ≠ []
  | [], _, t, ht => nomatch ht
  | (m, d) :: ms, label, t, ht => by
    rcases List.mem_cons.mp ht with rfl | ht
    · exact List.cons_ne_nil _ _
    · exact sortTerms_proper ms (label + 1) t ht

theorem compileQuery_proper {q : Query} {c : CompiledQuery} (h : s.compileQuery d q = .ok c) : c.statement.Proper := by
  obtain ⟨checked, hcheck, rfl⟩ := map_eq_ok.mp h
  obtain ⟨_, -, hcheck⟩ := bind_eq_ok.mp hcheck
  obtain ⟨_, -, hcheck⟩ := bind_eq_ok.mp hcheck
  obtain ⟨filter, hfilter, hcheck⟩ := bind_eq_ok.mp hcheck
  obtain ⟨sortings, -, hcheck⟩ := bind_eq_ok.mp hcheck
  obtain ⟨page, -, hcheck⟩ := bind_eq_ok.mp hcheck
  cases hcheck
  refine ⟨fun x hx => ?_, sortTerms_proper _ _⟩
  obtain ⟨f, rfl, rfl⟩ := Option.map_eq_some_iff.mp hx
  cases hp : q.predicate with
  | none =>
    rw [hp] at hfilter
    cases hfilter
  | some p =>
    rw [hp] at hfilter
    obtain ⟨g, hg, hsome⟩ := map_eq_ok.mp hfilter
    cases hsome
    exact f.condition_proper 0 0 (check_filled hg)

/-- The text of a compiled query is read as a statement that finds the same rows as the one that was compiled. -/
theorem readBack_compileQuery {q : Query} {c : CompiledQuery} (h : s.compileQuery d q = .ok c) :
    ∃ read, Statement.ofText? d c.text = some read ∧ ∀ ts ps, read.rows ts ps = c.statement.rows ts ps := by
  have hproper := compileQuery_proper h
  obtain ⟨checked, -, rfl⟩ := map_eq_ok.mp h
  exact ⟨_, Statement.ofText?_text d hproper, Statement.rows_plain _⟩

end DocStore
