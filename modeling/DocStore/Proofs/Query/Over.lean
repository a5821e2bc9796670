import DocStore.Proofs.Except
import DocStore.Proofs.Sql.Tables
import DocStore.Query.Compile

/-! What compiled statements look at: no tables but the two of the schema that they were compiled for. -/

namespace DocStore

open Sql

variable {P : String → Prop} {s : Schema} {d : Dialect}

theorem memberExists_over (hP : P s.indexesTable) {m : Member} {label : Label} {tests : List Test}
    (htests : ∀ t ∈ tests, t.Over P) : (memberExists s m label tests).Over P := by
  refine ⟨hP, fun t ht => ?_⟩
  rcases List.mem_append.mp ht with ht | ht
  · obtain ⟨e, -, rfl⟩ := List.mem_map.mp ht
    trivial
  · exact htests t ht

namespace Filter

mutual

theorem condition_over (hP : P s.indexesTable) : ∀ (f : Filter) (label slot : Nat), (f.condition d s label slot).Over P
  | .present _, _, _ => by
    rw [condition]
    exact memberExists_over hP (List.forall_mem_nil _)
  | .compare .., _, _ => by
    rw [condition]
    exact memberExists_over hP (List.forall_mem_singleton.mpr trivial)
  | .compareMembers .., _, _ => by
    rw [condition]
    exact memberExists_over hP (List.forall_mem_singleton.mpr hP)
  | .textMatch .., _, _ => by
    rw [condition]
    exact memberExists_over hP (List.forall_mem_singleton.mpr trivial)
  | .never, _, _ => trivial
  | .oneOf .., _, _ => by
    rw [condition]
    exact memberExists_over hP (List.forall_mem_singleton.mpr trivial)
  | .between .., _, _ => by
    rw [condition]
    exact memberExists_over hP (List.forall_mem_singleton.mpr trivial)
  | .all fs, label, slot => by
    rw [condition]
    exact conditions_over hP fs label slot
  | .any fs, label, slot => by
    rw [condition]
    exact conditions_over hP fs label slot
  | .not f, label, slot => by
    rw [condition]
    exact condition_over hP f label slot

theorem conditions_over (hP : P s.indexesTable) : ∀ (fs : List Filter) (label slot : Nat),
    Condition.AllMadeOf (Condition.PartOver P) (conditions d s label slot fs)
  | [], _, _ => trivial
  | f :: fs, label, slot => by
    rw [conditions]
    exact ⟨condition_over hP f label slot, conditions_over hP fs _ _⟩

end

end Filter

theorem sortTerms_over (hP : P s.indexesTable) : ∀ (ms : List (Member × Direction)) (label : Nat),
    ∀ t ∈ Query.sortTerms s label ms, P t.key.table
  | [], _, t, ht => nomatch ht
  | (m, d) :: ms, label, t, ht => by
    rcases List.mem_cons.mp ht with rfl | ht
    · exact hP
    · exact sortTerms_over hP ms (label + 1) t ht

theorem compileFilter_over (hP : P s.indexesTable) {p : Option Predicate} {f : CompiledFilter}
    (h : s.compileFilter d p = .ok f) : ∀ c ∈ f.condition, c.Over P := by
  cases p with
  | none =>
    cases h
    exact nofun
  | some p =>
    obtain ⟨filter, -, rfl⟩ := map_eq_ok.mp h
    rintro _ ⟨⟩
    exact filter.condition_over hP 0 0

theorem compileQuery_over (hrows : P s.structureTable) (hindex : P s.indexesTable) {q : Query} {c : CompiledQuery}
    (h : s.compileQuery d q = .ok c) : c.statement.Over P := by
  obtain ⟨checked, -, rfl⟩ := map_eq_ok.mp h
  refine ⟨hrows, fun x hx => ?_, sortTerms_over hindex _ _⟩
  obtain ⟨filter, -, rfl⟩ := Option.map_eq_some_iff.mp hx
  exact filter.condition_over hindex 0 0

end DocStore
