import DocStore.Schema.Builder
import Mathlib.Data.List.Perm.Basic
import Mathlib.Data.String.Basic

/-! Members in the order of their paths. Collecting declared members goes well exactly if each path is sound and none
    comes twice, and gives those members in order, whatever order they were declared in. -/

namespace DocStore

namespace SchemaBuilder

/-! ### Sound paths -/

/-- A path that can be declared, if it has not been declared before. -/
structure Sound (path : String) : Prop where
  segments : ∀ s ∈ segmentsOf path.toList, s ≠ []
  printable : ∀ c ∈ path.toList, Text.isControl c = false
  free : path ≠ idMember

theorem pathFault?_eq_none_iff {before : List Member} {path : String} :
    pathFault? before path = none ↔ Sound path ∧ ∀ m ∈ before, m.path ≠ path := by
  unfold pathFault?
  constructor
  · intro h
    split at h
    · cases h
    rename_i hsegments
    split at h
    · cases h
    rename_i hcontrol
    split at h
    · cases h
    rename_i hfree
    split at h
    · cases h
    rename_i hnew
    refine ⟨⟨fun s hs hnil => hsegments ?_, fun c hc => ?_, hfree⟩, fun m hm heq => hnew ?_⟩
    · exact List.any_eq_true.mpr ⟨s, hs, List.isEmpty_iff.mpr hnil⟩
    · exact Bool.eq_false_iff.mpr fun h => hcontrol (List.any_eq_true.mpr ⟨c, hc, h⟩)
    · exact List.any_eq_true.mpr ⟨m, hm, beq_iff_eq.mpr heq⟩
  · rintro ⟨hsound, hnew⟩
    have hsegments : (segmentsOf path.toList).any List.isEmpty = false :=
      List.any_eq_false.mpr fun s hs h => hsound.segments s hs (List.isEmpty_iff.mp h)
    have hcontrol : path.toList.any Text.isControl = false :=
      List.any_eq_false.mpr fun c hc => Bool.eq_false_iff.mp (hsound.printable c hc)
    have hfresh : before.any (·.path == path) = false :=
      List.any_eq_false.mpr fun m hm h => hnew m hm (beq_iff_eq.mp h)
    simp [hsegments, hcontrol, hsound.free, hfresh]

/-! ### Collecting members -/

variable {m : Member} {acc ms members : List Member}

theorem insertSorted_perm (m : Member) : ∀ ms : List Member, (insertSorted m ms).Perm (m :: ms)
  | [] => .refl _
  | m' :: ms => by
    rw [insertSorted]
    split
    · exact .refl _
    · exact ((insertSorted_perm m ms).cons m').trans (.swap m m' ms)

/-- A member is put where the paths before it are less and those behind it greater. -/
theorem insertSorted_ascending : ∀ {ms : List Member}, ms.Pairwise (·.path < ·.path) →
    (∀ m' ∈ ms, m'.path ≠ m.path) → (insertSorted m ms).Pairwise (·.path < ·.path)
  | [], _, _ => List.pairwise_singleton ..
  | m' :: ms, h, hnew => by
    obtain ⟨hfirst, hrest⟩ := List.pairwise_cons.mp h
    rw [insertSorted]
    split
    · rename_i hlt
      refine List.pairwise_cons.mpr ⟨?_, h⟩
      exact List.forall_mem_cons.mpr ⟨hlt, fun x hx => lt_trans hlt (hfirst x hx)⟩
    · rename_i hnlt
      have hlt : m'.path < m.path := lt_of_le_of_ne (not_lt.mp hnlt) (hnew m' List.mem_cons_self)
      refine List.pairwise_cons.mpr ⟨fun x hx => ?_, insertSorted_ascending hrest fun x hx => hnew x (.tail _ hx)⟩
      rcases List.mem_cons.mp ((insertSorted_perm m ms).mem_iff.mp hx) with rfl | hx
      · exact hlt
      · exact hfirst x hx

theorem collect_cons_eq_ok {m : Member} (h : collect acc (m :: ms) = .ok members) :
    (Sound m.path ∧ ∀ m' ∈ acc, m'.path ≠ m.path) ∧ collect (insertSorted m acc) ms = .ok members := by
  rw [collect] at h
  split at h
  · cases h
  · exact ⟨pathFault?_eq_none_iff.mp ‹_›, h⟩

theorem collect_perm : ∀ {ms acc members : List Member}, collect acc ms = .ok members → members.Perm (acc ++ ms)
  | [], acc, _, h => by
    cases h
    rw [List.append_nil]
  | m :: ms, acc, members, h => by
    have ih := collect_perm (collect_cons_eq_ok h).2
    exact ih.trans (((insertSorted_perm m acc).append_right ms).trans List.perm_middle.symm)

theorem collect_ascending : ∀ {ms acc members : List Member}, collect acc ms = .ok members →
    acc.Pairwise (·.path < ·.path) → members.Pairwise (·.path < ·.path)
  | [], _, _, h, hacc => by
    cases h
    exact hacc
  | m :: ms, acc, members, h, hacc => by
    obtain ⟨⟨-, hnew⟩, hrest⟩ := collect_cons_eq_ok h
    exact collect_ascending hrest (insertSorted_ascending hacc hnew)

theorem sound_of_collect : ∀ {ms acc members : List Member}, collect acc ms = .ok members → ∀ m ∈ ms, Sound m.path
  | [], _, _, _ => nofun
  | m :: ms, acc, members, h => by
    obtain ⟨⟨hsound, -⟩, hrest⟩ := collect_cons_eq_ok h
    exact List.forall_mem_cons.mpr ⟨hsound, sound_of_collect hrest⟩

theorem exists_collect : ∀ {ms acc : List Member}, (∀ m ∈ ms, Sound m.path) → ((acc ++ ms).map (·.path)).Nodup →
    ∃ members, collect acc ms = .ok members
  | [], acc, _, _ => ⟨acc, rfl⟩
  | m :: ms, acc, hsound, hnodup => by
    obtain ⟨hm, hms⟩ := List.forall_mem_cons.mp hsound
    have hnew : ∀ m' ∈ acc, m'.path ≠ m.path := by
      rw [List.map_append, List.nodup_append] at hnodup
      exact fun m' hm' => hnodup.2.2 _ (List.mem_map_of_mem hm') _ (List.mem_map_of_mem List.mem_cons_self)
    have hperm : (insertSorted m acc ++ ms).Perm (acc ++ m :: ms) :=
      ((insertSorted_perm m acc).append_right ms).trans List.perm_middle.symm
    rw [collect, pathFault?_eq_none_iff.mpr ⟨hm, hnew⟩]
    exact exists_collect hms ((hperm.map _).nodup_iff.mpr hnodup)

end SchemaBuilder

end DocStore
