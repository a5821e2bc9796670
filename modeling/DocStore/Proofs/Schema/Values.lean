import DocStore.Proofs.Payload
import DocStore.Proofs.Schema.Built

/-! How many values a document has for a member: as many as there are scalars at the end of the member's path. Where no
    array lies on the path, that is one at most; an array gives one for each of its elements, whatever the schema says of
    the member. -/

namespace DocStore

namespace Extraction

/-! ### Scalars at the end of a path -/

/-- No array lies on a path through a value, nor at its end. -/
def Straight : List String → Json → Prop
  | _, .array _ => False
  | k :: rest, .object ms => ∀ e, ms.find? (·.1 == k) = some e → Straight rest e.2
  | _, _ => True

theorem scalarsOfMember_eq_find? (k : String) (rest : List String) : ∀ ms : List (String × Json),
    scalarsOfMember ms (k :: rest) = ((ms.find? (·.1 == k)).map fun e => scalars e.2 rest).getD []
  | [] => by rw [scalarsOfMember, List.find?_nil]; rfl
  | (k', v) :: ms => by
    rw [scalarsOfMember, List.find?_cons]
    cases hk : k' == k with
    | true => rfl
    | false => exact scalarsOfMember_eq_find? k rest ms

/-- A path without arrays leads to one scalar at most. -/
theorem Straight.length_le_one : ∀ {path : List String} {v : Json}, Straight path v → (scalars v path).length ≤ 1
  | _, .null, _ => by
    rw [scalars]
    exact Nat.zero_le 1
  | _, .bool _, _ | _, .number _, _ | _, .string _, _ => by
    rw [scalars]
    split
    · exact Nat.le_refl 1
    · exact Nat.zero_le 1
    all_goals exact nofun
  | path, .array _, h => by
    unfold Straight at h
    cases h
  | [], .object ms, _ => by
    rw [scalars]
    cases ms with
    | nil =>
      rw [scalarsOfMember]
      exact Nat.zero_le 1
    | cons m ms =>
      rw [scalarsOfMember]
      exact Nat.zero_le 1
  | k :: rest, .object ms, h => by
    rw [scalars, scalarsOfMember_eq_find?]
    unfold Straight at h
    cases hfound : ms.find? (·.1 == k) with
    | none => exact Nat.zero_le 1
    | some e => exact (h e hfound).length_le_one

/-! ### Entries -/

theorem length_entriesOf {m : Member} : ∀ {vs : List Json} {es : List IndexEntry}, entriesOf m vs = .ok es →
    es.length = vs.length
  | [], _, h => by
    cases h
    rfl
  | v :: vs, es, h => by
    rw [entriesOf] at h
    split at h
    · cases h
    · obtain ⟨rest, hrest, rfl⟩ := map_eq_ok.mp h
      rw [List.length_cons, List.length_cons, length_entriesOf hrest]

/-- The entries that are under a path. -/
def under (path : String) (es : List IndexEntry) : List IndexEntry := es.filter (·.path = path)

theorem under_append (path : String) (es es' : List IndexEntry) :
    under path (es ++ es') = under path es ++ under path es' := List.filter_append ..

/-- The entries of a member are all under its path. -/
theorem under_entriesOf {m : Member} {vs : List Json} {es : List IndexEntry} (h : entriesOf m vs = .ok es)
    (path : String) : under path es = if m.path = path then es else [] := by
  split
  · rename_i heq
    exact List.filter_eq_self.mpr fun e he => decide_eq_true ((mem_entriesOf h e he).1.symm.trans heq)
  · rename_i hne
    exact List.filter_eq_nil_iff.mpr fun e he =>
      decide_eq_true_iff.not.mpr fun heq => hne ((mem_entriesOf h e he).1.trans heq)

/-- Under a path that is no member's there is no entry. -/
theorem under_entries_of_not_mem {doc : Json} {path : String} {ms : List Member} {es : List IndexEntry}
    (h : entries doc ms = .ok es) (hpath : path ∉ ms.map (·.path)) : under path es = [] :=
  List.filter_eq_nil_iff.mpr fun e he => decide_eq_true_iff.not.mpr fun heq => by
    obtain ⟨m, hm, hme, -⟩ := mem_entries h e he
    exact hpath (List.mem_map.mpr ⟨m, hm, hme.trans heq⟩)

/-- Under the path of a member there are as many entries as scalars at the end of it. -/
theorem length_under_entries {doc : Json} {m : Member} : ∀ {ms : List Member} {es : List IndexEntry},
    entries doc ms = .ok es → (ms.map (·.path)).Nodup → m ∈ ms →
    (under m.path es).length = (scalars doc (SchemaBuilder.segments m.path)).length
  | m₀ :: ms, es, h, hnodup, hm => by
    rw [entries] at h
    split at h
    · cases h
    · rename_i es₀ hfirst
      obtain ⟨rest, hrest, rfl⟩ := map_eq_ok.mp h
      obtain ⟨hnew, hnodup⟩ := List.nodup_cons.mp hnodup
      rw [under_append, under_entriesOf hfirst, List.length_append]
      rcases List.mem_cons.mp hm with rfl | hm
      · rw [if_pos rfl, under_entries_of_not_mem hrest hnew, length_entriesOf hfirst, List.length_nil, Nat.add_zero]
      · have hne : m₀.path ≠ m.path := fun heq => hnew (List.mem_map.mpr ⟨m, hm, heq.symm⟩)
        rw [if_neg hne, length_under_entries hrest hnodup hm, List.length_nil, Nat.zero_add]

end Extraction

/-! ### Values of members -/

open Extraction

variable {s : Schema} {doc : Json} {es : List IndexEntry}

/-- A document has as many values for a member as it has scalars at the end of the member's path. -/
theorem Schema.Builds.length_under (hs : s.Builds) (h : s.extract doc = .ok es) {m : Member} (hm : m ∈ s.members) :
    (under m.path es).length = (scalars doc (SchemaBuilder.segments m.path)).length :=
  length_under_entries h hs.paths hm

/-- Under any path a document has no more entries than scalars. -/
theorem Schema.Builds.length_under_le (hs : s.Builds) (h : s.extract doc = .ok es) (path : String) :
    (under path es).length ≤ (scalars doc (SchemaBuilder.segments path)).length := by
  by_cases hpath : path ∈ s.members.map (·.path)
  · obtain ⟨m, hm, rfl⟩ := List.mem_map.mp hpath
    exact Nat.le_of_eq (hs.length_under h hm)
  · rw [under_entries_of_not_mem h hpath]
    exact Nat.zero_le _

end DocStore
