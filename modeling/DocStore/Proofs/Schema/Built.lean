import DocStore.Proofs.Except
import DocStore.Proofs.Schema.Members
import Mathlib.Data.List.Nodup

/-! Schemas that were built. Their names are identifiers, so a key tells the names that it was made of; the tables are
    named for the key with an underscore in the place of its dot, and what is left of the key in them is less than
    the key. No two members have the same path. -/

namespace DocStore

variable {s s' : Schema} {b : SchemaBuilder}

/-! ### Names -/

/-- A namespace is told by the key, the name being known. -/
theorem Key.ofNames_left_inj {ns ns' name : String} : Key.ofNames ns name = Key.ofNames ns' name ↔ ns = ns' := by
  refine ⟨fun h => ?_, fun h => h ▸ rfl⟩
  have htext : (Key.ofNames ns name).text.toList = (Key.ofNames ns' name).text.toList := by rw [h]
  rw [Key.ofNames, Key.ofNames] at htext
  by_cases hns : ns = "" <;> by_cases hns' : ns' = ""
  · rw [hns, hns']
  · have hlength := congrArg List.length htext
    simp [hns, hns', String.isEmpty_iff] at hlength
    omega
  · have hlength := congrArg List.length htext
    simp [hns, hns', String.isEmpty_iff] at hlength
    omega
  · refine String.toList_inj.mp ?_
    simpa [hns, hns', String.isEmpty_iff] using htext

/-- What the tables of a type are named for: the key, an underscore in the place of the dot. -/
def Key.stem (k : Key) : String := String.ofList (k.text.toList.map fun c => if c = '.' then '_' else c)

theorem isNameChar_of_isIdentifier {name : String} (h : isIdentifier name = true) :
    ∀ c ∈ name.toList, (isNameStart c || Text.isDigit c) = true := by
  unfold isIdentifier at h
  intro c hc
  split at h
  · rename_i hnil
    rw [hnil] at hc
    cases hc
  · rename_i c₀ cs hcons
    rw [hcons] at hc
    rw [Bool.and_eq_true, List.all_eq_true] at h
    rcases List.mem_cons.mp hc with rfl | hc
    · rw [h.1, Bool.true_or]
    · exact h.2 c hc

/-- A dot is not in a name. -/
theorem ne_dot_of_isIdentifier {name : String} (h : isIdentifier name = true) : ∀ c ∈ name.toList, c ≠ '.' := by
  rintro c hc rfl
  cases isNameChar_of_isIdentifier h _ hc

theorem validateIdentifier_eq_ok {name : String} {u : Unit} (h : validateIdentifier name = .ok u) :
    isIdentifier name = true := by
  unfold validateIdentifier at h
  split at h
  · assumption
  · cases h

/-- What building a schema has looked at, and what it gives. -/
structure SchemaBuilder.Gives (b : SchemaBuilder) (s : Schema) : Prop where
  name : isIdentifier s.name = true
  ns : s.ns = "" ∨ isIdentifier s.ns = true
  key : s.key = Key.ofNames s.ns s.name
  members : SchemaBuilder.collect [] b.members = .ok s.members
  fingerprint : s.fingerprint = Schema.fingerprintOf s.key s.idType s.members

theorem SchemaBuilder.build_eq_ok (h : b.build = .ok s) : b.Gives s := by
  obtain ⟨u, hnames, h⟩ := bind_eq_ok.mp h
  obtain ⟨u', hname, hns⟩ := bind_eq_ok.mp hnames
  obtain ⟨members, hmembers, h⟩ := bind_eq_ok.mp h
  cases h
  refine ⟨validateIdentifier_eq_ok hname, ?_, rfl, mapError_eq_ok.mp hmembers, rfl⟩
  show b.ns = "" ∨ _
  split at hns
  · rename_i hempty
    exact Or.inl (String.isEmpty_iff.mp hempty)
  · exact Or.inr (validateIdentifier_eq_ok hns)

/-- A schema has the names and the id type that were declared. -/
theorem SchemaBuilder.build_names (h : b.build = .ok s) : s.ns = b.ns ∧ s.name = b.name ∧ s.idType = b.idType := by
  obtain ⟨_, -, h⟩ := bind_eq_ok.mp h
  obtain ⟨_, -, h⟩ := bind_eq_ok.mp h
  cases h
  exact ⟨rfl, rfl, rfl⟩

theorem Schema.Builds.gives (h : s.Builds) : ∃ b : SchemaBuilder, b.Gives s :=
  h.imp fun _ => SchemaBuilder.build_eq_ok

/-- The tables of a schema are named for its key. -/
theorem Schema.Builds.stem_eq (h : s.Builds) : s.stem = s.key.stem := by
  obtain ⟨b, hb⟩ := h.gives
  have hplain {name : String} (hname : isIdentifier name = true) :
      (name.toList.map fun c => if c = '.' then '_' else c) = name.toList :=
    (List.map_congr_left fun c hc => if_neg (ne_dot_of_isIdentifier hname c hc)).trans (List.map_id' _)
  rw [← String.toList_inj, Schema.stem, Key.stem, String.toList_ofList, hb.key, Key.ofNames]
  cases hempty : s.ns.isEmpty with
  | true => exact (hplain hb.name).symm
  | false =>
    have hns : isIdentifier s.ns = true := hb.ns.resolve_left fun hnil => by
      rw [hnil] at hempty
      cases hempty
    simp only [Bool.false_eq_true, if_false, String.toList_append, List.map_append, hplain hns, hplain hb.name]
    rfl

/-- Types of one key have the same tables. -/
theorem Schema.Builds.stem_congr (h : s.Builds) (h' : s'.Builds) (hkey : s.key = s'.key) : s.stem = s'.stem := by
  rw [h.stem_eq, h'.stem_eq, hkey]

/-! ### Members -/

/-- A schema has the members that were declared. -/
theorem SchemaBuilder.Gives.perm (h : b.Gives s) : s.members.Perm b.members := SchemaBuilder.collect_perm h.members

/-- The members of a schema are in the order of their paths. -/
theorem Schema.Builds.ascending (h : s.Builds) : s.members.Pairwise (·.path < ·.path) := by
  obtain ⟨b, hb⟩ := h.gives
  exact SchemaBuilder.collect_ascending hb.members .nil

theorem Schema.Builds.paths (h : s.Builds) : (s.members.map (·.path)).Nodup :=
  List.pairwise_map.mpr (h.ascending.imp ne_of_lt)

/-- The paths of a schema's members are sound. -/
theorem Schema.Builds.sound (h : s.Builds) : ∀ m ∈ s.members, SchemaBuilder.Sound m.path := by
  obtain ⟨b, hb⟩ := h.gives
  exact fun m hm => SchemaBuilder.sound_of_collect hb.members m (hb.perm.mem_iff.mp hm)

/-- A path is that of one member at most. -/
theorem Schema.Builds.member_unique (h : s.Builds) {m m' : Member} (hm : m ∈ s.members) (hm' : m' ∈ s.members)
    (hpath : m.path = m'.path) : m = m' :=
  List.inj_on_of_nodup_map h.paths hm hm' hpath

theorem Schema.member?_eq_some {path : String} {m : Member} (h : s.member? path = some m) :
    m ∈ s.members ∧ m.path = path := by
  have hpath := List.find?_some (p := fun x : Member => x.path == path) h
  exact ⟨List.mem_of_find?_eq_some h, beq_iff_eq.mp hpath⟩

/-- Each member is found under its path. -/
theorem Schema.Builds.member?_of_mem (h : s.Builds) {m : Member} (hm : m ∈ s.members) :
    s.member? m.path = some m := by
  cases hfound : s.member? m.path with
  | none =>
    have hnone := List.find?_eq_none.mp hfound m hm
    exact absurd (beq_self_eq_true m.path) hnone
  | some m' =>
    obtain ⟨hm', hpath⟩ := Schema.member?_eq_some hfound
    rw [h.member_unique hm' hm hpath]

/-! ### Building -/

/-- Names and sound paths that differ are built. -/
theorem SchemaBuilder.exists_build {u : Unit} (hnames : b.checkNames = .ok u) (hsound : ∀ m ∈ b.members, Sound m.path)
    (hpaths : (b.members.map (·.path)).Nodup) : ∃ s, b.build = .ok s := by
  obtain ⟨members, hmembers⟩ := exists_collect hsound (List.nil_append b.members ▸ hpaths)
  exact ⟨_, bind_eq_ok.mpr ⟨u, hnames, bind_eq_ok.mpr ⟨members, mapError_eq_ok.mpr hmembers, rfl⟩⟩⟩

/-- The schema of a shape. -/
def Schema.ofShape (ns name : String) (idType : IdType) (members : List Member) : Schema :=
  let key := Key.ofNames ns name
  ⟨key, ns, name, idType, members, Schema.fingerprintOf key idType members⟩

/-- Names and members that nothing is wrong with are built as they are. -/
theorem Schema.builds_ofShape {ns name : String} {idType : IdType} {members : List Member}
    (hnames : (SchemaBuilder.mk ns name idType members).checkNames = .ok ())
    (hmembers : SchemaBuilder.collect [] members = .ok members) : (Schema.ofShape ns name idType members).Builds := by
  refine ⟨⟨ns, name, idType, members⟩, ?_⟩
  rw [SchemaBuilder.build, hnames, hmembers]
  rfl

end DocStore
