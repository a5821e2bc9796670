import DocStore.Proofs.Query.Typing
import DocStore.Proofs.Schema.Built
import DocStore.Proofs.Sql.Compared

/-! Member paths in compiled conditions. Paths are any text without control characters, quotes and signs of comments
    included, and stand in the condition as literals. The condition compares the column of paths with exactly the paths
    of the predicate, and under other paths it has the same tokens but for these literals, so no path says anything but
    which member is meant. -/

namespace DocStore

open Sql

/-! ### Other paths -/

def Member.renamed (ρ : String → String) (m : Member) : Member := { m with path := ρ m.path }

def MemberRef.renamed (ρ : String → String) (r : MemberRef) : MemberRef := { r with path := ρ r.path }

def SchemaBuilder.renamed (ρ : String → String) (b : SchemaBuilder) : SchemaBuilder :=
  { b with members := b.members.map (·.renamed ρ) }

namespace Predicate

mutual

/-- The predicate with each reference to a member renamed. -/
def renamed (ρ : String → String) : Predicate → Predicate
  | compare r op v => compare (r.renamed ρ) op v
  | compareMembers l op r => compareMembers (l.renamed ρ) op (r.renamed ρ)
  | textMatch r op t => textMatch (r.renamed ρ) op t
  | oneOf r vs => oneOf (r.renamed ρ) vs
  | between r low high => between (r.renamed ρ) low high
  | anyElement r op v => anyElement (r.renamed ρ) op v
  | all ps => all (renamedAll ρ ps)
  | any ps => any (renamedAll ρ ps)
  | not p => not (renamed ρ p)

def renamedAll (ρ : String → String) : List Predicate → List Predicate
  | [] => []
  | p :: ps => renamed ρ p :: renamedAll ρ ps

end

mutual

/-- The predicate without its tests for one of no values. In the place of each stands a disjunction of nothing, which
    refers to no member. -/
def withoutEmptySets : Predicate → Predicate
  | oneOf r vs => if vs.isEmpty then any [] else oneOf r vs
  | all ps => all (withoutEmptySetsOfAll ps)
  | any ps => any (withoutEmptySetsOfAll ps)
  | not p => not (withoutEmptySets p)
  | p => p

def withoutEmptySetsOfAll : List Predicate → List Predicate
  | [] => []
  | p :: ps => withoutEmptySets p :: withoutEmptySetsOfAll ps

end

end Predicate

namespace Filter

mutual

def renamed (ρ : String → String) : Filter → Filter
  | present m => present (m.renamed ρ)
  | compare m op v => compare (m.renamed ρ) op v
  | compareMembers l op r => compareMembers (l.renamed ρ) op (r.renamed ρ)
  | textMatch m op t => textMatch (m.renamed ρ) op t
  | never => never
  | oneOf m vs => oneOf (m.renamed ρ) vs
  | between m low high => between (m.renamed ρ) low high
  | all fs => all (renamedAll ρ fs)
  | any fs => any (renamedAll ρ fs)
  | not f => not (renamed ρ f)

def renamedAll (ρ : String → String) : List Filter → List Filter
  | [] => []
  | f :: fs => renamed ρ f :: renamedAll ρ fs

end

mutual

/-- The paths of the members, from left to right. -/
def paths : Filter → List String
  | present m | compare m _ _ | textMatch m _ _ | oneOf m _ | between m _ _ => [m.path]
  | compareMembers l _ r => [l.path, r.path]
  | never => []
  | all fs | any fs => pathsOfAll fs
  | not f => paths f

def pathsOfAll : List Filter → List String
  | [] => []
  | f :: fs => paths f ++ pathsOfAll fs

end

end Filter

variable {ρ : String → String}

/-! ### Schemas -/

/-- A schema with other paths for its members, which finds them under these. -/
structure Schema.Renamed (ρ : String → String) (s s' : Schema) : Prop where
  table : s'.indexesTable = s.indexesTable
  member : ∀ {path : String} {m : Member}, s.member? path = some m → s'.member? (ρ path) = some (m.renamed ρ)

section
variable {b : SchemaBuilder} {s s' : Schema}

/-- Declarations that build still do with other paths, as long as these can be declared and differ where the paths
    did. -/
theorem SchemaBuilder.exists_build_renamed (hb : b.build = .ok s)
    (hsound : ∀ m ∈ s.members, SchemaBuilder.Sound (ρ m.path))
    (hinj : ∀ m ∈ s.members, ∀ m' ∈ s.members, ρ m.path = ρ m'.path → m.path = m'.path) :
    ∃ s', (b.renamed ρ).build = .ok s' := by
  have hperm : s.members.Perm b.members := (build_eq_ok hb).perm
  obtain ⟨u, hnames, -⟩ := bind_eq_ok.mp hb
  refine exists_build (b := b.renamed ρ) hnames ?_ ?_
  · exact List.forall_mem_map.mpr fun m hm => hsound m (hperm.mem_iff.mpr hm)
  · have hmap : (b.renamed ρ).members.map Member.path = b.members.map fun m => ρ m.path := List.map_map
    have hpaths : (s.members.map (·.path)).Nodup := Schema.Builds.paths ⟨b, hb⟩
    rw [hmap, ← (hperm.map _).nodup_iff]
    rw [List.Nodup, List.pairwise_map] at hpaths ⊢
    exact hpaths.imp_of_mem fun hm hm' hne heq => hne (hinj _ hm _ hm' heq)

theorem SchemaBuilder.renamed_of_build (hb : b.build = .ok s) (hb' : (b.renamed ρ).build = .ok s') :
    s.Renamed ρ s' := by
  obtain ⟨hns, hname, -⟩ := build_names hb
  obtain ⟨hns', hname', -⟩ := build_names hb'
  have hstem : s'.stem = s.stem := by
    rw [Schema.stem, Schema.stem, hns, hname, hns', hname']
    rfl
  refine ⟨by rw [Schema.indexesTable, Schema.indexesTable, hstem], fun {path m} hm => ?_⟩
  obtain ⟨hmem, rfl⟩ := Schema.member?_eq_some hm
  have hdeclared : m.renamed ρ ∈ (b.renamed ρ).members :=
    List.mem_map_of_mem ((build_eq_ok hb).perm.mem_iff.mp hmem)
  exact Schema.Builds.member?_of_mem ⟨_, hb'⟩ ((build_eq_ok hb').perm.mem_iff.mpr hdeclared)

end

/-! ### Checks -/

section
variable {s s' : Schema} {r : MemberRef} {m : Member} {f : Filter}

theorem Schema.Renamed.resolve (h : s.Renamed ρ s') (hm : s.resolve r = .ok m) :
    s'.resolve (r.renamed ρ) = .ok (m.renamed ρ) := by
  obtain ⟨hfound, hcode⟩ := resolve_eq_ok.mp hm
  exact resolve_eq_ok.mpr ⟨h.member hfound, hcode⟩

theorem literal_renamed {v x : Value} (h : m.literal v = .ok x) : (m.renamed ρ).literal v = .ok x := by
  unfold Member.literal at h ⊢
  split at h
  · cases h
  · split at h
    · cases h
    · exact (if_neg ‹_›).trans h

theorem literals_renamed : ∀ {vs xs : List Value}, m.literals vs = .ok xs → (m.renamed ρ).literals vs = .ok xs
  | [], _, h => h
  | v :: vs, _, h => by
    obtain ⟨y, ys, hv, hvs, rfl⟩ := literals_cons_eq_ok h
    rw [Member.literals, literal_renamed hv, literals_renamed hvs]
    rfl

theorem checkOperator_renamed {op : Comparison} {u : Unit} (h : m.checkOperator op = .ok u) :
    (m.renamed ρ).checkOperator op = .ok u := by
  unfold Member.checkOperator at h ⊢
  split at h
  · exact (if_pos ‹_›).trans h
  · cases h

theorem checkCompare_renamed (hs : s.Renamed ρ s') {op : Comparison} {v : Value}
    (h : Predicate.checkCompare s r op v = .ok f) :
    Predicate.checkCompare s' (r.renamed ρ) op v = .ok (f.renamed ρ) := by
  obtain ⟨m, hm, h⟩ := bind_eq_ok.mp h
  refine bind_eq_ok.mpr ⟨m.renamed ρ, hs.resolve hm, ?_⟩
  cases hv : v.isNull
  · simp only [hv, Bool.false_eq_true, if_false] at h ⊢
    obtain ⟨u, hop, h⟩ := bind_eq_ok.mp h
    obtain ⟨x, hx, h⟩ := bind_eq_ok.mp h
    cases h
    exact bind_eq_ok.mpr ⟨u, checkOperator_renamed hop, bind_eq_ok.mpr ⟨x, literal_renamed hx, rfl⟩⟩
  · simp only [hv, if_true] at h ⊢
    cases op <;> cases h <;> rfl

theorem checkMembers_renamed (hs : s.Renamed ρ s') {l : MemberRef} {op : Comparison}
    (h : Predicate.checkMembers s l op r = .ok f) :
    Predicate.checkMembers s' (l.renamed ρ) op (r.renamed ρ) = .ok (f.renamed ρ) := by
  obtain ⟨left, hl, h⟩ := bind_eq_ok.mp h
  obtain ⟨right, hr, h⟩ := bind_eq_ok.mp h
  obtain ⟨hone, h⟩ := guard_eq_ok.mp h
  obtain ⟨hcodes, h⟩ := guard_eq_ok.mp h
  obtain ⟨u, hop, h⟩ := bind_eq_ok.mp h
  cases h
  refine bind_eq_ok.mpr ⟨left.renamed ρ, hs.resolve hl, bind_eq_ok.mpr ⟨right.renamed ρ, hs.resolve hr, ?_⟩⟩
  refine guard_eq_ok.mpr ⟨hone, guard_eq_ok.mpr ⟨hcodes, ?_⟩⟩
  exact bind_eq_ok.mpr ⟨u, checkOperator_renamed hop, rfl⟩

theorem checkTextMatch_renamed (hs : s.Renamed ρ s') {op : TextMatch} {t : String}
    (h : Predicate.checkTextMatch s r op t = .ok f) :
    Predicate.checkTextMatch s' (r.renamed ρ) op t = .ok (f.renamed ρ) := by
  obtain ⟨m, hm, h⟩ := bind_eq_ok.mp h
  obtain ⟨hcode, h⟩ := guard_eq_ok.mp h
  cases h
  exact bind_eq_ok.mpr ⟨m.renamed ρ, hs.resolve hm, guard_eq_ok.mpr ⟨hcode, rfl⟩⟩

theorem checkOneOf_renamed (hs : s.Renamed ρ s') {vs : List Value} (h : Predicate.checkOneOf s r vs = .ok f) :
    Predicate.checkOneOf s' (r.renamed ρ) vs = .ok (f.renamed ρ) := by
  obtain ⟨m, hm, h⟩ := bind_eq_ok.mp h
  refine bind_eq_ok.mpr ⟨m.renamed ρ, hs.resolve hm, ?_⟩
  cases vs with
  | nil =>
    cases h
    rfl
  | cons v vs =>
    obtain ⟨xs, hxs, h⟩ := bind_eq_ok.mp h
    cases h
    exact bind_eq_ok.mpr ⟨xs, literals_renamed hxs, rfl⟩

theorem checkBetween_renamed (hs : s.Renamed ρ s') {low high : Value}
    (h : Predicate.checkBetween s r low high = .ok f) :
    Predicate.checkBetween s' (r.renamed ρ) low high = .ok (f.renamed ρ) := by
  obtain ⟨m, hm, h⟩ := bind_eq_ok.mp h
  obtain ⟨u, hop, h⟩ := bind_eq_ok.mp h
  obtain ⟨lo, hlo, h⟩ := bind_eq_ok.mp h
  obtain ⟨hi, hhi, h⟩ := bind_eq_ok.mp h
  cases h
  refine bind_eq_ok.mpr ⟨m.renamed ρ, hs.resolve hm, bind_eq_ok.mpr ⟨u, checkOperator_renamed hop, ?_⟩⟩
  exact bind_eq_ok.mpr ⟨lo, literal_renamed hlo, bind_eq_ok.mpr ⟨hi, literal_renamed hhi, rfl⟩⟩

theorem checkAnyElement_renamed (hs : s.Renamed ρ s') {op : Comparison} {v : Value}
    (h : Predicate.checkAnyElement s r op v = .ok f) :
    Predicate.checkAnyElement s' (r.renamed ρ) op v = .ok (f.renamed ρ) := by
  obtain ⟨m, hm, h⟩ := bind_eq_ok.mp h
  obtain ⟨hmany, h⟩ := guard_eq_ok.mp h
  obtain ⟨hnull, h⟩ := guard_eq_ok.mp h
  refine bind_eq_ok.mpr ⟨m.renamed ρ, hs.resolve hm, guard_eq_ok.mpr ⟨hmany, guard_eq_ok.mpr ⟨hnull, ?_⟩⟩⟩
  exact checkCompare_renamed hs h

end

section
variable {s s' : Schema}

mutual

/-- What a predicate is checked to is renamed with it. -/
theorem check_renamed (hs : s.Renamed ρ s') :
    ∀ {p : Predicate} {f : Filter}, p.check s = .ok f → (p.renamed ρ).check s' = .ok (f.renamed ρ)
  | .compare .., _, h => checkCompare_renamed hs h
  | .compareMembers .., _, h => checkMembers_renamed hs h
  | .textMatch .., _, h => checkTextMatch_renamed hs h
  | .oneOf .., _, h => checkOneOf_renamed hs h
  | .between .., _, h => checkBetween_renamed hs h
  | .anyElement .., _, h => checkAnyElement_renamed hs h
  | .all [], _, h => by cases h
  | .any [], _, h => by cases h
  | .all (p :: ps), _, h => by
    obtain ⟨fs, hfs, rfl⟩ := Predicate.check_all_eq_ok h
    exact map_eq_ok.mpr ⟨_, checkAll_renamed hs hfs, rfl⟩
  | .any (p :: ps), _, h => by
    obtain ⟨fs, hfs, rfl⟩ := Predicate.check_any_eq_ok h
    exact map_eq_ok.mpr ⟨_, checkAll_renamed hs hfs, rfl⟩
  | .not p, _, h => by
    obtain ⟨g, hg, rfl⟩ := map_eq_ok.mp h
    exact map_eq_ok.mpr ⟨_, check_renamed hs hg, rfl⟩

theorem checkAll_renamed (hs : s.Renamed ρ s') :
    ∀ {ps : List Predicate} {fs : List Filter}, Predicate.checkAll s ps = .ok fs →
      Predicate.checkAll s' (Predicate.renamedAll ρ ps) = .ok (Filter.renamedAll ρ fs)
  | [], _, h => by
    cases h
    rfl
  | p :: ps, _, h => by
    obtain ⟨g, gs, hp, hgs, rfl⟩ := Predicate.checkAll_cons_eq_ok h
    rw [Predicate.renamedAll, Predicate.checkAll, check_renamed hs hp, checkAll_renamed hs hgs]
    rfl

end

end

/-! ### Paths of filters -/

section
variable {s : Schema} {r : MemberRef} {f : Filter}

theorem paths_checkCompare {op : Comparison} {v : Value} (h : Predicate.checkCompare s r op v = .ok f) :
    f.paths = [r.path] := by
  obtain ⟨m, hm, ⟨-, x, -, rfl⟩ | ⟨-, ⟨-, rfl⟩ | ⟨-, rfl⟩⟩⟩ := Predicate.checkCompare_eq_ok h
  all_goals rw [← (resolve_ok hm).1]; rfl

theorem paths_checkMembers {l : MemberRef} {op : Comparison} (h : Predicate.checkMembers s l op r = .ok f) :
    f.paths = [l.path, r.path] := by
  obtain ⟨left, right, hl, hr, -, rfl⟩ := Predicate.checkMembers_eq_ok h
  rw [← (resolve_ok hl).1, ← (resolve_ok hr).1]
  rfl

theorem paths_checkTextMatch {op : TextMatch} {t : String} (h : Predicate.checkTextMatch s r op t = .ok f) :
    f.paths = [r.path] := by
  obtain ⟨m, hm, rfl⟩ := Predicate.checkTextMatch_eq_ok h
  rw [← (resolve_ok hm).1]
  rfl

theorem paths_checkOneOf {vs : List Value} (h : Predicate.checkOneOf s r vs = .ok f) :
    f.paths = (Predicate.oneOf r vs).withoutEmptySets.paths := by
  obtain ⟨m, hm, ⟨rfl, rfl⟩ | ⟨hne, xs, -, rfl⟩⟩ := Predicate.checkOneOf_eq_ok h
  · rfl
  · obtain ⟨v, vs, rfl⟩ := List.exists_cons_of_ne_nil hne
    show [m.path] = [r.path]
    rw [(resolve_ok hm).1]

theorem paths_checkBetween {low high : Value} (h : Predicate.checkBetween s r low high = .ok f) :
    f.paths = [r.path] := by
  obtain ⟨m, lo, hi, hm, -, -, rfl⟩ := Predicate.checkBetween_eq_ok h
  rw [← (resolve_ok hm).1]
  rfl

mutual

/-- A filter refers to the members of the predicate that it was checked from, but for those that nothing was asked
    of. -/
theorem paths_check : ∀ {p : Predicate} {f : Filter}, p.check s = .ok f → f.paths = p.withoutEmptySets.paths
  | .compare .., _, h => paths_checkCompare h
  | .compareMembers .., _, h => paths_checkMembers h
  | .textMatch .., _, h => paths_checkTextMatch h
  | .oneOf .., _, h => paths_checkOneOf h
  | .between .., _, h => paths_checkBetween h
  | .anyElement .., _, h => paths_checkCompare (Predicate.checkAnyElement_eq_ok h).2
  | .all ps, _, h => by
    obtain ⟨fs, hfs, rfl⟩ := Predicate.check_all_eq_ok h
    exact paths_checkAll hfs
  | .any ps, _, h => by
    obtain ⟨fs, hfs, rfl⟩ := Predicate.check_any_eq_ok h
    exact paths_checkAll hfs
  | .not p, _, h => by
    obtain ⟨g, hg, rfl⟩ := map_eq_ok.mp h
    exact (paths_check hg : g.paths = p.withoutEmptySets.paths)

theorem paths_checkAll : ∀ {ps : List Predicate} {fs : List Filter}, Predicate.checkAll s ps = .ok fs →
    Filter.pathsOfAll fs = Predicate.pathsOfAll (Predicate.withoutEmptySetsOfAll ps)
  | [], _, h => by
    cases h
    rfl
  | p :: ps, _, h => by
    obtain ⟨g, gs, hp, hgs, rfl⟩ := Predicate.checkAll_cons_eq_ok h
    rw [Filter.pathsOfAll, paths_check hp, paths_checkAll hgs]
    rfl

end

end

/-! ### Conditions -/

namespace Filter

mutual

theorem labelCount_renamed : ∀ f : Filter, (f.renamed ρ).labelCount = f.labelCount
  | present _ | compare _ _ _ | compareMembers _ _ _ | textMatch _ _ _ | never | oneOf _ _ | between _ _ _ => rfl
  | all fs | any fs => labelCountOfAll_renamed fs
  | not f => labelCount_renamed f

theorem labelCountOfAll_renamed : ∀ fs : List Filter, labelCountOfAll (renamedAll ρ fs) = labelCountOfAll fs
  | [] => rfl
  | f :: fs => by rw [renamedAll, labelCountOfAll, labelCount_renamed f, labelCountOfAll_renamed fs, labelCountOfAll]

end

variable {d : Dialect}

mutual

theorem bound_renamed : ∀ f : Filter, (f.renamed ρ).bound d = f.bound d
  | present _ | compare _ _ _ | compareMembers _ _ _ | textMatch _ _ _ | never | oneOf _ _ | between _ _ _ => rfl
  | all fs | any fs => boundOfAll_renamed fs
  | not f => bound_renamed f

theorem boundOfAll_renamed : ∀ fs : List Filter, boundOfAll d (renamedAll ρ fs) = boundOfAll d fs
  | [] => rfl
  | f :: fs => by rw [renamedAll, boundOfAll, bound_renamed f, boundOfAll_renamed fs, boundOfAll]

end

end Filter

section
variable {s s' : Schema} (d : Dialect)

/-- A condition on a member asks for the member's path before anything else. -/
theorem asks_memberExists (hs : s.Renamed ρ s') (m : Member) (label : Label) {tests tests' : List Test}
    {paths : List String} (h : AsksEach ρ (tests.map (Test.tokens d)) (tests'.map (Test.tokens d)) paths) :
    Asks ρ ((memberExists s m label tests).tokens d) ((memberExists s' (m.renamed ρ) label tests').tokens d)
      (m.path :: paths) := by
  rw [memberExists, memberExists, hs.table]
  exact asks_rowExists d s.indexesTable label (.cons (asks_ids d label .row) (.cons (asks_path d label m.path) h))

theorem asks_firstValue (hs : s.Renamed ρ s') (m : Member) (label outer : Label) :
    Asks ρ ((firstValue s m label outer).tokens d) ((firstValue s' (m.renamed ρ) label outer).tokens d) [m.path] := by
  rw [firstValue, firstValue, hs.table]
  exact asks_scalar d s.indexesTable label m.code (.cons (asks_ids d label outer) (.single (asks_path d label m.path)))

mutual

/-- The condition of a filter asks for the paths of the filter, and is that of the renamed filter once they are
    renamed. -/
theorem asks_condition (hs : s.Renamed ρ s') : ∀ (f : Filter) (label slot : Nat),
    Asks ρ ((f.condition d s label slot).tokens d) (((f.renamed ρ).condition d s' label slot).tokens d) f.paths
  | .present m, label, slot => asks_memberExists d hs m (.index label) .nil
  | .compare m op v, label, slot => asks_memberExists d hs m (.index label) (.single (asks_compare d _ m.code op slot))
  | .compareMembers l op r, label, slot => by
    have hscalar := asks_firstValue d hs r (.right (label + 1)) (.index label)
    exact asks_memberExists d hs l (.index label) (.single (asks_compareScalar d _ l.code op hscalar))
  | .textMatch m op t, label, slot => asks_memberExists d hs m (.index label) (.single (asks_like d _ m.code slot))
  | .never, label, slot => ⟨rfl, rfl, rfl⟩
  | .oneOf m vs, label, slot =>
    asks_memberExists d hs m (.index label) (.single (asks_oneOf d _ m.code slot vs.length))
  | .between m lo hi, label, slot => asks_memberExists d hs m (.index label) (.single (asks_between d _ m.code slot))
  | .all fs, label, slot => asks_joined d (asks_word _) (asks_conditions hs fs label slot)
  | .any fs, label, slot => asks_joined d (asks_word _) (asks_conditions hs fs label slot)
  | .not f, label, slot => by
    have hopening : Asks ρ [.sign "(", .word "not"] [.sign "(", .word "not"] [] := ⟨rfl, rfl, rfl⟩
    exact hopening.append ((asks_condition hs f label slot).closed)

theorem asks_conditions (hs : s.Renamed ρ s') : ∀ (fs : List Filter) (label slot : Nat),
    AsksEach ρ ((Filter.conditions d s label slot fs).map (Condition.tokens d))
      ((Filter.conditions d s' label slot (Filter.renamedAll ρ fs)).map (Condition.tokens d)) (Filter.pathsOfAll fs)
  | [], _, _ => .nil
  | f :: fs, label, slot => by
    rw [Filter.renamedAll, Filter.conditions, Filter.conditions, Filter.labelCount_renamed, Filter.bound_renamed]
    exact .cons (asks_condition hs f label slot) (asks_conditions hs fs _ _)

end

end

/-- The texts that a compiled condition compares with the column of paths are the paths of the predicate, in their order
    and whatever they hold, but for those of the tests for one of no values. If the members get other paths, which can
    be declared and differ where the paths did, the predicate still compiles with the same values bound, and of the
    tokens only those texts change. -/
theorem paths_stay_quoted {b : SchemaBuilder} {s : Schema} {d : Dialect} {p : Predicate} {c : CompiledFilter}
    (hb : b.build = .ok s) (hc : s.compileFilter d (some p) = .ok c) :
    ∃ ts, Token.ofText? d c.text = some ts ∧ comparedPaths ts = p.withoutEmptySets.paths ∧
      ∀ ρ : String → String, (∀ m ∈ s.members, SchemaBuilder.Sound (ρ m.path)) →
        (∀ m ∈ s.members, ∀ m' ∈ s.members, ρ m.path = ρ m'.path → m.path = m'.path) →
        ∃ s' c', (b.renamed ρ).build = .ok s' ∧ s'.compileFilter d (some (p.renamed ρ)) = .ok c' ∧
          Token.ofText? d c'.text = some (mapPaths ρ ts) ∧ c'.bound = c.bound := by
  obtain ⟨f, hf, rfl⟩ := map_eq_ok.mp hc
  -- which paths are asked for does not depend on what they are renamed to, so here they keep their names
  have hself : s.Renamed id s := ⟨rfl, fun hm => hm⟩
  refine ⟨_, (reads_condition _).ofText?, ?_, fun ρ hsound hinj => ?_⟩
  · rw [(asks_condition d hself f 0 0).paths, paths_check hf]
  · obtain ⟨s', hb'⟩ := SchemaBuilder.exists_build_renamed hb hsound hinj
    have hs : s.Renamed ρ s' := SchemaBuilder.renamed_of_build hb hb'
    refine ⟨s', _, hb', map_eq_ok.mpr ⟨_, check_renamed hs hf, rfl⟩, ?_, Filter.bound_renamed f⟩
    rw [(asks_condition d hs f 0 0).renamed]
    exact (reads_condition _).ofText?

/-- Labels, with members under paths that look like the ends of texts and names, placeholders and comments. -/
def labels : SchemaBuilder :=
  ⟨"", "Label", .guid, [⟨"it's", "string", .string, false, false⟩, ⟨"'] or 1 = 1 --", "string", .string, true, false⟩,
    ⟨"?1 @p0 /*", "integer", .integer, false, true⟩]⟩

def labelsBuilt : Schema :=
  .ofShape "" "Label" .guid [⟨"'] or 1 = 1 --", "string", .string, true, false⟩,
    ⟨"?1 @p0 /*", "integer", .integer, false, true⟩, ⟨"it's", "string", .string, false, false⟩]

/-- Labels with one text, without another and with a number, and in no case with a number of no numbers. -/
def labelled : Predicate :=
  .all [.compare (.new "it's" .string) .eq (.string "--"), .not (.oneOf (.new "?1 @p0 /*" .integer) []),
    .not (.compareMembers (.new "it's" .string) .ne (.new "'] or 1 = 1 --" .string)),
    .anyElement (.new "?1 @p0 /*" .integer) .gt (.integer 2)]

theorem paths_stay_quoted_labels :
    ∃ c ts, labels.build = .ok labelsBuilt ∧ labelsBuilt.compileFilter .sqlServer (some labelled) = .ok c ∧
      Token.ofText? .sqlServer c.text = some ts ∧
      comparedPaths ts = ["it's", "it's", "'] or 1 = 1 --", "?1 @p0 /*"] ∧
      ∃ s' c', (labels.renamed (· ++ "'")).build = .ok s' ∧
        s'.compileFilter .sqlServer (some (labelled.renamed (· ++ "'"))) = .ok c' ∧
        Token.ofText? .sqlServer c'.text = some (mapPaths (· ++ "'") ts) := by
  have hb : labels.build = .ok labelsBuilt := by decide +kernel
  obtain ⟨c, hc⟩ : ∃ c, labelsBuilt.compileFilter .sqlServer (some labelled) = .ok c := ⟨_, rfl⟩
  obtain ⟨ts, hts, hpaths, hrenamed⟩ := paths_stay_quoted hb hc
  have hfree : ∀ m ∈ labelsBuilt.members, SchemaBuilder.pathFault? [] (m.path ++ "'") = none := by decide +kernel
  have hinj : ∀ m ∈ labelsBuilt.members, ∀ m' ∈ labelsBuilt.members,
      m.path ++ "'" = m'.path ++ "'" → m.path = m'.path := by decide +kernel
  obtain ⟨s', c', hb', hc', hts', -⟩ :=
    hrenamed (· ++ "'") (fun m hm => (SchemaBuilder.pathFault?_eq_none_iff.mp (hfree m hm)).1) hinj
  exact ⟨c, ts, hb, hc, hts, hpaths, s', c', hb', hc', hts'⟩

end DocStore
