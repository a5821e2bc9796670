import DocStore.Proofs.Query.Placeholders

/-! Text without literals. Two queries that differ in their literals only compile to the same text with the same names
    of parameters: a literal is bound to a placeholder, and the text tells of it no more than that there is one. -/

namespace DocStore

open Sql

/-! ### What differs in literals only -/

/-- Literals of which both are null or neither is. -/
def Value.Alike (v w : Value) : Prop := v.isNull = w.isNull

namespace Predicate

mutual

/-- Predicates of the same form with the same members and operators. -/
inductive Alike : Predicate → Predicate → Prop
  | compare (r : MemberRef) (op : Comparison) {v w : Value} (h : v.Alike w) : Alike (.compare r op v) (.compare r op w)
  | compareMembers (l : MemberRef) (op : Comparison) (r : MemberRef) :
      Alike (.compareMembers l op r) (.compareMembers l op r)
  | textMatch (r : MemberRef) (op : TextMatch) (t u : String) : Alike (.textMatch r op t) (.textMatch r op u)
  | oneOf (r : MemberRef) {vs ws : List Value} (h : List.Forall₂ Value.Alike vs ws) : Alike (.oneOf r vs) (.oneOf r ws)
  | between (r : MemberRef) {low high low' high' : Value} (hlow : low.Alike low') (hhigh : high.Alike high') :
      Alike (.between r low high) (.between r low' high')
  | anyElement (r : MemberRef) (op : Comparison) {v w : Value} (h : v.Alike w) :
      Alike (.anyElement r op v) (.anyElement r op w)
  | all {ps qs : List Predicate} (h : AllAlike ps qs) : Alike (.all ps) (.all qs)
  | any {ps qs : List Predicate} (h : AllAlike ps qs) : Alike (.any ps) (.any qs)
  | not {p q : Predicate} (h : Alike p q) : Alike (.not p) (.not q)

/-- As many predicates, alike one by one. -/
inductive AllAlike : List Predicate → List Predicate → Prop
  | nil : AllAlike [] []
  | cons {p q : Predicate} {ps qs : List Predicate} (h : Alike p q) (hs : AllAlike ps qs) : AllAlike (p :: ps) (q :: qs)

end

end Predicate

/-- Queries that differ in the literals of their predicates and the numbers of their pages at most. Either both start
    at the first structure or neither does. -/
structure Query.Alike (q q' : Query) : Prop where
  predicate : Option.Rel Predicate.Alike q.predicate q'.predicate
  sortings : q.sortings = q'.sortings
  paging : Option.Rel (fun p p' => p.offset = 0 ↔ p'.offset = 0) q.paging q'.paging
  includes : q.includes = q'.includes

/-! ### Conditions -/

/-- Filters that are compiled to the same conditions, wherever they start, and leave the same labels and slots to what
    comes after them. -/
structure Filter.SameText (d : Dialect) (s : Schema) (f g : Filter) : Prop where
  condition : ∀ label slot, f.condition d s label slot = g.condition d s label slot
  labels : f.labelCount = g.labelCount
  slots : (f.bound d).length = (g.bound d).length

/-- The same of filters one after the other. -/
structure Filter.AllSameText (d : Dialect) (s : Schema) (fs gs : List Filter) : Prop where
  conditions : ∀ label slot, Filter.conditions d s label slot fs = Filter.conditions d s label slot gs
  labels : Filter.labelCountOfAll fs = Filter.labelCountOfAll gs
  slots : (Filter.boundOfAll d fs).length = (Filter.boundOfAll d gs).length

section
variable {s : Schema} {d : Dialect} {r : MemberRef} {f g : Filter}

theorem length_literals {m : Member} : ∀ {vs xs : List Value}, m.literals vs = .ok xs → xs.length = vs.length
  | [], _, h => by
    cases h
    rfl
  | v :: vs, _, h => by
    obtain ⟨y, ys, -, hvs, rfl⟩ := literals_cons_eq_ok h
    rw [List.length_cons, List.length_cons, length_literals hvs]

theorem checkCompare_alike {op : Comparison} {v w : Value} (hvw : v.Alike w)
    (hf : Predicate.checkCompare s r op v = .ok f) (hg : Predicate.checkCompare s r op w = .ok g) :
    f.SameText d s g := by
  obtain ⟨m, hm, hf⟩ := Predicate.checkCompare_eq_ok hf
  obtain ⟨m', hm', hg⟩ := Predicate.checkCompare_eq_ok hg
  cases hm.symm.trans hm'
  rw [hvw] at hf
  -- both values are null, or neither is
  rcases hf with ⟨hv, x, -, rfl⟩ | ⟨hv, hf⟩ <;> rcases hg with ⟨hw, y, -, rfl⟩ | ⟨hw, hg⟩
  · exact ⟨fun _ _ => rfl, rfl, rfl⟩
  · cases hv.symm.trans hw
  · cases hv.symm.trans hw
  · rcases hf with ⟨rfl, rfl⟩ | ⟨rfl, rfl⟩ <;> rcases hg with ⟨hop, rfl⟩ | ⟨hop, rfl⟩ <;> cases hop <;>
      exact ⟨fun _ _ => rfl, rfl, rfl⟩

theorem checkTextMatch_alike {op : TextMatch} {t u : String} (hf : Predicate.checkTextMatch s r op t = .ok f)
    (hg : Predicate.checkTextMatch s r op u = .ok g) : f.SameText d s g := by
  obtain ⟨m, hm, rfl⟩ := Predicate.checkTextMatch_eq_ok hf
  obtain ⟨m', hm', rfl⟩ := Predicate.checkTextMatch_eq_ok hg
  cases hm.symm.trans hm'
  exact ⟨fun _ _ => rfl, rfl, rfl⟩

theorem checkOneOf_alike {vs ws : List Value} (hvw : List.Forall₂ Value.Alike vs ws)
    (hf : Predicate.checkOneOf s r vs = .ok f) (hg : Predicate.checkOneOf s r ws = .ok g) : f.SameText d s g := by
  obtain ⟨m, hm, hf⟩ := Predicate.checkOneOf_eq_ok hf
  obtain ⟨m', hm', hg⟩ := Predicate.checkOneOf_eq_ok hg
  cases hm.symm.trans hm'
  -- both lists are empty, or neither is
  have hlength := hvw.length_eq
  rcases hf with ⟨rfl, rfl⟩ | ⟨hvs, xs, hxs, rfl⟩ <;> rcases hg with ⟨rfl, rfl⟩ | ⟨hws, ys, hys, rfl⟩
  · exact ⟨fun _ _ => rfl, rfl, rfl⟩
  · exact absurd (List.length_eq_zero_iff.mp hlength.symm) hws
  · exact absurd (List.length_eq_zero_iff.mp hlength) hvs
  · have hslots : xs.length = ys.length := by rw [length_literals hxs, length_literals hys, hlength]
    exact ⟨fun _ _ => by rw [Filter.condition, Filter.condition, hslots], rfl, hslots⟩

theorem checkBetween_alike {low high low' high' : Value} (hf : Predicate.checkBetween s r low high = .ok f)
    (hg : Predicate.checkBetween s r low' high' = .ok g) : f.SameText d s g := by
  obtain ⟨m, _, _, hm, -, -, rfl⟩ := Predicate.checkBetween_eq_ok hf
  obtain ⟨m', _, _, hm', -, -, rfl⟩ := Predicate.checkBetween_eq_ok hg
  cases hm.symm.trans hm'
  exact ⟨fun _ _ => rfl, rfl, rfl⟩

theorem checkAnyElement_alike {op : Comparison} {v w : Value} (hvw : v.Alike w)
    (hf : Predicate.checkAnyElement s r op v = .ok f) (hg : Predicate.checkAnyElement s r op w = .ok g) :
    f.SameText d s g :=
  checkCompare_alike hvw (Predicate.checkAnyElement_eq_ok hf).2 (Predicate.checkAnyElement_eq_ok hg).2

end

mutual

/-- The condition of a checked predicate does not depend on the literals. -/
theorem check_alike {s : Schema} {d : Dialect} : ∀ {p q : Predicate} {f g : Filter}, p.Alike q → p.check s = .ok f →
    q.check s = .ok g → f.SameText d s g
  | _, _, _, _, .compare _ _ h, hf, hg => checkCompare_alike h hf hg
  | _, _, _, _, .compareMembers .., hf, hg => by
    cases hf.symm.trans hg
    exact ⟨fun _ _ => rfl, rfl, rfl⟩
  | _, _, _, _, .textMatch .., hf, hg => checkTextMatch_alike hf hg
  | _, _, _, _, .oneOf _ h, hf, hg => checkOneOf_alike h hf hg
  | _, _, _, _, .between .., hf, hg => checkBetween_alike hf hg
  | _, _, _, _, .anyElement _ _ h, hf, hg => checkAnyElement_alike h hf hg
  | _, _, _, _, .all h, hf, hg => by
    obtain ⟨fs, hfs, rfl⟩ := Predicate.check_all_eq_ok hf
    obtain ⟨gs, hgs, rfl⟩ := Predicate.check_all_eq_ok hg
    have hall := checkAll_alike (d := d) h hfs hgs
    exact ⟨fun label slot => congrArg Condition.all (hall.conditions label slot), hall.labels, hall.slots⟩
  | _, _, _, _, .any h, hf, hg => by
    obtain ⟨fs, hfs, rfl⟩ := Predicate.check_any_eq_ok hf
    obtain ⟨gs, hgs, rfl⟩ := Predicate.check_any_eq_ok hg
    have hall := checkAll_alike (d := d) h hfs hgs
    exact ⟨fun label slot => congrArg Condition.any (hall.conditions label slot), hall.labels, hall.slots⟩
  | _, _, _, _, .not h, hf, hg => by
    obtain ⟨f, hf₁, rfl⟩ := map_eq_ok.mp hf
    obtain ⟨g, hg₁, rfl⟩ := map_eq_ok.mp hg
    have hone := check_alike (d := d) h hf₁ hg₁
    exact ⟨fun label slot => congrArg Condition.not (hone.condition label slot), hone.labels, hone.slots⟩

theorem checkAll_alike {s : Schema} {d : Dialect} : ∀ {ps qs : List Predicate} {fs gs : List Filter},
    Predicate.AllAlike ps qs → Predicate.checkAll s ps = .ok fs → Predicate.checkAll s qs = .ok gs →
    Filter.AllSameText d s fs gs
  | _, _, _, _, .nil, hf, hg => by
    cases hf
    cases hg
    exact ⟨fun _ _ => rfl, rfl, rfl⟩
  | _, _, _, _, .cons h hs, hf, hg => by
    obtain ⟨f, fs, hf₁, hfs, rfl⟩ := Predicate.checkAll_cons_eq_ok hf
    obtain ⟨g, gs, hg₁, hgs, rfl⟩ := Predicate.checkAll_cons_eq_ok hg
    have hone := check_alike (d := d) h hf₁ hg₁
    have hall := checkAll_alike (d := d) hs hfs hgs
    refine ⟨fun label slot => ?_, ?_, ?_⟩
    · -- the rest starts where the first one ends, which is the same place for both
      rw [Filter.conditions, Filter.conditions, hone.condition, hone.labels, hone.slots, hall.conditions]
    · rw [Filter.labelCountOfAll, Filter.labelCountOfAll, hone.labels, hall.labels]
    · rw [Filter.boundOfAll, Filter.boundOfAll, List.length_append, List.length_append, hone.slots, hall.slots]

end

/-! ### Queries -/

section
variable {s : Schema} {d : Dialect}

/-- What a checked filter leaves in the text does not depend on the literals. -/
theorem checkFilter_alike {p p' : Option Predicate} {f f' : Option Filter} (hp : Option.Rel Predicate.Alike p p')
    (hf : Query.checkFilter s p = .ok f) (hf' : Query.checkFilter s p' = .ok f') :
    f.map (·.condition d s 0 0) = f'.map (·.condition d s 0 0) ∧
      (f.map (·.labelCount)).getD 0 = (f'.map (·.labelCount)).getD 0 ∧
      ((f.map (·.bound d)).getD []).length = ((f'.map (·.bound d)).getD []).length := by
  cases hp with
  | none =>
    cases hf
    cases hf'
    exact ⟨rfl, rfl, rfl⟩
  | some h =>
    obtain ⟨g, hg, rfl⟩ := map_eq_ok.mp hf
    obtain ⟨g', hg', rfl⟩ := map_eq_ok.mp hf'
    have hsame := check_alike (d := d) h hg hg'
    exact ⟨congrArg some (hsame.condition 0 0), hsame.labels, hsame.slots⟩

/-- The slots of a page, and how many values are bound to them, tell only whether it starts later. -/
theorem pageNumbers_alike {p p' : Option Paging} {page page' : Option (Value × Option Value)}
    (hp : Option.Rel (fun p p' : Paging => p.offset = 0 ↔ p'.offset = 0) p p')
    (hpage : Query.pageNumbers p = .ok page) (hpage' : Query.pageNumbers p' = .ok page') (slot : Nat) :
    (page.map (Query.bindPage d slot)).map (·.1) = (page'.map (Query.bindPage d slot)).map (·.1) ∧
      (((page.map (Query.bindPage d slot)).map (·.2)).getD []).length =
        (((page'.map (Query.bindPage d slot)).map (·.2)).getD []).length := by
  cases hp with
  | none =>
    cases hpage
    cases hpage'
    exact ⟨rfl, rfl⟩
  | @some p p' hzero =>
    obtain ⟨count, -, hpage⟩ := bind_eq_ok.mp hpage
    obtain ⟨count', -, hpage'⟩ := bind_eq_ok.mp hpage'
    by_cases h : p.offset = 0
    · rw [if_pos h] at hpage
      rw [if_pos (hzero.mp h)] at hpage'
      cases hpage
      cases hpage'
      exact ⟨rfl, rfl⟩
    · rw [if_neg h] at hpage
      rw [if_neg fun h' => h (hzero.mpr h')] at hpage'
      obtain ⟨offset, -, hpage⟩ := bind_eq_ok.mp hpage
      obtain ⟨offset', -, hpage'⟩ := bind_eq_ok.mp hpage'
      cases hpage
      cases hpage'
      cases d <;> exact ⟨rfl, rfl⟩

/-- Alike predicates are compiled to the same condition, which binds as many values. -/
theorem compileFilter_alike {p p' : Option Predicate} {c c' : CompiledFilter} (hp : Option.Rel Predicate.Alike p p')
    (hc : s.compileFilter d p = .ok c) (hc' : s.compileFilter d p' = .ok c') :
    c.dialect = c'.dialect ∧ c.condition = c'.condition ∧ c.bound.length = c'.bound.length := by
  cases hp with
  | none =>
    cases hc
    cases hc'
    exact ⟨rfl, rfl, rfl⟩
  | some h =>
    obtain ⟨f, hf, rfl⟩ := map_eq_ok.mp hc
    obtain ⟨f', hf', rfl⟩ := map_eq_ok.mp hc'
    have hsame := check_alike (d := d) h hf hf'
    exact ⟨rfl, congrArg some (hsame.condition 0 0), hsame.slots⟩

/-- Alike queries are compiled to the same statement, which binds as many values. -/
theorem compileQuery_alike {q q' : Query} {c c' : CompiledQuery} (hq : q.Alike q') (hc : s.compileQuery d q = .ok c)
    (hc' : s.compileQuery d q' = .ok c') : c.dialect = c'.dialect ∧ c.statement = c'.statement ∧
      c.bound.length = c'.bound.length ∧ c.includes = c'.includes := by
  obtain ⟨x, hx, rfl⟩ := map_eq_ok.mp hc
  obtain ⟨x', hx', rfl⟩ := map_eq_ok.mp hc'
  obtain ⟨_, -, hx⟩ := bind_eq_ok.mp hx
  obtain ⟨_, -, hx⟩ := bind_eq_ok.mp hx
  obtain ⟨f, hf, hx⟩ := bind_eq_ok.mp hx
  obtain ⟨ms, hms, hx⟩ := bind_eq_ok.mp hx
  obtain ⟨page, hpage, hx⟩ := bind_eq_ok.mp hx
  obtain ⟨_, -, hx'⟩ := bind_eq_ok.mp hx'
  obtain ⟨_, -, hx'⟩ := bind_eq_ok.mp hx'
  obtain ⟨f', hf', hx'⟩ := bind_eq_ok.mp hx'
  obtain ⟨ms', hms', hx'⟩ := bind_eq_ok.mp hx'
  obtain ⟨page', hpage', hx'⟩ := bind_eq_ok.mp hx'
  rw [← hq.sortings] at hms'
  cases hms.symm.trans hms'
  cases hx
  cases hx'
  obtain ⟨hcondition, hlabels, hslots⟩ := checkFilter_alike (d := d) hq.predicate hf hf'
  -- the page starts behind the values of the filter, so where it does is the same too
  obtain ⟨hplaces, hcount⟩ := pageNumbers_alike (d := d) hq.paging hpage hpage'
    ((f'.map (·.bound d)).getD []).length
  refine ⟨rfl, ?_, ?_, hq.includes⟩
  · simp only [Query.Checked.compile, hcondition, hlabels, hslots, hplaces]
  · simp only [Query.Checked.compile, hslots, List.length_append, hcount]

end

/-- The text of a compiled condition or query and the names of its parameters are the same for all literals: under
    either dialect alike predicates, and alike queries, differ in the values of their parameters at most. -/
theorem text_alike (s : Schema) (d : Dialect) :
    (∀ {p p' : Option Predicate} {c c' : CompiledFilter}, Option.Rel Predicate.Alike p p' →
      s.compileFilter d p = .ok c → s.compileFilter d p' = .ok c' →
        c.text = c'.text ∧ c.parameters.map (·.name) = c'.parameters.map (·.name)) ∧
    ∀ {q q' : Query} {c c' : CompiledQuery}, q.Alike q' → s.compileQuery d q = .ok c → s.compileQuery d q' = .ok c' →
      c.text = c'.text ∧ c.parameters.map (·.name) = c'.parameters.map (·.name) ∧ c.includes = c'.includes := by
  constructor
  · intro p p' c c' hp hc hc'
    obtain ⟨hdialect, hcondition, hbound⟩ := compileFilter_alike hp hc hc'
    constructor
    · rw [CompiledFilter.text, CompiledFilter.text, hdialect, hcondition]
    · rw [CompiledFilter.parameters, CompiledFilter.parameters, names_parameters, names_parameters, hdialect, hbound]
  · intro q q' c c' hq hc hc'
    obtain ⟨hdialect, hstatement, hbound, hincludes⟩ := compileQuery_alike hq hc hc'
    refine ⟨?_, ?_, hincludes⟩
    · rw [CompiledQuery.text, CompiledQuery.text, hdialect, hstatement]
    · rw [CompiledQuery.parameters, CompiledQuery.parameters, names_parameters, names_parameters, hdialect, hbound]

/-- Accounts with the names of their owners and a limit. -/
def accounts : Schema :=
  { key := ⟨"Account"⟩, ns := "", name := "Account", idType := .identity, fingerprint := ""
    members := [⟨"Limit", "Fractal", .fractal, false, false⟩, ⟨"Owners", "String", .string, false, true⟩] }

/-- The second page of the accounts that someone owns, whose limit is one of two or is not known. -/
def accountsOf (owner : String) (limits : Value × Value) (page : Paging) : Query :=
  { predicate := some (.all [.anyElement (.new "Owners" .string) .eq (.string owner),
      .not (.textMatch (.new "Owners" .string) .startsWith owner),
      .any [.oneOf (.new "Limit" .fractal) [limits.1, limits.2], .compare (.new "Limit" .fractal) .eq .null]])
    sortings := [⟨.new "Limit" .fractal, .desc⟩]
    paging := some page }

/-- An owner whose name would end the text and the statement. -/
theorem text_alike_accounts :
    let q := accountsOf "Ada" (.integer 10, .integer 20) ⟨5, 5⟩
    let q' := accountsOf "' or 1 = 1; drop table \"AccountStructure\" --" (.fractal ⟨0⟩, .integer (-1)) ⟨100, 10⟩
    (∃ c c', accounts.compileFilter .sqlite q.predicate = .ok c ∧ accounts.compileFilter .sqlite q'.predicate = .ok c' ∧
      c.bound ≠ c'.bound ∧ c.text = c'.text ∧ c.parameters.map (·.name) = c'.parameters.map (·.name)) ∧
    ∃ c c', accounts.compileQuery .sqlServer q = .ok c ∧ accounts.compileQuery .sqlServer q' = .ok c' ∧
      c.bound ≠ c'.bound ∧ c.text = c'.text ∧ c.parameters.map (·.name) = c'.parameters.map (·.name) ∧
        c.includes = c'.includes := by
  intro q q'
  have hpredicate : Option.Rel Predicate.Alike q.predicate q'.predicate :=
    .some (.all (.cons (.anyElement _ _ rfl) (.cons (.not (.textMatch ..)) (.cons (.any (.cons
      (.oneOf _ (.cons rfl (.cons rfl .nil))) (.cons (.compare _ _ rfl) .nil))) .nil))))
  have hquery : q.Alike q' := ⟨hpredicate, rfl, .some (by decide), rfl⟩
  constructor
  · obtain ⟨c, hc⟩ : ∃ c, accounts.compileFilter .sqlite q.predicate = .ok c := ⟨_, rfl⟩
    obtain ⟨c', hc'⟩ : ∃ c, accounts.compileFilter .sqlite q'.predicate = .ok c := ⟨_, rfl⟩
    refine ⟨c, c', hc, hc', ?_, (text_alike accounts .sqlite).1 hpredicate hc hc'⟩
    cases hc
    cases hc'
    decide
  · obtain ⟨c, hc⟩ : ∃ c, accounts.compileQuery .sqlServer q = .ok c := ⟨_, rfl⟩
    obtain ⟨c', hc'⟩ : ∃ c, accounts.compileQuery .sqlServer q' = .ok c := ⟨_, rfl⟩
    refine ⟨c, c', hc, hc', ?_, (text_alike accounts .sqlServer).2 hquery hc hc'⟩
    cases hc
    cases hc'
    decide

end DocStore
