import DocStore.Proofs.Query.Typing
import DocStore.Proofs.Sql.Text
import Mathlib.Data.List.Nodup

/-! Placeholders and parameters. The placeholders that stand in the text of a compiled query, once names and texts in
    quotes are put aside, are those of its parameters, each once and in their order; and the values of the parameters
    are the literals of the predicate, from left to right, and then the numbers of the page. -/

namespace DocStore

open Sql
open Sql.Token (Reads reads_iff)

/-! ### What is bound -/

/-- A literal as it is bound for a member: an integer as a fractal where the member is one. -/
def MemberRef.widened (r : MemberRef) (v : Value) : Value :=
  match r.code, v with
  | .fractal, .integer n => .fractal (Binary64.ofInt n)
  | _, v => v

namespace Predicate

mutual

/-- The values of a predicate, in the order in which they are met. A comparison with null has none. -/
def literals (d : Dialect) : Predicate → List Value
  | compare r _ v | anyElement r _ v => if v = .null then [] else [r.widened v]
  | compareMembers _ _ _ => []
  | textMatch _ op t => [.string (d.pattern op t)]
  | oneOf r vs => vs.map r.widened
  | between r low high => [r.widened low, r.widened high]
  | all ps | any ps => literalsOfAll d ps
  | not p => literals d p

def literalsOfAll (d : Dialect) : List Predicate → List Value
  | [] => []
  | p :: ps => literals d p ++ literalsOfAll d ps

end

end Predicate

/-- The numbers of a page in the order of the dialect's clause. An offset of zero is not bound. -/
def Paging.values (d : Dialect) (p : Paging) : List Value :=
  let offset := if p.offset = 0 then [] else [.integer p.offset]
  match d with
  | .sqlite => .integer p.count :: offset
  | .sqlServer => offset ++ [.integer p.count]

/-! ### Literals -/

section
variable {s : Schema} {r : MemberRef} {m : Member} {d : Dialect} {f : Filter}

theorem literal_widened {v x : Value} (hcode : m.code = r.code) (h : m.literal v = .ok x) : x = r.widened v := by
  unfold Member.literal at h
  unfold MemberRef.widened
  rw [← hcode]
  generalize m.code = c at h ⊢
  split at h
  · cases h
  · split at h
    · cases h
    · cases c with
      | fractal => cases v <;> cases h <;> rfl
      | _ => cases h; rfl

theorem literals_widened (hcode : m.code = r.code) :
    ∀ {vs xs : List Value}, m.literals vs = .ok xs → xs = vs.map r.widened
  | [], xs, h => by cases h; rfl
  | v :: vs, xs, h => by
    obtain ⟨y, ys, hv, hvs, rfl⟩ := literals_cons_eq_ok h
    rw [List.map_cons, literal_widened hcode hv, literals_widened hcode hvs]

theorem bound_checkCompare {op : Comparison} {v : Value} (h : Predicate.checkCompare s r op v = .ok f) :
    f.bound d = (Predicate.compare r op v).literals d := by
  obtain ⟨m, hm, ⟨hv, x, hx, rfl⟩ | ⟨hv, ⟨rfl, rfl⟩ | ⟨rfl, rfl⟩⟩⟩ := Predicate.checkCompare_eq_ok h
  · rw [literal_widened (resolve_ok hm).2 hx]
    cases v with
    | null => cases hv
    | _ => rfl
  · cases v with
    | null => rfl
    | _ => cases hv
  · cases v with
    | null => rfl
    | _ => cases hv

theorem bound_checkMembers {l : MemberRef} {op : Comparison} (h : Predicate.checkMembers s l op r = .ok f) :
    f.bound d = [] := by
  obtain ⟨left, right, -, -, -, rfl⟩ := Predicate.checkMembers_eq_ok h
  rfl

theorem bound_checkTextMatch {op : TextMatch} {t : String} (h : Predicate.checkTextMatch s r op t = .ok f) :
    f.bound d = [.string (d.pattern op t)] := by
  obtain ⟨m, -, rfl⟩ := Predicate.checkTextMatch_eq_ok h
  rfl

theorem bound_checkOneOf {vs : List Value} (h : Predicate.checkOneOf s r vs = .ok f) :
    f.bound d = vs.map r.widened := by
  obtain ⟨m, hm, ⟨rfl, rfl⟩ | ⟨-, xs, hxs, rfl⟩⟩ := Predicate.checkOneOf_eq_ok h
  · rfl
  · exact literals_widened (resolve_ok hm).2 hxs

theorem bound_checkBetween {low high : Value} (h : Predicate.checkBetween s r low high = .ok f) :
    f.bound d = [r.widened low, r.widened high] := by
  obtain ⟨m, x, y, hm, hx, hy, rfl⟩ := Predicate.checkBetween_eq_ok h
  rw [literal_widened (resolve_ok hm).2 hx, literal_widened (resolve_ok hm).2 hy]
  rfl

theorem bound_checkAnyElement {op : Comparison} {v : Value} (h : Predicate.checkAnyElement s r op v = .ok f) :
    f.bound d = (Predicate.anyElement r op v).literals d := by
  rw [bound_checkCompare (Predicate.checkAnyElement_eq_ok h).2, Predicate.literals, Predicate.literals]

end

mutual

/-- What a filter binds are the literals of the predicate that it was checked from. -/
theorem bound_check {s : Schema} {d : Dialect} :
    ∀ {p : Predicate} {f : Filter}, p.check s = .ok f → f.bound d = p.literals d
  | .compare .., _, h => bound_checkCompare h
  | .compareMembers .., _, h => by rw [bound_checkMembers h, Predicate.literals]
  | .textMatch .., _, h => by rw [bound_checkTextMatch h, Predicate.literals]
  | .oneOf .., _, h => by rw [bound_checkOneOf h, Predicate.literals]
  | .between .., _, h => by rw [bound_checkBetween h, Predicate.literals]
  | .anyElement .., _, h => bound_checkAnyElement h
  | .all ps, _, h => by
    obtain ⟨fs, hfs, rfl⟩ := Predicate.check_all_eq_ok h
    rw [Filter.bound, Predicate.literals, boundOfAll_checkAll hfs]
  | .any ps, _, h => by
    obtain ⟨fs, hfs, rfl⟩ := Predicate.check_any_eq_ok h
    rw [Filter.bound, Predicate.literals, boundOfAll_checkAll hfs]
  | .not p, _, h => by
    obtain ⟨g, hg, rfl⟩ := map_eq_ok.mp h
    rw [Filter.bound, Predicate.literals, bound_check hg]

theorem boundOfAll_checkAll {s : Schema} {d : Dialect} :
    ∀ {ps : List Predicate} {fs : List Filter}, Predicate.checkAll s ps = .ok fs →
      Filter.boundOfAll d fs = Predicate.literalsOfAll d ps
  | [], _, h => by
    cases h
    rfl
  | p :: ps, _, h => by
    obtain ⟨g, gs, hp, hgs, rfl⟩ := Predicate.checkAll_cons_eq_ok h
    rw [Filter.boundOfAll, Predicate.literalsOfAll, bound_check hp, boundOfAll_checkAll hgs]

end

theorem bound_checkFilter {s : Schema} {d : Dialect} {p : Option Predicate} {f : Option Filter}
    (h : Query.checkFilter s p = .ok f) : (f.map (·.bound d)).getD [] = (p.map (·.literals d)).getD [] := by
  cases p with
  | none =>
    cases h
    rfl
  | some p =>
    obtain ⟨g, hg, rfl⟩ := map_eq_ok.mp h
    exact bound_check hg

/-! ### Placeholders of tokens -/

namespace Sql

@[simp]
def Token.placeholder? : Token → Option String
  | .placeholder s => some s
  | _ => none

/-- The placeholders among tokens, in their order. -/
def placeholders (ts : List Token) : List String := ts.filterMap Token.placeholder?

@[simp]
theorem placeholders_nil : placeholders [] = [] := rfl

@[simp]
theorem placeholders_cons (t : Token) (ts : List Token) :
    placeholders (t :: ts) = t.placeholder?.toList ++ placeholders ts := by
  cases t <;> rfl

@[simp]
theorem placeholders_append (ts us : List Token) : placeholders (ts ++ us) = placeholders ts ++ placeholders us :=
  List.filterMap_append

theorem placeholders_separated {sep : List Token} (hsep : placeholders sep = []) :
    ∀ tss : List (List Token), placeholders (separated sep tss) = tss.flatMap placeholders
  | [] => rfl
  | [ts] => (List.append_nil (placeholders ts)).symm
  | ts :: us :: tss => by
    have ih := placeholders_separated hsep (us :: tss)
    rw [separated, placeholders_append, placeholders_append, hsep, List.nil_append, ih]
    rfl

variable (d : Dialect)

theorem placeholders_tokensOfAll {sep : List Token} (hsep : placeholders sep = []) (cs : List Condition) :
    placeholders (Condition.tokensOfAll d sep cs) = cs.flatMap fun c => placeholders (c.tokens d) := by
  rw [tokensOfAll_eq_separated, placeholders_separated hsep, List.flatMap_map]

/-! ### Placeholders of compiled conditions -/

/-- The placeholders of a number of slots, the first of which is given. -/
def slots (slot n : Nat) : List String := (List.range' slot n).map d.placeholder

theorem slots_add (slot m n : Nat) : slots d slot m ++ slots d (slot + m) n = slots d slot (m + n) := by
  rw [slots, slots, slots, ← List.map_append, List.range'_append_1]

theorem placeholders_scalar {q : Scalar} (h : ∀ e ∈ q.conditions, placeholders (e.tokens d) = []) :
    placeholders (q.tokens d) = [] := by
  have hvalue : placeholders q.valueTokens = [] := by
    unfold Scalar.valueTokens
    cases q.minimum <;> rfl
  have hconditions : placeholders (separated [.word "and"] (q.conditions.map (Equation.tokens d))) = [] := by
    rw [placeholders_separated rfl, List.flatMap_map]
    exact List.flatMap_eq_nil_iff.mpr h
  simp [Scalar.tokens, hvalue, hconditions, sourceTokens]

theorem placeholders_ofMember (inner outer : Label) (path : String) :
    ∀ e ∈ ofMember inner outer path, placeholders (e.tokens d) = [] := by
  rw [ofMember, List.forall_mem_cons, List.forall_mem_singleton]
  exact ⟨rfl, rfl⟩

/-- Of a condition on a member, only the tests of its value have placeholders. -/
theorem placeholders_memberExists (s : Schema) (m : Member) (label : Label) (tests : List Test) :
    placeholders ((memberExists s m label tests).tokens d) = tests.flatMap fun t => placeholders (t.tokens d) := by
  have hmember : ((ofMember label .row m.path).map Test.compare).flatMap (fun t => placeholders (t.tokens d)) = [] := by
    rw [List.flatMap_map]
    exact List.flatMap_eq_nil_iff.mpr (placeholders_ofMember d label .row m.path)
  have hand : placeholders [.word "and"] = [] := rfl
  have htests := placeholders_separated hand
    (((ofMember label .row m.path).map Test.compare ++ tests).map (Test.tokens d))
  rw [List.flatMap_map, List.flatMap_append, hmember, List.nil_append] at htests
  simp only [memberExists, Condition.tokens, placeholders_append, htests]
  simp [sourceTokens]

theorem placeholders_oneOf (left : ColumnRef) (slot n : Nat) :
    placeholders ((Test.oneOf (.column left) ((List.range n).map fun i => .slot (slot + i))).tokens d) =
      slots d slot n := by
  have hcomma : placeholders [.sign ","] = [] := rfl
  have hslots := placeholders_separated hcomma
    (((List.range n).map fun i => Operand.slot (slot + i)).map (Operand.tokens d))
  have hrange : ((List.range n).map fun i => Operand.slot (slot + i)).flatMap
      (fun x => placeholders (x.tokens d)) = slots d slot n := by
    rw [slots, List.range'_eq_map_range, List.map_map, List.flatMap_map, List.map_eq_flatMap]
    rfl
  rw [List.flatMap_map, hrange] at hslots
  simp only [Test.tokens, placeholders_append, hslots]
  simp [Operand.tokens, ColumnRef.tokens]

theorem placeholders_compareScalar (s : Schema) (left : ColumnRef) (op : Comparison) (m : Member)
    (label outer : Label) :
    placeholders ((Test.compareScalar (.column left) op (firstValue s m label outer)).tokens d) = [] := by
  have hscalar : placeholders ((firstValue s m label outer).tokens d) = [] :=
    placeholders_scalar d (placeholders_ofMember d label outer m.path)
  simp only [Test.tokens, placeholders_append, hscalar]
  rfl

mutual

/-- The placeholders of a condition are those of its slots, in their order. -/
theorem placeholders_condition (s : Schema) : ∀ (f : Filter) (label slot : Nat),
    placeholders ((f.condition d s label slot).tokens d) = slots d slot (f.bound d).length
  | .present m, label, slot => by
    rw [Filter.condition, placeholders_memberExists]
    rfl
  | .compare m op v, label, slot => by
    rw [Filter.condition, placeholders_memberExists]
    rfl
  | .compareMembers l op r, label, slot => by
    rw [Filter.condition, placeholders_memberExists, List.flatMap_singleton]
    exact placeholders_compareScalar d s _ op r _ _
  | .textMatch m op t, label, slot => by
    rw [Filter.condition, placeholders_memberExists]
    rfl
  | .never, label, slot => rfl
  | .oneOf m vs, label, slot => by
    rw [Filter.condition, placeholders_memberExists, List.flatMap_singleton]
    exact placeholders_oneOf d _ slot vs.length
  | .between m lo hi, label, slot => by
    rw [Filter.condition, placeholders_memberExists]
    rfl
  | .all fs, label, slot => by
    have ih := placeholders_conditions s fs label slot
    simp [Filter.condition, Condition.tokens, Filter.bound, placeholders_tokensOfAll, ih]
  | .any fs, label, slot => by
    have ih := placeholders_conditions s fs label slot
    simp [Filter.condition, Condition.tokens, Filter.bound, placeholders_tokensOfAll, ih]
  | .not f, label, slot => by
    have ih := placeholders_condition s f label slot
    simp [Filter.condition, Condition.tokens, Filter.bound, ih]

theorem placeholders_conditions (s : Schema) : ∀ (fs : List Filter) (label slot : Nat),
    (Filter.conditions d s label slot fs).flatMap (fun c => placeholders (c.tokens d)) =
      slots d slot (Filter.boundOfAll d fs).length
  | [], label, slot => rfl
  | f :: fs, label, slot => by
    rw [Filter.conditions, List.flatMap_cons, placeholders_condition s f, placeholders_conditions s fs, slots_add,
      Filter.boundOfAll, List.length_append]

end

/-! ### Placeholders of compiled queries -/

theorem placeholders_sortTerms (s : Schema) : ∀ (ts : List (Member × Direction)) (label : Nat),
    ((Query.sortTerms s label ts).map (SortTerm.tokens d)).flatMap placeholders = []
  | [], _ => rfl
  | (m, o) :: ts, label => by
    have hkey : placeholders ((leastValue s m (.sort label)).tokens d) = [] :=
      placeholders_scalar d (placeholders_ofMember d (.sort label) .row m.path)
    rw [Query.sortTerms, List.map_cons, List.flatMap_cons, placeholders_sortTerms s ts (label + 1), SortTerm.tokens,
      placeholders_append, hkey]
    rfl

theorem placeholders_order (s : Schema) (ts : List (Member × Direction)) (label : Nat) (x : Statement)
    (hx : x.sortings = Query.sortTerms s label ts) : placeholders (separated [.sign ","] (x.orderTokens d)) = [] := by
  rw [placeholders_separated rfl, Statement.orderTokens, hx, List.flatMap_append, placeholders_sortTerms d s]
  rfl

/-- The clause of a page has its slots in the order in which their values are bound. -/
theorem placeholders_page (slot : Nat) (page : Value × Option Value) :
    placeholders ((Query.bindPage d slot page).1.tokens d) = slots d slot (Query.bindPage d slot page).2.length := by
  obtain ⟨count, offset⟩ := page
  cases d <;> cases offset <;> rfl

theorem placeholders_statement (s : Schema) (c : Query.Checked) :
    placeholders ((c.compile s d).statement.tokens d) = slots d 0 (c.compile s d).bound.length := by
  have horder : placeholders (separated [.sign ","] ((c.compile s d).statement.orderTokens d)) = [] :=
    placeholders_order d s c.sortings _ _ rfl
  simp only [Statement.tokens, placeholders_append, horder]
  obtain ⟨filter, sortings, page, includes⟩ := c
  cases filter with
  | none =>
    cases page with
    | none => rfl
    | some page => exact placeholders_page d 0 page
  | some f =>
    have hfilter := placeholders_condition d s f 0 0
    cases page with
    | none =>
      simp only [Query.Checked.compile, Option.map_some, Option.map_none, Option.getD_some, Option.getD_none,
        placeholders_append, hfilter, List.append_nil]
      simp [sourceTokens, ColumnRef.tokens]
    | some page =>
      have hpage := placeholders_page d (f.bound d).length page
      have hslots := slots_add d 0 (f.bound d).length (Query.bindPage d (f.bound d).length page).2.length
      rw [Nat.zero_add] at hslots
      simp only [Query.Checked.compile, Option.map_some, Option.getD_some, placeholders_append, hfilter, hpage,
        List.length_append, ← hslots]
      simp [sourceTokens, ColumnRef.tokens]

end Sql

/-- The numbers of a page are bound in the order in which the clause has them. -/
theorem values_bindPage {d : Dialect} {p : Option Paging} {page : Option (Value × Option Value)}
    (h : Query.pageNumbers p = .ok page) (slot : Nat) :
    ((page.map (Query.bindPage d slot)).map (·.2)).getD [] = (p.map (·.values d)).getD [] := by
  cases p with
  | none =>
    cases h
    rfl
  | some p =>
    obtain ⟨count, hcount, h⟩ := bind_eq_ok.mp h
    cases pageNumber_ok hcount
    by_cases hzero : p.offset = 0
    · rw [if_pos hzero] at h
      cases h
      cases d <;> simp [Query.bindPage, Paging.values, hzero]
    · rw [if_neg hzero] at h
      obtain ⟨offset, hoffset, h⟩ := bind_eq_ok.mp h
      cases pageNumber_ok hoffset
      cases h
      cases d <;> simp [Query.bindPage, Paging.values, hzero, Dialect.countFirst]

/-! ### Parameters -/

/-- The placeholders of a text, names and texts in quotes being put aside, are those of the parameters in their
    order: the first parameter's is the first one of the dialect, and so on, and none comes twice. -/
structure BoundInOrder (d : Dialect) (text : String) (ps : List Parameter) : Prop where
  reads : ∃ ts, Token.ofText? d text = some ts ∧ placeholders ts = ps.map (·.name)
  names : ∀ (i : Nat) (h : i < ps.length), ps[i].name = d.placeholder i
  nodup : (ps.map (·.name)).Nodup

theorem placeholder_inj {d : Dialect} {m n : Nat} (h : d.placeholder m = d.placeholder n) : m = n := by
  have hlist := congrArg String.toList h
  cases d with
  | sqlite =>
    simp only [Dialect.placeholder, String.toList_append, String.toList_ofList] at hlist
    exact Nat.succ.inj (Text.decimal_inj (List.append_cancel_left hlist))
  | sqlServer =>
    simp only [Dialect.placeholder, String.toList_append, String.toList_ofList] at hlist
    exact Text.decimal_inj (List.append_cancel_left hlist)

theorem length_parameters (d : Dialect) (vs : List Value) : (parameters d vs).length = vs.length := List.length_mapIdx

theorem name_parameters {d : Dialect} {vs : List Value} {i : Nat} (h : i < (parameters d vs).length) :
    (parameters d vs)[i].name = d.placeholder i := by
  simp only [parameters, List.getElem_mapIdx]

theorem names_parameters (d : Dialect) (vs : List Value) : (parameters d vs).map (·.name) = slots d 0 vs.length := by
  refine List.ext_getElem ?_ fun i hi hi' => ?_
  · simp [slots, length_parameters]
  · simp [slots, name_parameters]

theorem values_parameters (d : Dialect) (vs : List Value) : (parameters d vs).map (·.value) = vs := by
  refine List.ext_getElem ?_ fun i hi hi' => ?_
  · simp [length_parameters]
  · simp [parameters]

theorem boundInOrder {d : Dialect} {text : String} {ts : List Token} {vs : List Value}
    (ht : Reads d text.toList ts) (hp : placeholders ts = slots d 0 vs.length) :
    BoundInOrder d text (parameters d vs) where
  reads := ⟨ts, reads_iff.mp ht, hp.trans (names_parameters d vs).symm⟩
  names _ h := name_parameters h
  nodup := by
    rw [names_parameters, slots]
    exact List.Nodup.map (fun _ _ => placeholder_inj) (List.nodup_range' ..)

/-- Under either dialect the placeholders of a compiled condition or query are those of its parameters in their order,
    and the values of the parameters are the literals of the predicate and then the numbers of the page. -/
theorem parameters_match_placeholders (s : Schema) (d : Dialect) :
    (∀ {p : Option Predicate} {c : CompiledFilter}, s.compileFilter d p = .ok c →
      BoundInOrder d c.text c.parameters ∧ c.parameters.map (·.value) = (p.map (·.literals d)).getD []) ∧
    ∀ {q : Query} {c : CompiledQuery}, s.compileQuery d q = .ok c →
      BoundInOrder d c.text c.parameters ∧
        c.parameters.map (·.value) =
          (q.predicate.map (·.literals d)).getD [] ++ (q.paging.map (·.values d)).getD [] := by
  constructor
  · intro p c h
    cases p with
    | none =>
      cases h
      exact ⟨@boundInOrder d "" [] [] .nil rfl, rfl⟩
    | some p =>
      obtain ⟨f, hf, rfl⟩ := map_eq_ok.mp h
      refine ⟨boundInOrder (reads_condition _) (placeholders_condition d s f 0 0), ?_⟩
      rw [CompiledFilter.parameters, values_parameters]
      exact bound_check hf
  · intro q c h
    obtain ⟨x, hx, rfl⟩ := map_eq_ok.mp h
    refine ⟨boundInOrder (reads_statement _) (placeholders_statement d s x), ?_⟩
    obtain ⟨_, -, hx⟩ := bind_eq_ok.mp hx
    obtain ⟨_, -, hx⟩ := bind_eq_ok.mp hx
    obtain ⟨filter, hfilter, hx⟩ := bind_eq_ok.mp hx
    obtain ⟨sortings, -, hx⟩ := bind_eq_ok.mp hx
    obtain ⟨page, hpage, hx⟩ := bind_eq_ok.mp hx
    cases hx
    rw [CompiledQuery.parameters, values_parameters, ← bound_checkFilter hfilter]
    exact congrArg (_ ++ ·) (values_bindPage hpage _)

/-- Readings with a rate, and with a remark under a path that looks like the end of a text and placeholders. -/
def readings : Schema :=
  { key := ⟨"Reading"⟩, ns := "", name := "Reading", idType := .string, fingerprint := ""
    members := [⟨"'?1 @p0", "String", .string, false, false⟩, ⟨"Rate", "Fractal", .fractal, false, false⟩] }

/-- The third page of the readings that are rated and whose remark speaks of half, by falling rate. -/
def halfRated : Query :=
  { predicate := some (.all [.textMatch (.new "'?1 @p0" .string) .contains "50%",
      .compare (.new "Rate" .fractal) .ne .null, .not (.oneOf (.new "Rate" .fractal) [.integer 3])])
    sortings := [⟨.new "Rate" .fractal, .desc⟩]
    paging := some ⟨20, 10⟩ }

theorem parameters_match_placeholders_readings :
    (∃ c, readings.compileFilter .sqlite halfRated.predicate = .ok c ∧ BoundInOrder .sqlite c.text c.parameters ∧
      c.parameters.map (·.value) = [.string "%50\\%%", .fractal (Binary64.ofInt 3)]) ∧
    (∃ c, readings.compileQuery .sqlite halfRated = .ok c ∧ BoundInOrder .sqlite c.text c.parameters ∧
      c.parameters.map (·.value) = [.string "%50\\%%", .fractal (Binary64.ofInt 3), .integer 10, .integer 20]) ∧
    ∃ c, readings.compileQuery .sqlServer halfRated = .ok c ∧ BoundInOrder .sqlServer c.text c.parameters ∧
      c.parameters.map (·.value) = [.string "%50\\%%", .fractal (Binary64.ofInt 3), .integer 20, .integer 10] := by
  refine ⟨?_, ?_, ?_⟩
  · obtain ⟨c, hc⟩ : ∃ c, readings.compileFilter .sqlite halfRated.predicate = .ok c := ⟨_, rfl⟩
    obtain ⟨hbound, hvalues⟩ := (parameters_match_placeholders readings .sqlite).1 hc
    exact ⟨c, hc, hbound, hvalues.trans (by decide)⟩
  · obtain ⟨c, hc⟩ : ∃ c, readings.compileQuery .sqlite halfRated = .ok c := ⟨_, rfl⟩
    obtain ⟨hbound, hvalues⟩ := (parameters_match_placeholders readings .sqlite).2 hc
    exact ⟨c, hc, hbound, hvalues.trans (by decide)⟩
  · obtain ⟨c, hc⟩ : ∃ c, readings.compileQuery .sqlServer halfRated = .ok c := ⟨_, rfl⟩
    obtain ⟨hbound, hvalues⟩ := (parameters_match_placeholders readings .sqlServer).2 hc
    exact ⟨c, hc, hbound, hvalues.trans (by decide)⟩

end DocStore
