import DocStore.Proofs.Query.Checked
import DocStore.Query.Compile

/-! Typing rules. What compiles is exactly what the rules admit: predicates whose members are declared with the code
    that they are referred to by, whose literals fit and whose operators suit the codes, and queries that are
    well formed around them. The rules do not depend on a dialect, so both dialects accept the same. -/

namespace DocStore

/-! ### The rules -/

/-- The schema declares a member under the path of a reference, with the code that the reference says. -/
def Schema.Declares (s : Schema) (r : MemberRef) (m : Member) : Prop := s.member? r.path = some m ∧ m.code = r.code

/-- A literal that can stand for a value of a member. Null has no code and stands for none. -/
inductive Member.Fits (m : Member) : Value → Prop
  | same {v : Value} (hcode : v.code? = some m.code) : m.Fits v
  | widened (n : Int) (hcode : m.code = .fractal) : m.Fits (.integer n)

/-- An operator that values of a code can be compared with: any two values are equal or not, and those of most codes
    have an order. -/
inductive Comparison.Suits (c : TypeCode) : Comparison → Prop
  | eq : Comparison.Suits c .eq
  | ne : Comparison.Suits c .ne
  | ordered (op : Comparison) (hbool : c ≠ .bool) (hguid : c ≠ .guid) : Comparison.Suits c op

/-- Codes whose values are compared with each other. -/
inductive TypeCode.Comparable : TypeCode → TypeCode → Prop
  | same (c : TypeCode) : TypeCode.Comparable c c
  | widenedLeft : TypeCode.Comparable .integer .fractal
  | widenedRight : TypeCode.Comparable .fractal .integer

/-- Predicates that have a meaning over a schema. -/
inductive Predicate.WellTyped (s : Schema) : Predicate → Prop
  | eqNull {r : MemberRef} {m : Member} (hr : s.Declares r m) : WellTyped s (.compare r .eq .null)
  | neNull {r : MemberRef} {m : Member} (hr : s.Declares r m) : WellTyped s (.compare r .ne .null)
  | compare {r : MemberRef} {m : Member} {op : Comparison} {v : Value} (hr : s.Declares r m)
      (hop : op.Suits m.code) (hv : m.Fits v) : WellTyped s (.compare r op v)
  | compareMembers {l r : MemberRef} {left right : Member} {op : Comparison} (hl : s.Declares l left)
      (hr : s.Declares r right) (hone : right.enumerable = false) (hcodes : left.code.Comparable right.code)
      (hop : op.Suits left.code) : WellTyped s (.compareMembers l op r)
  | textMatch {r : MemberRef} {m : Member} {op : TextMatch} {t : String} (hr : s.Declares r m)
      (hcode : m.code = .string) : WellTyped s (.textMatch r op t)
  | oneOf {r : MemberRef} {m : Member} {vs : List Value} (hr : s.Declares r m) (hvs : ∀ v ∈ vs, m.Fits v) :
      WellTyped s (.oneOf r vs)
  | between {r : MemberRef} {m : Member} {low high : Value} (hr : s.Declares r m) (hbool : m.code ≠ .bool)
      (hguid : m.code ≠ .guid) (hlow : m.Fits low) (hhigh : m.Fits high) : WellTyped s (.between r low high)
  | anyElement {r : MemberRef} {m : Member} {op : Comparison} {v : Value} (hr : s.Declares r m)
      (hmany : m.enumerable = true) (hop : op.Suits m.code) (hv : m.Fits v) : WellTyped s (.anyElement r op v)
  | all {ps : List Predicate} (hne : ps ≠ []) (hps : ∀ p ∈ ps, WellTyped s p) : WellTyped s (.all ps)
  | any {ps : List Predicate} (hne : ps ≠ []) (hps : ∀ p ∈ ps, WellTyped s p) : WellTyped s (.any ps)
  | not {p : Predicate} (hp : WellTyped s p) : WellTyped s (.not p)

/-- A page has something on it, its numbers are 64-bit integers, and it starts later only in a stated order. -/
structure Query.GoodPage (sortings : List Sorting) (p : Paging) : Prop where
  count_pos : 1 ≤ p.count
  count_le : (p.count : Int) ≤ Text.maxInt64
  offset_le : (p.offset : Int) ≤ Text.maxInt64
  ordered : 0 < p.offset → sortings ≠ []

/-- Queries that have a meaning over a schema. -/
structure Query.WellFormed (s : Schema) (q : Query) : Prop where
  predicate : ∀ p ∈ q.predicate, p.WellTyped s
  sortings : ∀ t ∈ q.sortings, ∃ m, s.Declares t.member m
  includes : ∀ path ∈ q.includes, ∃ m, s.member? path = some m
  page : ∀ p ∈ q.paging, Query.GoodPage q.sortings p

/-! ### Members, literals and operators -/

section
variable {s : Schema} {r : MemberRef} {m m' : Member}

theorem requireMember_eq_ok {path : String} : s.requireMember path = .ok m ↔ s.member? path = some m := by
  unfold Schema.requireMember
  cases s.member? path with
  | none => exact ⟨nofun, nofun⟩
  | some m' => exact ⟨fun h => congrArg some (Except.ok.inj h), fun h => congrArg _ (Option.some.inj h)⟩

theorem resolve_eq_ok : s.resolve r = .ok m ↔ s.Declares r m := by
  refine bind_eq_ok.trans ⟨?_, fun h => ⟨m, requireMember_eq_ok.mpr h.1, if_pos h.2⟩⟩
  rintro ⟨m', hm', h⟩
  split at h
  · cases h
    exact ⟨requireMember_eq_ok.mp hm', ‹m.code = r.code›⟩
  · cases h

theorem Schema.Declares.unique (h : s.Declares r m) (h' : s.Declares r m') : m = m' :=
  Option.some.inj (h.1.symm.trans h'.1)

theorem isNull_of_fits {v : Value} (h : m.Fits v) : v.isNull = false := by
  cases h with
  | same hcode =>
    cases v with
    | null => cases hcode
    | _ => rfl
  | widened n => rfl

theorem accepts_code {c : TypeCode} :
    m.code.accepts c = true ↔ c = m.code ∨ (m.code = .fractal ∧ c = .integer) := by
  unfold TypeCode.accepts
  rw [Bool.or_eq_true, Bool.and_eq_true, beq_iff_eq, beq_iff_eq, beq_iff_eq, eq_comm]

theorem fits_of_code {v : Value} {c : TypeCode} (hv : v.code? = some c) (h : m.code.accepts c = true) : m.Fits v := by
  obtain rfl | ⟨hfractal, rfl⟩ := accepts_code.mp h
  · exact .same hv
  · cases v with
    | integer n => exact .widened n hfractal
    | _ => cases hv

theorem literal_accepted {v : Value} : (∃ x, m.literal v = .ok x) ↔ m.Fits v := by
  constructor
  · rintro ⟨x, h⟩
    unfold Member.literal at h
    split at h
    · cases h
    · rename_i c hv
      split at h
      · cases h
      · exact fits_of_code hv (by simpa using ‹¬(!m.code.accepts c) = true›)
  · intro h
    obtain ⟨c, hv, haccepts⟩ : ∃ c, v.code? = some c ∧ m.code.accepts c = true := by
      cases h with
      | same hcode => exact ⟨m.code, hcode, accepts_code.mpr (.inl rfl)⟩
      | widened n hcode => exact ⟨.integer, rfl, accepts_code.mpr (.inr ⟨hcode, rfl⟩)⟩
    unfold Member.literal
    simp only [hv, haccepts, Bool.not_true, Bool.false_eq_true, if_false]
    split
    · exact ⟨_, rfl⟩
    · exact ⟨_, rfl⟩

theorem literals_accepted : ∀ {vs : List Value}, (∃ xs, m.literals vs = .ok xs) ↔ ∀ v ∈ vs, m.Fits v
  | [] => ⟨fun _ _ h => absurd h List.not_mem_nil, fun _ => ⟨[], rfl⟩⟩
  | v :: vs => by
    rw [List.forall_mem_cons, ← literal_accepted, ← literals_accepted, Member.literals]
    cases m.literal v with
    | error e => exact iff_of_false (by rintro ⟨xs, h⟩; cases h) (by rintro ⟨⟨x, h⟩, -⟩; cases h)
    | ok x => exact exists_map_ok.trans ⟨fun h => ⟨⟨x, rfl⟩, h⟩, fun h => h.2⟩

theorem checkOperator_accepted {op : Comparison} : (∃ u, m.checkOperator op = .ok u) ↔ op.Suits m.code := by
  have hordered : m.code.isOrdered = true ↔ m.code ≠ .bool ∧ m.code ≠ .guid := by
    cases m.code <;> simp [TypeCode.isOrdered]
  unfold Member.checkOperator
  constructor
  · rintro ⟨u, h⟩
    split at h
    · rename_i hop
      obtain hop | hop := Bool.or_eq_true .. |>.mp hop
      · cases op with
        | eq => exact .eq
        | ne => exact .ne
        | _ => cases hop
      · exact .ordered op (hordered.mp hop).1 (hordered.mp hop).2
    · cases h
  · rintro (_ | _ | ⟨_, hbool, hguid⟩)
    · exact ⟨(), rfl⟩
    · exact ⟨(), rfl⟩
    · exact ⟨(), if_pos (Bool.or_eq_true .. |>.mpr (.inr (hordered.mpr ⟨hbool, hguid⟩)))⟩

theorem comparableWith_iff {a b : TypeCode} : a.comparableWith b = true ↔ a.Comparable b := by
  constructor
  · intro h
    obtain h | h := Bool.or_eq_true .. |>.mp h
    · cases beq_iff_eq.mp h
      exact .same a
    · obtain ⟨ha, hb⟩ := Bool.and_eq_true .. |>.mp h
      cases a <;> cases ha <;> cases b <;> cases hb
      · exact .same .integer
      · exact .widenedLeft
      · exact .widenedRight
      · exact .same .fractal
  · rintro (_ | _ | _)
    · simp [TypeCode.comparableWith]
    · rfl
    · rfl

end

/-! ### Predicates -/

section
variable {s : Schema} {r : MemberRef}

theorem checkCompare_accepted {op : Comparison} {v : Value} :
    (∃ f, Predicate.checkCompare s r op v = .ok f) ↔ (Predicate.compare r op v).WellTyped s := by
  unfold Predicate.checkCompare
  simp only [exists_bind_ok, resolve_eq_ok]
  constructor
  · rintro ⟨m, hr, h⟩
    cases hv : v.isNull
    · simp only [hv, Bool.false_eq_true, if_false, exists_bind_ok] at h
      obtain ⟨u, hop, x, hx, -⟩ := h
      exact .compare hr (checkOperator_accepted.mp ⟨u, hop⟩) (literal_accepted.mp ⟨x, hx⟩)
    · obtain rfl : v = .null := by
        cases v with
        | null => rfl
        | _ => cases hv
      cases op with
      | eq => exact .eqNull hr
      | ne => exact .neNull hr
      | _ =>
        obtain ⟨f, h⟩ := h
        cases h
  · intro h
    cases h with
    | eqNull hr => exact ⟨_, hr, _, rfl⟩
    | neNull hr => exact ⟨_, hr, _, rfl⟩
    | compare hr hop hv =>
      obtain ⟨u, hu⟩ := checkOperator_accepted.mpr hop
      obtain ⟨x, hx⟩ := literal_accepted.mpr hv
      simp only [isNull_of_fits hv, Bool.false_eq_true, if_false, exists_bind_ok]
      exact ⟨_, hr, u, hu, x, hx, _, rfl⟩

theorem checkMembers_accepted {l : MemberRef} {op : Comparison} :
    (∃ f, Predicate.checkMembers s l op r = .ok f) ↔ (Predicate.compareMembers l op r).WellTyped s := by
  unfold Predicate.checkMembers
  simp only [exists_bind_ok, exists_guard_ok, resolve_eq_ok]
  constructor
  · rintro ⟨left, hl, right, hr, hone, hcodes, u, hop, -⟩
    exact .compareMembers hl hr (Bool.eq_false_iff.mpr hone) (comparableWith_iff.mp (by simpa using hcodes))
      (checkOperator_accepted.mp ⟨u, hop⟩)
  · intro h
    cases h with
    | compareMembers hl hr hone hcodes hop =>
      obtain ⟨u, hu⟩ := checkOperator_accepted.mpr hop
      exact ⟨_, hl, _, hr, by simp [hone], by simp [comparableWith_iff.mpr hcodes], u, hu, _, rfl⟩

theorem checkTextMatch_accepted {op : TextMatch} {t : String} :
    (∃ f, Predicate.checkTextMatch s r op t = .ok f) ↔ (Predicate.textMatch r op t).WellTyped s := by
  unfold Predicate.checkTextMatch
  simp only [exists_bind_ok, exists_guard_ok, resolve_eq_ok]
  constructor
  · rintro ⟨m, hr, hcode, -⟩
    exact .textMatch hr (not_not.mp hcode)
  · intro h
    cases h with
    | textMatch hr hcode => exact ⟨_, hr, not_not.mpr hcode, _, rfl⟩

theorem checkOneOf_accepted {vs : List Value} :
    (∃ f, Predicate.checkOneOf s r vs = .ok f) ↔ (Predicate.oneOf r vs).WellTyped s := by
  unfold Predicate.checkOneOf
  simp only [exists_bind_ok, resolve_eq_ok]
  cases vs with
  | nil =>
    constructor
    · rintro ⟨m, hr, -⟩
      exact .oneOf hr (by simp)
    · intro h
      cases h with
      | oneOf hr _ => exact ⟨_, hr, _, rfl⟩
  | cons v vs =>
    simp only [List.isEmpty_cons, Bool.false_eq_true, if_false, exists_bind_ok]
    constructor
    · rintro ⟨m, hr, xs, hxs, -⟩
      exact .oneOf hr (literals_accepted.mp ⟨xs, hxs⟩)
    · intro h
      cases h with
      | oneOf hr hvs =>
        obtain ⟨xs, hxs⟩ := literals_accepted.mpr hvs
        exact ⟨_, hr, xs, hxs, _, rfl⟩

theorem checkBetween_accepted {low high : Value} :
    (∃ f, Predicate.checkBetween s r low high = .ok f) ↔ (Predicate.between r low high).WellTyped s := by
  unfold Predicate.checkBetween
  simp only [exists_bind_ok, resolve_eq_ok]
  constructor
  · rintro ⟨m, hr, u, hop, x, hx, y, hy, -⟩
    -- the bounds are compared with an ordering operator, so equality alone is not enough
    cases checkOperator_accepted.mp ⟨u, hop⟩ with
    | ordered _ hbool hguid =>
      exact .between hr hbool hguid (literal_accepted.mp ⟨x, hx⟩) (literal_accepted.mp ⟨y, hy⟩)
  · intro h
    cases h with
    | between hr hbool hguid hlow hhigh =>
      obtain ⟨u, hu⟩ := checkOperator_accepted.mpr (.ordered .ge hbool hguid)
      obtain ⟨x, hx⟩ := literal_accepted.mpr hlow
      obtain ⟨y, hy⟩ := literal_accepted.mpr hhigh
      exact ⟨_, hr, u, hu, x, hx, y, hy, _, rfl⟩

theorem checkAnyElement_accepted {op : Comparison} {v : Value} :
    (∃ f, Predicate.checkAnyElement s r op v = .ok f) ↔ (Predicate.anyElement r op v).WellTyped s := by
  unfold Predicate.checkAnyElement
  simp only [exists_bind_ok, exists_guard_ok, resolve_eq_ok, checkCompare_accepted]
  constructor
  · rintro ⟨m, hr, hmany, hnull, h⟩
    cases h with
    | eqNull => exact absurd rfl hnull
    | neNull => exact absurd rfl hnull
    | compare hr' hop hv =>
      cases hr.unique hr'
      exact .anyElement hr (by simpa using hmany) hop hv
  · intro h
    cases h with
    | anyElement hr hmany hop hv =>
      refine ⟨_, hr, by simp [hmany], ?_, .compare hr hop hv⟩
      simp [isNull_of_fits hv]

end

mutual

/-- A predicate passes the check exactly if it is well typed. -/
theorem check_accepted {s : Schema} : ∀ p : Predicate, (∃ f, p.check s = .ok f) ↔ p.WellTyped s
  | .compare .. => checkCompare_accepted
  | .compareMembers .. => checkMembers_accepted
  | .textMatch .. => checkTextMatch_accepted
  | .oneOf .. => checkOneOf_accepted
  | .between .. => checkBetween_accepted
  | .anyElement .. => checkAnyElement_accepted
  | .all ps => by
    rw [Predicate.check, exists_unless_ok, exists_map_ok, checkAll_accepted ps, List.isEmpty_iff]
    refine ⟨fun h => .all h.1 h.2, fun h => ?_⟩
    cases h with
    | all hne hps => exact ⟨hne, hps⟩
  | .any ps => by
    rw [Predicate.check, exists_unless_ok, exists_map_ok, checkAll_accepted ps, List.isEmpty_iff]
    refine ⟨fun h => .any h.1 h.2, fun h => ?_⟩
    cases h with
    | any hne hps => exact ⟨hne, hps⟩
  | .not p => by
    rw [Predicate.check]
    refine exists_map_ok.trans ((check_accepted p).trans ⟨.not, fun h => ?_⟩)
    cases h with
    | not hp => exact hp

theorem checkAll_accepted {s : Schema} :
    ∀ ps : List Predicate, (∃ fs, Predicate.checkAll s ps = .ok fs) ↔ ∀ p ∈ ps, p.WellTyped s
  | [] => ⟨fun _ _ h => absurd h List.not_mem_nil, fun _ => ⟨[], rfl⟩⟩
  | p :: ps => by
    rw [List.forall_mem_cons, ← check_accepted p, ← checkAll_accepted ps, Predicate.checkAll]
    cases p.check s with
    | error e => exact ⟨nofun, nofun⟩
    | ok f => exact exists_map_ok.trans ⟨fun h => ⟨⟨f, rfl⟩, h⟩, fun h => h.2⟩

end

instance (s : Schema) (p : Predicate) : Decidable (p.WellTyped s) :=
  match h : p.check s with
  | .ok f => isTrue ((check_accepted p).mp ⟨f, h⟩)
  | .error e => isFalse fun hp => by
      obtain ⟨f, hf⟩ := (check_accepted p).mpr hp
      cases h.symm.trans hf

/-! ### Queries -/

section
variable {s : Schema}

theorem checkFilter_accepted {p : Option Predicate} :
    (∃ f, Query.checkFilter s p = .ok f) ↔ ∀ x ∈ p, x.WellTyped s := by
  cases p with
  | none => exact ⟨fun _ => nofun, fun _ => ⟨none, rfl⟩⟩
  | some p =>
    refine exists_map_ok.trans ((check_accepted p).trans ?_)
    simp only [Option.mem_some, forall_eq']

theorem resolveSortings_accepted :
    ∀ {ts : List Sorting}, (∃ ms, Query.resolveSortings s ts = .ok ms) ↔ ∀ t ∈ ts, ∃ m, s.Declares t.member m
  | [] => ⟨fun _ _ h => absurd h List.not_mem_nil, fun _ => ⟨[], rfl⟩⟩
  | t :: ts => by
    rw [List.forall_mem_cons, ← resolveSortings_accepted, Query.resolveSortings]
    simp only [← resolve_eq_ok]
    cases s.resolve t.member with
    | error e => exact ⟨nofun, nofun⟩
    | ok m => exact exists_map_ok.trans ⟨fun h => ⟨⟨m, rfl⟩, h⟩, fun h => h.2⟩

theorem checkIncludes_accepted :
    ∀ {paths : List String}, (∃ u, Query.checkIncludes s paths = .ok u) ↔ ∀ path ∈ paths, ∃ m, s.member? path = some m
  | [] => ⟨fun _ _ h => absurd h List.not_mem_nil, fun _ => ⟨(), rfl⟩⟩
  | path :: paths => by
    rw [List.forall_mem_cons, ← checkIncludes_accepted, Query.checkIncludes]
    simp only [← requireMember_eq_ok]
    cases s.requireMember path with
    | error e => exact ⟨nofun, nofun⟩
    | ok m => exact ⟨fun h => ⟨⟨m, rfl⟩, h⟩, fun h => h.2⟩

theorem pageNumber_ok {what : String} {n : Nat} {v : Value} (h : Query.pageNumber what n = .ok v) : v = .integer n := by
  unfold Query.pageNumber at h
  split at h <;> cases h
  rfl

theorem pageNumber_accepted (what : String) {n : Nat} :
    (∃ v, Query.pageNumber what n = .ok v) ↔ (n : Int) ≤ Text.maxInt64 := by
  unfold Query.pageNumber
  split
  · exact ⟨fun _ => ‹_›, fun _ => ⟨_, rfl⟩⟩
  · exact ⟨nofun, fun h => absurd h ‹_›⟩

theorem pageNumbers_accepted {p : Paging} :
    (∃ n, Query.pageNumbers (some p) = .ok n) ↔
      (p.count : Int) ≤ Text.maxInt64 ∧ (p.offset : Int) ≤ Text.maxInt64 := by
  unfold Query.pageNumbers
  rw [exists_bind_ok, ← pageNumber_accepted "count"]
  by_cases hzero : p.offset = 0
  · simp only [hzero, if_true]
    exact ⟨fun ⟨v, hv, _⟩ => ⟨⟨v, hv⟩, by decide⟩, fun ⟨⟨v, hv⟩, _⟩ => ⟨v, hv, _, rfl⟩⟩
  · simp only [hzero, if_false, exists_bind_ok, ← pageNumber_accepted "offset"]
    exact ⟨fun ⟨v, hv, w, hw, _⟩ => ⟨⟨v, hv⟩, w, hw⟩, fun ⟨⟨v, hv⟩, w, hw⟩ => ⟨v, hv, w, hw, _, rfl⟩⟩

theorem page_accepted {q : Query} :
    ((∃ u, q.checkPaging = .ok u) ∧ ∃ n, Query.pageNumbers q.paging = .ok n) ↔
      ∀ p ∈ q.paging, Query.GoodPage q.sortings p := by
  unfold Query.checkPaging
  cases q.paging with
  | none => exact ⟨fun _ => nofun, fun _ => ⟨⟨(), rfl⟩, none, rfl⟩⟩
  | some p =>
    simp only [Option.mem_some, forall_eq', pageNumbers_accepted, exists_unless_ok]
    constructor
    · rintro ⟨⟨hpos, hsorted, -⟩, hcount, hoffset⟩
      refine ⟨Nat.pos_of_ne_zero hpos, hcount, hoffset, fun hlater hnone => hsorted ?_⟩
      simp [hlater, hnone]
    · rintro ⟨hpos, hcount, hoffset, hsorted⟩
      exact ⟨⟨by omega, by simpa using hsorted, (), trivial⟩, hcount, hoffset⟩

/-- A query passes the check exactly if it is well formed. -/
theorem queryCheck_accepted {q : Query} : (∃ c, q.check s = .ok c) ↔ q.WellFormed s := by
  unfold Query.check
  simp only [exists_bind_ok]
  constructor
  · rintro ⟨u, hu, u', hincludes, f, hf, ms, hms, n, hn, -⟩
    exact ⟨checkFilter_accepted.mp ⟨f, hf⟩, resolveSortings_accepted.mp ⟨ms, hms⟩,
      checkIncludes_accepted.mp ⟨u', hincludes⟩, page_accepted.mp ⟨⟨u, hu⟩, n, hn⟩⟩
  · rintro ⟨hpredicate, hsortings, hincludes, hpage⟩
    obtain ⟨⟨u, hu⟩, n, hn⟩ := page_accepted.mpr hpage
    obtain ⟨u', hu'⟩ := checkIncludes_accepted.mpr hincludes
    obtain ⟨f, hf⟩ := checkFilter_accepted.mpr hpredicate
    obtain ⟨ms, hms⟩ := resolveSortings_accepted.mpr hsortings
    exact ⟨u, hu, u', hu', f, hf, ms, hms, n, hn, _, rfl⟩

end

/-- Under either dialect a predicate compiles exactly if it is well typed, and a query exactly if it is well
    formed. -/
theorem compile_accepts_wellTyped (s : Schema) (d : Dialect) :
    (∀ p : Option Predicate, (∃ c, s.compileFilter d p = .ok c) ↔ ∀ x ∈ p, x.WellTyped s) ∧
      ∀ q : Query, (∃ c, s.compileQuery d q = .ok c) ↔ q.WellFormed s := by
  refine ⟨fun p => ?_, fun q => exists_map_ok.trans queryCheck_accepted⟩
  rw [← checkFilter_accepted]
  cases p with
  | none => exact ⟨fun _ => ⟨none, rfl⟩, fun _ => ⟨_, rfl⟩⟩
  | some p => exact exists_map_ok.trans exists_map_ok.symm

/-- Truth values are equal or not, but none is less than another. -/
example :
    let tasks : Schema := ⟨⟨"Task"⟩, "", "Task", .guid, [⟨"Done", "bool", .bool, false, false⟩], ""⟩
    (Predicate.not (.compare (.new "Done" .bool) .ne (.bool true))).WellTyped tasks ∧
      ¬(Predicate.not (.compare (.new "Done" .bool) .lt (.bool true))).WellTyped tasks := by
  decide

end DocStore
