import DocStore.Proofs.Except
import DocStore.Proofs.Query.Holds

/-! Checking keeps the meaning. A filter holds for a structure exactly if the predicate that it was checked from
    does: the members found are those referred to, and a literal is widened as the values it is compared with
    are stored. -/

namespace DocStore

open Sql (Datum Row)

/-! ### The meaning of filters -/

namespace Filter

mutual

/-- Whether a filter holds for the structure of an id, given all index rows of the set. -/
def holds (rows : List Row) (id : Datum) : Filter → Bool
  | present m => !(rowsOf rows id m.path).isEmpty
  | compare m op v => (valuesOf rows id m.path m.code).any fun x => x.stands op (.ofValue v)
  | compareMembers l op r =>
    (valuesOf rows id l.path l.code).any fun x =>
      (valuesOf rows id r.path r.code).head?.any fun y => x.stands op y
  | textMatch m op t => (valuesOf rows id m.path m.code).any (op.holdsOf t)
  | never => false
  | oneOf m vs => (valuesOf rows id m.path m.code).any fun x => vs.any fun v => x.stands .eq (.ofValue v)
  | between m lo hi =>
    (valuesOf rows id m.path m.code).any fun x => x.stands .ge (.ofValue lo) && x.stands .le (.ofValue hi)
  | all fs => holdsAll rows id fs
  | any fs => holdsAny rows id fs
  | not f => !holds rows id f

def holdsAll (rows : List Row) (id : Datum) : List Filter → Bool
  | [] => true
  | f :: fs => holds rows id f && holdsAll rows id fs

def holdsAny (rows : List Row) (id : Datum) : List Filter → Bool
  | [] => false
  | f :: fs => holds rows id f || holdsAny rows id fs

end

end Filter

/-! ### Members and literals -/

section
variable {s : Schema} {r : MemberRef} {m : Member}

theorem requireMember_path {path : String} (h : s.requireMember path = .ok m) : m.path = path := by
  unfold Schema.requireMember Schema.member? at h
  cases hfind : s.members.find? (·.path == path) with
  | none => simp [hfind] at h
  | some m' =>
    simp only [hfind, Except.ok.injEq] at h
    have hpath := List.find?_some (p := fun x : Member => x.path == path) hfind
    exact h ▸ beq_iff_eq.mp hpath

theorem resolve_ok (h : s.resolve r = .ok m) : m.path = r.path ∧ m.code = r.code := by
  obtain ⟨m', hm, h⟩ := bind_eq_ok.mp h
  split at h
  · cases h
    exact ⟨requireMember_path hm, ‹m.code = r.code›⟩
  · cases h

/-- A literal that fits a member is stored as values of the member are. -/
theorem literal_datum {v x : Value} (hcode : m.code = r.code) (h : m.literal v = .ok x) :
    Datum.ofValue x = r.datumOf v := by
  unfold Member.literal at h
  unfold MemberRef.datumOf
  rw [← hcode]
  generalize m.code = c at h ⊢
  split at h
  · cases h
  · split at h
    · cases h
    · cases c with
      | fractal => cases v <;> cases h <;> rfl
      | _ => cases h; rfl

theorem literals_cons_eq_ok {v : Value} {vs xs : List Value} (h : m.literals (v :: vs) = .ok xs) :
    ∃ y ys, m.literal v = .ok y ∧ m.literals vs = .ok ys ∧ xs = y :: ys := by
  rw [Member.literals] at h
  split at h
  · cases h
  · obtain ⟨ys, hys, rfl⟩ := map_eq_ok.mp h
    exact ⟨_, ys, ‹_›, hys, rfl⟩

theorem literals_data (hcode : m.code = r.code) :
    ∀ {vs xs : List Value}, m.literals vs = .ok xs → xs.map Datum.ofValue = vs.map r.datumOf
  | [], xs, h => by cases h; rfl
  | v :: vs, xs, h => by
    obtain ⟨y, ys, hv, hvs, rfl⟩ := literals_cons_eq_ok h
    rw [List.map_cons, List.map_cons, literal_datum hcode hv, literals_data hcode hvs]

end

/-! ### What checks give -/

namespace Predicate

section
variable {s : Schema} {r : MemberRef} {f : Filter}

theorem checkCompare_eq_ok {op : Comparison} {v : Value} (h : checkCompare s r op v = .ok f) :
    ∃ m, s.resolve r = .ok m ∧
      ((v.isNull = false ∧ ∃ x, m.literal v = .ok x ∧ f = .compare m op x) ∨
        (v.isNull = true ∧ (op = .eq ∧ f = .not (.present m) ∨ op = .ne ∧ f = .present m))) := by
  obtain ⟨m, hm, h⟩ := bind_eq_ok.mp h
  refine ⟨m, hm, ?_⟩
  cases hv : v.isNull
  · simp only [hv, Bool.false_eq_true, if_false] at h
    obtain ⟨_, -, h⟩ := bind_eq_ok.mp h
    obtain ⟨x, hx, h⟩ := bind_eq_ok.mp h
    cases h
    exact .inl ⟨rfl, x, hx, rfl⟩
  · simp only [hv, if_true] at h
    cases op with
    | eq =>
      cases h
      exact .inr ⟨rfl, .inl ⟨rfl, rfl⟩⟩
    | ne =>
      cases h
      exact .inr ⟨rfl, .inr ⟨rfl, rfl⟩⟩
    | _ => cases h

theorem checkMembers_eq_ok {l : MemberRef} {op : Comparison} (h : checkMembers s l op r = .ok f) :
    ∃ left right, s.resolve l = .ok left ∧ s.resolve r = .ok right ∧ right.enumerable = false ∧
      f = .compareMembers left op right := by
  obtain ⟨left, hl, h⟩ := bind_eq_ok.mp h
  obtain ⟨right, hr, h⟩ := bind_eq_ok.mp h
  obtain ⟨hone, h⟩ := guard_eq_ok.mp h
  obtain ⟨-, h⟩ := guard_eq_ok.mp h
  obtain ⟨_, -, h⟩ := bind_eq_ok.mp h
  cases h
  exact ⟨left, right, hl, hr, Bool.eq_false_iff.mpr hone, rfl⟩

theorem checkTextMatch_eq_ok {op : TextMatch} {t : String} (h : checkTextMatch s r op t = .ok f) :
    ∃ m, s.resolve r = .ok m ∧ f = .textMatch m op t := by
  obtain ⟨m, hm, h⟩ := bind_eq_ok.mp h
  obtain ⟨-, h⟩ := guard_eq_ok.mp h
  cases h
  exact ⟨m, hm, rfl⟩

theorem checkOneOf_eq_ok {vs : List Value} (h : checkOneOf s r vs = .ok f) : ∃ m, s.resolve r = .ok m ∧
    ((vs = [] ∧ f = .never) ∨ (vs ≠ [] ∧ ∃ xs, m.literals vs = .ok xs ∧ f = .oneOf m xs)) := by
  obtain ⟨m, hm, h⟩ := bind_eq_ok.mp h
  refine ⟨m, hm, ?_⟩
  cases vs with
  | nil =>
    cases h
    exact .inl ⟨rfl, rfl⟩
  | cons v vs =>
    obtain ⟨xs, hxs, h⟩ := bind_eq_ok.mp h
    cases h
    exact .inr ⟨List.cons_ne_nil v vs, xs, hxs, rfl⟩

theorem checkBetween_eq_ok {low high : Value} (h : checkBetween s r low high = .ok f) : ∃ m lo hi, s.resolve r = .ok m ∧
    m.literal low = .ok lo ∧ m.literal high = .ok hi ∧ f = .between m lo hi := by
  obtain ⟨m, hm, h⟩ := bind_eq_ok.mp h
  obtain ⟨_, -, h⟩ := bind_eq_ok.mp h
  obtain ⟨lo, hlo, h⟩ := bind_eq_ok.mp h
  obtain ⟨hi, hhi, h⟩ := bind_eq_ok.mp h
  cases h
  exact ⟨m, lo, hi, hm, hlo, hhi, rfl⟩

theorem checkAnyElement_eq_ok {op : Comparison} {v : Value} (h : checkAnyElement s r op v = .ok f) :
    v.isNull = false ∧ checkCompare s r op v = .ok f := by
  obtain ⟨m, -, h⟩ := bind_eq_ok.mp h
  obtain ⟨-, h⟩ := guard_eq_ok.mp h
  obtain ⟨hnull, h⟩ := guard_eq_ok.mp h
  exact ⟨Bool.eq_false_iff.mpr hnull, h⟩

theorem check_all_eq_ok {ps : List Predicate} (h : check s (.all ps) = .ok f) :
    ∃ fs, checkAll s ps = .ok fs ∧ f = .all fs := by
  rw [check] at h
  split at h
  · cases h
  · obtain ⟨fs, hfs, rfl⟩ := map_eq_ok.mp h
    exact ⟨fs, hfs, rfl⟩

theorem check_any_eq_ok {ps : List Predicate} (h : check s (.any ps) = .ok f) :
    ∃ fs, checkAll s ps = .ok fs ∧ f = .any fs := by
  rw [check] at h
  split at h
  · cases h
  · obtain ⟨fs, hfs, rfl⟩ := map_eq_ok.mp h
    exact ⟨fs, hfs, rfl⟩

theorem checkAll_cons_eq_ok {p : Predicate} {ps : List Predicate} {fs : List Filter} (h : checkAll s (p :: ps) = .ok fs) :
    ∃ g gs, p.check s = .ok g ∧ checkAll s ps = .ok gs ∧ fs = g :: gs := by
  rw [checkAll] at h
  split at h
  · cases h
  · obtain ⟨gs, hgs, rfl⟩ := map_eq_ok.mp h
    exact ⟨_, gs, ‹_›, hgs, rfl⟩

end

end Predicate

/-! ### Predicates -/

section
variable {s : Schema} {rows : List Row} {id : Datum} {f : Filter}

theorem checkCompare_holds {r : MemberRef} {op : Comparison} {v : Value} (h : Predicate.checkCompare s r op v = .ok f) :
    f.holds rows id = (Predicate.compare r op v).holds rows id := by
  obtain ⟨m, hm, ⟨hv, x, hx, rfl⟩ | ⟨hv, ⟨rfl, rfl⟩ | ⟨rfl, rfl⟩⟩⟩ := Predicate.checkCompare_eq_ok h
  · obtain ⟨hpath, hcode⟩ := resolve_ok hm
    simp only [Filter.holds, Predicate.holds, Predicate.holdsCompare, hv, Bool.false_eq_true, if_false, hpath, hcode,
      literal_datum hcode hx]
  · simp [Filter.holds, Predicate.holds, Predicate.holdsNull, hv, resolve_ok hm]
  · simp [Filter.holds, Predicate.holds, Predicate.holdsNull, hv, resolve_ok hm]

theorem checkMembers_holds {l r : MemberRef} {op : Comparison} (h : Predicate.checkMembers s l op r = .ok f) :
    f.holds rows id = (Predicate.compareMembers l op r).holds rows id := by
  obtain ⟨left, right, hl, hr, -, rfl⟩ := Predicate.checkMembers_eq_ok h
  simp only [Filter.holds, Predicate.holds, resolve_ok hl, resolve_ok hr]

theorem checkTextMatch_holds {r : MemberRef} {op : TextMatch} {t : String}
    (h : Predicate.checkTextMatch s r op t = .ok f) : f.holds rows id = (Predicate.textMatch r op t).holds rows id := by
  obtain ⟨m, hm, rfl⟩ := Predicate.checkTextMatch_eq_ok h
  simp only [Filter.holds, Predicate.holds, resolve_ok hm]

theorem checkOneOf_holds {r : MemberRef} {vs : List Value} (h : Predicate.checkOneOf s r vs = .ok f) :
    f.holds rows id = (Predicate.oneOf r vs).holds rows id := by
  obtain ⟨m, hm, ⟨rfl, rfl⟩ | ⟨-, xs, hxs, rfl⟩⟩ := Predicate.checkOneOf_eq_ok h
  · simp [Filter.holds, Predicate.holds]
  · obtain ⟨hpath, hcode⟩ := resolve_ok hm
    have hany : ∀ x : Datum,
        (xs.any fun v => x.stands .eq (.ofValue v)) = vs.any fun v => x.stands .eq (r.datumOf v) := by
      intro x
      have h := congrArg (List.any · fun y => x.stands .eq y) (literals_data hcode hxs)
      simpa only [List.any_map, Function.comp_def] using h
    simp only [Filter.holds, Predicate.holds, hpath, hcode, hany]

theorem checkBetween_holds {r : MemberRef} {lo hi : Value} (h : Predicate.checkBetween s r lo hi = .ok f) :
    f.holds rows id = (Predicate.between r lo hi).holds rows id := by
  obtain ⟨m, x, y, hm, hx, hy, rfl⟩ := Predicate.checkBetween_eq_ok h
  obtain ⟨hpath, hcode⟩ := resolve_ok hm
  simp only [Filter.holds, Predicate.holds, hpath, hcode, literal_datum hcode hx, literal_datum hcode hy]

theorem checkAnyElement_holds {r : MemberRef} {op : Comparison} {v : Value}
    (h : Predicate.checkAnyElement s r op v = .ok f) :
    f.holds rows id = (Predicate.anyElement r op v).holds rows id := by
  obtain ⟨hnull, h⟩ := Predicate.checkAnyElement_eq_ok h
  rw [checkCompare_holds h]
  simp only [Predicate.holds, hnull, Bool.false_eq_true, if_false]

end

mutual

/-- A filter holds exactly if the predicate does that it was checked from. -/
theorem check_holds {s : Schema} {rows : List Row} {id : Datum} :
    ∀ {p : Predicate} {f : Filter}, p.check s = .ok f → f.holds rows id = p.holds rows id
  | .compare .., _, h => checkCompare_holds h
  | .compareMembers .., _, h => checkMembers_holds h
  | .textMatch .., _, h => checkTextMatch_holds h
  | .oneOf .., _, h => checkOneOf_holds h
  | .between .., _, h => checkBetween_holds h
  | .anyElement .., _, h => checkAnyElement_holds h
  | .all ps, _, h => by
    obtain ⟨fs, hfs, rfl⟩ := Predicate.check_all_eq_ok h
    rw [Filter.holds, Predicate.holds, (checkAll_holds hfs).1]
  | .any ps, _, h => by
    obtain ⟨fs, hfs, rfl⟩ := Predicate.check_any_eq_ok h
    rw [Filter.holds, Predicate.holds, (checkAll_holds hfs).2]
  | .not p, _, h => by
    obtain ⟨g, hg, rfl⟩ := map_eq_ok.mp h
    rw [Filter.holds, Predicate.holds, check_holds hg]

theorem checkAll_holds {s : Schema} {rows : List Row} {id : Datum} :
    ∀ {ps : List Predicate} {fs : List Filter}, Predicate.checkAll s ps = .ok fs →
      Filter.holdsAll rows id fs = Predicate.holdsAll rows id ps ∧
        Filter.holdsAny rows id fs = Predicate.holdsAny rows id ps
  | [], _, h => by cases h; exact ⟨rfl, rfl⟩
  | p :: ps, _, h => by
    obtain ⟨g, gs, hp, hgs, rfl⟩ := Predicate.checkAll_cons_eq_ok h
    rw [Filter.holdsAll, Filter.holdsAny, Predicate.holdsAll, Predicate.holdsAny, check_holds hp, (checkAll_holds hgs).1,
      (checkAll_holds hgs).2]
    exact ⟨rfl, rfl⟩

end

end DocStore
