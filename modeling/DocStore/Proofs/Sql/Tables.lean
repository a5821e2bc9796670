import DocStore.Sql.Limits

/-! What statements look at. A statement reads the tables that it names and no others, so over contents that agree on
    these it finds the same rows, and is refused for the same reasons. -/

namespace DocStore.Sql

variable {P : String → Prop}

/-! ### What conditions are made of -/

mutual

/-- A condition of which the tests and selects that it is made of have a property. -/
def Condition.MadeOf (L : Condition → Prop) : Condition → Prop
  | .test t => L (.test t)
  | .rowExists table label tests => L (.rowExists table label tests)
  | .all cs | .any cs => Condition.AllMadeOf L cs
  | .not c => Condition.MadeOf L c

def Condition.AllMadeOf (L : Condition → Prop) : List Condition → Prop
  | [] => True
  | c :: cs => Condition.MadeOf L c ∧ Condition.AllMadeOf L cs

end

namespace Condition

variable {L L' : Condition → Prop}

theorem allMadeOf_iff : ∀ {cs : List Condition}, AllMadeOf L cs ↔ ∀ c ∈ cs, c.MadeOf L
  | [] => iff_of_true trivial nofun
  | _ :: _ => (and_congr_right fun _ => allMadeOf_iff).trans List.forall_mem_cons.symm

/-- One property implies another of tests and selects. -/
structure PartsImply (L L' : Condition → Prop) : Prop where
  test : ∀ t, L (.test t) → L' (.test t)
  rowExists : ∀ table label tests, L (.rowExists table label tests) → L' (.rowExists table label tests)

mutual

theorem MadeOf.mono (h : PartsImply L L') : ∀ {c : Condition}, c.MadeOf L → c.MadeOf L'
  | .test t, hc => h.test t hc
  | .rowExists table label tests, hc => h.rowExists table label tests hc
  | .all _, hc => AllMadeOf.mono h hc
  | .any _, hc => AllMadeOf.mono h hc
  | .not c, hc => MadeOf.mono h (c := c) hc

theorem AllMadeOf.mono (h : PartsImply L L') : ∀ {cs : List Condition}, AllMadeOf L cs → AllMadeOf L' cs
  | [], _ => trivial
  | _ :: _, hcs => ⟨MadeOf.mono h hcs.1, AllMadeOf.mono h hcs.2⟩

end

mutual

/-- What a condition is a conjunction of is made of nothing else. -/
theorem madeOf_conjuncts : ∀ {c : Condition}, c.MadeOf L → AllMadeOf L c.conjuncts
  | .test _, hc => ⟨hc, trivial⟩
  | .rowExists .., hc => ⟨hc, trivial⟩
  | .all _, hc => madeOf_conjunctsOfAll hc
  | .any [c], hc => madeOf_conjuncts (c := c) hc.1
  | .any [], hc => ⟨hc, trivial⟩
  | .any (_ :: _ :: _), hc => ⟨hc, trivial⟩
  | .not _, hc => ⟨hc, trivial⟩

theorem madeOf_conjunctsOfAll : ∀ {cs : List Condition}, AllMadeOf L cs → AllMadeOf L (conjunctsOfAll cs)
  | [], _ => trivial
  | c :: cs, hcs => by
    have hfirst := madeOf_conjuncts hcs.1
    have hrest := madeOf_conjunctsOfAll hcs.2
    rw [allMadeOf_iff] at hfirst hrest ⊢
    exact fun c' hc' => (List.mem_append.mp hc').elim (hfirst c') (hrest c')

end

/-! ### Conditions over two contents -/

/-- A condition that is as true over one content of the tables as over another, and comes to too long a pattern in both
    or in neither. -/
structure Alike (ts ts' : Tables) (ps : List Datum) (sight : Sight) (c : Condition) : Prop where
  truth : c.truth ts ps sight = c.truth ts' ps sight
  breaks : c.breaks ts ps sight = c.breaks ts' ps sight

section
variable {ts ts' : Tables} {ps : List Datum} {sight : Sight}

mutual

theorem MadeOf.alike : ∀ {c : Condition}, c.MadeOf (Alike ts ts' ps sight) → c.Alike ts ts' ps sight
  | .test _, hc => hc
  | .rowExists .., hc => hc
  | .all _, hc => by
    obtain ⟨htruths, hbreaks⟩ := AllMadeOf.alike hc
    exact ⟨by rw [Condition.truth, Condition.truth, htruths], by rw [breaks, breaks, hbreaks]⟩
  | .any _, hc => by
    obtain ⟨htruths, hbreaks⟩ := AllMadeOf.alike hc
    exact ⟨by rw [Condition.truth, Condition.truth, htruths], by rw [breaks, breaks, hbreaks]⟩
  | .not c, hc => by
    have hc := MadeOf.alike (c := c) hc
    exact ⟨by rw [Condition.truth, Condition.truth, hc.truth], by rw [breaks, breaks, hc.breaks]⟩

theorem AllMadeOf.alike : ∀ {cs : List Condition}, AllMadeOf (Alike ts ts' ps sight) cs →
    truths ts ps sight cs = truths ts' ps sight cs ∧
      ∀ b, breaksBefore ts ps b sight cs = breaksBefore ts' ps b sight cs
  | [], _ => ⟨rfl, fun _ => rfl⟩
  | _ :: _, hcs => by
    have hfirst := MadeOf.alike hcs.1
    obtain ⟨htruths, hbreaks⟩ := AllMadeOf.alike hcs.2
    refine ⟨by rw [truths, truths, hfirst.truth, htruths], fun b => ?_⟩
    rw [breaksBefore, breaksBefore, hfirst.breaks, hfirst.truth, hbreaks]

end

/-- Conditions that are alike on each of some rows, and where there is no row, break on these rows in both contents or in
    neither. -/
theorem breaksOn_alike {c : Condition} (hnone : c.MadeOf (Alike ts ts' ps [])) {rows : List Row}
    (hrows : ∀ r ∈ rows, c.MadeOf (Alike ts ts' ps [(.row, r)])) : breaksOn ts ps c rows = breaksOn ts' ps c rows := by
  have hconstant : (c.conjuncts.filter isConstant).all (fun c => c.truth ts ps [] == some true) =
      (c.conjuncts.filter isConstant).all fun c => c.truth ts' ps [] == some true := by
    have hparts := allMadeOf_iff.mp (madeOf_conjuncts hnone)
    rw [Bool.eq_iff_iff, List.all_eq_true, List.all_eq_true]
    exact forall₂_congr fun x hx => by rw [(hparts x (List.mem_filter.mp hx).1).alike.truth]
  have hothers (r : Row) (hr : r ∈ rows) :
      breaksBefore ts ps true [(.row, r)] (c.conjuncts.filter (Bool.not ∘ isConstant)) =
        breaksBefore ts' ps true [(.row, r)] (c.conjuncts.filter (Bool.not ∘ isConstant)) := by
    have hparts := allMadeOf_iff.mp (madeOf_conjuncts (hrows r hr))
    exact (AllMadeOf.alike (allMadeOf_iff.mpr fun x hx => hparts x (List.mem_filter.mp hx).1)).2 true
  have hany : rows.any (fun r => breaksBefore ts ps true [(.row, r)] (c.conjuncts.filter (Bool.not ∘ isConstant))) =
      rows.any fun r => breaksBefore ts' ps true [(.row, r)] (c.conjuncts.filter (Bool.not ∘ isConstant)) := by
    rw [Bool.eq_iff_iff, List.any_eq_true, List.any_eq_true]
    exact exists_congr fun r => and_congr_right fun hr => by rw [hothers r hr]
  simp only [breaksOn, List.partition_eq_filter_filter]
  rw [hconstant, hany]

/-- Of fewer rows no more than of all of them come to too long a pattern. -/
theorem breaksOn_subset {c : Condition} {rows rows' : List Row} (h : rows' ⊆ rows)
    (hbreaks : breaksOn ts ps c rows' = true) : breaksOn ts ps c rows = true := by
  rw [breaksOn] at hbreaks ⊢
  obtain ⟨hconstant, hany⟩ := Bool.and_eq_true_iff.mp hbreaks
  obtain ⟨r, hr, hbreaks⟩ := List.any_eq_true.mp hany
  exact Bool.and_eq_true_iff.mpr ⟨hconstant, List.any_eq_true.mpr ⟨r, h hr, hbreaks⟩⟩

end

end Condition

/-! ### Tables that are named -/

/-- Contents that are the same in some tables. -/
def Tables.Agree (P : String → Prop) (ts ts' : Tables) : Prop := ∀ name, P name → ts name = ts' name

/-- A test that selects from some tables only. -/
def Test.Over (P : String → Prop) : Test → Prop
  | compareScalar _ _ q => P q.table
  | compare _ | like _ _ _ | oneOf _ _ | between _ _ _ => True

/-- A test or select that selects from some tables only. -/
def Condition.PartOver (P : String → Prop) : Condition → Prop
  | .test t => t.Over P
  | .rowExists table _ tests => P table ∧ ∀ t ∈ tests, t.Over P
  | .all _ | .any _ | .not _ => True

/-- A condition that selects from some tables only. -/
abbrev Condition.Over (P : String → Prop) (c : Condition) : Prop := c.MadeOf (PartOver P)

/-- A statement that selects from some tables only. -/
structure Statement.Over (P : String → Prop) (s : Statement) : Prop where
  table : P s.table
  filter : ∀ c ∈ s.filter, c.Over P
  sortings : ∀ t ∈ s.sortings, P t.key.table

/-! ### Meaning -/

section
variable {ts ts' : Tables}

theorem Scalar.datum_congr (h : Tables.Agree P ts ts') (ps : List Datum) {q : Scalar} (hq : P q.table)
    (sight : Sight) : q.datum ts ps sight = q.datum ts' ps sight := by
  rw [Scalar.datum, Scalar.datum, h _ hq]

theorem Test.truth_congr (h : Tables.Agree P ts ts') (ps : List Datum) {t : Test} (ht : t.Over P)
    (sight : Sight) : t.truth ts ps sight = t.truth ts' ps sight := by
  cases t with
  | compareScalar l op q =>
    rw [Test.truth, Test.truth, Scalar.datum_congr h ps ht]
  | _ => rfl

theorem Test.truths_congr (h : Tables.Agree P ts ts') (ps : List Datum) {tests : List Test}
    (htests : ∀ t ∈ tests, t.Over P) (sight : Sight) :
    tests.map (Test.truth ts ps sight) = tests.map (Test.truth ts' ps sight) :=
  List.map_congr_left fun t ht => Test.truth_congr h ps (htests t ht) sight

variable (h : Tables.Agree P ts ts') (ps : List Datum)
include h

theorem comesToLong_congr (sight : Sight) : ∀ {tests : List Test}, (∀ t ∈ tests, t.Over P) →
    comesToLong ts ps sight tests = comesToLong ts' ps sight tests
  | [], _ => rfl
  | t :: tests, htests => by
    rw [comesToLong, comesToLong, Test.truth_congr h ps (htests t (List.mem_cons_self ..)),
      comesToLong_congr sight fun t ht => htests t (List.mem_cons_of_mem _ ht)]

/-- Conditions do not see what is in the tables that they do not select from. -/
theorem Condition.Over.alike {c : Condition} (hc : c.Over P) (sight : Sight) : c.MadeOf (Alike ts ts' ps sight) := by
  refine hc.mono ⟨fun t ht => ⟨Test.truth_congr h ps ht sight, rfl⟩, fun table label tests hover => ⟨?_, ?_⟩⟩
  · simp only [Condition.truth, h _ hover.1, Test.truths_congr h ps hover.2]
  · simp only [Condition.breaks, h _ hover.1, comesToLong_congr h ps _ hover.2]

theorem satisfies_congr {c : Option Condition} (hc : ∀ x ∈ c, x.Over P) (r : Row) :
    satisfies ts ps c r = satisfies ts' ps c r := by
  cases c with
  | none => rfl
  | some c => rw [satisfies, satisfies, ((hc c rfl).alike h ps _).alike.truth]

theorem sorted_congr {sortings : List SortTerm} (hsort : ∀ t ∈ sortings, P t.key.table) (rows : List Row) :
    sorted ts ps sortings rows = sorted ts' ps sortings rows := by
  have hkeys (r : Row) : sortKeys ts ps sortings r = sortKeys ts' ps sortings r :=
    congrArg (· ++ [r .id]) (List.map_congr_left fun t ht => Scalar.datum_congr h ps (hsort t ht) _)
  simp only [sorted, hkeys]

theorem Statement.rows_congr {s : Statement} (hs : s.Over P) : s.rows ts ps = s.rows ts' ps := by
  have hfilter : satisfies ts ps s.filter = satisfies ts' ps s.filter := funext (satisfies_congr h ps hs.filter)
  rw [Statement.rows, Statement.rows, h _ hs.table, hfilter, sorted_congr h ps hs.sortings]

/-! ### Bounds -/

theorem checkRows_congr {c : Option Condition} (hc : ∀ x ∈ c, x.Over P) (rows : List Row) :
    checkRows ts ps c rows = checkRows ts' ps c rows := by
  cases c with
  | none => rfl
  | some c =>
    have hover := hc c rfl
    rw [checkRows, checkRows, Condition.breaksOn_alike (hover.alike h ps []) fun _ _ => hover.alike h ps _]

theorem rowsUpTo_congr {c : Option Condition} (hc : ∀ x ∈ c, x.Over P) : ∀ (rows : List Row) (n : Nat),
    rowsUpTo ts ps c n rows = rowsUpTo ts' ps c n rows
  | [], _ => rfl
  | r :: rows, n => by rw [rowsUpTo, rowsUpTo, satisfies_congr h ps hc, rowsUpTo_congr hc rows]

theorem Statement.visited_congr {s : Statement} (hs : s.Over P) : s.visited ts ps = s.visited ts' ps := by
  unfold Statement.visited
  split
  · rw [h _ hs.table, sorted_congr h ps (List.forall_mem_nil _), rowsUpTo_congr h ps hs.filter]
  · exact h _ hs.table

end

end DocStore.Sql
