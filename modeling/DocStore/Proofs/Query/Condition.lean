import DocStore.Proofs.Query.Readable
import DocStore.Proofs.Query.TextMatch
import DocStore.Proofs.Sql.Truth
import DocStore.Store.Reading

/-! The meaning of compiled filters. The condition of a filter is true or false of each structure row, never
    neither, and it is true exactly if the predicate it came from holds for the structure. -/

namespace DocStore

open Sql

/-! ### Rows of one member -/

section
variable {ts : Tables} {ps : List Datum}

/-- What a select over index rows says first is true of the rows of one structure and one member. -/
theorem ofMember_truth {inner outer : Label} {path : String} {r : Row} {sight : Sight} {id : Datum}
    (hne : inner ≠ outer) (hid : ColumnRef.datum ⟨outer, .id⟩ sight = id) :
    (Truth.all ((ofMember inner outer path).map (Equation.truth ps ((inner, r) :: sight))) == some true) =
      (Store.same (r .id) id && r .path == .text path) := by
  rw [Bool.eq_iff_iff, beq_iff_eq, Truth.all_eq_some_true, Bool.and_eq_true, beq_iff_eq, Datum.same_eq_stands,
    ← Datum.stands_eq_text, ← Datum.test_eq_some_true, ← Datum.test_eq_some_true]
  simp [ofMember, Equation.truth, Operand.datum, datum_behind hne, hid]

theorem rowsWhere_ofMember {rows : List Row} {inner outer : Label} {path : String} {sight : Sight} {id : Datum}
    (hne : inner ≠ outer) (hid : ColumnRef.datum ⟨outer, .id⟩ sight = id) (tests : Sight → List (Option Bool)) :
    (rowsWhere rows inner sight fun s => (ofMember inner outer path).map (Equation.truth ps s) ++ tests s) =
      (rowsOf rows id path).filter fun r => Truth.all (tests ((inner, r) :: sight)) == some true := by
  rw [rowsWhere, rowsOf, List.filter_filter]
  congr 1
  funext r
  rw [Truth.all_append, ofMember_truth hne hid, Bool.and_comm]

theorem rowsWhere_ofMember_alone {rows : List Row} {inner outer : Label} {path : String} {sight : Sight} {id : Datum}
    (hne : inner ≠ outer) (hid : ColumnRef.datum ⟨outer, .id⟩ sight = id) :
    (rowsWhere rows inner sight fun s => (ofMember inner outer path).map (Equation.truth ps s)) =
      rowsOf rows id path := by
  have h : (rowsWhere rows inner sight fun s => (ofMember inner outer path).map (Equation.truth ps s) ++ []) = _ :=
    rowsWhere_ofMember hne hid fun _ => []
  simpa [Truth.all] using h

theorem rowsOf_congr {id id' : Datum} (h : Store.same id id' = true) (rows : List Row) (path : String) :
    rowsOf rows id path = rowsOf rows id' path := by
  unfold rowsOf
  congr 1
  funext r
  rw [Store.same_congr_right h]

/-- A select over the index rows of a member finds one exactly if some row passes the tests. -/
theorem memberExists_truth (s : Schema) (m : Member) (n : Nat) (tests : List Test) {sight : Sight} {id : Datum}
    (hid : ColumnRef.datum ⟨.row, .id⟩ sight = id) :
    (memberExists s m (.index n) tests).truth ts ps sight =
      some ((rowsOf (ts s.indexesTable) id m.path).any fun r =>
        Truth.all (tests.map (Test.truth ts ps ((.index n, r) :: sight))) == some true) := by
  have hne : Label.index n ≠ .row := by simp
  have hmap : ∀ sight, ((ofMember (.index n) .row m.path).map Test.compare ++ tests).map (Test.truth ts ps sight) =
      (ofMember (.index n) .row m.path).map (Equation.truth ps sight) ++ tests.map (Test.truth ts ps sight) := by
    intro sight
    rw [List.map_append, List.map_map]
    rfl
  rw [memberExists, Condition.truth, Option.some.injEq]
  simp only [hmap]
  rw [rowsWhere_ofMember hne hid]
  rw [Bool.eq_iff_iff]
  simp

theorem firstValue_datum (s : Schema) (m : Member) (k n : Nat) {r : Row} {id : Datum}
    (hid : Store.same (r .id) id = true) (sight : Sight) :
    (firstValue s m (.right k) (.index n)).datum ts ps ((.index n, r) :: sight) =
      (valuesOf (ts s.indexesTable) id m.path m.code).headD .null := by
  have hne : Label.right k ≠ .index n := by simp
  simp only [firstValue, Scalar.datum, rowsWhere_ofMember_alone hne (datum_front _ _ _ _), Bool.false_eq_true, if_false]
  rw [rowsOf_congr hid]
  rfl

/-! ### Tests of one value -/

theorem valueOf_datum (m : Member) (n : Nat) (r row : Row) :
    (valueOf (.index n) m).datum ps [(.index n, r), (.row, row)] = r (.value m.code) :=
  datum_front _ _ _ _

/-- The slots from one on hold the values that are bound from there on. -/
theorem slot_datum {vs : List Value} {slot : Nat} (h : vs.map Datum.ofValue <+: ps.drop slot) {i : Nat} {v : Value}
    (hi : vs[i]? = some v) (sight : Sight) : (Operand.slot (slot + i)).datum ps sight = .ofValue v := by
  have hsome : (vs.map Datum.ofValue)[i]? = some (Datum.ofValue v) := by rw [List.getElem?_map, hi]; rfl
  have hdrop := List.prefix_iff_getElem?.mp h i (List.getElem?_eq_some_iff.mp hsome).1
  rw [List.getElem?_drop, (List.getElem?_eq_some_iff.mp hsome).2] at hdrop
  rw [Operand.datum, List.getD_eq_getElem?_getD, hdrop]
  rfl

theorem slots_data {vs : List Value} {slot : Nat} (h : vs.map Datum.ofValue <+: ps.drop slot) (sight : Sight) :
    ((List.range vs.length).map fun i => Operand.slot (slot + i)).map (Operand.datum ps sight) =
      vs.map Datum.ofValue := by
  refine List.ext_getElem (by simp) fun i hi _ => ?_
  have hi : i < vs.length := by simpa using hi
  simpa using slot_datum h (List.getElem?_eq_getElem hi) sight

theorem like_beq_true (op : TextMatch) (t : String) (x : Datum) :
    (Sql.like Dialect.likeEscape x (.ofValue (.string (Dialect.sqlite.pattern op t))) == some true) =
      op.holdsOf t x := by
  cases x with
  | text u => simpa [Sql.like, Datum.ofValue, TextMatch.holdsOf] using TextMatch.isLike_pattern op t u
  | null => rfl
  | integer n => rfl
  | real y => rfl

theorem oneOf_beq_true (x : Datum) (vs : List Value) :
    (Truth.any ((vs.map Datum.ofValue).map fun y => x.test .eq y) == some true) =
      vs.any fun v => x.stands .eq (.ofValue v) := by
  rw [Bool.eq_iff_iff, beq_iff_eq, Truth.any_eq_some_true]
  simp [Datum.test_eq_some_true]

theorem between_beq_true (x lo hi : Datum) :
    (Truth.and (x.test .ge lo) (x.test .le hi) == some true) = (x.stands .ge lo && x.stands .le hi) := by
  rw [Bool.eq_iff_iff, beq_iff_eq, Truth.and_eq_some_true, Bool.and_eq_true, Datum.test_eq_some_true,
    Datum.test_eq_some_true]

/-- A select over the index rows of a member with one test finds a row exactly if some value of the member passes. -/
theorem memberExists_value (s : Schema) (m : Member) (n : Nat) (t : Test) (row : Row) {q : Datum → Bool}
    (hq : ∀ r, Store.same (r .id) (row .id) = true →
      (t.truth ts ps [(.index n, r), (.row, row)] == some true) = q (r (.value m.code))) :
    (memberExists s m (.index n) [t]).truth ts ps [(.row, row)] =
      some ((valuesOf (ts s.indexesTable) (row .id) m.path m.code).any q) := by
  rw [memberExists_truth s m n [t] (datum_front .row .id row []), valuesOf, List.any_map]
  rw [Option.some.injEq, Bool.eq_iff_iff, List.any_eq_true, List.any_eq_true]
  refine exists_congr fun r => and_congr_right fun hr => ?_
  rw [rowsOf, List.mem_filter, Bool.and_eq_true] at hr
  rw [List.map_singleton, Truth.all_singleton, hq r hr.2.1]
  rfl

/-! ### Conditions -/

mutual

/-- The condition of a filter is true or false of a structure row as the filter holds or not for the structure. -/
theorem condition_truth (s : Schema) (row : Row) : ∀ (f : Filter) (label slot : Nat),
    (f.bound .sqlite).map Datum.ofValue <+: ps.drop slot →
      (f.condition .sqlite s label slot).truth ts ps [(.row, row)] = some (f.holds (ts s.indexesTable) (row .id))
  | .present m, label, slot, _ => by
    rw [Filter.condition, memberExists_truth s m label [] (datum_front .row .id row []), Filter.holds]
    cases rowsOf (ts s.indexesTable) (row .id) m.path <;> simp [Truth.all]
  | .compare m op v, label, slot, h => by
    rw [Filter.condition, Filter.holds]
    refine memberExists_value s m label _ row fun r _ => ?_
    rw [Test.truth, Equation.truth, valueOf_datum, ← Nat.add_zero slot, slot_datum h (v := v) rfl, Datum.test_beq_true]
  | .compareMembers l op r, label, slot, _ => by
    rw [Filter.condition, Filter.holds]
    refine memberExists_value s l label _ row fun x hx => ?_
    rw [Test.truth, valueOf_datum, firstValue_datum s r _ _ hx _, Datum.test_beq_true]
    -- without a right value the select gives null, which stands in no relation
    cases valuesOf (ts s.indexesTable) (row .id) r.path r.code with
    | nil => simp [Datum.stands, Datum.isNull]
    | cons y ys => rfl
  | .textMatch m op t, label, slot, h => by
    rw [Filter.condition, Filter.holds]
    refine memberExists_value s m label _ row fun r _ => ?_
    rw [Test.truth, valueOf_datum, ← Nat.add_zero slot, slot_datum h rfl, like_beq_true]
  | .never, _, _, _ => rfl
  | .oneOf m vs, label, slot, h => by
    rw [Filter.condition, Filter.holds]
    refine memberExists_value s m label _ row fun r _ => ?_
    have hslots : ((List.range vs.length).map fun i => Operand.slot (slot + i)).map _ = vs.map Datum.ofValue :=
      slots_data h [(.index label, r), (.row, row)]
    rw [← oneOf_beq_true, ← hslots, Test.truth, valueOf_datum]
    simp only [List.map_map]
    rfl
  | .between m lo hi, label, slot, h => by
    rw [Filter.condition, Filter.holds]
    refine memberExists_value s m label _ row fun r _ => ?_
    rw [Test.truth, valueOf_datum, slot_datum h (i := 1) (v := hi) rfl, ← Nat.add_zero slot,
      slot_datum h (v := lo) rfl, between_beq_true]
  | .all fs, label, slot, h => by
    rw [Filter.condition, Condition.truth, Filter.holds, (conditions_truth s row fs label slot h).1]
  | .any fs, label, slot, h => by
    rw [Filter.condition, Condition.truth, Filter.holds, (conditions_truth s row fs label slot h).2]
  | .not f, label, slot, h => by
    rw [Filter.condition, Condition.truth, Filter.holds, condition_truth s row f label slot h, Truth.not_some]

theorem conditions_truth (s : Schema) (row : Row) : ∀ (fs : List Filter) (label slot : Nat),
    (Filter.boundOfAll .sqlite fs).map Datum.ofValue <+: ps.drop slot →
      Truth.all (Condition.truths ts ps [(.row, row)] (Filter.conditions .sqlite s label slot fs)) =
          some (Filter.holdsAll (ts s.indexesTable) (row .id) fs) ∧
        Truth.any (Condition.truths ts ps [(.row, row)] (Filter.conditions .sqlite s label slot fs)) =
          some (Filter.holdsAny (ts s.indexesTable) (row .id) fs)
  | [], _, _, _ => ⟨rfl, rfl⟩
  | f :: fs, label, slot, h => by
    rw [Filter.boundOfAll, List.map_append] at h
    -- the later filters are bound behind the values of the first one
    have hrest : (Filter.boundOfAll .sqlite fs).map Datum.ofValue <+: ps.drop (slot + (f.bound .sqlite).length) := by
      obtain ⟨after, hafter⟩ := h
      refine ⟨after, ?_⟩
      rw [← List.drop_drop, ← hafter, List.append_assoc, ← List.length_map (f := Datum.ofValue), List.drop_left]
    have hfirst := condition_truth s row f label slot ((List.prefix_append _ _).trans h)
    obtain ⟨hall, hany⟩ := conditions_truth s row fs (label + f.labelCount) _ hrest
    rw [Filter.conditions, Condition.truths, Truth.all_cons, Truth.any_cons, hfirst, hall, hany, Filter.holdsAll,
      Filter.holdsAny]
    exact ⟨Truth.and_some _ _, Truth.or_some _ _⟩

end

end

/-! ### Compiled filters -/

theorem condition_compileFilter {s : Schema} {p : Predicate} {c : CompiledFilter}
    (h : s.compileFilter .sqlite (some p) = .ok c) (ts : Tables) (row : Row) :
    ∃ x, c.condition = some x ∧
      x.truth ts (Store.boundData c.bound) [(.row, row)] = some (p.holds (ts s.indexesTable) (row .id)) := by
  obtain ⟨f, hf, rfl⟩ := map_eq_ok.mp h
  refine ⟨_, rfl, ?_⟩
  rw [← check_holds hf]
  exact condition_truth s row f 0 0 (List.prefix_refl _)

/-- The condition of a compiled filter, given the data bound for it, is true or false of every structure row, and true
    exactly if the predicate holds for the structure of the row. The same goes for the condition that its text is read
    as. -/
theorem compileFilter_truth {s : Schema} {p : Predicate} {c : CompiledFilter}
    (h : s.compileFilter .sqlite (some p) = .ok c) (ts : Tables) (row : Row) :
    ∃ x, c.condition = some x ∧
      x.truth ts (Store.boundData c.bound) [(.row, row)] = some (p.holds (ts s.indexesTable) (row .id)) ∧
      ∃ read, Condition.ofText? .sqlite c.text = some read ∧
        read.truth ts (Store.boundData c.bound) [(.row, row)] = some (p.holds (ts s.indexesTable) (row .id)) := by
  obtain ⟨x, hx, htruth⟩ := condition_compileFilter h ts row
  obtain ⟨y, read, hy, hread, hsame⟩ := readBack_compileFilter h
  obtain rfl : x = y := Option.some.inj (hx.symm.trans hy)
  exact ⟨x, hx, htruth, read, hread, (hsame ..).trans htruth⟩

/-- Notes with a priority and tags. -/
def notes : Schema :=
  { key := ⟨"Note"⟩, ns := "", name := "Note", idType := .identity, fingerprint := ""
    members := [⟨"Priority", "Integer", .integer, false, false⟩, ⟨"Tags", "String", .string, false, true⟩] }

/-- The notes that have the tag and no priority below a number. -/
def Predicate.pressing (tag : String) (least : Int) : Predicate :=
  .all [.anyElement (.new "Tags" .string) .eq (.string tag),
    .not (.any [.compare (.new "Priority" .integer) .lt (.integer least)])]

/-- The row of a note that was given a priority and tags. -/
def noteRow (id : Int) (payload : String) : Row
  | .id => .integer id
  | .payload => .text payload
  | _ => .null

/-- An index row of a note. -/
def noteIndexRow (id : Int) (path : String) (v : Value) : Row
  | .id => .integer id
  | .path => .text path
  | .value c => if v.code? = some c then .ofValue v else .null
  | .payload => .null

/-- Note 1 has the priority 2 and the tags `red` and `blue`; note 2 has the priority 5 and the tag `blue`. -/
def noteTables : Tables := fun name =>
  if name = notes.indexesTable then
    [noteIndexRow 1 "Priority" (.integer 2), noteIndexRow 1 "Tags" (.string "red"),
      noteIndexRow 1 "Tags" (.string "blue"), noteIndexRow 2 "Priority" (.integer 5),
      noteIndexRow 2 "Tags" (.string "blue")]
  else if name = notes.structureTable then [noteRow 1 "first", noteRow 2 "second"]
  else []

theorem compileFilter_truth_notes : ∃ c, notes.compileFilter .sqlite (some (.pressing "blue" 3)) = .ok c ∧
    ∃ x read, c.condition = some x ∧ Condition.ofText? .sqlite c.text = some read ∧
      x.truth noteTables (Store.boundData c.bound) [(.row, noteRow 1 "first")] = some false ∧
      x.truth noteTables (Store.boundData c.bound) [(.row, noteRow 2 "second")] = some true ∧
      read.truth noteTables (Store.boundData c.bound) [(.row, noteRow 1 "first")] = some false := by
  obtain ⟨c, hc⟩ : ∃ c, notes.compileFilter .sqlite (some (.pressing "blue" 3)) = .ok c := ⟨_, rfl⟩
  obtain ⟨x, hx, hfirst, read, hread, hfirstRead⟩ := compileFilter_truth hc noteTables (noteRow 1 "first")
  obtain ⟨y, hy, hsecond, -⟩ := compileFilter_truth hc noteTables (noteRow 2 "second")
  obtain rfl : x = y := Option.some.inj (hx.symm.trans hy)
  have hholds : (Predicate.pressing "blue" 3).holds (noteTables notes.indexesTable) (.integer 1) = false := by decide
  refine ⟨c, hc, x, read, hx, hread, hfirst.trans (congrArg some hholds), hsecond.trans (congrArg some ?_),
    hfirstRead.trans (congrArg some hholds)⟩
  decide

end DocStore
