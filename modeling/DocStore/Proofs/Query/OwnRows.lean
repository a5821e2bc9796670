import DocStore.Proofs.Query.Condition
import DocStore.Proofs.Sql.Tables

/-! What is looked at for one structure. A predicate and the condition that it is compiled to look at the index rows of
    the structure in question and at no others, so it makes no difference to them what becomes of the rest. -/

namespace DocStore

open Sql

/-- Two contents of a table of index rows in which a structure of the one and a structure of the other have the same
    rows. -/
def SameOwnRows (rows rows' : List Row) (id id' : Datum) : Prop := ∀ path, rowsOf rows id path = rowsOf rows' id' path

theorem SameOwnRows.values {rows rows' : List Row} {id id' : Datum} (h : SameOwnRows rows rows' id id') (path : String)
    (code : TypeCode) : valuesOf rows id path code = valuesOf rows' id' path code := by
  rw [valuesOf, valuesOf, h path]

/-- A structure has its index rows under each of the data that are equal to its id. -/
theorem sameOwnRows_of_same {id id' : Datum} (h : Store.same id id' = true) (rows : List Row) :
    SameOwnRows rows rows id id' :=
  rowsOf_congr h rows

/-- Index rows of others may go. -/
theorem sameOwnRows_filter {rows : List Row} {id : Datum} {keep : Row → Bool}
    (h : ∀ r ∈ rows, Store.same (r .id) id = true → keep r = true) : SameOwnRows (rows.filter keep) rows id id := by
  intro path
  rw [rowsOf, rowsOf, List.filter_filter]
  refine List.filter_congr fun r hr => ?_
  cases hsame : Store.same (r .id) id with
  | false => rfl
  | true => rw [h r hr hsame, Bool.and_true]

/-! ### Predicates -/

namespace Predicate

variable {rows rows' : List Row} {id id' : Datum}

theorem holdsCompare_congr (h : SameOwnRows rows rows' id id') (m : MemberRef) (op : Comparison) (v : Value) :
    holdsCompare rows id m op v = holdsCompare rows' id' m op v := by
  rw [holdsCompare, holdsCompare, h.values]

mutual

/-- A predicate holds for structures with the same index rows alike. -/
theorem holds_congr (h : SameOwnRows rows rows' id id') : ∀ p : Predicate, p.holds rows id = p.holds rows' id'
  | .compare m op v => by rw [holds, holds, h m.path, holdsCompare_congr h]
  | .compareMembers l op r => by rw [holds, holds, h.values, h.values]
  | .textMatch m op t => by rw [holds, holds, h.values]
  | .oneOf m vs => by rw [holds, holds, h.values]
  | .between m lo hi => by rw [holds, holds, h.values]
  | .anyElement m op v => by rw [holds, holds, holdsCompare_congr h]
  | .all ps => by rw [holds, holds, holdsAll_congr h ps]
  | .any ps => by rw [holds, holds, holdsAny_congr h ps]
  | .not p => by rw [holds, holds, holds_congr h p]

theorem holdsAll_congr (h : SameOwnRows rows rows' id id') : ∀ ps : List Predicate,
    holdsAll rows id ps = holdsAll rows' id' ps
  | [] => rfl
  | p :: ps => by rw [holdsAll, holdsAll, holds_congr h p, holdsAll_congr h ps]

theorem holdsAny_congr (h : SameOwnRows rows rows' id id') : ∀ ps : List Predicate,
    holdsAny rows id ps = holdsAny rows' id' ps
  | [] => rfl
  | p :: ps => by rw [holdsAny, holdsAny, holds_congr h p, holdsAny_congr h ps]

end

end Predicate

/-! ### Conditions -/

section
variable {ts ts' : Tables} {ps : List Datum} {sight : Sight}

/-- Comparisons are tried one after the other before the tests behind them are. -/
theorem comesToLong_compares (sight : Sight) (tests : List Test) : ∀ es : List Equation,
    comesToLong ts ps sight (es.map Test.compare ++ tests) =
      (Truth.all (es.map (Equation.truth ps sight)) == some true && comesToLong ts ps sight tests)
  | [] => (Bool.true_and _).symm
  | e :: es => by
    have hand (b : Option Bool) : (Truth.and b (Truth.all (es.map (Equation.truth ps sight))) == some true) =
        ((b == some true) && Truth.all (es.map (Equation.truth ps sight)) == some true) := by
      rw [Bool.eq_iff_iff, Bool.and_eq_true, beq_iff_eq, beq_iff_eq, beq_iff_eq, Truth.and_eq_some_true]
    rw [List.map_cons, List.cons_append, comesToLong, comesToLong_compares sight tests es, List.map_cons,
      Truth.all_cons, hand, Bool.and_assoc]
    exact Bool.false_or _

theorem comesToLong_alike (htests : ∀ t ∈ tests, Test.truth ts ps sight t = Test.truth ts' ps sight t) :
    comesToLong ts ps sight tests = comesToLong ts' ps sight tests := by
  induction tests with
  | nil => rfl
  | cons t tests ih =>
    obtain ⟨ht, htests⟩ := List.forall_mem_cons.mp htests
    rw [comesToLong, comesToLong, ht, ih htests]

/-- A select over the index rows of a member breaks exactly if its tests do on one of the rows of the structure. -/
theorem memberExists_breaks (s : Schema) (m : Member) (n : Nat) (tests : List Test) {id : Datum}
    (hid : ColumnRef.datum ⟨.row, .id⟩ sight = id) :
    (memberExists s m (.index n) tests).breaks ts ps sight =
      (rowsOf (ts s.indexesTable) id m.path).any fun r => comesToLong ts ps ((.index n, r) :: sight) tests := by
  have hne : Label.index n ≠ .row := by simp
  rw [memberExists, Condition.breaks, rowsOf, List.any_filter]
  congr 1
  funext r
  rw [comesToLong_compares, ofMember_truth hne hid]

variable {s : Schema} {id : Datum} (hid : ColumnRef.datum ⟨.row, .id⟩ sight = id)
  (h : SameOwnRows (ts s.indexesTable) (ts' s.indexesTable) id id)
include hid h

/-- A select over the index rows of a member sees only those of the structure. -/
theorem memberExists_alike (m : Member) (n : Nat) {tests : List Test}
    (htests : ∀ r, Store.same (r .id) id = true → ∀ t ∈ tests,
      t.truth ts ps ((.index n, r) :: sight) = t.truth ts' ps ((.index n, r) :: sight)) :
    (memberExists s m (.index n) tests).Alike ts ts' ps sight := by
  have hown {r : Row} {rows : List Row} (hr : r ∈ rowsOf rows id m.path) : Store.same (r .id) id = true :=
    (Bool.and_eq_true_iff.mp (List.mem_filter.mp hr).2).1
  refine ⟨?_, ?_⟩
  · rw [memberExists_truth s m n tests hid, memberExists_truth s m n tests hid, h m.path, Option.some.injEq,
      Bool.eq_iff_iff, List.any_eq_true, List.any_eq_true]
    refine exists_congr fun r => and_congr_right fun hr => ?_
    rw [List.map_congr_left (htests r (hown hr))]
  · rw [memberExists_breaks s m n tests hid, memberExists_breaks s m n tests hid, h m.path, Bool.eq_iff_iff,
      List.any_eq_true, List.any_eq_true]
    refine exists_congr fun r => and_congr_right fun hr => ?_
    rw [comesToLong_alike (htests r (hown hr))]

/-- The same of one test that looks at no table. -/
theorem memberExists_alike_of_row (m : Member) (n : Nat) {t : Test}
    (ht : ∀ sight, t.truth ts ps sight = t.truth ts' ps sight) :
    (memberExists s m (.index n) [t]).Alike ts ts' ps sight :=
  memberExists_alike hid h m n fun _ _ _ ht' => List.mem_singleton.mp ht' ▸ ht _

end

section
variable {ts ts' : Tables} {ps : List Datum} {sight : Sight} {s : Schema} {id : Datum}

mutual

/-- The condition of a filter sees only the index rows of the structure. -/
theorem Filter.condition_alike (hid : ColumnRef.datum ⟨.row, .id⟩ sight = id)
    (h : SameOwnRows (ts s.indexesTable) (ts' s.indexesTable) id id) (d : Dialect) : ∀ (f : Filter) (label slot : Nat),
    (f.condition d s label slot).MadeOf (Condition.Alike ts ts' ps sight)
  | .present m, label, _ => by
    rw [condition]
    exact memberExists_alike hid h m label fun _ _ _ ht => absurd ht List.not_mem_nil
  | .compare m _ _, label, _ => by
    rw [condition]
    exact memberExists_alike_of_row hid h m label fun _ => rfl
  | .compareMembers l op r, label, _ => by
    rw [condition]
    refine memberExists_alike hid h l label fun row hrow t ht => ?_
    rw [List.mem_singleton.mp ht, Test.truth, Test.truth, firstValue_datum s r _ _ hrow, firstValue_datum s r _ _ hrow,
      h.values]
  | .textMatch m _ _, label, _ => by
    rw [condition]
    exact memberExists_alike_of_row hid h m label fun _ => rfl
  | .never, _, _ => ⟨rfl, rfl⟩
  | .oneOf m _, label, _ => by
    rw [condition]
    exact memberExists_alike_of_row hid h m label fun _ => rfl
  | .between m _ _, label, _ => by
    rw [condition]
    exact memberExists_alike_of_row hid h m label fun _ => rfl
  | .all fs, label, slot => by
    rw [condition]
    exact conditions_alike hid h d fs label slot
  | .any fs, label, slot => by
    rw [condition]
    exact conditions_alike hid h d fs label slot
  | .not f, label, slot => by
    rw [condition]
    exact condition_alike hid h d f label slot

theorem Filter.conditions_alike (hid : ColumnRef.datum ⟨.row, .id⟩ sight = id)
    (h : SameOwnRows (ts s.indexesTable) (ts' s.indexesTable) id id) (d : Dialect) : ∀ (fs : List Filter) (label slot : Nat),
    Condition.AllMadeOf (Condition.Alike ts ts' ps sight) (conditions d s label slot fs)
  | [], _, _ => trivial
  | f :: fs, label, slot => by
    rw [conditions]
    exact ⟨condition_alike hid h d f label slot, conditions_alike hid h d fs _ _⟩

end

end

end DocStore
