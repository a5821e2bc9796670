import DocStore.Proofs.Assoc
import DocStore.Proofs.Sql.Datum
import Mathlib.Data.List.Pairwise

/-! The sets of a store by their names. A set is filed under its stem with the cases made equal, so the tables
    that a schema names are those of the set that is filed under the schema's own stem. -/

namespace DocStore.Store

open Sql (Datum Row)

/-! ### Names -/

theorem toList_folded (s : String) : (folded s).toList = Text.foldCase s.toList := by
  rw [folded, String.toList_ofList]

theorem folded_inj {a b : String} : folded a = folded b ↔ Text.foldCase a.toList = Text.foldCase b.toList := by
  rw [← toList_folded, ← toList_folded, String.toList_inj]

theorem sameName_iff {a b : String} : Text.sameName a b = true ↔ folded a = folded b := by
  rw [Text.sameName, beq_iff_eq, folded_inj]

theorem folded_append (a b : String) : folded (a ++ b) = folded a ++ folded b := by
  rw [← String.toList_inj, String.toList_append, toList_folded, toList_folded, toList_folded, String.toList_append,
    Text.foldCase, List.map_append]
  rfl

/-- Names with the same ending are the same if they are without it. -/
theorem sameName_append (a b ending : String) :
    Text.sameName (a ++ ending) (b ++ ending) = decide (folded a = folded b) := by
  rw [Bool.eq_iff_iff, sameName_iff, decide_eq_true_iff, folded_append, folded_append, String.append_left_inj]

/-- A table of structures and a table of index rows never have the same name. -/
theorem not_sameName (a b : String) : Text.sameName (Schema.indexesTableOf a) (Schema.structureTableOf b) = false := by
  rw [Bool.eq_false_iff, ne_eq, sameName_iff, folded_inj, Schema.indexesTableOf, Schema.structureTableOf]
  intro h
  have hlast := congrArg List.getLast? h
  simp [Text.foldCase] at hlast

/-! ### Sets -/

/-- Every set is filed under its stem. -/
def Named (st : Store) : Prop := ∀ e ∈ st.sets, e.1 = folded e.2.stem

/-- What is looked for in the set of one stem is found in the set of a schema. -/
theorem findSome?_sets {α : Type} {st : Store} (hn : st.Named) (s : Schema) {f : TableSet → Option α} {g : TableSet → α}
    (hfind : ∀ t, f t = if folded t.stem = folded s.stem then some (g t) else none) :
    (st.sets.findSome? fun (_, t) => f t) = (st.set? s).map g := by
  unfold set?
  unfold Named at hn
  generalize st.sets = sets at hn ⊢
  induction sets with
  | nil => rfl
  | cons e sets ih =>
    obtain ⟨k, t⟩ := e
    have hk : k = folded t.stem := hn (k, t) (List.mem_cons_self ..)
    rw [List.findSome?_cons, Assoc.get?_cons, ih fun e he => hn e (List.mem_cons_of_mem _ he), hk]
    dsimp only
    rw [hfind]
    by_cases h : folded t.stem = folded s.stem <;> simp [h]

theorem rowsOf?_structureTable {st : Store} (hn : st.Named) (s : Schema) :
    st.rowsOf? s.structureTable = (st.set? s).map fun t => t.rows.map StructureRow.row := by
  refine findSome?_sets hn s (f := (·.rowsOf? s.structureTable)) fun t => ?_
  have hindexes : Text.sameName s.structureTable t.indexesTable = false := by
    rw [Bool.eq_false_iff, ne_eq, sameName_iff, eq_comm, ← sameName_iff, Schema.structureTable, TableSet.indexesTable,
      not_sameName]
    exact Bool.false_ne_true
  have hstructures : Text.sameName s.structureTable t.structureTable = decide (folded t.stem = folded s.stem) := by
    rw [decide_eq_decide.mpr eq_comm]
    exact sameName_append ..
  simp [TableSet.rowsOf?, hindexes, hstructures]

theorem rowsOf?_indexesTable {st : Store} (hn : st.Named) (s : Schema) :
    st.rowsOf? s.indexesTable = (st.set? s).map fun t => t.indexRows.map IndexRow.row := by
  refine findSome?_sets hn s (f := (·.rowsOf? s.indexesTable)) fun t => ?_
  have hstructures : Text.sameName s.indexesTable t.structureTable = false := not_sameName ..
  have hindexes : Text.sameName s.indexesTable t.indexesTable = decide (folded t.stem = folded s.stem) := by
    rw [decide_eq_decide.mpr eq_comm]
    exact sameName_append ..
  simp [TableSet.rowsOf?, hindexes, hstructures]

section
variable {st : Store} {s : Schema} {t : TableSet}

theorem tables_structureTable (hn : st.Named) (hset : st.set? s = some t) :
    st.tables s.structureTable = t.rows.map StructureRow.row := by
  rw [tables, rowsOf?_structureTable hn, hset]
  rfl

theorem tables_indexesTable (hn : st.Named) (hset : st.set? s = some t) :
    st.tables s.indexesTable = t.indexRows.map IndexRow.row := by
  rw [tables, rowsOf?_indexesTable hn, hset]
  rfl

theorem hasTable_structureTable (hn : st.Named) (hset : st.set? s = some t) : st.hasTable s.structureTable = true := by
  rw [hasTable, rowsOf?_structureTable hn, hset]
  rfl

theorem hasTable_indexesTable (hn : st.Named) (hset : st.set? s = some t) : st.hasTable s.indexesTable = true := by
  rw [hasTable, rowsOf?_indexesTable hn, hset]
  rfl

end

/-! ### Ids -/

/-- No two rows have equal ids. -/
def TableSet.Keyed (t : TableSet) : Prop := t.rows.Pairwise fun a b => compare a.id b.id ≠ .eq

theorem compare_ne_symm {a b : StructureRow} (h : compare a.id b.id ≠ .eq) : compare b.id a.id ≠ .eq := by
  intro heq
  rw [Datum.compare_swap, heq] at h
  exact h rfl

theorem TableSet.Keyed.eq_of_compare {t : TableSet} (hkeyed : t.Keyed) {a b : StructureRow} (ha : a ∈ t.rows)
    (hb : b ∈ t.rows) (h : compare a.id b.id = .eq) : a = b := by
  have hsymm : Std.Symm fun a b : StructureRow => compare a.id b.id ≠ .eq := ⟨fun _ _ => compare_ne_symm⟩
  by_contra hne
  exact hkeyed.forall ha hb hne h

end DocStore.Store
