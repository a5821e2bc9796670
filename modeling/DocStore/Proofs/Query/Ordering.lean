import DocStore.Proofs.Query.Holds
import DocStore.Proofs.Store.Sets

/-! The order of answers. Each sorting compares the least values of its member, a structure without a value
    being the least; where all sortings leave two structures equal, their ids decide. The order is total on
    structures with different ids, so there is one way only to put them in it. -/

namespace DocStore

open Std
open Sql (Datum Row orderIn)

/-! ### Least values -/

namespace Sql.Datum

theorem least_cons (d : Datum) (ds : List Datum) : least (d :: ds) =
    if d.isNull then least ds else if (least ds).isNull || compare d (least ds) != .gt then d else least ds := rfl

theorem isNull_iff {d : Datum} : d.isNull = true ↔ d = null := by cases d <;> simp [isNull]

/-- The least of some data is one of them, or null if there is none but nulls. -/
theorem least_mem : ∀ ds : List Datum, least ds ∈ ds ∨ least ds = null
  | [] => Or.inr rfl
  | d :: ds => by
    rw [least_cons]
    rcases least_mem ds with h | h
    · split
      · exact Or.inl (List.mem_cons_of_mem _ h)
      · split
        · exact Or.inl (List.mem_cons_self ..)
        · exact Or.inl (List.mem_cons_of_mem _ h)
    · rw [h]
      split
      · exact Or.inr rfl
      · exact Or.inl (List.mem_cons_self ..)

/-- The least of some data is below all of them that are not null. -/
theorem least_le : ∀ {ds : List Datum} {x : Datum}, x ∈ ds → x ≠ null → least ds ≠ null ∧ (compare (least ds) x).isLE
  | d :: ds, x, hx, hnull => by
    have hself : ∀ y : Datum, (compare y y).isLE := fun y => by rw [compare_self]; rfl
    rw [least_cons]
    cases hd : d.isNull
    · have hne : d ≠ null := fun h => by simp [isNull_iff.mpr h] at hd
      cases hm : (least ds).isNull || compare d (least ds) != .gt
      · rw [Bool.or_eq_false_iff] at hm
        have hle : (compare (least ds) d).isLE := by
          rw [compare_swap (least ds), bne_eq_false_iff_eq.mp hm.2]
          rfl
        have hleast : least ds ≠ null := fun h => by simp [isNull_iff.mpr h] at hm
        simp only [Bool.false_eq_true, if_false]
        rcases List.mem_cons.mp hx with rfl | hmem
        · exact ⟨hleast, hle⟩
        · exact least_le hmem hnull
      · simp only [Bool.false_eq_true, if_false, if_true]
        refine ⟨hne, ?_⟩
        rcases List.mem_cons.mp hx with rfl | hmem
        · exact hself x
        · obtain ⟨hleast, hle⟩ := least_le hmem hnull
          rw [Bool.or_eq_true] at hm
          have hlt : (compare d (least ds)).isLE := by
            rcases hm with h | h
            · exact absurd (isNull_iff.mp h) hleast
            · exact Ordering.isLE_iff_ne_gt.mpr (bne_iff_ne.mp h)
          exact TransCmp.isLE_trans hlt hle
    · rw [if_pos rfl]
      rcases List.mem_cons.mp hx with rfl | hmem
      · exact absurd (isNull_iff.mp hd) hnull
      · exact least_le hmem hnull

theorem compare_null {x : Datum} (h : x ≠ null) : compare null x = .lt ∧ compare x null = .gt := by
  cases x with
  | null => exact absurd rfl h
  | integer n => exact ⟨rfl, rfl⟩
  | real y => exact ⟨rfl, rfl⟩
  | text s => exact ⟨rfl, rfl⟩

end Sql.Datum

/-! ### Sortings -/

/-- The least value that the structure of an id has for a member; null if it has none. -/
def leastOf (rows : List Row) (m : MemberRef) (id : Datum) : Datum := Datum.least (valuesOf rows id m.path m.code)

/-- The order of two ids by a sorting. -/
def Sorting.order (rows : List Row) (t : Sorting) (a b : Datum) : Ordering :=
  orderIn t.direction (leastOf rows t.member a) (leastOf rows t.member b)

/-- The order of two ids by sortings in turn, and by the ids in the end. -/
def rowOrder (rows : List Row) : List Sorting → Datum → Datum → Ordering
  | [] => compare
  | t :: ts => compareLex (t.order rows) (rowOrder rows ts)

instance (rows : List Row) (t : Sorting) : TransCmp (t.order rows) := by
  obtain ⟨m, d⟩ := t
  cases d with
  | asc => exact inferInstanceAs (TransCmp (compareOn (leastOf rows m)))
  | desc =>
    show TransCmp fun a b => compareOn (leastOf rows m) b a
    infer_instance

instance rowOrder_trans (rows : List Row) : ∀ ts : List Sorting, TransCmp (rowOrder rows ts)
  | [] => inferInstanceAs (TransCmp (compare : Datum → Datum → Ordering))
  | t :: ts =>
    have := rowOrder_trans rows ts
    inferInstanceAs (TransCmp (compareLex (t.order rows) (rowOrder rows ts)))

theorem rowOrder_swap (rows : List Row) (ts : List Sorting) (a b : Datum) :
    rowOrder rows ts a b = (rowOrder rows ts b a).swap := OrientedCmp.eq_swap

/-- A structure without a value comes before those with one in an ascending order, and after them in a
    descending one. -/
theorem Sorting.order_missing {rows : List Row} {m : MemberRef} {a b : Datum} (ha : leastOf rows m a = .null)
    (hb : leastOf rows m b ≠ .null) :
    Sorting.order rows ⟨m, .asc⟩ a b = .lt ∧ Sorting.order rows ⟨m, .desc⟩ a b = .gt := by
  unfold Sorting.order orderIn
  rw [ha]
  exact Datum.compare_null hb

/-- Ids that no sorting and no id tells apart are equal. -/
theorem compare_of_rowOrder {rows : List Row} : ∀ {ts : List Sorting} {a b : Datum},
    rowOrder rows ts a b = .eq → compare a b = .eq
  | [], _, _, h => h
  | _ :: _, _, _, h => compare_of_rowOrder (Ordering.then_eq_eq.mp h).2

/-! ### Structures in order -/

namespace Query

variable (q : Query) (indexRows : List Row)

/-- Whether a query asks for the structure of an id. -/
def admits (id : Datum) : Bool := q.predicate.all fun p => p.holds indexRows id

/-- The structures that a query asks for, in its order. -/
def ordered (rows : List Store.StructureRow) : List Store.StructureRow :=
  (rows.filter fun r => q.admits indexRows r.id).mergeSort fun a b => rowOrder indexRows q.sortings a.id b.id != .gt

/-- The page that a query asks for. -/
def cut {α : Type} (xs : List α) : List α :=
  match q.paging with
  | none => xs
  | some p => (xs.drop p.offset).take p.count

end Query

section
variable {q : Query} {indexRows : List Row} {t : Store.TableSet}

theorem ordered_perm (q : Query) (indexRows : List Row) (rows : List Store.StructureRow) :
    (q.ordered indexRows rows).Perm (rows.filter fun r => q.admits indexRows r.id) :=
  List.mergeSort_perm _ _

/-- Rows with different ids stand in a strict order. -/
theorem ordered_pairwise (hkeyed : t.Keyed) :
    (q.ordered indexRows t.rows).Pairwise fun a b => rowOrder indexRows q.sortings a.id b.id = .lt := by
  have hle : (q.ordered indexRows t.rows).Pairwise fun a b =>
      (rowOrder indexRows q.sortings a.id b.id != .gt) = true := by
    refine List.pairwise_mergeSort (fun a b c hab hbc => ?_) (fun a b => ?_) _
    · rw [bne_iff_ne, ne_eq, ← Ordering.isLE_iff_ne_gt] at hab hbc ⊢
      exact TransCmp.isLE_trans hab hbc
    · rw [rowOrder_swap indexRows q.sortings b.id]
      cases rowOrder indexRows q.sortings a.id b.id <;> rfl
  -- the ids are the last to decide, and no two of them are equal
  have hne : (q.ordered indexRows t.rows).Pairwise fun a b => compare a.id b.id ≠ .eq := by
    exact (ordered_perm q indexRows t.rows).symm.pairwise (hkeyed.filter _) Store.compare_ne_symm
  refine (hle.and hne).imp fun {a b} h => ?_
  cases horder : rowOrder indexRows q.sortings a.id b.id with
  | lt => rfl
  | eq => exact absurd (compare_of_rowOrder horder) h.2
  | gt => simp [horder] at h

theorem ordered_unique (hkeyed : t.Keyed) {rows : List Store.StructureRow}
    (hperm : rows.Perm (t.rows.filter fun r => q.admits indexRows r.id))
    (hlt : rows.Pairwise fun a b => rowOrder indexRows q.sortings a.id b.id = .lt) :
    rows = q.ordered indexRows t.rows := by
  refine (hperm.trans (ordered_perm q indexRows t.rows).symm).eq_of_pairwise (fun a b _ _ hab hba => ?_) hlt
    (ordered_pairwise hkeyed)
  rw [rowOrder_swap, hba] at hab
  cases hab

end

end DocStore
