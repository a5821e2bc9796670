import DocStore.Store.Basic

/-! The order of data: nulls, then numbers by their values, then texts by their characters. It is total, and two
    data are equal in it that hold the same number or are the same. A comparison in a condition is true where it
    holds in this order and neither side is null. -/

namespace DocStore.Sql.Datum

open Std

/-! ### The order as an order of keys -/

/-- The characters of a text. -/
def chars : Datum → String
  | text s => s
  | null | integer _ | real _ => ""

/-- Data compare by their kinds, then as numbers, then as texts. -/
def keyOrder : Datum → Datum → Ordering :=
  compareLex (compareOn rank) (compareLex (compareOn units) (compareOn chars))

theorem twoTo_pos (k : Nat) : 0 < twoTo k := Nat.pow_pos (by decide)

theorem compare_scaledInteger (a b : Int) :
    compare (Binary64.scaledInteger a) (Binary64.scaledInteger b) = compare a b := by
  have hpos : (0 : Int) < twoTo 1074 := Int.ofNat_lt.mpr (twoTo_pos 1074)
  unfold Binary64.scaledInteger
  generalize (twoTo 1074 : Int) = c at hpos
  rcases Int.lt_trichotomy a b with h | rfl | h
  · rw [Int.compare_eq_lt.mpr h, Int.compare_eq_lt.mpr (Int.mul_lt_mul_of_pos_right h hpos)]
  · simp
  · rw [Int.compare_eq_gt.mpr h, Int.compare_eq_gt.mpr (Int.mul_lt_mul_of_pos_right h hpos)]

theorem keyOrder_of_chars {a b : Datum} (h : a.chars = b.chars) :
    keyOrder a b = (compare a.rank b.rank).then (compare a.units b.units) := by
  show (compare a.rank b.rank).then ((compare a.units b.units).then (compare a.chars b.chars)) = _
  rw [h, compare_self, Ordering.then_eq]

theorem compare_text (s t : String) : compare (text s) (text t) = compare s t := rfl

theorem compare_eq_keyOrder (a b : Datum) : compare a b = keyOrder a b := by
  cases a <;> cases b
  case integer.integer m n =>
    have h : (integer m).chars = (integer n).chars := rfl
    rw [keyOrder_of_chars h]
    exact (compare_scaledInteger m n).symm
  case null.text | integer.text | real.text | text.null | text.integer | text.real | text.text => rfl
  all_goals
    symm
    exact keyOrder_of_chars (by rfl)

instance : TransCmp keyOrder :=
  inferInstanceAs (TransCmp (compareLex (compareOn rank) (compareLex (compareOn units) (compareOn chars))))

instance : TransOrd Datum where
  eq_swap {a b} := by
    rw [compare_eq_keyOrder, compare_eq_keyOrder]
    exact OrientedCmp.eq_swap
  isLE_trans {a b c} := by
    rw [compare_eq_keyOrder, compare_eq_keyOrder, compare_eq_keyOrder]
    exact TransCmp.isLE_trans

theorem compare_swap (a b : Datum) : compare a b = (compare b a).swap := OrientedCmp.eq_swap

/-! ### Comparisons -/

/-- Whether a datum stands in a relation to another one. A null stands in none. -/
def stands (op : Comparison) (a b : Datum) : Bool := !a.isNull && !b.isNull && op.holds (compare a b)

theorem test_eq_some_true {op : Comparison} {a b : Datum} : a.test op b = some true ↔ a.stands op b = true := by
  unfold test stands
  cases a.isNull <;> cases b.isNull <;> simp

theorem test_beq_true (op : Comparison) (a b : Datum) : (a.test op b == some true) = a.stands op b := by
  rw [Bool.eq_iff_iff, beq_iff_eq, test_eq_some_true]

theorem same_eq_stands (a b : Datum) : Store.same a b = a.stands .eq b := test_beq_true .eq a b

theorem stands_eq {a b : Datum} : a.stands .eq b = true ↔ a ≠ null ∧ b ≠ null ∧ compare a b = .eq := by
  cases a <;> cases b <;> simp [stands, isNull, Comparison.holds]

theorem stands_eq_text {a : Datum} {s : String} : a.stands .eq (text s) = true ↔ a = text s := by
  rw [stands_eq]
  constructor
  · rintro ⟨-, -, h⟩
    rw [compare_eq_keyOrder] at h
    cases a with
    | text t => exact congrArg text (LawfulEqOrd.eq_of_compare h)
    | null => simp [keyOrder, compareLex, compareOn, rank] at h
    | integer n => simp [keyOrder, compareLex, compareOn, rank] at h
    | real x => simp [keyOrder, compareLex, compareOn, rank] at h
  · rintro rfl
    exact ⟨by simp, by simp, compare_self⟩

end DocStore.Sql.Datum

namespace DocStore.Store

open Sql (Datum)

theorem same_comm (a b : Datum) : same a b = same b a := by
  rw [Bool.eq_iff_iff, Datum.same_eq_stands, Datum.same_eq_stands, Datum.stands_eq, Datum.stands_eq,
    Datum.compare_swap b a, Ordering.swap_eq_eq]
  exact and_left_comm

theorem same_congr_right {b c : Datum} (h : same b c = true) (a : Datum) : same a b = same a c := by
  rw [Datum.same_eq_stands, Datum.stands_eq] at h
  rw [Bool.eq_iff_iff, Datum.same_eq_stands, Datum.same_eq_stands, Datum.stands_eq, Datum.stands_eq,
    Std.TransCmp.congr_right h.2.2]
  simp [h.1, h.2.1]

/-- Data that are the same lie in the same intervals. -/
theorem within_congr {a b : Datum} (h : same a b = true) (low high : Datum) :
    within low high a = within low high b := by
  rw [Datum.same_eq_stands, Datum.stands_eq] at h
  have hnull : a.isNull = b.isNull := by
    cases a <;> cases b <;> simp_all [Datum.isNull]
  have htest (op : Comparison) (d : Datum) : a.test op d = b.test op d := by
    rw [Datum.test, Datum.test, hnull, Std.TransCmp.congr_left h.2.2]
  rw [within, within, htest, htest]

end DocStore.Store
