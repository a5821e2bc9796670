import DocStore.Proofs.Guid
import DocStore.Proofs.Text.Decimal
import DocStore.Text.Utf8
import Mathlib.Algebra.Group.Nat.Defs
import Mathlib.Tactic.SplitIfs

/-! Texts in their order. Texts compare as their characters and as their bytes do, and numbers that are written with one
    number of digits come in the order of their texts. -/

open Std

namespace DocStore.Text

/-! ### Lists in the order of their items -/

section Orders

variable {α β : Type} [Ord α] [Ord β]

/-- Of lists with starts of one length, the starts compare first. -/
theorem compare_append {x y : List α} (h : x.length = y.length) (u v : List α) :
    compare (x ++ u) (y ++ v) = (compare x y).then (compare u v) := by
  induction x generalizing y with
  | nil =>
    cases y with
    | nil => rfl
    | cons b y => cases h
  | cons a x ih =>
    cases y with
    | nil => cases h
    | cons b y =>
      rw [List.cons_append, List.cons_append, List.compare_cons_cons, List.compare_cons_cons,
        ih (Nat.succ.inj h), Ordering.then_assoc]

/-- Pairs that come in the same order either way round compare alike. -/
theorem compare_eq_compare [OrientedOrd α] [OrientedOrd β] {a b : α} {c d : β}
    (hlt : compare a b = .lt ↔ compare c d = .lt) (hgt : compare b a = .lt ↔ compare d c = .lt) :
    compare a b = compare c d := by
  cases h : compare c d with
  | lt => exact hlt.mpr h
  | gt => exact OrientedCmp.gt_iff_lt.mpr (hgt.mpr (OrientedCmp.gt_iff_lt.mp h))
  | eq =>
    cases h' : compare a b with
    | lt => rw [hlt.mp h'] at h; cases h
    | gt => rw [OrientedCmp.gt_iff_lt.mpr (hgt.mp (OrientedCmp.gt_iff_lt.mp h'))] at h; cases h
    | eq => rfl

/-- Numbers of two kinds that are in the same order compare alike. -/
theorem compare_nat_eq_int {m n : Nat} {x y : Int} (hlt : m < n ↔ x < y) (hgt : n < m ↔ y < x) :
    compare m n = compare x y := by
  refine compare_eq_compare ?_ ?_ <;> rwa [Nat.compare_eq_lt, Int.compare_eq_lt]

theorem compare_nat_eq {m n p q : Nat} (hlt : m < n ↔ p < q) (hgt : n < m ↔ q < p) : compare m n = compare p q := by
  refine compare_eq_compare ?_ ?_ <;> rwa [Nat.compare_eq_lt, Nat.compare_eq_lt]

end Orders

theorem compare_char_eq_lt {a b : Char} : compare a b = .lt ↔ a < b := compareOfLessAndEq_eq_lt

theorem compare_chars_eq_lt {x y : List Char} : compare x y = .lt ↔ x < y := by
  induction x generalizing y with
  | nil =>
    cases y with
    | nil => simp
    | cons b y => simp
  | cons a x ih =>
    cases y with
    | nil => simp
    | cons b y =>
      rw [List.compare_cons_cons, Ordering.then_eq_lt, compare_char_eq_lt, LawfulEqOrd.compare_eq_iff_eq, ih,
        List.cons_lt_cons_iff]

/-- Texts compare as the lists of their characters. -/
theorem compare_toList (s t : String) : compare s.toList t.toList = compare s t := by
  have hsame (s t : String) : compare s.toList t.toList = .lt ↔ compare s t = .lt :=
    compare_chars_eq_lt.trans (compareOfLessAndEq_eq_lt (x := s) (y := t)).symm
  exact compare_eq_compare (hsame s t) (hsame t s)

/-! ### Bytes -/

theorem toList_loop (b : ByteArray) (i : Nat) (r : List UInt8) :
    ByteArray.toList.loop b i r = r.reverse ++ b.data.toList.drop i := by
  fun_induction ByteArray.toList.loop b i r with
  | case1 i r h ih =>
    have hi : i < b.data.toList.length := h
    have hget : b.get! i = b.data.toList[i] := by simp [ByteArray.get!, getElem!_pos b.data i h]
    rw [ih, List.reverse_cons, List.append_assoc, List.singleton_append, hget, List.getElem_cons_drop]
  | case2 i r h =>
    have hi : b.data.toList.length ≤ i := Nat.not_lt.mp h
    rw [List.drop_of_length_le hi, List.append_nil]

theorem utf8_eq (s : String) : utf8 s = s.toList.flatMap String.utf8EncodeChar := by
  have hbytes : s.toByteArray = s.toList.utf8Encode := by simp
  rw [utf8, String.toUTF8_eq_toByteArray, hbytes, ByteArray.toList, toList_loop]
  simp [List.utf8Encode]

theorem compare_byte_eq_lt {a b : UInt8} : compare a b = .lt ↔ a.toNat < b.toNat := compareOfLessAndEq_eq_lt

/-- Of different characters the bytes of the smaller one come first, whatever follows. -/
theorem compare_utf8EncodeChar_of_lt {c d : Char} (h : c < d) (u v : List UInt8) :
    compare (String.utf8EncodeChar c ++ u) (String.utf8EncodeChar d ++ v) = .lt := by
  have hlt : c.val.toNat < d.val.toNat := h
  have hbound : d.val.toNat < 1114112 := by
    have hvalid : d.val.toNat < 55296 ∨ 57343 < d.val.toNat ∧ d.val.toNat < 1114112 := d.valid
    omega
  have hdiv (k : Nat) : k / 4096 = k / 64 / 64 ∧ k / 262144 = k / 64 / 64 / 64 := by omega
  simp only [String.utf8EncodeChar, (hdiv _).1, (hdiv _).2]
  generalize c.val.toNat = m at hlt
  generalize d.val.toNat = n at hlt hbound
  -- one case for each pair of lengths; where they differ, the first bytes decide
  split_ifs <;>
    simp only [List.cons_append, List.compare_cons_cons, Ordering.then_eq_lt, compare_byte_eq_lt,
      LawfulEqOrd.compare_eq_iff_eq, ← UInt8.toNat_inj, UInt8.toNat_ofNat'] <;>
    omega

theorem compare_utf8EncodeChar (c d : Char) (u v : List UInt8) :
    compare (String.utf8EncodeChar c ++ u) (String.utf8EncodeChar d ++ v) = (compare c d).then (compare u v) := by
  cases h : compare c d with
  | lt => exact compare_utf8EncodeChar_of_lt (compare_char_eq_lt.mp h) u v
  | gt =>
    rw [OrientedCmp.gt_iff_lt, compare_char_eq_lt] at h
    exact OrientedCmp.gt_iff_lt.mpr (compare_utf8EncodeChar_of_lt h v u)
  | eq =>
    obtain rfl := LawfulEqOrd.eq_of_compare h
    rw [compare_append rfl, compare_self]

theorem flatMap_utf8EncodeChar_ne_nil (c : Char) (x : List Char) :
    (c :: x).flatMap String.utf8EncodeChar ≠ [] := by
  rw [List.flatMap_cons]
  exact List.append_ne_nil_of_left_ne_nil String.utf8EncodeChar_ne_nil _

/-- Texts compare as their bytes. -/
theorem compare_utf8 (s t : String) : compare (utf8 s) (utf8 t) = compare s t := by
  rw [utf8_eq, utf8_eq, ← compare_toList]
  generalize s.toList = x
  generalize t.toList = y
  induction x generalizing y with
  | nil =>
    cases y with
    | nil => rfl
    | cons d y =>
      obtain ⟨b, bs, hbytes⟩ := List.exists_cons_of_ne_nil (flatMap_utf8EncodeChar_ne_nil d y)
      rw [hbytes]
      rfl
  | cons c x ih =>
    cases y with
    | nil =>
      obtain ⟨b, bs, hbytes⟩ := List.exists_cons_of_ne_nil (flatMap_utf8EncodeChar_ne_nil c x)
      rw [hbytes]
      rfl
    | cons d y => rw [List.flatMap_cons, List.flatMap_cons, compare_utf8EncodeChar, ih, List.compare_cons_cons]

theorem utf8_inj {s t : String} (h : utf8 s = utf8 t) : s = t := by
  have heq := compare_utf8 s t
  rw [h, compare_self] at heq
  exact LawfulEqOrd.eq_of_compare heq.symm

/-! ### Digits of a fixed width -/

/-- The last `width` digits of a number in a base. -/
def lastDigits (digit : Nat → Char) (base : Nat) : Nat → Nat → List Char
  | 0, _ => []
  | width + 1, n => lastDigits digit base width (n / base) ++ [digit (n % base)]

theorem compare_div_mod (base m n : Nat) :
    (compare (m / base) (n / base)).then (compare (m % base) (n % base)) = compare m n := by
  rcases Nat.lt_trichotomy (m / base) (n / base) with h | h | h
  · rw [Nat.compare_eq_lt.mpr h, Nat.compare_eq_lt.mpr (Nat.lt_of_div_lt_div h)]
    rfl
  · have hm := Nat.div_add_mod m base
    have hn := Nat.div_add_mod n base
    have hmod : compare (m % base) (n % base) = compare m n := by
      rw [h] at hm
      exact compare_nat_eq (by omega) (by omega)
    rw [h, compare_self, hmod]
    rfl
  · rw [Nat.compare_eq_gt.mpr h, Nat.compare_eq_gt.mpr (Nat.lt_of_div_lt_div h)]
    rfl

section Digits

variable {digit : Nat → Char} {base : Nat}

theorem length_lastDigits (width n : Nat) : (lastDigits digit base width n).length = width := by
  induction width generalizing n with
  | zero => rfl
  | succ width ih => rw [lastDigits, List.length_append, ih]; rfl

/-- Digits that come in the order of what they stand for make numbers come in theirs. -/
theorem compare_lastDigits (hbase : 0 < base)
    (hdigit : ∀ i < base, ∀ j < base, compare (digit i) (digit j) = compare i j) (width m n : Nat) :
    compare (lastDigits digit base width m) (lastDigits digit base width n) =
      compare (m % base ^ width) (n % base ^ width) := by
  induction width generalizing m n with
  | zero => simp [lastDigits, Nat.mod_one]
  | succ width ih =>
    have hlength : (lastDigits digit base width (m / base)).length =
        (lastDigits digit base width (n / base)).length := by
      rw [length_lastDigits, length_lastDigits]
    have hlast : compare [digit (m % base)] [digit (n % base)] = compare (m % base) (n % base) := by
      rw [List.compare_cons_cons, hdigit _ (Nat.mod_lt _ hbase) _ (Nat.mod_lt _ hbase), compare_self, Ordering.then_eq]
    have hfront (k : Nat) : k % base ^ (width + 1) / base = k / base % base ^ width := by
      rw [Nat.pow_succ', Nat.mod_mul_right_div_self]
    have hback (k : Nat) : k % base ^ (width + 1) % base = k % base :=
      Nat.mod_mod_of_dvd k (Nat.pow_succ' ▸ Nat.dvd_mul_right ..)
    rw [lastDigits, lastDigits, compare_append hlength, ih, hlast, ← compare_div_mod base (m % base ^ (width + 1)),
      hfront, hfront, hback, hback]

end Digits

theorem hexDigits_eq_lastDigits (width n : Nat) : hexDigits width n = lastDigits hexDigit 16 width n := by
  induction width generalizing n with
  | zero => rfl
  | succ width ih => rw [hexDigits, lastDigits, ih]

theorem compare_hexDigits (width m n : Nat) :
    compare (hexDigits width m) (hexDigits width n) = compare (m % 16 ^ width) (n % 16 ^ width) := by
  rw [hexDigits_eq_lastDigits, hexDigits_eq_lastDigits]
  exact compare_lastDigits (by decide) (by decide) width m n

theorem lastDigits_zero (width : Nat) : lastDigits digit 10 width 0 = List.replicate width '0' := by
  induction width with
  | zero => rfl
  | succ width ih =>
    rw [lastDigits, Nat.zero_div, ih, List.replicate_succ']
    rfl

theorem padded_eq_lastDigits {width n : Nat} (hwidth : 0 < width) (hn : n < 10 ^ width) :
    padded width n = lastDigits digit 10 width n := by
  induction width generalizing n with
  | zero => cases hwidth
  | succ width ih =>
    rw [padded, decimal, lastDigits]
    by_cases hsmall : n < 10
    · rw [if_pos hsmall, Nat.div_eq_of_lt hsmall, lastDigits_zero, Nat.mod_eq_of_lt hsmall]
      rfl
    · have hfront : 0 < width := by
        rcases Nat.eq_zero_or_pos width with rfl | h
        · omega
        · exact h
      rw [if_neg hsmall, ← ih hfront (by rw [Nat.pow_succ] at hn; omega), padded, List.length_append,
        List.length_singleton, Nat.add_sub_add_right, List.append_assoc]

theorem compare_padded {width m n : Nat} (hwidth : 0 < width) (hm : m < 10 ^ width) (hn : n < 10 ^ width) :
    compare (padded width m) (padded width n) = compare m n := by
  rw [padded_eq_lastDigits hwidth hm, padded_eq_lastDigits hwidth hn, compare_lastDigits (by decide) (by decide),
    Nat.mod_eq_of_lt hm, Nat.mod_eq_of_lt hn]

theorem length_padded {width n : Nat} (hwidth : 0 < width) (hn : n < 10 ^ width) : (padded width n).length = width := by
  rw [padded_eq_lastDigits hwidth hn, length_lastDigits]

/-- Numbers of one width behind the same character compare before all that follows. -/
theorem compare_field (c : Char) {width m n : Nat} (hwidth : 0 < width) (hm : m < 10 ^ width) (hn : n < 10 ^ width)
    (u v : List Char) :
    compare (c :: padded width m ++ u) (c :: padded width n ++ v) = (compare m n).then (compare u v) := by
  rw [List.cons_append, List.cons_append, List.compare_cons_cons, compare_self, Ordering.eq_then,
    compare_append (by rw [length_padded hwidth hm, length_padded hwidth hn]), compare_padded hwidth hm hn]

theorem isDigit_padded {width n : Nat} : ∀ c ∈ padded width n, isDigit c = true := by
  rintro c hc
  rcases List.mem_append.mp hc with hc | hc
  · rw [(List.mem_replicate.mp hc).2]
    rfl
  · exact isDigit_decimal n c hc

/-- A number is written as one digit with digits behind it. -/
theorem padded_eq_cons (width n : Nat) :
    ∃ c ds, padded width n = c :: ds ∧ isDigit c = true ∧ ∀ d ∈ ds, isDigit d = true := by
  obtain ⟨c, ds, hdigits⟩ : ∃ c ds, padded width n = c :: ds :=
    List.exists_cons_of_ne_nil (List.append_ne_nil_of_right_ne_nil _ (decimal_ne_nil n))
  exact ⟨c, ds, hdigits, List.forall_mem_cons.mp (hdigits ▸ isDigit_padded)⟩

theorem lt_pow_length_decimal (n : Nat) : n < 10 ^ (decimal n).length := by
  fun_induction decimal n with
  | case1 n h => simpa using h
  | case2 n h ih =>
    rw [List.length_append, List.length_singleton, Nat.pow_succ]
    omega

/-- Numbers whose texts have the same length come in the order of these. -/
theorem compare_padded_of_length {width m n : Nat} (h : (padded width m).length = (padded width n).length) :
    compare (padded width m) (padded width n) = compare m n := by
  have hlength (k : Nat) : (padded width k).length = max width (decimal k).length := by
    rw [padded, List.length_append, List.length_replicate]
    omega
  have hwider (k : Nat) : padded width k = padded (max width (decimal k).length) k := by
    have hfill : width - (decimal k).length = max width (decimal k).length - (decimal k).length := by omega
    rw [padded, padded, hfill]
  have hfits (k : Nat) : k < 10 ^ max width (decimal k).length :=
    Nat.lt_of_lt_of_le (lt_pow_length_decimal k) (Nat.pow_le_pow_right (by decide) (Nat.le_max_right ..))
  have hpos : 0 < max width (decimal n).length :=
    Nat.lt_of_lt_of_le (List.length_pos_iff.mpr (decimal_ne_nil n)) (Nat.le_max_right ..)
  have hm := hfits m
  rw [hlength, hlength] at h
  rw [h] at hm
  rw [hwider m, hwider n, h, compare_padded hpos hm (hfits n)]

end DocStore.Text
