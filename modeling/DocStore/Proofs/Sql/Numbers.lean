import DocStore.Proofs.Sql.Datum

/-! Whole numbers in a column for integers. A double that is equal to a positive number of 64 bits is held as that number,
    so that no such number is equal to a datum that stays a double there. -/

namespace DocStore

open Sql.Datum (twoTo_pos)

namespace Binary64

theorem twoTo_add (a b : Nat) : twoTo (a + b) = twoTo a * twoTo b := Nat.pow_add 2 a b

theorem twoTo_le {a b : Nat} (h : a ≤ b) : twoTo a ≤ twoTo b := Nat.pow_le_pow_right (by decide) h

section
variable {x : Binary64} {m : Nat}

/-- A positive value is that of the magnitude. -/
theorem magnitude_of_scaled (hm : 0 < m) (h : x.scaled = (m : Int)) : x.magnitude = m := by
  unfold scaled at h
  split at h
  · omega
  · exact Int.ofNat.inj h

/-- What is below 2^64 is finite. -/
theorem isFinite_of_magnitude (hm : m < twoTo 64) (h : x.magnitude = m * twoTo 1074) : x.isFinite = true := by
  rw [isFinite, bne_iff_ne]
  intro hexponent
  rw [magnitude, hexponent, if_neg (by decide)] at h
  have hsplit : twoTo (2047 - 1) = twoTo 972 * twoTo 1074 := twoTo_add 972 1074
  rw [hsplit, ← Nat.mul_assoc] at h
  have hvalue : (twoTo 52 + x.fraction) * twoTo 972 = m := Nat.mul_right_cancel (twoTo_pos 1074) h
  have hlarge : twoTo 64 ≤ twoTo 972 := twoTo_le (by decide)
  have hpos : 0 < twoTo 52 + x.fraction := Nat.add_pos_left (twoTo_pos 52) _
  have hle : twoTo 972 ≤ (twoTo 52 + x.fraction) * twoTo 972 := Nat.le_mul_of_pos_left _ hpos
  omega

/-- No double is the greatest number of 64 bits, whose 63 digits are more than a double has. -/
theorem magnitude_ne_max (x : Binary64) : x.magnitude ≠ 9223372036854775807 * twoTo 1074 := by
  intro h
  have hfraction : x.fraction < twoTo 52 := Nat.mod_lt _ (twoTo_pos 52)
  have hdigits : twoTo 52 = 4503599627370496 := rfl
  unfold magnitude at h
  split at h
  · have hunit := twoTo_pos 1074
    generalize twoTo 1074 = unit at h hunit
    omega
  · rcases Nat.le_total 1074 (x.exponent - 1) with hle | hle
    · -- above the units of the number the digits of the double would have to be all of its digits
      obtain ⟨j, hj⟩ := Nat.exists_eq_add_of_le hle
      rw [hj, Nat.add_comm 1074 j, twoTo_add j 1074, ← Nat.mul_assoc] at h
      have hvalue := Nat.mul_right_cancel (twoTo_pos 1074) h
      cases j with
      | zero =>
        have hunit : twoTo 0 = 1 := rfl
        rw [hunit, Nat.mul_one] at hvalue
        omega
      | succ i =>
        have hdouble : twoTo (i + 1) = twoTo i * 2 := twoTo_add i 1
        rw [hdouble, ← Nat.mul_assoc] at hvalue
        omega
    · -- below them there would have to be more digits than fit
      obtain ⟨k, hk⟩ := Nat.exists_eq_add_of_le hle
      have hsplit : twoTo 1074 = twoTo k * twoTo (x.exponent - 1) := by
        rw [← twoTo_add, Nat.add_comm, ← hk]
      rw [hsplit, ← Nat.mul_assoc] at h
      have hvalue := Nat.mul_right_cancel (twoTo_pos _) h
      have hunit := twoTo_pos k
      omega

end

end Binary64

namespace Sql.Affinity

open Store (same)

variable {n : Int} (hpos : 0 < n) (hmax : n ≤ Text.maxInt64)
include hpos hmax

/-- A double that is equal to the number is held as an integer. -/
theorem ofReal_of_same {x : Binary64} (h : same (.integer n) (.real x) = true) : ofReal x = .integer n := by
  rw [Datum.same_eq_stands, Datum.stands_eq] at h
  have hcompare : compare (Binary64.scaledInteger n) x.scaled = .eq := h.2.2
  have hscaled : x.scaled = n * (twoTo 1074 : Int) := (Int.compare_eq_eq.mp hcompare).symm
  obtain ⟨m, rfl⟩ := Int.eq_ofNat_of_zero_le (Int.le_of_lt hpos)
  have hm : 0 < m := Int.ofNat_lt.mp hpos
  have hmagnitude : x.magnitude = m * twoTo 1074 :=
    Binary64.magnitude_of_scaled (Nat.mul_pos hm (twoTo_pos 1074)) (hscaled.trans (Int.natCast_mul ..).symm)
  have hle : m ≤ 9223372036854775807 := Int.ofNat_le.mp hmax
  have hne : m ≠ 9223372036854775807 := fun heq => x.magnitude_ne_max (heq ▸ hmagnitude)
  have hfinite : x.isFinite = true :=
    Binary64.isFinite_of_magnitude (Nat.lt_of_le_of_lt hle (by decide)) hmagnitude
  have hunits : (twoTo 1074 : Int) ≠ 0 := Int.natCast_ne_zero.mpr (Nat.ne_of_gt (twoTo_pos 1074))
  have hwhole : x.scaled % (twoTo 1074 : Int) = 0 := hscaled ▸ Int.mul_emod_left ..
  have hvalue : x.scaled / (twoTo 1074 : Int) = m := by rw [hscaled, Int.mul_ediv_cancel _ hunits]
  have hmin : Text.minInt64 < (m : Int) := Int.lt_trans (by decide) hpos
  have hlt : (m : Int) < Text.maxInt64 := Int.ofNat_lt.mpr (Nat.lt_of_le_of_ne hle hne)
  unfold ofReal
  simp only [hfinite, hwhole, hvalue, decide_true, Bool.true_and, decide_eq_true hmin, decide_eq_true hlt, if_true]

/-- What is equal to the number in a column for integers is the number. -/
theorem apply_of_same {d : Datum} (h : same (.integer n) (Affinity.integer.apply d) = true) :
    Affinity.integer.apply d = .integer n := by
  have hinteger : ∀ {m : Int}, same (.integer n) (.integer m) = true → Datum.integer m = .integer n := by
    intro m h
    rw [Datum.same_eq_stands, Datum.stands_eq] at h
    exact congrArg Datum.integer (Int.compare_eq_eq.mp h.2.2).symm
  have hreal : ∀ x, same (.integer n) (ofReal x) = true → ofReal x = .integer n := by
    intro x h
    have hcases : ofReal x = .integer (x.scaled / twoTo 1074) ∨ ofReal x = .real x := by
      unfold ofReal
      dsimp only
      split
      · exact .inl rfl
      · exact .inr rfl
    rcases hcases with hx | hx <;> rw [hx] at h
    · exact hx.trans (hinteger h)
    · exact ofReal_of_same hpos hmax h
  cases d with
  | null => cases h
  | integer m => exact hinteger h
  | real x => exact hreal x h
  | text s =>
    have hnumber : numberOf s = .text s ∨ (∃ m, numberOf s = .integer m) ∨ ∃ x, numberOf s = ofReal x := by
      unfold numberOf
      split
      · exact .inl rfl
      · split
        · exact .inr (.inl ⟨_, rfl⟩)
        · exact .inr (.inr ⟨_, rfl⟩)
    show numberOf s = _
    change same (.integer n) (numberOf s) = true at h
    rcases hnumber with hs | ⟨m, hs⟩ | ⟨x, hs⟩ <;> rw [hs] at h ⊢
    · cases h
    · exact hinteger h
    · exact hreal x h

end Sql.Affinity

end DocStore
