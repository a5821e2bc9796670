import DocStore.Text.Decimal

/-! Decimal digits. A number is read back from the digits that are written for it, so different numbers are written
    differently. -/

namespace DocStore.Text

theorem isDigit_digit {n : Nat} (h : n < 10) : isDigit (digit n) = true :=
  (by decide : ∀ n < 10, isDigit (digit n) = true) n h

theorem digitValue_digit {n : Nat} (h : n < 10) : digitValue (digit n) = n :=
  (by decide : ∀ n < 10, digitValue (digit n) = n) n h

theorem digitsValue_concat (ds : List Char) (c : Char) :
    digitsValue (ds ++ [c]) = 10 * digitsValue ds + digitValue c := by
  simp only [digitsValue, List.foldl_append, List.foldl_cons, List.foldl_nil]

theorem isDigit_decimal (n : Nat) : ∀ c ∈ decimal n, isDigit c = true := by
  fun_induction decimal n with
  | case1 n h =>
    rw [List.forall_mem_singleton]
    exact isDigit_digit h
  | case2 n h ih =>
    rw [List.forall_mem_append, List.forall_mem_singleton]
    exact ⟨ih, isDigit_digit (Nat.mod_lt n (by omega))⟩

theorem decimal_ne_nil (n : Nat) : decimal n ≠ [] := by
  rw [decimal]
  split
  · exact List.cons_ne_nil _ _
  · exact List.concat_ne_nil _ _

theorem digitsValue_decimal (n : Nat) : digitsValue (decimal n) = n := by
  fun_induction decimal n with
  | case1 n h =>
    have hvalue : digitsValue [digit n] = 10 * 0 + digitValue (digit n) := rfl
    rw [hvalue, digitValue_digit h]
    omega
  | case2 n h ih =>
    rw [digitsValue_concat, ih, digitValue_digit (Nat.mod_lt n (by omega))]
    omega

theorem decimal_inj {m n : Nat} (h : decimal m = decimal n) : m = n := by
  rw [← digitsValue_decimal m, h, digitsValue_decimal]

theorem natural?_decimal (n : Nat) : natural? (decimal n) = some n := by
  have hdigits : (decimal n).all isDigit = true := List.all_eq_true.mpr (isDigit_decimal n)
  have hsome : (decimal n).isEmpty = false := List.isEmpty_eq_false_iff.mpr (decimal_ne_nil n)
  rw [natural?, hdigits, hsome, Bool.not_true, Bool.or_false, if_neg Bool.false_ne_true, digitsValue_decimal]

/-- A whole number is read back from what is written for it. -/
theorem integer?_integerText (n : Int) : integer? (integerText n) = some n := by
  cases n with
  | ofNat n =>
    have hplus : '+' ∉ decimal n := fun h => absurd (isDigit_decimal n _ h) (by decide)
    have hminus : '-' ∉ decimal n := fun h => absurd (isDigit_decimal n _ h) (by decide)
    rw [integerText, integer?, natural?_decimal, Option.map_some]
    · rintro ds hds
      exact hplus (hds ▸ List.mem_cons_self ..)
    · rintro ds hds
      exact hminus (hds ▸ List.mem_cons_self ..)
  | negSucc n =>
    rw [integerText, integer?, natural?_decimal]
    rfl

end DocStore.Text
