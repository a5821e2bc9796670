import DocStore.Proofs.Sql.Datum
import DocStore.Proofs.Text.Order
import DocStore.Proofs.Time.Calendar
import DocStore.Proofs.Time.Reading

/-! Instants and their texts in a column. Instants that can be read have different texts if they differ in their
    microseconds, and their texts come in the order of time wherever the texts of their years come in the order of the
    years: this is so for the years 0 to 9999, not for those with a sign. -/

open Std

namespace DocStore

namespace Instant

/-! ### The parts of a text -/

/-- The year in which an instant lies. -/
def year (i : Instant) : Int := (Date.ofDays (i.second / 86400)).year

/-- The second of its day. -/
def ofDay (i : Instant) : Nat := (i.second % 86400).toNat

/-- The second of its minute, which is 60 for a leap second. -/
def ofMinute (i : Instant) : Nat := i.ofDay % 60 + i.nano / 1000000000

/-- What is written behind the year. -/
def behindYear (i : Instant) : List Char :=
  let date := Date.ofDays (i.second / 86400)
  '-' :: Text.padded 2 date.month ++ ('-' :: Text.padded 2 date.day ++ ('T' :: Text.padded 2 (i.ofDay / 3600) ++
    (':' :: Text.padded 2 (i.ofDay / 60 % 60) ++ (':' :: Text.padded 2 i.ofMinute ++
      ('.' :: Text.padded 6 (i.subsecond / 1000) ++ ['Z'])))))

theorem toList_columnText (i : Instant) : i.columnText.toList = yearText i.year ++ i.behindYear := by
  rw [columnText, String.toList_ofList, wholeText, behindYear, year, ofMinute, ofDay]
  simp only [List.append_assoc]

/-- The order of what is written behind the year. -/
def orderBehindYear (a b : Instant) : Ordering :=
  let date := Date.ofDays (a.second / 86400)
  let date' := Date.ofDays (b.second / 86400)
  (compare date.month date'.month).then <| (compare date.day date'.day).then <|
    (compare (a.ofDay / 3600) (b.ofDay / 3600)).then <| (compare (a.ofDay / 60 % 60) (b.ofDay / 60 % 60)).then <|
      (compare a.ofMinute b.ofMinute).then <| compare (a.subsecond / 1000) (b.subsecond / 1000)

theorem ofDay_lt (i : Instant) : i.ofDay < 86400 := by
  rw [ofDay]
  omega

theorem Proper.ofMinute_le {i : Instant} (h : i.Proper) : i.ofMinute ≤ 60 := by
  rw [ofMinute]
  rcases h with h | ⟨-, h⟩ <;> omega

theorem compare_behindYear {a b : Instant} (ha : a.Proper) (hb : b.Proper) :
    compare a.behindYear b.behindYear = orderBehindYear a b := by
  have hmonth (i : Instant) := (Date.ofDays_bounds (i.second / 86400)).1
  have hday (i : Instant) := (Date.ofDays_bounds (i.second / 86400)).2
  have hhour (i : Instant) : i.ofDay / 3600 < 10 ^ 2 := by
    have := i.ofDay_lt
    omega
  have hminute (i : Instant) : i.ofDay / 60 % 60 < 10 ^ 2 := by omega
  have hsecond {i : Instant} (h : i.Proper) : i.ofMinute < 10 ^ 2 := Nat.lt_of_le_of_lt h.ofMinute_le (by decide)
  have hmicro (i : Instant) : i.subsecond / 1000 < 10 ^ 6 := by
    rw [subsecond]
    omega
  rw [behindYear, behindYear, orderBehindYear]
  rw [Text.compare_field '-' (by decide) (Nat.lt_of_le_of_lt (hmonth a) (by decide))
      (Nat.lt_of_le_of_lt (hmonth b) (by decide)),
    Text.compare_field '-' (by decide) (Nat.lt_of_le_of_lt (hday a) (by decide))
      (Nat.lt_of_le_of_lt (hday b) (by decide)),
    Text.compare_field 'T' (by decide) (hhour a) (hhour b),
    Text.compare_field ':' (by decide) (hminute a) (hminute b),
    Text.compare_field ':' (by decide) (hsecond ha) (hsecond hb),
    Text.compare_field '.' (by decide) (hmicro a) (hmicro b)]
  simp

/-! ### Years -/

theorem compare_minus_digit {c : Char} (hc : Text.isDigit c = true) : compare '-' c = .lt := by
  rw [Text.isDigit, Bool.and_eq_true, decide_eq_true_eq, decide_eq_true_eq] at hc
  exact Text.compare_char_eq_lt.mpr (Nat.lt_of_lt_of_le (by decide : '-' < '0') hc.1)

/-- What comes before a minus sign compares first if it is of digits, which come after the sign. -/
theorem compare_beforeMinus {x y : List Char} (hx : ∀ c ∈ x, Text.isDigit c = true)
    (hy : ∀ c ∈ y, Text.isDigit c = true) (u v : List Char) :
    compare (x ++ '-' :: u) (y ++ '-' :: v) = (compare x y).then (compare ('-' :: u) ('-' :: v)) := by
  induction x generalizing y with
  | nil =>
    cases y with
    | nil => rfl
    | cons d y =>
      rw [List.nil_append, List.cons_append, List.compare_cons_cons, compare_minus_digit (hy d List.mem_cons_self)]
      rfl
  | cons c x ih =>
    obtain ⟨hc, hx⟩ := List.forall_mem_cons.mp hx
    cases y with
    | nil =>
      rw [List.nil_append, List.cons_append, List.compare_cons_cons, OrientedCmp.gt_iff_lt.mpr (compare_minus_digit hc)]
      rfl
    | cons d y =>
      obtain ⟨-, hy⟩ := List.forall_mem_cons.mp hy
      rw [List.cons_append, List.cons_append, List.compare_cons_cons, List.compare_cons_cons, ih hx hy,
        Ordering.then_assoc]

/-- The text of a year is one character with digits behind it. -/
theorem yearText_eq_cons (y : Int) : ∃ c ds, yearText y = c :: ds ∧ ∀ d ∈ ds, Text.isDigit d = true := by
  rw [yearText]
  split
  · obtain ⟨c, ds, hdigits, -, hds⟩ := Text.padded_eq_cons 4 y.toNat
    exact ⟨c, ds, hdigits, hds⟩
  · exact ⟨_, _, rfl, Text.isDigit_padded⟩

/-- The texts of two instants compare by the texts of their years and then by what is behind these. -/
theorem compare_columnText {a b : Instant} (ha : a.Proper) (hb : b.Proper) :
    compare a.columnText b.columnText = (compare (yearText a.year) (yearText b.year)).then (orderBehindYear a b) := by
  obtain ⟨c, x, hyear, hx⟩ := yearText_eq_cons a.year
  obtain ⟨d, y, hyear', hy⟩ := yearText_eq_cons b.year
  rw [← compare_behindYear ha hb, ← Text.compare_toList, toList_columnText, toList_columnText, hyear, hyear',
    List.cons_append, List.cons_append, List.compare_cons_cons, List.compare_cons_cons, Ordering.then_assoc]
  exact congrArg _ (compare_beforeMinus hx hy _ _)

section Years

variable {y y' : Int}

theorem yearText_unsigned (h : 0 ≤ y) (hle : y ≤ 9999) : yearText y = Text.padded 4 y.toNat := by
  have htest : (decide (0 ≤ y) && decide (y ≤ 9999)) = true := by
    rw [Bool.and_eq_true, decide_eq_true_eq, decide_eq_true_eq]
    exact ⟨h, hle⟩
  rw [yearText, if_pos htest]

theorem yearText_signed (h : y < 0 ∨ 9999 < y) :
    yearText y = (if y < 0 then '-' else '+') :: Text.padded 4 y.natAbs := by
  have htest : ¬(decide (0 ≤ y) && decide (y ≤ 9999)) = true := by
    rw [Bool.and_eq_true, decide_eq_true_eq, decide_eq_true_eq]
    omega
  rw [yearText, if_neg htest]

theorem yearText_after (h : 9999 < y) : yearText y = '+' :: Text.padded 4 y.natAbs := by
  rw [yearText_signed (Or.inr h), if_neg (by omega)]

theorem yearText_before (h : y < 0) : yearText y = '-' :: Text.padded 4 y.natAbs := by
  rw [yearText_signed (Or.inl h), if_pos h]

/-- A text whose first character comes before the digits comes before a year of four digits. -/
theorem compare_unsigned {c : Char} (hc : ∀ d, Text.isDigit d = true → compare c d = .lt) (ds : List Char) (h : 0 ≤ y)
    (hle : y ≤ 9999) : compare (c :: ds) (yearText y) = .lt := by
  rw [yearText_unsigned h hle]
  obtain ⟨d, es, hdigits, hd, -⟩ := Text.padded_eq_cons 4 y.toNat
  rw [hdigits, List.compare_cons_cons, hc d hd]
  rfl

/-- Years up to 9999 come in the order of their texts, unless both are negative. -/
theorem compare_yearText (hle : y ≤ 9999) (hle' : y' ≤ 9999) (hpos : 0 ≤ y ∨ 0 ≤ y') :
    compare (yearText y) (yearText y') = compare y y' := by
  rcases Int.lt_or_le y 0 with hy | hy
  · have hy' : 0 ≤ y' := hpos.resolve_left (Int.not_le.mpr hy)
    rw [yearText_before hy, compare_unsigned (fun d hd => compare_minus_digit hd) _ hy' hle',
      Int.compare_eq_lt.mpr (Int.lt_of_lt_of_le hy hy')]
  · rcases Int.lt_or_le y' 0 with hy' | hy'
    · rw [yearText_before hy', Int.compare_eq_gt.mpr (Int.lt_of_lt_of_le hy' hy)]
      exact OrientedCmp.gt_iff_lt.mpr (compare_unsigned (fun d hd => compare_minus_digit hd) _ hy hle)
    · rw [yearText_unsigned hy hle, yearText_unsigned hy' hle', Text.compare_padded (by decide) (by omega) (by omega)]
      exact Text.compare_nat_eq_int (by omega) (by omega)

/-- A year after 9999 has its text before those of all years up to 9999. -/
theorem compare_yearText_after (h : 9999 < y) (hle' : y' ≤ 9999) : compare (yearText y) (yearText y') = .lt := by
  rw [yearText_after h]
  rcases Int.lt_or_le y' 0 with hy' | hy'
  · rw [yearText_before hy', List.compare_cons_cons]
    rfl
  · refine compare_unsigned (fun d hd => ?_) _ hy' hle'
    exact TransCmp.lt_trans (by decide : compare '+' '-' = .lt) (compare_minus_digit hd)

/-- Years after 9999 come in the order of their texts if these have the same length. -/
theorem compare_yearText_of_after (h : 9999 < y) (h' : 9999 < y')
    (hlength : (yearText y).length = (yearText y').length) : compare (yearText y) (yearText y') = compare y y' := by
  rw [yearText_after h, yearText_after h'] at hlength ⊢
  rw [List.compare_cons_cons, compare_self, Ordering.eq_then, Text.compare_padded_of_length (Nat.succ.inj hlength)]
  exact Text.compare_nat_eq_int (by omega) (by omega)

/-- Negative years have their texts the other way round if these have the same length. -/
theorem compare_yearText_of_before (h : y < 0) (h' : y' < 0) (hlength : (yearText y).length = (yearText y').length) :
    compare (yearText y) (yearText y') = compare y' y := by
  rw [yearText_before h, yearText_before h'] at hlength ⊢
  rw [List.compare_cons_cons, compare_self, Ordering.eq_then, Text.compare_padded_of_length (Nat.succ.inj hlength)]
  exact Text.compare_nat_eq_int (by omega) (by omega)

theorem yearText_inj (h : yearText y = yearText y') : y = y' := by
  have hlength := congrArg List.length h
  have heq : compare (yearText y) (yearText y') = .eq := by rw [h, compare_self]
  rcases Int.lt_or_le 9999 y with hy | hy
  · rcases Int.lt_or_le 9999 y' with hy' | hy'
    · rwa [compare_yearText_of_after hy hy' hlength, Int.compare_eq_eq] at heq
    · rw [compare_yearText_after hy hy'] at heq
      cases heq
  · rcases Int.lt_or_le 9999 y' with hy' | hy'
    · rw [OrientedCmp.gt_iff_lt.mpr (compare_yearText_after hy' hy)] at heq
      cases heq
    · by_cases hpos : 0 ≤ y ∨ 0 ≤ y'
      · rwa [compare_yearText hy hy' hpos, Int.compare_eq_eq] at heq
      · rw [compare_yearText_of_before (by omega) (by omega) hlength, Int.compare_eq_eq] at heq
        exact heq.symm

end Years

/-! ### The order of time -/

theorem compare_day (s t : Int) :
    (compare (s / 86400) (t / 86400)).then (compare (s % 86400).toNat (t % 86400).toNat) = compare s t := by
  rcases Int.lt_trichotomy (s / 86400) (t / 86400) with h | h | h
  · rw [Int.compare_eq_lt.mpr h, Int.compare_eq_lt.mpr (by omega)]
    rfl
  · rw [h, compare_self, Ordering.eq_then]
    exact Text.compare_nat_eq_int (by omega) (by omega)
  · rw [Int.compare_eq_gt.mpr h, Int.compare_eq_gt.mpr (by omega)]
    rfl

/-- Minutes with the microseconds in them come in the order of seconds with the microseconds in these, of which only the
    last one of a minute may be longer than a second. -/
theorem compare_leap {m n p q : Nat} (hp : p < 1000000 ∨ m % 60 = 59) (hq : q < 1000000 ∨ n % 60 = 59) :
    (compare (m / 60) (n / 60)).then (compare (m % 60 * 1000000 + p) (n % 60 * 1000000 + q)) =
      (compare m n).then (compare p q) := by
  rcases Nat.lt_trichotomy m n with h | rfl | h
  · rw [Nat.compare_eq_lt.mpr h, Ordering.lt_then, Ordering.then_eq_lt]
    simp only [Nat.compare_eq_lt, Nat.compare_eq_eq]
    omega
  · rw [compare_self, compare_self, Ordering.eq_then, Ordering.eq_then]
    exact Text.compare_nat_eq (by omega) (by omega)
  · rw [Nat.compare_eq_gt.mpr h, Ordering.gt_then, Ordering.then_eq_gt]
    simp only [Nat.compare_eq_gt, Nat.compare_eq_eq]
    omega

/-- The seconds of a minute with the microseconds behind them, as one number. -/
theorem compare_second_micro (a b : Instant) :
    (compare a.ofMinute b.ofMinute).then (compare (a.subsecond / 1000) (b.subsecond / 1000)) =
      compare (a.ofDay % 60 * 1000000 + a.nano / 1000) (b.ofDay % 60 * 1000000 + b.nano / 1000) := by
  have hsecond (i : Instant) : (i.ofDay % 60 * 1000000 + i.nano / 1000) / 1000000 = i.ofMinute := by
    rw [ofMinute]
    omega
  have hmicro (i : Instant) : (i.ofDay % 60 * 1000000 + i.nano / 1000) % 1000000 = i.subsecond / 1000 := by
    rw [subsecond]
    omega
  rw [← hsecond a, ← hsecond b, ← hmicro a, ← hmicro b, Text.compare_div_mod]

theorem Proper.leap {i : Instant} (h : i.Proper) : i.nano / 1000 < 1000000 ∨ i.ofDay % 60 = 59 := by
  rw [ofDay]
  rcases h with h | ⟨h, -⟩ <;> omega

/-- The order of time, to the microsecond. -/
def inTime (a b : Instant) : Ordering := (compare a.second b.second).then (compare (a.nano / 1000) (b.nano / 1000))

/-- Instants come in the order of their years and of what is written behind these. -/
theorem inTime_eq {a b : Instant} (ha : a.Proper) (hb : b.Proper) :
    inTime a b = (compare a.year b.year).then (orderBehindYear a b) := by
  have hminute (i : Instant) : i.ofDay / 3600 = i.ofDay / 60 / 60 := by omega
  calc inTime a b
    _ = (compare (a.second / 86400) (b.second / 86400)).then
          ((compare a.ofDay b.ofDay).then (compare (a.nano / 1000) (b.nano / 1000))) := by
      rw [inTime, ← compare_day, Ordering.then_assoc, ofDay, ofDay]
    _ = (compare (a.second / 86400) (b.second / 86400)).then ((compare (a.ofDay / 60) (b.ofDay / 60)).then
          ((compare a.ofMinute b.ofMinute).then (compare (a.subsecond / 1000) (b.subsecond / 1000)))) := by
      rw [compare_second_micro, compare_leap ha.leap hb.leap]
    _ = (compare a.year b.year).then (orderBehindYear a b) := by
      rw [← Date.compare_ofDays, ← Text.compare_div_mod 60 (a.ofDay / 60), ← hminute, ← hminute, orderBehindYear, year, year]
      simp only [Ordering.then_assoc]

theorem earlier_truncated {a b : Instant} : a.truncated.earlier b.truncated ↔ inTime a b = .lt := by
  rw [inTime, Ordering.then_eq_lt, Int.compare_eq_lt, Int.compare_eq_eq, Nat.compare_eq_lt, earlier, truncated, truncated,
    Nat.mul_lt_mul_right (by decide)]

theorem truncated_eq {a b : Instant} : a.truncated = b.truncated ↔ inTime a b = .eq := by
  rw [inTime, Ordering.then_eq_eq, Int.compare_eq_eq, Nat.compare_eq_eq, truncated, truncated, Instant.mk.injEq,
    Nat.mul_left_inj (by decide)]

/-! ### Texts in the order of time -/

/-- The text of an instant comes before that of another one, as bytes. -/
def Precedes (a b : Instant) : Prop := compare (Text.utf8 a.columnText) (Text.utf8 b.columnText) = .lt

/-- How two instants lie in a column, and how in time. -/
structure InColumn (a b : Instant) : Prop where
  /-- what is stored for them compares as the bytes of their texts -/
  stored : compare (Sql.Datum.ofValue (.dateTime a)) (Sql.Datum.ofValue (.dateTime b)) =
    compare (Text.utf8 a.columnText) (Text.utf8 b.columnText)
  equal : a.columnText = b.columnText ↔ a.truncated = b.truncated
  inOrder : (a.Precedes b ↔ a.truncated.earlier b.truncated) ↔
    compare (yearText a.year) (yearText b.year) = compare a.year b.year
  sameYear : a.year = b.year → (a.Precedes b ↔ a.truncated.earlier b.truncated)
  unsigned : a.year ≤ 9999 → b.year ≤ 9999 → 0 ≤ a.year ∨ 0 ≤ b.year →
    (a.Precedes b ↔ a.truncated.earlier b.truncated)
  after : 9999 < a.year → 9999 < b.year → (yearText a.year).length = (yearText b.year).length →
    (a.Precedes b ↔ a.truncated.earlier b.truncated)
  /-- the sign of a year after 9999 comes before all digits -/
  afterFirst : 9999 < a.year → b.year ≤ 9999 → a.Precedes b ∧ b.truncated.earlier a.truncated
  /-- the digits of negative years count backwards -/
  negative : a.year < 0 → b.year < 0 → (yearText a.year).length = (yearText b.year).length → a.year ≠ b.year →
    (a.Precedes b ↔ b.truncated.earlier a.truncated)

theorem precedes_iff {a b : Instant} (ha : a.Proper) (hb : b.Proper) :
    a.Precedes b ↔ (compare (yearText a.year) (yearText b.year)).then (orderBehindYear a b) = .lt := by
  rw [Precedes, Text.compare_utf8, compare_columnText ha hb]

theorem earlier_iff {a b : Instant} (ha : a.Proper) (hb : b.Proper) :
    a.truncated.earlier b.truncated ↔ (compare a.year b.year).then (orderBehindYear a b) = .lt := by
  rw [earlier_truncated, inTime_eq ha hb]

theorem compare_stored (a b : Instant) : compare (Sql.Datum.ofValue (.dateTime a)) (Sql.Datum.ofValue (.dateTime b)) =
    compare (Text.utf8 a.columnText) (Text.utf8 b.columnText) := by
  rw [Sql.Datum.ofValue, Sql.Datum.ofValue, Sql.Datum.compare_text, Text.compare_utf8]

section Regimes

variable {a b : Instant} (ha : a.Proper) (hb : b.Proper)
include ha hb

theorem inOrder_of_years (h : compare (yearText a.year) (yearText b.year) = compare a.year b.year) :
    a.Precedes b ↔ a.truncated.earlier b.truncated := by
  rw [precedes_iff ha hb, earlier_iff ha hb, h]

theorem columnText_inj : a.columnText = b.columnText ↔ a.truncated = b.truncated := by
  have hyears : compare (yearText a.year) (yearText b.year) = .eq ↔ compare a.year b.year = .eq := by
    rw [LawfulEqOrd.compare_eq_iff_eq, LawfulEqOrd.compare_eq_iff_eq]
    exact ⟨yearText_inj, congrArg yearText⟩
  rw [← LawfulEqOrd.compare_eq_iff_eq (a := a.columnText), compare_columnText ha hb, truncated_eq, inTime_eq ha hb,
    Ordering.then_eq_eq, Ordering.then_eq_eq, hyears]

/-- Years that differ decide alone, for the texts as in time. -/
theorem years_of_inOrder (h : a.Precedes b ↔ a.truncated.earlier b.truncated) :
    compare (yearText a.year) (yearText b.year) = compare a.year b.year := by
  have hne (hne : a.year ≠ b.year) : compare (yearText a.year) (yearText b.year) ≠ .eq := fun heq =>
    hne (yearText_inj (LawfulEqOrd.eq_of_compare heq))
  rw [precedes_iff ha hb, earlier_iff ha hb] at h
  rcases Int.lt_trichotomy a.year b.year with hy | hy | hy
  · rw [Int.compare_eq_lt.mpr hy] at h ⊢
    cases ht : compare (yearText a.year) (yearText b.year) with
    | lt => rfl
    | eq => exact absurd ht (hne (Int.ne_of_lt hy))
    | gt =>
      rw [ht] at h
      cases h.mpr rfl
  · rw [hy, compare_self, compare_self]
  · rw [Int.compare_eq_gt.mpr hy] at h ⊢
    cases ht : compare (yearText a.year) (yearText b.year) with
    | lt =>
      rw [ht] at h
      cases h.mp rfl
    | eq => exact absurd ht (hne (Int.ne_of_gt hy))
    | gt => rfl

theorem precedes_of_after (h : 9999 < a.year) (h' : b.year ≤ 9999) :
    a.Precedes b ∧ b.truncated.earlier a.truncated := by
  constructor
  · rw [precedes_iff ha hb, compare_yearText_after h h']
    rfl
  · rw [earlier_iff hb ha, Int.compare_eq_lt.mpr (Int.lt_of_le_of_lt h' h)]
    rfl

theorem precedes_of_negative (h : a.year < 0) (h' : b.year < 0)
    (hlength : (yearText a.year).length = (yearText b.year).length) (hne : a.year ≠ b.year) :
    a.Precedes b ↔ b.truncated.earlier a.truncated := by
  rw [precedes_iff ha hb, earlier_iff hb ha, compare_yearText_of_before h h' hlength]
  rcases Int.lt_or_gt_of_ne hne with hy | hy
  · rw [Int.compare_eq_gt.mpr hy, Ordering.gt_then, Ordering.gt_then]
  · rw [Int.compare_eq_lt.mpr hy, Ordering.lt_then, Ordering.lt_then]

theorem inColumn : InColumn a b where
  stored := compare_stored a b
  equal := columnText_inj ha hb
  inOrder := ⟨years_of_inOrder ha hb, inOrder_of_years ha hb⟩
  sameYear h := inOrder_of_years ha hb (by rw [h, compare_self, compare_self])
  unsigned h h' hpos := inOrder_of_years ha hb (compare_yearText h h' hpos)
  after h h' hlength := inOrder_of_years ha hb (compare_yearText_of_after h h' hlength)
  afterFirst := precedes_of_after ha hb
  negative := precedes_of_negative ha hb

end Regimes

/-- What is read as an instant lies within its second or in a leap second. Of such instants the texts in a column are
    equal if and only if they are equal to the microsecond, and come in the order of time if and only if the texts of
    their years come in the order of the years. -/
theorem columnText_order (a b : Instant) :
    (∀ s, ofDocument? s = some a ∨ ofMessage? s = some a → a.Proper) ∧ (a.Proper → b.Proper → InColumn a b) :=
  ⟨fun _ h => proper_of_read h, fun ha hb => inColumn ha hb⟩

/-- A leap second comes before the midnight after it. -/
theorem columnText_order_leap : ofDocument? "2016-12-31T23:59:60.5Z" = some ⟨1483228799, 1500000000⟩ ∧
    ofDocument? "2017-01-01T00:00:00Z" = some ⟨1483228800, 0⟩ ∧
      Precedes ⟨1483228799, 1500000000⟩ ⟨1483228800, 0⟩ := by
  have hleap : ofDocument? "2016-12-31T23:59:60.5Z" = some ⟨1483228799, 1500000000⟩ := by decide +kernel
  have hmidnight : ofDocument? "2017-01-01T00:00:00Z" = some ⟨1483228800, 0⟩ := by decide +kernel
  obtain ⟨hread, horder⟩ := columnText_order ⟨1483228799, 1500000000⟩ ⟨1483228800, 0⟩
  have hcolumn := horder (hread _ (Or.inl hleap)) (Or.inl (Nat.zero_lt_succ _))
  refine ⟨hleap, hmidnight, (hcolumn.unsigned (by decide) (by decide) (Or.inl (by decide))).mpr (Or.inl ?_)⟩
  show (1483228799 : Int) < 1483228800
  decide

/-- A year after 9999 that a document may hold comes before the years of four digits. -/
theorem columnText_disorder : ∃ a b : Instant, ofDocument? "+12024-01-01T00:00:00" = some a ∧
    ofDocument? "2024-01-01T00:00:00Z" = some b ∧ ¬(a.Precedes b ↔ a.truncated.earlier b.truncated) := by
  refine ⟨⟨317273587200, 0⟩, ⟨1704067200, 0⟩, ?_, ?_, ?_⟩
  · decide +kernel
  · decide +kernel
  · have hlater : (1704067200 : Int) < 317273587200 := by decide
    have hproper (n : Int) : Proper ⟨n, 0⟩ := Or.inl (Nat.zero_lt_succ _)
    rw [precedes_iff (hproper _) (hproper _), compare_yearText_after (by decide) (by decide), earlier_truncated, inTime,
      Int.compare_eq_gt.mpr hlater]
    simp

end Instant

end DocStore
