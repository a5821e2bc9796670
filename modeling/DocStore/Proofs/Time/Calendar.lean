import DocStore.Time.Calendar
import Mathlib.Tactic.SplitIfs

/-! Days and dates. A later day has a later date: years that begin in March are as long as the days between their first
    ones, and within such a year the months and their days follow one another. -/

namespace DocStore.Date

/-! ### Years that begin in March -/

/-- The days before a year, counted from the year 0; years begin in March. -/
def daysBefore (y : Int) : Int := 365 * y + y / 4 - y / 100 + y / 400

/-- The year of a day among the four hundred years of an era. -/
def yearOfEra (d : Int) : Int := (d - d / 1460 + d / 36524 - d / 146096) / 365

theorem yearOfEra_mono {d e : Int} (h : d ≤ e) : yearOfEra d ≤ yearOfEra e := by
  refine Int.ediv_le_ediv (by decide) ?_
  omega

/-- The first and the last day of each year of an era. -/
theorem yearOfEra_ends : ∀ y : Nat, y < 400 →
    yearOfEra (daysBefore y) = y ∧ yearOfEra (daysBefore (y + 1) - 1) = y := by
  decide +kernel

/-- A day of an era lies in its year. -/
theorem yearOfEra_bounds {d : Int} (hd : 0 ≤ d) (hlt : d < 146097) :
    0 ≤ yearOfEra d ∧ yearOfEra d < 400 ∧ daysBefore (yearOfEra d) ≤ d ∧ d < daysBefore (yearOfEra d + 1) := by
  have hfirst : 0 ≤ yearOfEra d := yearOfEra_mono hd
  have hlast : yearOfEra d ≤ 399 := yearOfEra_mono (Int.le_sub_one_of_lt hlt)
  obtain ⟨y, hy⟩ := Int.eq_ofNat_of_zero_le hfirst
  rw [hy] at hlast ⊢
  refine ⟨by omega, by omega, Int.not_lt.mp fun hbefore => ?_, Int.not_le.mp fun hafter => ?_⟩
  · -- the day before the first one of the year is in an earlier year
    obtain _ | y := y
    · simp only [daysBefore] at hbefore
      omega
    · obtain ⟨-, hend⟩ := yearOfEra_ends y (by omega)
      have hle := yearOfEra_mono (Int.le_sub_one_of_lt hbefore)
      rw [Int.natCast_succ] at hle hy
      omega
  · by_cases hnext : y + 1 < 400
    · obtain ⟨hstart, -⟩ := yearOfEra_ends (y + 1) hnext
      have hle := yearOfEra_mono hafter
      rw [Int.natCast_succ] at hstart
      omega
    · obtain rfl : y = 399 := by omega
      simp only [daysBefore] at hafter
      omega

/-! ### Days of such years -/

/-- Where a day lies in a year that begins in March. -/
structure Marched (z y m d : Int) : Prop where
  month : 0 ≤ m ∧ m ≤ 11
  day : 0 ≤ d ∧ d ≤ 30
  sum : z = daysBefore y + ((153 * m + 2) / 5 + d)
  inMonth : (153 * m + 2) / 5 + d < (153 * (m + 1) + 2) / 5
  inYear : z < daysBefore (y + 1)

theorem daysBefore_add_eras (y k : Int) : daysBefore (y + k * 400) = daysBefore y + k * 146097 := by
  simp only [daysBefore]
  omega

theorem daysBefore_succ (y : Int) : daysBefore (y + 1) ≤ daysBefore y + 366 := by
  simp only [daysBefore]
  omega

/-- The date of a day is its place in such a year, with the months counted from January. -/
theorem exists_marched (n : Int) : ∃ y m d : Int, Marched (n + 719468) y m d ∧
    ofDays n = ⟨if m < 10 then y else y + 1, (if m < 10 then m + 3 else m - 9).toNat, (d + 1).toNat⟩ := by
  rw [ofDays]
  generalize n + 719468 = z
  have hera := Int.mul_ediv_add_emod z 146097
  obtain ⟨hfirst, hlast, hstart, hend⟩ :=
    yearOfEra_bounds (Int.emod_nonneg z (by decide)) (Int.emod_lt_of_pos z (by decide : (0 : Int) < 146097))
  generalize z % 146097 = dayOfEra at *
  have hyear : (dayOfEra - dayOfEra / 1460 + dayOfEra / 36524 - dayOfEra / 146096) / 365 = yearOfEra dayOfEra := rfl
  rw [hyear]
  generalize yearOfEra dayOfEra = y at *
  have hdays : 365 * y + y / 4 - y / 100 = daysBefore y := by
    simp only [daysBefore]
    omega
  rw [hdays]
  have hleap := daysBefore_succ y
  have hshift := daysBefore_add_eras y (z / 146097)
  have hnext := daysBefore_add_eras (y + 1) (z / 146097)
  rw [Int.add_right_comm] at hnext
  generalize hd : dayOfEra - daysBefore y = dayOfYear
  generalize hm : (5 * dayOfYear + 2) / 153 = m
  refine ⟨y + z / 146097 * 400, m, dayOfYear - (153 * m + 2) / 5, ⟨?_, ?_, ?_, ?_, ?_⟩, ?_⟩
  · omega
  · omega
  · rw [hshift]
    omega
  · omega
  · rw [hnext]
    omega
  · have hmonth : (if m < 10 then m + 3 else m - 9) ≤ 2 ↔ ¬m < 10 := by
      split <;> omega
    simp only [hmonth, ite_not]

theorem daysBefore_mono {y y' : Int} (h : y ≤ y') : daysBefore y ≤ daysBefore y' := by
  simp only [daysBefore]
  omega

theorem Marched.before {z y m d z' y' m' d' : Int} (h : Marched z y m d) (h' : Marched z' y' m' d') (hlt : z < z') :
    y < y' ∨ y = y' ∧ (m < m' ∨ m = m' ∧ d < d') := by
  obtain ⟨hmonth, hday, hsum, hin, hyear⟩ := h
  obtain ⟨hmonth', hday', hsum', hin', hyear'⟩ := h'
  rcases Int.lt_trichotomy y y' with hy | rfl | hy
  · exact Or.inl hy
  · refine Or.inr ⟨rfl, ?_⟩
    omega
  · have hle := daysBefore_mono (Int.add_one_le_of_lt hy)
    omega

/-! ### The order of dates -/

/-- A later day has a later date. -/
theorem ofDays_before {n n' : Int} (h : n < n') : (ofDays n).year < (ofDays n').year ∨
    (ofDays n).year = (ofDays n').year ∧ ((ofDays n).month < (ofDays n').month ∨
      (ofDays n).month = (ofDays n').month ∧ (ofDays n).day < (ofDays n').day) := by
  obtain ⟨y, m, d, hmarched, hdate⟩ := exists_marched n
  obtain ⟨y', m', d', hmarched', hdate'⟩ := exists_marched n'
  have hbefore := hmarched.before hmarched' (by omega)
  obtain ⟨hm, hd, -⟩ := hmarched
  obtain ⟨hm', hd', -⟩ := hmarched'
  rw [hdate, hdate']
  dsimp only
  split_ifs <;> omega

/-- Days come in the order of their dates. -/
theorem compare_ofDays (n n' : Int) :
    (compare (ofDays n).year (ofDays n').year).then ((compare (ofDays n).month (ofDays n').month).then
      (compare (ofDays n).day (ofDays n').day)) = compare n n' := by
  rcases Int.lt_trichotomy n n' with h | rfl | h
  · rw [Int.compare_eq_lt.mpr h]
    simp only [Ordering.then_eq_lt, Int.compare_eq_lt, Int.compare_eq_eq, Nat.compare_eq_lt, Nat.compare_eq_eq]
    exact ofDays_before h
  · simp
  · rw [Int.compare_eq_gt.mpr h]
    simp only [Ordering.then_eq_gt, Int.compare_eq_gt, Int.compare_eq_eq, Nat.compare_eq_gt, Nat.compare_eq_eq]
    rw [eq_comm, eq_comm (a := (ofDays n).month)]
    exact ofDays_before h

theorem ofDays_bounds (n : Int) : (ofDays n).month ≤ 12 ∧ (ofDays n).day ≤ 31 := by
  obtain ⟨y, m, d, ⟨hm, hd, -⟩, hdate⟩ := exists_marched n
  rw [hdate]
  dsimp only
  split_ifs <;> omega

end DocStore.Date
