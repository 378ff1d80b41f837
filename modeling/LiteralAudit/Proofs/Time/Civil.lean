import LiteralAudit.Time.Timestamp
import Mathlib

/-!
# Every number of days is that of one date

`civilFromDays` finds the year of a day by a formula that corrects for the leap days before it. The
formula is monotone, so that it is enough to know it at the first and the last day of each of the 400
years of an era (`yearOfEra_ends`). From there on a date is a day of a year that starts on 1 March
(`dateAt`).

* `daysFromCivil_civilFromDays`: the date that is found has the number of days it was found for.
* `civilFromDays_valid`: it is a date of the calendar.
* `civilFromDays_daysFromCivil`: no other date of the calendar has that number.
-/

namespace LiteralAudit.Time

/-! ## Years of an era -/

/-- The day of an era with which a year of it starts. -/
def yearStart (y : Int) : Int := 365 * y + y / 4 - y / 100 + y / 400

/-- The year that a day of an era lies in. -/
def yearOfEra (n : Int) : Int := (n - n / 1460 + n / 36524 - n / 146096) / 365

theorem yearOfEra_mono {m n : Int} (h : m ≤ n) : yearOfEra m ≤ yearOfEra n := by
  have h₁ : m - m / 1460 ≤ n - n / 1460 := by omega
  have h₂ : m / 36524 ≤ n / 36524 := Int.ediv_le_ediv (by decide) h
  have h₃ : m / 36524 - m / 146096 ≤ n / 36524 - n / 146096 := by omega
  exact Int.ediv_le_ediv (by decide) (by omega)

theorem yearOfEra_ends (y : Fin 400) :
    yearOfEra (yearStart y) = y ∧ yearOfEra (yearStart (y + 1) - 1) = y := by
  revert y
  decide +kernel

theorem yearStart_yearOfEra {n : Int} (h₀ : 0 ≤ n) (h : n < 146097) :
    0 ≤ yearOfEra n ∧ yearOfEra n < 400 ∧ yearStart (yearOfEra n) ≤ n ∧
      n < yearStart (yearOfEra n + 1) := by
  have hends : ∀ y : Int, 0 ≤ y → y < 400 →
      yearOfEra (yearStart y) = y ∧ yearOfEra (yearStart (y + 1) - 1) = y := by
    intro y hy₀ hy
    obtain ⟨k, rfl⟩ := Int.eq_ofNat_of_zero_le hy₀
    exact yearOfEra_ends ⟨k, by omega⟩
  have hlow : 0 ≤ yearOfEra n := yearOfEra_mono h₀
  have hhigh : yearOfEra n ≤ 399 := by
    have hlast : yearOfEra 146096 = 399 := rfl
    exact hlast ▸ yearOfEra_mono (by omega)
  refine ⟨hlow, by omega, ?_, ?_⟩
  · -- A day before the year's first would lie in the year before.
    by_contra hbefore
    by_cases hfirst : yearOfEra n = 0
    · rw [hfirst] at hbefore
      exact hbefore h₀
    · have hprevious := (hends (yearOfEra n - 1) (by omega) (by omega)).2
      rw [Int.sub_add_cancel] at hprevious
      have hle : yearOfEra n ≤ yearOfEra (yearStart (yearOfEra n) - 1) := yearOfEra_mono (by omega)
      omega
  · by_contra hafter
    by_cases hlast : yearOfEra n = 399
    · have hend : yearStart (399 + 1) = 146097 := rfl
      rw [hlast, hend] at hafter
      exact hafter h
    · have hnext := (hends (yearOfEra n + 1) (by omega) (by omega)).1
      have hle : yearOfEra (yearStart (yearOfEra n + 1)) ≤ yearOfEra n := yearOfEra_mono (by omega)
      omega

/-- A leap day ends its year. -/
theorem yearStart_succ (y : Int) :
    yearStart (y + 1) = yearStart y + 365 + if isLeap (y + 1) then 1 else 0 := by
  unfold yearStart isLeap
  simp only [Bool.and_eq_true, Bool.or_eq_true, beq_iff_eq, bne_iff_ne]
  split <;> omega

theorem isLeap_add_eras (y era : Int) : isLeap (y + era * 400) = isLeap y := by
  have h₄ : (y + era * 400) % 4 = y % 4 := by omega
  have h₁₀₀ : (y + era * 400) % 100 = y % 100 := by omega
  have h₄₀₀ : (y + era * 400) % 400 = y % 400 := by omega
  rw [isLeap, isLeap, h₄, h₁₀₀, h₄₀₀]

/-! ## Dates as days of a year from March -/

/-- The date of a day of a year that starts in March. -/
def dateAt (year dayOfYear : Int) : Date :=
  let monthFromMarch := (5 * dayOfYear + 2) / 153
  let day := dayOfYear - (153 * monthFromMarch + 2) / 5 + 1
  let month := if monthFromMarch < 10 then monthFromMarch + 3 else monthFromMarch - 9
  ⟨year + (if month ≤ 2 then 1 else 0), month.toNat, day.toNat⟩

variable {year dayOfYear : Int}

theorem monthFromMarch_bounds (h₀ : 0 ≤ dayOfYear) (h : dayOfYear ≤ 365) :
    0 ≤ (5 * dayOfYear + 2) / 153 ∧ (5 * dayOfYear + 2) / 153 ≤ 11 ∧
      0 ≤ dayOfYear - (153 * ((5 * dayOfYear + 2) / 153) + 2) / 5 + 1 := by
  omega

theorem daysFromCivil_dateAt (year : Int) (h₀ : 0 ≤ dayOfYear) (h : dayOfYear ≤ 365) :
    daysFromCivil (dateAt year dayOfYear) =
      year / 400 * 146097 + (year % 400 * 365 + year % 400 / 4 - year % 400 / 100 + dayOfYear) -
        719468 := by
  obtain ⟨hfirst, hlast, hday⟩ := monthFromMarch_bounds h₀ h
  unfold dateAt
  generalize (5 * dayOfYear + 2) / 153 = m at *
  have hday := Int.toNat_of_nonneg hday
  by_cases hspring : m < 10
  · have hmonth : ((m + 3).toNat : Int) = m + 3 := Int.toNat_of_nonneg (by omega)
    have hnot : ¬ m + 3 ≤ 2 := by omega
    have hnot' : ¬ (m + 3).toNat ≤ 2 := by omega
    have hback : (m + 3 + 9) % 12 = m := by omega
    simp only [daysFromCivil, if_pos hspring, if_neg hnot, if_neg hnot', hmonth, hback, hday, add_zero]
    ring
  · have hmonth : ((m - 9).toNat : Int) = m - 9 := Int.toNat_of_nonneg (by omega)
    have hyes : m - 9 ≤ 2 := by omega
    have hyes' : (m - 9).toNat ≤ 2 := by omega
    have hback : (m - 9 + 9) % 12 = m := by omega
    simp only [daysFromCivil, if_neg hspring, if_pos hyes, if_pos hyes', hmonth, hback, hday,
      add_sub_cancel_right]
    ring

theorem dateAt_valid (h₀ : 0 ≤ dayOfYear)
    (h : dayOfYear < 365 + if isLeap (year + 1) then 1 else 0) :
    1 ≤ (dateAt year dayOfYear).month ∧ (dateAt year dayOfYear).month ≤ 12 ∧
      1 ≤ (dateAt year dayOfYear).day ∧
      (dateAt year dayOfYear).day ≤ daysIn (dateAt year dayOfYear).year (dateAt year dayOfYear).month := by
  have hle : dayOfYear ≤ 365 := by
    split at h <;> omega
  obtain ⟨hfirst, hlast, -⟩ := monthFromMarch_bounds h₀ hle
  obtain ⟨m, hm⟩ := Int.eq_ofNat_of_zero_le hfirst
  have hbounds : 153 * (m : Int) ≤ 5 * dayOfYear + 2 ∧ 5 * dayOfYear + 2 < 153 * m + 153 := by omega
  have hsmall : m < 12 := by omega
  unfold dateAt
  rw [hm]
  -- The months differ in their length; only February, the last one, looks at the year.
  obtain rfl | hother : m = 11 ∨ m < 11 := by omega
  · cases hleap : isLeap (year + 1) with
    | false =>
      have hshort : dayOfYear < 365 := by simpa [hleap] using h
      simp [daysIn, hleap]
      omega
    | true =>
      simp [daysIn, hleap]
      omega
  · clear h hle hfirst hlast hsmall
    interval_cases m <;> simp [daysIn] <;> omega

theorem civilFromDays_eq (days : Int) :
    ∃ era y dayOfYear, 0 ≤ y ∧ y < 400 ∧ 0 ≤ dayOfYear ∧
      dayOfYear < 365 + (if isLeap (y + 1) then 1 else 0) ∧
      civilFromDays days = dateAt (y + era * 400) dayOfYear ∧
      days = era * 146097 + (yearStart y + dayOfYear) - 719468 := by
  obtain ⟨hlow, hhigh, hstart, hend⟩ := yearStart_yearOfEra
    (Int.emod_nonneg (days + 719468) (by decide : (146097 : Int) ≠ 0))
    (Int.emod_lt_of_pos (days + 719468) (by decide))
  refine ⟨(days + 719468) / 146097, _,
    (days + 719468) % 146097 - yearStart (yearOfEra ((days + 719468) % 146097)), hlow, hhigh, by omega,
    ?_, ?_, by omega⟩
  · rw [yearStart_succ] at hend
    omega
  · have hera : yearOfEra ((days + 719468) % 146097) / 400 = 0 := Int.ediv_eq_zero_of_lt hlow hhigh
    unfold yearStart
    rw [hera, add_zero]
    rfl

theorem daysFromCivil_civilFromDays (days : Int) : daysFromCivil (civilFromDays days) = days := by
  obtain ⟨era, y, dayOfYear, hlow, hhigh, h₀, h, hdate, hdays⟩ := civilFromDays_eq days
  have hle : dayOfYear ≤ 365 := by
    split at h <;> omega
  have hera : (y + era * 400) / 400 = era := by omega
  have hyear : (y + era * 400) % 400 = y := by omega
  rw [hdate, daysFromCivil_dateAt _ h₀ hle, hera, hyear, hdays, yearStart]
  omega

theorem civilFromDays_valid (days : Int) :
    1 ≤ (civilFromDays days).month ∧ (civilFromDays days).month ≤ 12 ∧
      1 ≤ (civilFromDays days).day ∧
      (civilFromDays days).day ≤ daysIn (civilFromDays days).year (civilFromDays days).month := by
  obtain ⟨era, y, dayOfYear, -, -, h₀, h, hdate, -⟩ := civilFromDays_eq days
  rw [hdate]
  refine dateAt_valid h₀ ?_
  rwa [add_right_comm, isLeap_add_eras]

/-! ## The number of a date -/

/-- The days of a year from March before a month of it. -/
def monthStart (monthFromMarch : Int) : Int := (153 * monthFromMarch + 2) / 5

theorem monthFromMarch_eq {m day : Int} (hday₀ : 1 ≤ day)
    (hday : day ≤ monthStart (m + 1) - monthStart m) : (5 * (monthStart m + day - 1) + 2) / 153 = m := by
  unfold monthStart at *
  omega

section Dates

variable {d : Date} (hmonth₀ : 1 ≤ d.month) (hmonth : d.month ≤ 12) (hday₀ : 1 ≤ d.day)
  (hday : d.day ≤ daysIn d.year d.month)

include hmonth₀ hmonth hday

/-- A month is not longer than the formula has it. -/
theorem day_le_monthStart : (d.day : Int) ≤
    monthStart (((d.month : Int) + 9) % 12 + 1) - monthStart (((d.month : Int) + 9) % 12) := by
  obtain ⟨y, month, day⟩ := d
  dsimp only at *
  unfold daysIn at hday
  interval_cases month <;> simp [monthStart] at hday ⊢ <;> (try split at hday) <;> omega

include hday₀ in
/-- The date is a day of a year that starts in March. -/
theorem dateAt_monthStart : dateAt (if d.month ≤ 2 then d.year - 1 else d.year)
    (monthStart (((d.month : Int) + 9) % 12) + d.day - 1) = d := by
  have hmonthFromMarch := monthFromMarch_eq (m := ((d.month : Int) + 9) % 12) (Int.ofNat_le.2 hday₀)
    (day_le_monthStart hmonth₀ hmonth hday)
  obtain ⟨y, month, day⟩ := d
  dsimp only at *
  unfold dateAt
  rw [hmonthFromMarch]
  unfold monthStart
  clear hday hmonthFromMarch
  interval_cases month <;> simp <;> omega

/-- Only a leap day is the last one of a leap year. -/
theorem monthStart_day_lt : monthStart (((d.month : Int) + 9) % 12) + d.day - 1 <
    365 + if isLeap ((if d.month ≤ 2 then d.year - 1 else d.year) + 1) then 1 else 0 := by
  have hfits := day_le_monthStart hmonth₀ hmonth hday
  obtain ⟨y, month, day⟩ := d
  dsimp only at *
  obtain rfl | hother : month = 2 ∨ month ≠ 2 := by omega
  · unfold daysIn at hday
    cases hleap : isLeap y <;> simp [hleap, monthStart] at hday ⊢ <;> omega
  · unfold monthStart at *
    split <;> omega

end Dates

/-! ### No two dates have one number -/

theorem daysFromCivil_dateAt_eq (h₀ : 0 ≤ dayOfYear) (h : dayOfYear ≤ 365) :
    daysFromCivil (dateAt year dayOfYear) = yearStart year + dayOfYear - 719468 := by
  rw [daysFromCivil_dateAt year h₀ h, yearStart]
  omega

theorem yearStart_mono {y z : Int} (h : y ≤ z) : yearStart y ≤ yearStart z := by
  unfold yearStart
  omega

theorem le_365_of_lt (h : dayOfYear < 365 + if isLeap (year + 1) then 1 else 0) : dayOfYear ≤ 365 := by
  split at h <;> omega

theorem dateAt_eq_of_days {year' dayOfYear' : Int} (h₀ : 0 ≤ dayOfYear)
    (h : dayOfYear < 365 + if isLeap (year + 1) then 1 else 0) (h₀' : 0 ≤ dayOfYear')
    (h' : dayOfYear' < 365 + if isLeap (year' + 1) then 1 else 0)
    (hdays : daysFromCivil (dateAt year dayOfYear) = daysFromCivil (dateAt year' dayOfYear')) :
    dateAt year dayOfYear = dateAt year' dayOfYear' := by
  rw [daysFromCivil_dateAt_eq h₀ (le_365_of_lt h), daysFromCivil_dateAt_eq h₀' (le_365_of_lt h')] at hdays
  have hend := yearStart_succ year
  have hend' := yearStart_succ year'
  have hyear : year = year' := by
    by_contra hne
    obtain hbefore | hafter : year + 1 ≤ year' ∨ year' + 1 ≤ year := by omega
    · have hmono := yearStart_mono hbefore
      omega
    · have hmono := yearStart_mono hafter
      omega
  subst hyear
  have hday : dayOfYear = dayOfYear' := by omega
  rw [hday]

theorem civilFromDays_daysFromCivil {d : Date} (hmonth₀ : 1 ≤ d.month) (hmonth : d.month ≤ 12)
    (hday₀ : 1 ≤ d.day) (hday : d.day ≤ daysIn d.year d.month) :
    civilFromDays (daysFromCivil d) = d := by
  have hdate := dateAt_monthStart hmonth₀ hmonth hday₀ hday
  have hlt := monthStart_day_lt hmonth₀ hmonth hday
  have hpos : 0 ≤ monthStart (((d.month : Int) + 9) % 12) + d.day - 1 := by
    unfold monthStart
    omega
  obtain ⟨era, y, dayOfYear, -, -, hpos', hlt', hcivil, -⟩ := civilFromDays_eq (daysFromCivil d)
  have hback := daysFromCivil_civilFromDays (daysFromCivil d)
  rw [← isLeap_add_eras _ era, add_right_comm] at hlt'
  rw [hcivil, ← hdate] at hback
  rw [hcivil, dateAt_eq_of_days hpos' hlt' hpos hlt hback, hdate]

end LiteralAudit.Time
