import Mathlib.Algebra.BigOperators.Group.List.Basic
import Mathlib.Tactic.NormNum
import Mathlib.Tactic.Ring

/-!
# The proleptic Gregorian calendar

Dates of the Gregorian calendar, extended to all years, and their day numbers: the number of the
day when the days are counted from 1 January of the year 1, which is day 1. The date after a
date and the date before it are found from the lengths of the months; the day number grows by one
from a date to the next (`Date.number_next`, `Date.number_prev`).

## Main definitions

* `Gregorian.IsLeap`, `Gregorian.monthLength`.
* `Gregorian.Date`, `Date.Valid`, `Date.next`, `Date.prev`, `Date.number`.

## Main results

* `Gregorian.Date.number_next`, `Gregorian.Date.number_prev`.
* `Gregorian.Date.Valid.next`, `Gregorian.Date.Valid.prev`.
-/

namespace Gregorian

/-- Each fourth year is a leap year, except for the centuries that four does not divide. -/
def IsLeap (y : ℤ) : Prop := 4 ∣ y ∧ (100 ∣ y → 400 ∣ y)

instance (y : ℤ) : Decidable (IsLeap y) := inferInstanceAs (Decidable (_ ∧ _))

/-- The number of days of a month. -/
def monthLength (y m : ℤ) : ℤ :=
  if m = 2 then if IsLeap y then 29 else 28
  else if m = 4 ∨ m = 6 ∨ m = 9 ∨ m = 11 then 30
  else 31

theorem monthLength_pos (y m : ℤ) : 0 < monthLength y m := by
  unfold monthLength
  split_ifs <;> decide

/-- A date, valid or not. -/
structure Date where
  year : ℤ
  month : ℤ
  day : ℤ
  deriving DecidableEq, Repr

namespace Date

/-- The date is a date of the calendar. -/
structure Valid (t : Date) : Prop where
  month_pos : 1 ≤ t.month
  month_le : t.month ≤ 12
  day_pos : 1 ≤ t.day
  day_le : t.day ≤ monthLength t.year t.month

/-- The date after a date. -/
def next (t : Date) : Date :=
  if t.day < monthLength t.year t.month then { t with day := t.day + 1 }
  else if t.month < 12 then { t with month := t.month + 1, day := 1 }
  else { year := t.year + 1, month := 1, day := 1 }

/-- The date before a date. -/
def prev (t : Date) : Date :=
  if 1 < t.day then { t with day := t.day - 1 }
  else if 1 < t.month then
    { t with month := t.month - 1, day := monthLength t.year (t.month - 1) }
  else { year := t.year - 1, month := 12, day := 31 }

/-- The days of the years before a year, from the year 1 on. -/
def daysBeforeYear (y : ℤ) : ℤ := 365 * (y - 1) + (y - 1) / 4 - (y - 1) / 100 + (y - 1) / 400

/-- The days of the months of a year before a month. -/
def daysBeforeMonth (y m : ℤ) : ℤ :=
  ((List.range (m - 1).toNat).map fun i : ℕ => monthLength y (i + 1)).sum

/-- The day number of a date. -/
def number (t : Date) : ℤ := daysBeforeYear t.year + daysBeforeMonth t.year t.month + t.day

/-! ### Months and years -/

theorem daysBeforeMonth_one (y : ℤ) : daysBeforeMonth y 1 = 0 := by
  simp [daysBeforeMonth]

theorem daysBeforeMonth_succ (y : ℤ) {m : ℤ} (hm : 1 ≤ m) :
    daysBeforeMonth y (m + 1) = daysBeforeMonth y m + monthLength y m := by
  have hcount : (m + 1 - 1).toNat = (m - 1).toNat + 1 := by omega
  have hlast : ((m - 1).toNat : ℤ) + 1 = m := by omega
  rw [daysBeforeMonth, hcount, List.range_succ, List.map_append, List.sum_append,
    List.map_singleton, List.sum_singleton, hlast, daysBeforeMonth]

/-- The months of a year are the days to the next one. -/
theorem daysBeforeMonth_thirteen (y : ℤ) :
    daysBeforeMonth y 13 = if IsLeap y then 366 else 365 := by
  have hmonths : List.range (13 - 1 : ℤ).toNat = [0, 1, 2, 3, 4, 5, 6, 7, 8, 9, 10, 11] := rfl
  rw [daysBeforeMonth, hmonths]
  by_cases h : IsLeap y <;> simp [monthLength, h]

/-- The days of a year are those of its months. -/
theorem daysBeforeYear_succ (y : ℤ) :
    daysBeforeYear (y + 1) = daysBeforeYear y + daysBeforeMonth y 13 := by
  rw [daysBeforeMonth_thirteen]
  unfold daysBeforeYear IsLeap
  split_ifs <;> omega

/-- The last month of a year is December. -/
theorem daysBeforeMonth_december (y : ℤ) : daysBeforeMonth y 13 = daysBeforeMonth y 12 + 31 := by
  have hlen : monthLength y 12 = 31 := by simp [monthLength]
  have hsucc := daysBeforeMonth_succ y (m := 12) (by norm_num)
  rwa [hlen, show (12 : ℤ) + 1 = 13 by norm_num] at hsucc

/-! ### One day to the next -/

variable {t : Date}

theorem Valid.next (h : t.Valid) : t.next.Valid := by
  obtain ⟨hm, hm', hd, hd'⟩ := h
  unfold Date.next
  split_ifs with hday hmonth
  · exact ⟨hm, hm', by simp only; omega, by simp only; omega⟩
  · exact ⟨by simp only; omega, by simp only; omega, le_rfl, monthLength_pos ..⟩
  · exact ⟨le_rfl, by norm_num, le_rfl, monthLength_pos ..⟩

theorem Valid.prev (h : t.Valid) : t.prev.Valid := by
  obtain ⟨hm, hm', hd, hd'⟩ := h
  unfold Date.prev
  split_ifs with hday hmonth
  · exact ⟨hm, hm', by simp only; omega, by simp only; omega⟩
  · exact ⟨by simp only; omega, by simp only; omega, monthLength_pos .., le_rfl⟩
  · exact ⟨by norm_num, le_rfl, by norm_num, by simp [monthLength]⟩

/-- **The day number of the next date is one more.** -/
theorem number_next (h : t.Valid) : t.next.number = t.number + 1 := by
  obtain ⟨hm, hm', hd, hd'⟩ := h
  unfold Date.next number
  split_ifs with hday hmonth
  · simp only
    ring
  · simp only [daysBeforeMonth_succ t.year hm]
    omega
  · have hdec : t.month = 12 := by omega
    rw [hdec] at hday hd' ⊢
    simp only [daysBeforeYear_succ, daysBeforeMonth_one, daysBeforeMonth_december]
    have hlen : monthLength t.year 12 = 31 := by simp [monthLength]
    omega

/-- **The day number of the date before is one less.** -/
theorem number_prev (h : t.Valid) : t.prev.number = t.number - 1 := by
  obtain ⟨hm, hm', hd, hd'⟩ := h
  unfold Date.prev number
  split_ifs with hday hmonth
  · simp only
    ring
  · have hmonths := daysBeforeMonth_succ t.year (m := t.month - 1) (by omega)
    rw [sub_add_cancel] at hmonths
    simp only
    omega
  · have hjan : t.month = 1 := by omega
    have hyears := daysBeforeYear_succ (t.year - 1)
    rw [sub_add_cancel, daysBeforeMonth_december] at hyears
    simp only [hjan, daysBeforeMonth_one]
    omega

end Date

end Gregorian
