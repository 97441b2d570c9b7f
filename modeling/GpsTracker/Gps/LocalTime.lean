import GpsTracker.Calendar.Gregorian
import GpsTracker.Gps.NavPvt
import Mathlib.Tactic.IntervalCases

/-!
# Local time

The function `gps_localDateTime` of `main/gps.c` adds an offset to the time of a NAV-PVT message and
goes to the next day or to the previous one if the sum is not a time of the same day. Within the
years in which each fourth year is a leap year the local time is the same instant
(`gpsLocalDateTime_instant`).

It is not always written as a date and a time of the calendar. The comparison with the end of the
day leaves out midnight itself, which becomes the hour 24 of the day before, and the leap years
ignore the rule for centuries (`gpsLocalDateTime_wellFormed_iff`).

## Main definitions

* `LocalDateTime`, `carryDay`, `borrowDay`, `gpsLocalDateTime`.
* `utcDate`, `ValidUtc`, `LocalDateTime.WellFormed`.

## Main results

* `gpsLocalDateTime_instant`.
* `gpsLocalDateTime_wellFormed_iff`, `not_wellFormed_midnight`.
-/

open Gregorian

namespace GpsTracker

/-! ### The function -/

/-- `UTC_OFFSET_MINS_DEFAULT`. -/
def utcOffsetMinsDefault : ℤ := 330

/-- What `gps_localDateTime` returns in its pointers. -/
structure LocalDateTime extends Date where
  hour : ℤ
  minute : ℤ
  deriving DecidableEq, Repr

/-- Goes to the next month if the day is past its last one. -/
def carryPast (last : ℤ) (t : Date) : Date :=
  if t.day > last then { t with day := 1, month := t.month + 1 } else t

/-- The branch that goes to the next day. -/
def carryDay (t : Date) : Date :=
  let t := { t with day := t.day + 1 }
  let t :=
    if t.month ∈ [1, 3, 5, 7, 8, 10, 12] then carryPast 31 t
    else if t.month ∈ [4, 6, 9, 11] then carryPast 30 t
    else if t.month = 2 then if t.year.tmod 4 = 0 then carryPast 29 t else carryPast 28 t
    else t
  if t.month > 12 then { t with month := 1, year := t.year + 1 } else t

/-- Goes to the last day of the month before if the day is before the first one. -/
def borrowBefore (last : ℤ) (t : Date) : Date :=
  if t.day < 1 then { t with day := last, month := t.month - 1 } else t

/-- The branch that goes to the previous day. -/
def borrowDay (t : Date) : Date :=
  let t := { t with day := t.day - 1 }
  let t :=
    if t.month ∈ [1, 2, 4, 6, 8, 9, 11] then borrowBefore 31 t
    else if t.month ∈ [5, 7, 10, 12] then borrowBefore 30 t
    else if t.month = 3 then if t.year.tmod 4 = 0 then borrowBefore 29 t else borrowBefore 28 t
    else t
  if t.month < 1 then { t with month := 12, year := t.year - 1 } else t

/-- The date of the message. -/
def utcDate (nav : navPvtPkt.Value) : Date :=
  ⟨nav.val .utcYear, nav.val .utcMonth, nav.val .utcDay⟩

/-- `gps_localDateTime`, for an offset in minutes. -/
def gpsLocalDateTime (utcOffsetMins : ℤ) (nav : navPvtPkt.Value) : LocalDateTime :=
  let tmp := nav.val .utcHour * 60 + nav.val .utcMinute + utcOffsetMins
  if tmp > 1440 then
    ⟨carryDay (utcDate nav), (tmp - 1440).tdiv 60, (tmp - 1440).tmod 60⟩
  else if tmp < 0 then
    ⟨borrowDay (utcDate nav), (tmp + 1440).tdiv 60, (tmp + 1440).tmod 60⟩
  else ⟨utcDate nav, tmp.tdiv 60, tmp.tmod 60⟩

/-! ### Going to another day -/

/-- The length of a month when each fourth year is a leap year. -/
def fourYearLength (y m : ℤ) : ℤ :=
  if m = 2 then if 4 ∣ y then 29 else 28 else monthLength y m

theorem carryPast_of_lt {last y m d : ℤ} (h : d < last) :
    carryPast last ⟨y, m, d + 1⟩ = ⟨y, m, d + 1⟩ :=
  if_neg (by dsimp only; omega)

/-- Within a month the day is counted up. -/
theorem carryDay_of_lt {t : Date} (hm : 1 ≤ t.month) (hm' : t.month ≤ 12)
    (h : t.day < fourYearLength t.year t.month) : carryDay t = { t with day := t.day + 1 } := by
  obtain ⟨y, m, d⟩ := t
  simp only at hm hm' h
  by_cases h4 : y.tmod 4 = 0 <;> have hdvd := Int.dvd_iff_tmod_eq_zero (a := 4) (b := y) <;>
    interval_cases m <;> simp [fourYearLength, monthLength, hdvd, h4] at h <;>
    simp [carryDay, carryPast_of_lt h, h4]

/-- At the end of a month the next one begins. -/
theorem carryDay_of_eq {t : Date} (hm : 1 ≤ t.month) (hm' : t.month ≤ 12)
    (h : t.day = fourYearLength t.year t.month) :
    carryDay t = if t.month < 12 then ⟨t.year, t.month + 1, 1⟩ else ⟨t.year + 1, 1, 1⟩ := by
  obtain ⟨y, m, d⟩ := t
  simp only at hm hm' h
  by_cases h4 : y.tmod 4 = 0 <;> have hdvd := Int.dvd_iff_tmod_eq_zero (a := 4) (b := y) <;>
    interval_cases m <;> simp [fourYearLength, monthLength, hdvd, h4] at h <;>
    simp [carryDay, carryPast, h4, h]

/-- Within a month the day is counted down. -/
theorem borrowDay_of_lt {t : Date} (hm : 1 ≤ t.month) (hm' : t.month ≤ 12) (h : 1 < t.day) :
    borrowDay t = { t with day := t.day - 1 } := by
  obtain ⟨y, m, d⟩ := t
  simp only at hm hm' h
  have hd : ¬ d - 1 < 1 := by omega
  by_cases h4 : y.tmod 4 = 0 <;> interval_cases m <;> simp [borrowDay, borrowBefore, h4, hd]

/-- Before the first day of a month the month before ends. -/
theorem borrowDay_of_eq {t : Date} (hm : 1 ≤ t.month) (hm' : t.month ≤ 12) (h : t.day = 1) :
    borrowDay t = if 1 < t.month then ⟨t.year, t.month - 1, fourYearLength t.year (t.month - 1)⟩
      else ⟨t.year - 1, 12, 31⟩ := by
  obtain ⟨y, m, d⟩ := t
  simp only at hm hm' h
  by_cases h4 : y.tmod 4 = 0 <;> have hdvd := Int.dvd_iff_tmod_eq_zero (a := 4) (b := y) <;>
    interval_cases m <;> simp [borrowDay, borrowBefore, fourYearLength, monthLength, hdvd, h4, h]

/-- The last day of February in a year that only the rule for centuries makes a common year. -/
def CenturyEnd (t : Date) : Prop :=
  t.month = 2 ∧ t.day = 28 ∧ 4 ∣ t.year ∧ ¬ IsLeap t.year

theorem fourYearLength_eq {y : ℤ} (h : 4 ∣ y → IsLeap y) (m : ℤ) :
    fourYearLength y m = monthLength y m := by
  have hleap : IsLeap y ↔ 4 ∣ y := ⟨fun hy => hy.1, h⟩
  unfold fourYearLength monthLength
  split_ifs <;> simp_all

/-- Each fourth year is a leap year around this one. -/
theorem isLeap_of_four_dvd {y : ℤ} (h : 1901 ≤ y) (h' : y ≤ 2099) (h4 : 4 ∣ y) : IsLeap y :=
  ⟨h4, fun h100 => by omega⟩

/-- The lengths differ in February only. -/
theorem fourYearLength_cases (y m : ℤ) :
    fourYearLength y m = monthLength y m ∨
      m = 2 ∧ 4 ∣ y ∧ ¬ IsLeap y ∧ fourYearLength y m = 29 ∧ monthLength y m = 28 := by
  by_cases h : 4 ∣ y → IsLeap y
  · exact .inl (fourYearLength_eq h m)
  · obtain ⟨h4, hleap⟩ := Classical.not_imp.1 h
    by_cases hm : m = 2
    · exact .inr ⟨hm, h4, hleap, by simp [fourYearLength, hm, h4], by simp [monthLength, hm, hleap]⟩
    · exact .inl (if_neg hm)

/-- The next day is the next date, but for the end of February in some centuries. -/
theorem carryDay_eq_next {t : Date} (h : t.Valid) (hcentury : ¬ CenturyEnd t) :
    carryDay t = t.next := by
  obtain ⟨hm, hm', hd, hd'⟩ := h
  have hlen := fourYearLength_cases t.year t.month
  by_cases hlast : t.day < monthLength t.year t.month
  · rw [Date.next, if_pos hlast]
    exact carryDay_of_lt hm hm' (by omega)
  · rw [Date.next, if_neg hlast]
    refine carryDay_of_eq hm hm' ?_
    rcases hlen with heq | ⟨h2, h4, hleap, -, hlen⟩
    · omega
    · exact absurd ⟨h2, by omega, h4, hleap⟩ hcentury

/-- The end of February is followed by one day more in the other centuries. -/
theorem carryDay_of_centuryEnd {t : Date} (h : CenturyEnd t) :
    carryDay t = { t with day := 29 } := by
  obtain ⟨h2, hd, h4, -⟩ := h
  have hlt : t.day < fourYearLength t.year t.month := by
    rw [fourYearLength, if_pos h2, if_pos h4, hd]
    norm_num
  rw [carryDay_of_lt (by omega) (by omega) hlt, hd]
  rfl

/-- The previous day is the date before. -/
theorem borrowDay_eq_prev {t : Date} (h : t.Valid) (hleap : 4 ∣ t.year → IsLeap t.year) :
    borrowDay t = t.prev := by
  obtain ⟨hm, hm', hd, hd'⟩ := h
  by_cases hfirst : 1 < t.day
  · rw [Date.prev, if_pos hfirst, borrowDay_of_lt hm hm' hfirst]
  · rw [Date.prev, if_neg hfirst, borrowDay_of_eq hm hm' (by omega), fourYearLength_eq hleap]

/-! ### Local time is the same instant -/

/-- The message has a date of the calendar and a time of the day. -/
structure ValidUtc (nav : navPvtPkt.Value) : Prop where
  date : (utcDate nav).Valid
  hour_le : nav.val .utcHour ≤ 23
  minute_le : nav.val .utcMinute ≤ 59

theorem utcHour_nonneg (nav : navPvtPkt.Value) : 0 ≤ nav.val .utcHour :=
  (nav.inRange .utcHour).1

theorem utcMinute_nonneg (nav : navPvtPkt.Value) : 0 ≤ nav.val .utcMinute :=
  (nav.inRange .utcMinute).1

/-- Minutes since the start of the calendar. -/
def instant (t : LocalDateTime) : ℤ := t.number * 1440 + t.hour * 60 + t.minute

/-- The time of the message. -/
def utcDateTime (nav : navPvtPkt.Value) : LocalDateTime :=
  ⟨utcDate nav, nav.val .utcHour, nav.val .utcMinute⟩

/-- Minutes split into hours and minutes. -/
theorem instant_tdiv (t : Date) (x : ℤ) :
    instant ⟨t, x.tdiv 60, x.tmod 60⟩ = t.number * 1440 + x := by
  have hsplit := Int.tdiv_mul_add_tmod x 60
  simp only [instant]
  omega

/-- **Local time is the same instant**, within the years in which each fourth year is a leap year
and for every offset. -/
theorem gpsLocalDateTime_instant {nav : navPvtPkt.Value} (hnav : ValidUtc nav)
    (hyear : 1901 ≤ nav.val .utcYear) (hyear' : nav.val .utcYear ≤ 2099) (utcOffsetMins : ℤ) :
    instant (gpsLocalDateTime utcOffsetMins nav) = instant (utcDateTime nav) + utcOffsetMins := by
  have hleap : 4 ∣ (utcDate nav).year → IsLeap (utcDate nav).year := isLeap_of_four_dvd hyear hyear'
  unfold gpsLocalDateTime
  simp only
  split_ifs with hcarry hborrow
  · have hcentury : ¬ CenturyEnd (utcDate nav) := fun h => h.2.2.2 (hleap h.2.2.1)
    rw [instant_tdiv, carryDay_eq_next hnav.date hcentury, Date.number_next hnav.date]
    simp only [instant, utcDateTime]
    ring
  · rw [instant_tdiv, borrowDay_eq_prev hnav.date hleap, Date.number_prev hnav.date]
    simp only [instant, utcDateTime]
    ring
  · rw [instant_tdiv]
    simp only [instant, utcDateTime]
    ring

/-- The last minute of the year 2023. -/
def yearEnd : navPvtPkt.Value where
  val
    | .utcYear => 2023
    | .utcMonth => 12
    | .utcDay => 31
    | .utcHour => 23
    | .utcMinute => 59
    | _ => 0
  inRange i := by cases i <;> decide

theorem validUtc_yearEnd : ValidUtc yearEnd :=
  ⟨⟨by decide, by decide, by decide, by decide⟩, by decide, by decide⟩

/-- A minute before the year 2024, in the time zone of this build. -/
theorem gpsLocalDateTime_instant_yearEnd :
    instant (gpsLocalDateTime utcOffsetMinsDefault yearEnd) =
      instant (utcDateTime yearEnd) + utcOffsetMinsDefault :=
  gpsLocalDateTime_instant validUtc_yearEnd (by decide) (by decide) utcOffsetMinsDefault

/-! ### Local time as a time of the calendar -/

/-- A date and a time of the calendar. -/
structure LocalDateTime.WellFormed (t : LocalDateTime) : Prop where
  date : t.toDate.Valid
  hour_nonneg : 0 ≤ t.hour
  hour_le : t.hour ≤ 23
  minute_nonneg : 0 ≤ t.minute
  minute_le : t.minute ≤ 59

/-- Minutes of a day are an hour and a minute. -/
theorem wellFormed_tdiv_iff (t : Date) {x : ℤ} (hx : 0 ≤ x) :
    (⟨t, x.tdiv 60, x.tmod 60⟩ : LocalDateTime).WellFormed ↔ t.Valid ∧ x < 1440 := by
  have hsplit := Int.tdiv_mul_add_tmod x 60
  have hnonneg := Int.tmod_nonneg 60 hx
  have hlt := Int.tmod_lt_of_pos x (b := 60) (by norm_num)
  constructor
  · rintro ⟨hdate, -, hle, -, -⟩
    exact ⟨hdate, by simp only at hle; omega⟩
  · rintro ⟨hdate, hday⟩
    exact ⟨hdate, by simp only; omega, by simp only; omega, hnonneg, by simp only; omega⟩

/-- The next day is a date of the calendar but for the end of February in some centuries. -/
theorem valid_carryDay_iff {t : Date} (h : t.Valid) : (carryDay t).Valid ↔ ¬ CenturyEnd t := by
  refine ⟨?_, fun hcentury => carryDay_eq_next h hcentury ▸ h.next⟩
  rintro ⟨-, -, -, hle⟩ hcentury
  rw [carryDay_of_centuryEnd hcentury] at hle
  obtain ⟨h2, -, -, hleap⟩ := hcentury
  simp [monthLength, h2, hleap] at hle

/-- **Local time is a time of the calendar except when it is midnight and after the end of February
in some centuries.** -/
theorem gpsLocalDateTime_wellFormed_iff {nav : navPvtPkt.Value} (hnav : ValidUtc nav) :
    (gpsLocalDateTime utcOffsetMinsDefault nav).WellFormed ↔
      nav.val .utcHour * 60 + nav.val .utcMinute ≠ 18 * 60 + 30 ∧
        (18 * 60 + 30 < nav.val .utcHour * 60 + nav.val .utcMinute →
          ¬ CenturyEnd (utcDate nav)) := by
  obtain ⟨hdate, hhour, hminute⟩ := hnav
  have hhour0 := utcHour_nonneg nav
  have hminute0 := utcMinute_nonneg nav
  unfold gpsLocalDateTime utcOffsetMinsDefault
  simp only
  split_ifs with hcarry hborrow
  · rw [wellFormed_tdiv_iff _ (by omega), valid_carryDay_iff hdate]
    constructor
    · rintro ⟨hcentury, -⟩
      exact ⟨by omega, fun _ => hcentury⟩
    · rintro ⟨-, hcentury⟩
      exact ⟨hcentury (by omega), by omega⟩
  · omega
  · rw [wellFormed_tdiv_iff _ (by omega)]
    constructor
    · rintro ⟨-, hday⟩
      exact ⟨by omega, fun hlate => by omega⟩
    · rintro ⟨hmidnight, -⟩
      exact ⟨hdate, by omega⟩

/-- The local time of the last minute of the year is well formed. -/
theorem gpsLocalDateTime_wellFormed_iff_yearEnd :
    ValidUtc yearEnd ∧ (gpsLocalDateTime utcOffsetMinsDefault yearEnd).WellFormed :=
  ⟨validUtc_yearEnd, (gpsLocalDateTime_wellFormed_iff validUtc_yearEnd).mpr
    ⟨by decide, fun _ hcentury => absurd hcentury.1 (by decide)⟩⟩

/-- Midnight of the first day of 2024 in the time zone of this build. -/
def localMidnight : navPvtPkt.Value where
  val
    | .utcYear => 2023
    | .utcMonth => 12
    | .utcDay => 31
    | .utcHour => 18
    | .utcMinute => 30
    | _ => 0
  inRange i := by cases i <;> decide

/-- **Midnight is the hour 24 of the day before.** -/
theorem not_wellFormed_midnight :
    ValidUtc localMidnight ∧
      ¬ (gpsLocalDateTime utcOffsetMinsDefault localMidnight).WellFormed :=
  ⟨⟨⟨by decide, by decide, by decide, by decide⟩, by decide, by decide⟩,
    fun h => absurd h.hour_le (by decide)⟩

end GpsTracker
