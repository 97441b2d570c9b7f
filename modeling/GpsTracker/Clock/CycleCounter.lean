import GpsTracker.Clock.Wrapping
import Mathlib.Data.Nat.Basic
import Mathlib.Tactic.Common

/-!
# The cycle counter

The functions of `main/cct.c`, which measure and wait by the 32-bit cycle counter of the processor.

An interval is computed by two formulas, one for readings between which the counter has not wrapped
and one for the others. The second one is a tick short, and in both the rounding term may overflow,
so that an interval is rounded as it should be exactly when neither matters
(`cctIntervalUs_eq_iff`). Intervals that stay away from the end of the range are off by one tick at
most (`toNat_cctElapsedUs_bounds`).

The busy wait compares readings with a deadline that has itself wrapped. It ends with the first
reading at or after the deadline exactly when the readings until then lie in the period of the
counter in which the deadline lies (`cctDelayUs_eq_iff`).

## Main definitions

* `cctIntervalUs`, `cctElapsedUs`, `cctDelayUs`.
* `counterAt` : the counter at a true time.
* `roundedUs`, `IntervalExact`, `ReadsAdvance`, `SamePeriod`.

## Main results

* `cctIntervalUs_eq_iff`, `not_cctIntervalUs_eq`.
* `cctDelayUs_eq_iff`, `not_cctDelayUs_eq`.
-/

namespace GpsTracker

/-! ### Functions -/

/-- `CCT_TICKS_PER_US` in this build. -/
def cctTicksPerUs : UInt32 := 160

/-- `cct_intervalUs`, for a number of ticks in a microsecond. -/
def cctIntervalUs (ticksPerUs before after : UInt32) : UInt32 :=
  if before ≤ after then ((after - before) + ticksPerUs / 2) / ticksPerUs
  else (after + (0xFFFFFFFF - before) + ticksPerUs / 2) / ticksPerUs

/-- `cct_elapsedUs`, when the counter reads `clockNow`. -/
def cctElapsedUs (ticksPerUs clockPrev clockNow : UInt32) : UInt32 :=
  if clockPrev ≤ clockNow then ((clockNow - clockPrev) + ticksPerUs / 2) / ticksPerUs
  else (clockNow + (0xFFFFFFFF - clockPrev) + ticksPerUs / 2) / ticksPerUs

/-- The loop of `cct_delayUs` over the readings of the counter: the index of the reading with which
it ends. -/
def cctDelayUsLoop (waitCycleCount : UInt32) : List UInt32 → Option ℕ
  | [] => none
  | ccount :: reads =>
    if ccount < waitCycleCount then (cctDelayUsLoop waitCycleCount reads).map (· + 1) else some 0

/-- `cct_delayUs`, when the counter reads `entry` first and then, in the loop, `reads`. -/
def cctDelayUs (ticksPerUs us entry : UInt32) (reads : List UInt32) : Option ℕ :=
  cctDelayUsLoop (ticksPerUs * us + entry) reads

/-- The counter `t` ticks after it was `start`. -/
def counterAt (start : UInt32) (t : ℕ) : UInt32 := start + .ofNat t

theorem toNat_counterAt (start : UInt32) (t : ℕ) :
    (counterAt start t).toNat = (start.toNat + t) % 2 ^ 32 := by
  simp [counterAt]

/-! ### Intervals -/

/-- A number of ticks in microseconds, rounded to the nearest one. -/
def roundedUs (ticksPerUs ticks : ℕ) : ℕ := (ticks + ticksPerUs / 2) / ticksPerUs

/-- The rounding term does not overflow, and if the counter has wrapped the missing tick does not
change the result. -/
def IntervalExact (ticksPerUs before after : UInt32) : Prop :=
  let rounded := (after - before).toNat + ticksPerUs.toNat / 2
  if before ≤ after then rounded < 2 ^ 32
  else rounded ≤ 2 ^ 32 ∧ ¬ ticksPerUs.toNat ∣ rounded

instance (ticksPerUs before after : UInt32) :
    Decidable (IntervalExact ticksPerUs before after) := by
  unfold IntervalExact
  infer_instance

/-- A sum that overflows is divided wrongly. -/
private theorem mod_div_lt_div {T x : ℕ} (hT : 0 < T) (hT32 : T ≤ 2 ^ 32) (hx : 2 ^ 32 ≤ x) :
    x % 2 ^ 32 / T < x / T := by
  have hsplit : x % 2 ^ 32 + T ≤ x := by omega
  have hle := Nat.div_le_div_right (c := T) hsplit
  rwa [Nat.add_div_right _ hT] at hle

/-- Without a tick the quotient is the same unless the division is exact. -/
private theorem pred_div_eq_div_iff {T x : ℕ} (hx : 0 < x) : (x - 1) / T = x / T ↔ ¬ T ∣ x := by
  obtain ⟨y, rfl⟩ := Nat.exists_eq_add_of_le' hx
  rw [Nat.add_sub_cancel, Nat.succ_div]
  split <;> simp_all

/-- The two functions compute the same. -/
theorem cctElapsedUs_eq_cctIntervalUs (ticksPerUs clockPrev clockNow : UInt32) :
    cctElapsedUs ticksPerUs clockPrev clockNow = cctIntervalUs ticksPerUs clockPrev clockNow := rfl

/-- What the functions compute when the counter has not wrapped. -/
theorem toNat_cctIntervalUs_of_le {ticksPerUs before after : UInt32} (h : before ≤ after) :
    (cctIntervalUs ticksPerUs before after).toNat
      = ((after - before).toNat + ticksPerUs.toNat / 2) % 2 ^ 32 / ticksPerUs.toNat := by
  simp [cctIntervalUs, h]

/-- The ticks between two readings, when the counter has wrapped between them. -/
private theorem toNat_sub_of_lt {before after : UInt32} (h : after < before) :
    (after - before).toNat = 2 ^ 32 - before.toNat + after.toNat := by
  have hlt : after.toNat < before.toNat := UInt32.lt_iff_toNat_lt.1 h
  have hbefore := before.toNat_lt
  rw [UInt32.toNat_sub, Nat.mod_eq_of_lt (by omega)]

/-- What the functions compute when the counter has wrapped: a tick is missing. -/
theorem toNat_cctIntervalUs_of_lt {ticksPerUs before after : UInt32} (h : after < before) :
    (cctIntervalUs ticksPerUs before after).toNat
      = ((after - before).toNat + ticksPerUs.toNat / 2 - 1) % 2 ^ 32 / ticksPerUs.toNat := by
  have hlt : after.toNat < before.toNat := UInt32.lt_iff_toNat_lt.1 h
  have hbefore := before.toNat_lt
  have hmax : (0xFFFFFFFF - before).toNat = 2 ^ 32 - 1 - before.toNat := by
    have hle : before ≤ 0xFFFFFFFF := by
      rw [UInt32.le_iff_toNat_le]
      exact Nat.le_of_lt_succ hbefore
    exact UInt32.toNat_sub_of_le _ _ hle
  rw [cctIntervalUs, if_neg (UInt32.not_le.2 h), UInt32.toNat_div, UInt32.toNat_add,
    UInt32.toNat_add, hmax, UInt32.toNat_div, toNat_sub_of_lt h, Nat.mod_add_mod]
  have hsum : after.toNat + (2 ^ 32 - 1 - before.toNat) + ticksPerUs.toNat / 2
      = 2 ^ 32 - before.toNat + after.toNat + ticksPerUs.toNat / 2 - 1 := by omega
  exact congrArg (fun x => x % 2 ^ 32 / ticksPerUs.toNat) hsum

/-- The interval is rounded as it should be exactly when it is `IntervalExact`. -/
private theorem toNat_cctIntervalUs_eq_iff {ticksPerUs : UInt32} (before after : UInt32)
    (hT : 0 < ticksPerUs) : (cctIntervalUs ticksPerUs before after).toNat
      = roundedUs ticksPerUs.toNat (after - before).toNat
      ↔ IntervalExact ticksPerUs before after := by
  have hT' : 0 < ticksPerUs.toNat := UInt32.lt_iff_toNat_lt.1 hT
  have hT32 := ticksPerUs.toNat_lt
  have hd := (after - before).toNat_lt
  unfold roundedUs IntervalExact
  by_cases hle : before ≤ after
  · rw [toNat_cctIntervalUs_of_le hle, if_pos hle]
    generalize (after - before).toNat + ticksPerUs.toNat / 2 = x
    rcases Nat.lt_or_ge x (2 ^ 32) with hsmall | hbig
    · simp only [Nat.mod_eq_of_lt hsmall, hsmall]
    · exact iff_of_false (mod_div_lt_div hT' hT32.le hbig).ne hbig.not_gt
  · have hlt := UInt32.not_le.1 hle
    have hpos : 0 < (after - before).toNat := by
      have hbefore := before.toNat_lt
      rw [toNat_sub_of_lt hlt]
      omega
    rw [toNat_cctIntervalUs_of_lt hlt, if_neg hle]
    generalize hx : (after - before).toNat + ticksPerUs.toNat / 2 = x
    rcases Nat.lt_or_ge (x - 1) (2 ^ 32) with hsmall | hbig
    · rw [Nat.mod_eq_of_lt hsmall, pred_div_eq_div_iff (by omega)]
      exact (and_iff_right (by omega)).symm
    · -- The quotient after the overflow is short by more than the missing tick explains.
      have hshort := mod_div_lt_div hT' hT32.le hbig
      have hpred : (x - 1) / ticksPerUs.toNat ≤ x / ticksPerUs.toNat :=
        Nat.div_le_div_right (Nat.sub_le x 1)
      refine iff_of_false (by omega) ?_
      rintro ⟨h, -⟩
      omega

/-- **An interval is rounded as it should be exactly when it is `IntervalExact`.** -/
theorem cctIntervalUs_eq_iff {ticksPerUs : UInt32} (before after : UInt32)
    (hT : 0 < ticksPerUs) :
    ((cctIntervalUs ticksPerUs before after).toNat
        = roundedUs ticksPerUs.toNat (after - before).toNat
      ↔ IntervalExact ticksPerUs before after) ∧
    ((cctElapsedUs ticksPerUs before after).toNat
        = roundedUs ticksPerUs.toNat (after - before).toNat
      ↔ IntervalExact ticksPerUs before after) :=
  ⟨toNat_cctIntervalUs_eq_iff before after hT, toNat_cctIntervalUs_eq_iff before after hT⟩

/-- A microsecond that ends after the counter has wrapped is measured as one with the clock of this
build. -/
theorem cctIntervalUs_eq_iff_wrapped :
    0 < cctTicksPerUs ∧ roundedUs 160 100 = 1 ∧
      (cctIntervalUs cctTicksPerUs 0xFFFFFFFF 99).toNat = roundedUs 160 100 ∧
      (cctElapsedUs cctTicksPerUs 0xFFFFFFFF 99).toNat = roundedUs 160 100 := by
  have hT : 0 < cctTicksPerUs := by decide
  obtain ⟨hinterval, helapsed⟩ := cctIntervalUs_eq_iff 0xFFFFFFFF 99 hT
  exact ⟨hT, rfl, hinterval.mpr (by decide), helapsed.mpr (by decide)⟩

/-- **Half a microsecond is no microsecond when the counter wraps in it.** -/
theorem not_cctIntervalUs_eq :
    ¬ ((cctIntervalUs cctTicksPerUs 0xFFFFFFFF 79).toNat
      = roundedUs cctTicksPerUs.toNat ((79 : UInt32) - 0xFFFFFFFF).toNat) := by
  decide

/-- Exact intervals are in the order of their ticks. -/
theorem cctIntervalUs_mono {ticksPerUs b a b' a' : UInt32} (hT : 0 < ticksPerUs)
    (h : IntervalExact ticksPerUs b a) (h' : IntervalExact ticksPerUs b' a')
    (hle : (a - b).toNat ≤ (a' - b').toNat) :
    cctIntervalUs ticksPerUs b a ≤ cctIntervalUs ticksPerUs b' a' := by
  rw [UInt32.le_iff_toNat_le, (toNat_cctIntervalUs_eq_iff b a hT).2 h,
    (toNat_cctIntervalUs_eq_iff b' a' hT).2 h']
  exact Nat.div_le_div_right (Nat.add_le_add_right hle _)

/-! ### Time since a marker -/

/-- The ticks between the start and a reading less than a period later. -/
theorem toNat_counterAt_sub (start : UInt32) {t : ℕ} (ht : t < 2 ^ 32) :
    (counterAt start t - start).toNat = t := by
  rw [counterAt, UInt32.add_comm, UInt32.add_sub_cancel, UInt32.toNat_ofNat_of_lt' ht]

section Elapsed

variable (ticksPerUs marker : UInt32) {t : ℕ}

/-- Where no sum overflows the result is the rounded one, with a tick missing at most. -/
theorem toNat_cctElapsedUs_bounds (ht : t + ticksPerUs.toNat / 2 < 2 ^ 32) :
    (t + ticksPerUs.toNat / 2 - 1) / ticksPerUs.toNat
        ≤ (cctElapsedUs ticksPerUs marker (counterAt marker t)).toNat ∧
      (cctElapsedUs ticksPerUs marker (counterAt marker t)).toNat
        ≤ (t + ticksPerUs.toNat / 2) / ticksPerUs.toNat := by
  have hsub := toNat_counterAt_sub marker (t := t) (by omega)
  rw [cctElapsedUs_eq_cctIntervalUs]
  by_cases hle : marker ≤ counterAt marker t
  · rw [toNat_cctIntervalUs_of_le hle, hsub, Nat.mod_eq_of_lt ht]
    exact ⟨Nat.div_le_div_right (Nat.sub_le _ 1), le_rfl⟩
  · rw [toNat_cctIntervalUs_of_lt (UInt32.not_le.1 hle), hsub, Nat.mod_eq_of_lt (by omega)]
    exact ⟨le_rfl, Nat.div_le_div_right (Nat.sub_le _ 1)⟩

/-- A time half a microsecond away from `us` is not measured as `us`. -/
theorem cctElapsedUs_lt (us : ℕ) (ht : t + ticksPerUs.toNat / 2 < 2 ^ 32)
    (hus : t + ticksPerUs.toNat / 2 < us * ticksPerUs.toNat) :
    (cctElapsedUs ticksPerUs marker (counterAt marker t)).toNat < us :=
  (toNat_cctElapsedUs_bounds ticksPerUs marker ht).2.trans_lt
    (Nat.div_lt_of_lt_mul (by rwa [mul_comm] at hus))

/-- A time of `us` microseconds is measured as `us` at least. -/
theorem le_cctElapsedUs (us : ℕ) (hT : 2 ≤ ticksPerUs.toNat)
    (ht : t + ticksPerUs.toNat / 2 < 2 ^ 32) (hus : us * ticksPerUs.toNat ≤ t) :
    us ≤ (cctElapsedUs ticksPerUs marker (counterAt marker t)).toNat := by
  refine le_trans ?_ (toNat_cctElapsedUs_bounds ticksPerUs marker ht).1
  rw [Nat.le_div_iff_mul_le (by omega)]
  omega

end Elapsed

/-! ### The busy wait -/

/-- The readings at these times advance by less than half a period each. -/
def ReadsAdvance (times : List ℕ) : Prop :=
  (0 :: times).IsChain fun t u => t ≤ u ∧ u < t + 2 ^ 31

/-- The readings up to the first one at or after the deadline lie in the period of the counter in
which the deadline lies. -/
def SamePeriod (start deadline : ℕ) : List ℕ → Prop
  | [] => True
  | t :: times =>
    (start + t) / 2 ^ 32 = (start + deadline) / 2 ^ 32 ∧
      (t < deadline → SamePeriod start deadline times)

/-- The loop ends as it should, from any time before the deadline on. -/
private theorem cctDelayUsLoop_eq_iff {entry wait : UInt32} {deadline : ℕ}
    (hwait : wait.toNat = (entry.toNat + deadline) % 2 ^ 32) (hdeadline : deadline < 2 ^ 32)
    (times : List ℕ) (now : ℕ) (hnow : now ≤ deadline)
    (h : (now :: times).IsChain fun t u => t ≤ u ∧ u < t + 2 ^ 31) :
    cctDelayUsLoop wait (times.map (counterAt entry)) = times.findIdx? (deadline ≤ ·)
      ↔ SamePeriod entry.toNat deadline times := by
  induction times generalizing now with
  | nil => simp [cctDelayUsLoop, SamePeriod]
  | cons t times ih =>
    rw [List.isChain_cons_cons] at h
    obtain ⟨⟨-, ht⟩, htimes⟩ := h
    have hentry := entry.toNat_lt
    have hread : (counterAt entry t < wait ↔ t < deadline)
        ↔ (entry.toNat + t) / 2 ^ 32 = (entry.toNat + deadline) / 2 ^ 32 := by
      rw [UInt32.lt_iff_toNat_lt, toNat_counterAt, hwait,
        ← Wrapping.le_iff_of_period hentry (by omega) (by omega) (by omega)]
      constructor <;> intro hiff <;> omega
    simp only [List.map_cons, cctDelayUsLoop, List.findIdx?_cons, SamePeriod, decide_eq_true_eq]
    rw [← hread]
    by_cases hearly : t < deadline
    · have hmap : Function.Injective (Option.map (· + 1) : Option ℕ → Option ℕ) :=
        Option.map_injective (add_left_injective 1)
      rw [if_neg (Nat.not_le.2 hearly)]
      by_cases hloop : counterAt entry t < wait
      · simp only [hloop, hearly, if_true, forall_const, true_and, hmap.eq_iff]
        exact ih t hearly.le htimes
      · -- The loop ends with this reading.
        simp [hloop, hearly, eq_comm]
    · rw [if_pos (Nat.not_lt.1 hearly)]
      by_cases hloop : counterAt entry t < wait <;> simp [hloop, hearly]

/-- **The busy wait ends with the first reading at or after the deadline exactly when the readings
until then lie in the period of the deadline.** -/
theorem cctDelayUs_eq_iff (ticksPerUs us entry : UInt32) {times : List ℕ}
    (hus : ticksPerUs.toNat * us.toNat < 2 ^ 32) (htimes : ReadsAdvance times) :
    cctDelayUs ticksPerUs us entry (times.map (counterAt entry))
        = times.findIdx? (ticksPerUs.toNat * us.toNat ≤ ·)
      ↔ SamePeriod entry.toNat (ticksPerUs.toNat * us.toNat) times := by
  refine cctDelayUsLoop_eq_iff ?_ hus times 0 (Nat.zero_le _) htimes
  rw [UInt32.toNat_add, UInt32.toNat_mul, Nat.mod_eq_of_lt hus, add_comm]

/-- A wait of a microsecond that ends before the counter wraps ends with the second reading. -/
theorem cctDelayUs_eq_iff_one :
    160 * 1 < 2 ^ 32 ∧ ReadsAdvance [100, 200] ∧ [100, 200].findIdx? (160 ≤ ·) = some 1 ∧
      cctDelayUs cctTicksPerUs 1 0 ([100, 200].map (counterAt 0)) =
        [100, 200].findIdx? (160 ≤ ·) := by
  have htimes : ReadsAdvance [100, 200] := by simp [ReadsAdvance]
  have hsame : SamePeriod 0 160 [100, 200] := by simp [SamePeriod]
  exact ⟨by decide, htimes, by decide,
    (cctDelayUs_eq_iff cctTicksPerUs 1 0 (by decide) htimes).mpr hsame⟩

/-- **A wait of a microsecond ends after ten ticks when its deadline lies after a wrap.** -/
theorem not_cctDelayUs_eq :
    ReadsAdvance [10] ∧
      ¬ cctDelayUs cctTicksPerUs 1 0xFFFFFF9C ([10].map (counterAt 0xFFFFFF9C))
        = [10].findIdx? (cctTicksPerUs.toNat * (1 : UInt32).toNat ≤ ·) :=
  ⟨by simp [ReadsAdvance], by decide⟩

end GpsTracker
