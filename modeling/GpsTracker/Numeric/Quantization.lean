import Mathlib.Data.Rat.Floor

/-!
# Quantization

A number is *quantized* by counting the whole steps of a given width that fit below it. The number
that the count stands for is at most the given one, and less than a step below it. Quantization
keeps the order, and separates numbers that are a step apart or more.

An integer that is multiplied by `a` and divided by `b`, rounding down, has been quantized with the
step `b / a` (`quantize_div`).

## Main definitions

* `quantize`.

## Main results

* `quantize_mul_le`, `sub_lt_quantize_mul`, `quantize_le_quantize`, `quantize_lt_quantize`.
* `quantize_lt_iff`, `quantize_div`.
-/

section Quantize

variable {K : Type*} [Field K] [LinearOrder K] [IsStrictOrderedRing K] [FloorRing K]
  {step x y : K}

/-- The number of whole steps below a number. -/
def quantize (step x : K) : ℤ := ⌊x / step⌋

theorem quantize_mul_le (hstep : 0 < step) : quantize step x * step ≤ x :=
  sub_nonneg.mp (Int.sub_floor_div_mul_nonneg x hstep)

theorem sub_lt_quantize_mul (hstep : 0 < step) : x - step < quantize step x * step :=
  sub_lt_comm.mp (Int.sub_floor_div_mul_lt x hstep)

/-- **Quantization keeps the order.** -/
theorem quantize_le_quantize (hstep : 0 ≤ step) (hxy : x ≤ y) : quantize step x ≤ quantize step y :=
  Int.floor_mono (div_le_div_of_nonneg_right hxy hstep)

/-- **Numbers that are a step apart are separated.** -/
theorem quantize_lt_quantize (hstep : 0 < step) (hxy : step ≤ y - x) :
    quantize step x < quantize step y := by
  have hsucc : quantize step (x + step) = quantize step x + 1 := by
    rw [quantize, add_div, div_self hstep.ne', Int.floor_add_one, quantize]
  have hle : quantize step (x + step) ≤ quantize step y :=
    quantize_le_quantize hstep.le (le_sub_iff_add_le'.mp hxy)
  rw [hsucc] at hle
  exact Int.add_one_le_iff.mp hle

/-- The range of the count is that of the number. -/
theorem quantize_lt_iff (hstep : 0 < step) {n : ℤ} : quantize step x < n ↔ x < n * step := by
  rw [quantize, Int.floor_lt, div_lt_iff₀ hstep]

end Quantize

/-- The quantization of an integer by a multiplication and a division. -/
theorem quantize_div (x : ℤ) (a b : ℕ) : quantize ((b : ℚ) / a) x = x * a / b := by
  have hquot : (x : ℚ) / (b / a) = ((x * a : ℤ) : ℚ) / b := by
    rw [div_div_eq_mul_div, Int.cast_mul, Int.cast_natCast]
  rw [quantize, hquot, Rat.floor_intCast_div_natCast]
