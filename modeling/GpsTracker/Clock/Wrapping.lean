import Mathlib.Data.Nat.ModEq
import Mathlib.Tactic.Common

/-!
# Counters that wrap

A counter with `M` values that is read at a true time `X` shows `X % M`. Two readings that lie in
the same period of the counter are in the order of their true times. For a deadline less than a
period after the start, and readings after the start that do not run a period past the deadline,
nothing else puts them in this order (`Wrapping.le_iff_of_period`).

## Main results

* `Wrapping.mod_le_mod_iff`, `Wrapping.le_iff_of_period`.
-/

namespace Wrapping

variable {M : ℕ}

/-- Readings in one period are in the order of their times. -/
theorem mod_le_mod_iff {X Y : ℕ} (h : X / M = Y / M) : X % M ≤ Y % M ↔ X ≤ Y := by
  have hX := Nat.div_add_mod X M
  have hY := Nat.div_add_mod Y M
  rw [h] at hX
  omega

/-- **Readings are in the order of their times exactly when they lie in one period.** The start is
`e`, the deadline is `E`, less than a period later, and the reading is made at the time `X`. -/
theorem le_iff_of_period {e E X : ℕ} (he : e < M) (hEM : E < e + M) (hX : e ≤ X)
    (hXM : X < E + M) : (E % M ≤ X % M ↔ E ≤ X) ↔ X / M = E / M := by
  have hM : 0 < M := Nat.zero_lt_of_lt he
  refine ⟨fun h => ?_, fun h => mod_le_mod_iff h.symm⟩
  have hEd := Nat.div_add_mod E M
  have hXd := Nat.div_add_mod X M
  have hEm := Nat.mod_lt E hM
  have hXm := Nat.mod_lt X hM
  -- The times are less than a period apart, so the periods are the same or follow each other.
  rcases Nat.lt_trichotomy (X / M) (E / M) with hlt | heq | hgt
  · have hmul : M * (X / M) + M ≤ M * (E / M) := by
      rw [← Nat.mul_succ]
      exact Nat.mul_le_mul_left M hlt
    omega
  · exact heq
  · have hmul : M * (E / M) + M ≤ M * (X / M) := by
      rw [← Nat.mul_succ]
      exact Nat.mul_le_mul_left M hgt
    omega

end Wrapping
