import Mathlib.Data.List.Infix
import Mathlib.Tactic.Common

/-!
# The first occurrence of a pattern

The position at which a pattern occurs first in a text. It does not depend on what follows this
occurrence, and a prefix of the text that does not contain the whole of it contains no occurrence
(`firstOccurrence_take`).

## Main definitions

* `firstOccurrence`.

## Main results

* `firstOccurrence_eq_some_iff`.
* `firstOccurrence_take`, `firstOccurrence_append`, `firstOccurrence_append_of_head_notMem`.
-/

section Occurrence

variable {α : Type*} [DecidableEq α] {pat xs : List α} {n : ℕ}

/-- The position at which `pat` occurs first in `xs`. -/
def firstOccurrence (pat xs : List α) : Option ℕ :=
  xs.tails.findIdx? fun ys => pat <+: ys

theorem firstOccurrence_eq_some_iff : firstOccurrence pat xs = some n ↔
    n ≤ xs.length ∧ pat <+: xs.drop n ∧ ∀ m < n, ¬ pat <+: xs.drop m := by
  simp only [firstOccurrence, List.findIdx?_eq_some_iff_getElem, List.getElem_tails,
    List.length_tails, decide_eq_true_eq, exists_prop, Nat.lt_succ_iff]

/-- The occurrence ends inside the text. -/
theorem add_length_le_of_firstOccurrence (h : firstOccurrence pat xs = some n) :
    n + pat.length ≤ xs.length := by
  obtain ⟨hn, hpat, -⟩ := firstOccurrence_eq_some_iff.mp h
  have hle := hpat.length_le
  rw [List.length_drop] at hle
  omega

/-- **A prefix of the text contains the first occurrence, or none.** -/
theorem firstOccurrence_take (h : firstOccurrence pat xs = some n) (k : ℕ) :
    firstOccurrence pat (xs.take k) = if n + pat.length ≤ k then some n else none := by
  obtain ⟨hn, hpat, hfirst⟩ := firstOccurrence_eq_some_iff.mp h
  have hdrop : ∀ m, pat <+: (xs.take k).drop m ↔ pat <+: xs.drop m ∧ pat.length ≤ k - m := by
    intro m
    rw [List.drop_take, List.prefix_take_iff]
  split
  next hk =>
    have hlen := add_length_le_of_firstOccurrence h
    refine firstOccurrence_eq_some_iff.mpr ⟨?_, (hdrop n).mpr ⟨hpat, by omega⟩, fun m hm hm' => ?_⟩
    · rw [List.length_take]
      omega
    · exact hfirst m hm ((hdrop m).mp hm').1
  next hk =>
    rw [Option.eq_none_iff_forall_ne_some]
    intro m hm
    obtain ⟨hmle, hmpat, -⟩ := firstOccurrence_eq_some_iff.mp hm
    obtain ⟨hmxs, hmk⟩ := (hdrop m).mp hmpat
    rw [List.length_take] at hmle
    have hnm : n ≤ m := Nat.not_lt.mp fun hlt => hfirst m hlt hmxs
    omega

/-- What follows the first occurrence does not matter. -/
theorem firstOccurrence_append (h : firstOccurrence pat xs = some n) (ys : List α) :
    firstOccurrence pat (xs ++ ys) = some n := by
  obtain ⟨hn, hpat, hfirst⟩ := firstOccurrence_eq_some_iff.mp h
  have hlen := add_length_le_of_firstOccurrence h
  refine firstOccurrence_eq_some_iff.mpr ⟨?_, ?_, fun m hm hm' => hfirst m hm ?_⟩
  · rw [List.length_append]
    omega
  · rw [List.drop_append_of_le_length hn]
    exact hpat.trans (List.prefix_append _ _)
  · rw [List.drop_append_of_le_length (by omega)] at hm'
    refine List.prefix_of_prefix_length_le hm' (List.prefix_append _ _) ?_
    rw [List.length_drop]
    omega

/-- A symbol at which the pattern does not occur. -/
theorem firstOccurrence_cons {x : α} (hx : ¬ pat <+: x :: xs)
    (h : firstOccurrence pat xs = some n) : firstOccurrence pat (x :: xs) = some (n + 1) := by
  obtain ⟨hn, hpat, hfirst⟩ := firstOccurrence_eq_some_iff.mp h
  refine firstOccurrence_eq_some_iff.mpr ⟨Nat.succ_le_succ hn, hpat, ?_⟩
  rintro (_ | m) hm
  · exact hx
  · exact hfirst m (Nat.lt_of_succ_lt_succ hm)

/-- Symbols among which the first one of the pattern is not. -/
theorem firstOccurrence_append_of_head_notMem (hne : pat ≠ []) (ys : List α)
    (hhead : pat.head hne ∉ ys) (h : firstOccurrence pat xs = some n) :
    firstOccurrence pat (ys ++ xs) = some (ys.length + n) := by
  induction ys with
  | nil => rw [List.nil_append, h, List.length_nil, Nat.zero_add]
  | cons y ys ih =>
    have hy : ¬ pat <+: y :: (ys ++ xs) := by
      intro hpre
      have hy : pat.head hne = y := hpre.head hne
      exact hhead (hy ▸ List.mem_cons_self)
    rw [List.cons_append, List.length_cons, Nat.add_right_comm]
    exact firstOccurrence_cons hy (ih (List.not_mem_of_not_mem_cons hhead))

end Occurrence
