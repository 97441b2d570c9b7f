import Mathlib.Data.List.Induction
import Mathlib.Logic.Function.Basic
import Mathlib.Tactic.Common

/-!
# Masked writes

A register of `w` bits holds several settings, each in bits of its own. A setting is changed by a
*masked write*, which reads the register, replaces the bits of a mask and writes it back. Masked
writes to different registers, or with disjoint masks, commute (`MaskedWrite.applyAll_append_comm`),
and what a masked write does to a field is known if its mask covers the field or avoids it
(`MaskedWrite.apply_and_of_covers`, `MaskedWrite.apply_and_of_avoids`).

After some commands of which each either determines what is observed of the state or leaves it as it
is, the last one that determines it has the last word (`foldl_lastWriter`).

## Main definitions

* `mergeBits` : a word with the bits of a mask replaced.
* `MaskedWrite`, `MaskedWrite.apply`, `MaskedWrite.applyAll`, `MaskedWrite.Independent`.

## Main results

* `MaskedWrite.applyAll_append_comm`.
* `foldl_lastWriter`.
-/

/-! ### Replacing the bits of a mask -/

section MergeBits

variable {w : ℕ} (mask value old m : BitVec w)

/-- The word `old` with the bits of the mask replaced by those of `value`. -/
def mergeBits : BitVec w := (old &&& ~~~mask) ||| (value &&& mask)

theorem getElem_mergeBits {i : ℕ} (hi : i < w) :
    (mergeBits mask value old)[i] = if mask[i] then value[i] else old[i] := by
  cases h : mask[i] <;> simp [mergeBits, h]

/-- Setting all bits of the mask. -/
theorem mergeBits_self : mergeBits mask mask old = old ||| mask := by
  ext i hi
  rw [getElem_mergeBits, BitVec.getElem_or]
  cases mask[i] <;> simp

/-- Clearing all bits of the mask. -/
theorem mergeBits_zero : mergeBits mask 0#w old = old &&& ~~~mask := by
  rw [mergeBits, BitVec.zero_and, BitVec.or_zero]

/-- Replacing all bits. -/
theorem mergeBits_allOnes : mergeBits (BitVec.allOnes w) value old = value := by
  rw [mergeBits, BitVec.not_allOnes, BitVec.and_zero, BitVec.zero_or, BitVec.and_allOnes]

variable {mask m}

/-- The bits of a field that the mask covers are replaced. -/
theorem mergeBits_and_of_covers (h : m &&& ~~~mask = 0#w) :
    mergeBits mask value old &&& m = value &&& m := by
  ext i hi
  have hbit : (m &&& ~~~mask)[i] = (0#w)[i] := by rw [h]
  rw [BitVec.getElem_and, BitVec.getElem_not, BitVec.getElem_zero] at hbit
  rw [BitVec.getElem_and, BitVec.getElem_and, getElem_mergeBits]
  cases hm : m[i] <;> simp_all

/-- The bits of a field that the mask avoids stay as they are. -/
theorem mergeBits_and_of_avoids (h : m &&& mask = 0#w) :
    mergeBits mask value old &&& m = old &&& m := by
  ext i hi
  have hbit : (m &&& mask)[i] = (0#w)[i] := by rw [h]
  rw [BitVec.getElem_and, BitVec.getElem_zero] at hbit
  rw [BitVec.getElem_and, BitVec.getElem_and, getElem_mergeBits]
  cases hm : m[i] <;> simp_all

/-- Disjoint masks may be replaced in any order. -/
theorem mergeBits_comm {mask' : BitVec w} (value' : BitVec w) (h : mask &&& mask' = 0#w) :
    mergeBits mask value (mergeBits mask' value' old) =
      mergeBits mask' value' (mergeBits mask value old) := by
  ext i hi
  have hbit : (mask &&& mask')[i] = (0#w)[i] := by rw [h]
  rw [BitVec.getElem_and, BitVec.getElem_zero] at hbit
  simp only [getElem_mergeBits]
  cases hm : mask[i] <;> simp_all

end MergeBits

/-! ### Masked writes -/

/-- A write of some bits of a register. -/
structure MaskedWrite (ι : Type*) (w : ℕ) where
  reg : ι
  mask : BitVec w
  value : BitVec w

namespace MaskedWrite

variable {ι : Type*} {w : ℕ}

/-- The writes do not touch the same bits. -/
def Independent (a b : MaskedWrite ι w) : Prop := a.reg = b.reg → a.mask &&& b.mask = 0#w

instance [DecidableEq ι] (a b : MaskedWrite ι w) : Decidable (a.Independent b) :=
  inferInstanceAs (Decidable (_ → _))

variable [DecidableEq ι]

/-- The registers after a write. -/
def apply (a : MaskedWrite ι w) (s : ι → BitVec w) : ι → BitVec w :=
  Function.update s a.reg (mergeBits a.mask a.value (s a.reg))

/-- The registers after some writes. -/
def applyAll (as : List (MaskedWrite ι w)) (s : ι → BitVec w) : ι → BitVec w :=
  as.foldl (fun s a => a.apply s) s

variable (a b : MaskedWrite ι w) (s : ι → BitVec w) {r : ι} {m : BitVec w}

theorem apply_of_ne (h : r ≠ a.reg) : a.apply s r = s r :=
  Function.update_of_ne h ..

theorem apply_self : a.apply s a.reg = mergeBits a.mask a.value (s a.reg) :=
  Function.update_self ..

/-- A write that covers a field determines it. -/
theorem apply_and_of_covers (h : m &&& ~~~a.mask = 0#w) :
    a.apply s a.reg &&& m = a.value &&& m := by
  rw [apply_self, mergeBits_and_of_covers _ _ h]

/-- A write that avoids a field leaves it as it is. -/
theorem apply_and_of_avoids (h : r = a.reg → m &&& a.mask = 0#w) :
    a.apply s r &&& m = s r &&& m := by
  by_cases hr : r = a.reg
  · rw [hr, apply_self, mergeBits_and_of_avoids _ _ (h hr)]
  · rw [apply_of_ne a s hr]

/-- Writes of other registers. -/
theorem applyAll_of_ne {as : List (MaskedWrite ι w)} (h : ∀ a ∈ as, r ≠ a.reg) :
    applyAll as s r = s r := by
  induction as generalizing s with
  | nil => rfl
  | cons a as ih =>
    simp only [List.mem_cons, forall_eq_or_imp] at h
    exact (ih (a.apply s) h.2).trans (a.apply_of_ne s h.1)

/-- Writes that avoid a field leave it as it is. -/
theorem applyAll_and_of_avoids {as : List (MaskedWrite ι w)}
    (h : ∀ a ∈ as, r = a.reg → m &&& a.mask = 0#w) : applyAll as s r &&& m = s r &&& m := by
  induction as generalizing s with
  | nil => rfl
  | cons a as ih =>
    simp only [List.mem_cons, forall_eq_or_imp] at h
    exact (ih (a.apply s) h.2).trans (a.apply_and_of_avoids s h.1)

/-- The last write that covers a field determines it. -/
theorem applyAll_and_of_covers {as bs : List (MaskedWrite ι w)} (h : m &&& ~~~a.mask = 0#w)
    (hbs : ∀ b ∈ bs, a.reg = b.reg → m &&& b.mask = 0#w) :
    applyAll (as ++ a :: bs) s a.reg &&& m = a.value &&& m := by
  rw [applyAll, List.foldl_append, List.foldl_cons]
  exact (applyAll_and_of_avoids _ hbs).trans (a.apply_and_of_covers _ h)

variable {a b}

theorem apply_comm (h : a.Independent b) : a.apply (b.apply s) = b.apply (a.apply s) := by
  funext r
  by_cases hab : a.reg = b.reg
  · by_cases hr : r = a.reg
    · subst hr
      have hmask := mergeBits_comm a.value (s a.reg) b.value (h hab)
      simpa [apply, hab] using hmask
    · simp [apply, hr, hab ▸ hr]
  · by_cases hr : r = a.reg
    · subst hr
      simp [apply, hab]
    · by_cases hr' : r = b.reg
      · subst hr'
        simp [apply, Ne.symm hab]
      · simp [apply, hr, hr']

/-- **Independent writes commute.** -/
theorem applyAll_append_comm {as bs : List (MaskedWrite ι w)}
    (h : ∀ a ∈ as, ∀ b ∈ bs, a.Independent b) :
    applyAll (as ++ bs) s = applyAll (bs ++ as) s := by
  have hone : ∀ (bs : List (MaskedWrite ι w)) (a : MaskedWrite ι w) (s : ι → BitVec w),
      (∀ b ∈ bs, a.Independent b) → applyAll bs (a.apply s) = a.apply (applyAll bs s) := by
    intro bs a
    induction bs with
    | nil => intro s _; rfl
    | cons b bs ih =>
      intro s hb
      simp only [List.mem_cons, forall_eq_or_imp] at hb
      rw [applyAll, List.foldl_cons, ← apply_comm _ hb.1]
      exact ih _ hb.2
  induction as generalizing s with
  | nil => simp
  | cons a as ih =>
    simp only [List.mem_cons, forall_eq_or_imp] at h
    calc applyAll (a :: as ++ bs) s = applyAll (as ++ bs) (a.apply s) := rfl
      _ = applyAll as (applyAll bs (a.apply s)) := by
        rw [ih _ h.2, applyAll, List.foldl_append]; rfl
      _ = applyAll as (a.apply (applyAll bs s)) := by rw [hone bs a s h.1]
      _ = applyAll (bs ++ a :: as) s := by rw [applyAll, applyAll, applyAll, List.foldl_append]; rfl

end MaskedWrite

/-! ### The last command -/

/-- **The last command that determines an observation has the last word.** -/
theorem foldl_lastWriter {σ γ β : Type*} {step : σ → γ → σ} (observe : σ → β)
    (determines : γ → Option β)
    (h : ∀ s c, observe (step s c) = (determines c).getD (observe s)) (cs : List γ) (s : σ) :
    observe (cs.foldl step s) = (cs.filterMap determines).getLast?.getD (observe s) := by
  induction cs using List.reverseRecOn with
  | nil => rfl
  | append_singleton cs c ih =>
    rw [List.foldl_append, List.foldl_cons, List.foldl_nil, h, ih, List.filterMap_append]
    rcases hc : determines c with _ | b <;> simp [hc]
