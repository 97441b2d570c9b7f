import Mathlib.Data.List.Induction
import GpsTracker.Stream.Transducer

/-!
# What has happened since

A flag that some events set and others clear is determined by the last such event. `Since p q` says
of a history that an event with the property `p` has happened and none with the property `q` after
it. A component of the state that follows this recursion step by step agrees with the history after
every run (`Transducer.iff_since_of_run`).

## Main definitions

* `Since`.

## Main results

* `since_append_singleton`, `Transducer.iff_since_of_run`.
-/

variable {α β σ : Type*} {p q : α → Prop}

/-- An event with the property `p` has happened, and none with the property `q` since. -/
def Since (p q : α → Prop) (xs : List α) : Prop :=
  ∃ pre x post, xs = pre ++ x :: post ∧ p x ∧ ∀ y ∈ post, ¬ q y

theorem not_since_nil : ¬ Since p q [] := by
  rintro ⟨pre, x, post, h, -⟩
  exact List.append_ne_nil_of_right_ne_nil pre (List.cons_ne_nil x post) h.symm

/-- **One event more.** -/
theorem since_append_singleton (xs : List α) (y : α) :
    Since p q (xs ++ [y]) ↔ p y ∨ Since p q xs ∧ ¬ q y := by
  constructor
  · rintro ⟨pre, x, post, h, hx, hpost⟩
    rcases List.eq_nil_or_concat post with rfl | ⟨post, z, rfl⟩
    · obtain ⟨-, rfl⟩ := List.append_singleton_inj.mp h
      exact .inl hx
    · rw [List.concat_eq_append] at h hpost
      rw [← List.cons_append, ← List.append_assoc] at h
      obtain ⟨rfl, rfl⟩ := List.append_singleton_inj.mp h
      exact .inr ⟨⟨pre, x, post, rfl, hx, fun w hw => hpost w (List.mem_append_left _ hw)⟩,
        hpost y (by simp)⟩
  · rintro (hy | ⟨⟨pre, x, post, rfl, hx, hpost⟩, hy⟩)
    · exact ⟨xs, y, [], rfl, hy, by simp⟩
    · refine ⟨pre, x, post ++ [y], by simp, hx, fun z hz => ?_⟩
      rcases List.mem_append.mp hz with hz | hz
      · exact hpost z hz
      · exact List.mem_singleton.mp hz ▸ hy

/-- **The rule for flags.** A property of states that is false at first, and that each step sets,
clears or keeps according to its event, tells after a run what has happened since. -/
theorem Transducer.iff_since_of_run {M : Transducer σ α β} {P : σ → Prop} {s t : σ} (hs : ¬ P s)
    (hstep : ∀ s x t os, M.step s x = some (t, os) → (P t ↔ p x ∨ P s ∧ ¬ q x)) {xs : List α}
    {os : List β} (hrun : M.run s xs = some (t, os)) : P t ↔ Since p q xs := by
  induction xs using List.reverseRecOn generalizing t os with
  | nil =>
    obtain ⟨rfl, -⟩ : s = t ∧ [] = os := by simpa using hrun
    exact iff_of_false hs not_since_nil
  | append_singleton xs x ih =>
    rw [Transducer.run_append] at hrun
    obtain ⟨⟨u, os'⟩, hxs, hrun⟩ := Option.bind_eq_some_iff.mp hrun
    rw [Transducer.run_singleton] at hrun
    obtain ⟨⟨v, o⟩, hx, hv⟩ := Option.map_eq_some_iff.mp hrun
    obtain ⟨rfl, -⟩ : v = t ∧ os' ++ o = os := by simpa using hv
    rw [since_append_singleton, hstep u x v o hx, ih hxs]
