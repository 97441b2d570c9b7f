import Mathlib.Data.List.Basic
import Mathlib.Data.List.Induction

/-!
# Partial transducers

A *transducer* reads one input symbol at a time, changes its state and emits a list of output
symbols. Its step is partial: `none` is a step whose effect is undefined, such as an access
outside an array. A run over a list of symbols is defined when every step of it is.

The rules of this file are the ones by which a byte-driven program is verified. A run over a
concatenation is the run over the parts (`Transducer.run_append`), so that the way an input is cut
into blocks does not matter. A predicate on the input read, the output emitted and the state
reached, preserved by every step and excluding undefined steps, holds after every input, and every
run is then defined (`Transducer.run_invariant`). Two machines related by a simulation emit related
outputs (`Transducer.run_simulation`), and a machine that refines a specification makes all its runs
(`Transducer.run_refines`).

## Main definitions

* `Transducer`, `Transducer.run`.

## Main results

* `Transducer.run_append`.
* `Transducer.run_invariant`, `Transducer.run_induction`, `Transducer.run_iff`,
  `Transducer.run_simulation`, `Transducer.run_refines`.
-/

/-- A transducer with states `σ`, input symbols `α` and output symbols `β`, whose step may be
undefined. -/
structure Transducer (σ α β : Type*) where
  /-- The state after one input symbol and the symbols emitted, or `none`. -/
  step : σ → α → Option (σ × List β)

namespace Transducer

variable {σ τ α β γ : Type*} (M : Transducer σ α β)

/-- The state reached from `s` after the input and everything emitted on the way. -/
def run : σ → List α → Option (σ × List β)
  | s, [] => some (s, [])
  | s, x :: xs => (M.step s x).bind fun p => (run p.1 xs).map fun q => (q.1, p.2 ++ q.2)

@[simp] theorem run_nil (s : σ) : M.run s [] = some (s, []) := rfl

theorem run_cons (s : σ) (x : α) (xs : List α) :
    M.run s (x :: xs) =
      (M.step s x).bind fun p => (M.run p.1 xs).map fun q => (q.1, p.2 ++ q.2) := rfl

/-- **A run over a concatenation is a run over the parts.** -/
theorem run_append (s : σ) (xs ys : List α) :
    M.run s (xs ++ ys) =
      (M.run s xs).bind fun p => (M.run p.1 ys).map fun q => (q.1, p.2 ++ q.2) := by
  induction xs generalizing s with
  | nil => cases h : M.run s ys <;> simp [h]
  | cons x xs ih =>
    simp only [List.cons_append, run_cons]
    cases M.step s x with
    | none => rfl
    | some p =>
      simp only [Option.bind_some, ih]
      cases M.run p.1 xs with
      | none => rfl
      | some q =>
        simp only [Option.bind_some, Option.map_some]
        cases M.run q.1 ys with
        | none => rfl
        | some r => simp only [Option.map_some, List.append_assoc]

theorem run_singleton (s : σ) (x : α) : M.run s [x] = M.step s x := by
  rw [run_cons]
  cases M.step s x with
  | none => rfl
  | some p => simp only [Option.bind_some, run_nil, Option.map_some, List.append_nil]

variable {M}

theorem run_append_of_eq_some {s t : σ} {xs : List α} {os : List β}
    (h : M.run s xs = some (t, os)) (ys : List α) :
    M.run s (xs ++ ys) = (M.run t ys).map fun q => (q.1, os ++ q.2) := by
  rw [run_append, h, Option.bind_some]

/-- One more symbol of a defined run is one more step. -/
theorem run_concat_of_eq_some {s t u : σ} {xs : List α} {os o : List β} {x : α}
    (h : M.run s xs = some (t, os)) (hx : M.step t x = some (u, o)) :
    M.run s (xs ++ [x]) = some (u, os ++ o) := by
  rw [run_append_of_eq_some h, run_singleton, hx, Option.map_some]

/-- **The invariant rule.** A predicate on the input read, the output emitted and the state that
holds at the start, forbids undefined steps and is preserved by the defined ones holds after every
input, and every run is defined. -/
theorem run_invariant {s : σ} (Inv : List α → List β → σ → Prop) (h0 : Inv [] [] s)
    (hstep : ∀ xs os t x, Inv xs os t →
      ∃ u o, M.step t x = some (u, o) ∧ Inv (xs ++ [x]) (os ++ o) u) (xs : List α) :
    ∃ t os, M.run s xs = some (t, os) ∧ Inv xs os t := by
  induction xs using List.reverseRecOn with
  | nil => exact ⟨s, [], rfl, h0⟩
  | append_singleton xs x ih =>
    obtain ⟨t, os, hrun, hinv⟩ := ih
    obtain ⟨u, o, hx, hinv'⟩ := hstep xs os t x hinv
    exact ⟨u, os ++ o, run_concat_of_eq_some hrun hx, hinv'⟩

/-- **The invariant rule for a given run.** The steps that have to preserve the predicate are those
that the run makes. -/
theorem run_induction {s t : σ} {zs : List α} {os : List β} (Inv : List β → σ → Prop)
    (h0 : Inv [] s)
    (hstep : ∀ xs ys t os x u o, zs = xs ++ x :: ys → M.run s xs = some (t, os) → Inv os t →
      M.step t x = some (u, o) → Inv (os ++ o) u)
    (hrun : M.run s zs = some (t, os)) : Inv os t := by
  induction zs using List.reverseRecOn generalizing t os with
  | nil =>
    obtain ⟨rfl, rfl⟩ : s = t ∧ [] = os := by simpa using hrun
    exact h0
  | append_singleton xs x ih =>
    rw [run_append] at hrun
    obtain ⟨⟨u, os'⟩, hxs, hrun⟩ := Option.bind_eq_some_iff.mp hrun
    rw [run_singleton] at hrun
    obtain ⟨⟨v, o⟩, hx, hvo⟩ := Option.map_eq_some_iff.mp hrun
    obtain ⟨rfl, rfl⟩ : v = t ∧ os' ++ o = os := by simpa using hvo
    refine hstep xs [] u os' x v o rfl hxs (ih (fun as bs => ?_) hxs) hx
    rintro t os y w o rfl
    exact hstep as (bs ++ [x]) t os y w o (by simp)

/-- **The rule of a predicate that is lost for good.** If a step loses the predicate exactly when
it meets a condition, and none restores it, then it holds after a run exactly if it held before and
no step of the run has met the condition. -/
theorem run_iff {P : σ → Prop} {Lost : σ → α → Prop}
    (hstep : ∀ s x t o, M.step s x = some (t, o) → (P t ↔ P s ∧ ¬ Lost s x)) {s t : σ}
    {zs : List α} {os : List β} (hrun : M.run s zs = some (t, os)) :
    P t ↔ P s ∧ ∀ xs x ys u us, zs = xs ++ x :: ys → M.run s xs = some (u, us) → ¬ Lost u x := by
  induction zs generalizing s os with
  | nil =>
    obtain ⟨rfl, -⟩ : s = t ∧ [] = os := by simpa using hrun
    simp
  | cons z zs ih =>
    rw [run_cons] at hrun
    obtain ⟨⟨v, o⟩, hz, hrun⟩ := Option.bind_eq_some_iff.mp hrun
    obtain ⟨⟨w, os'⟩, hzs, hw⟩ := Option.map_eq_some_iff.mp hrun
    obtain ⟨rfl, -⟩ : w = t ∧ o ++ os' = os := by simpa using hw
    have hcons : ∀ xs, M.run s (z :: xs) = (M.run v xs).map fun q => (q.1, o ++ q.2) := by
      intro xs
      rw [run_cons, hz, Option.bind_some]
    rw [ih hzs, hstep s z v o hz, and_assoc]
    refine and_congr_right fun _ => ⟨?_, fun h => ⟨h [] z zs s [] rfl rfl, ?_⟩⟩
    · rintro ⟨hfirst, hrest⟩ (_ | ⟨y, xs⟩) x ys u us heq hxs
      · obtain ⟨rfl, -⟩ := List.cons.inj heq
        obtain ⟨rfl, -⟩ : s = u ∧ [] = us := by simpa using hxs
        exact hfirst
      · obtain ⟨rfl, rfl⟩ := List.cons.inj heq
        rw [hcons] at hxs
        obtain ⟨⟨u', us'⟩, hxs', hu⟩ := Option.map_eq_some_iff.mp hxs
        obtain ⟨rfl, -⟩ : u' = u ∧ o ++ us' = us := by simpa using hu
        exact hrest xs x ys u' us' rfl hxs'
    · rintro xs x ys u us rfl hxs
      exact h (z :: xs) x ys u (o ++ us) rfl (by rw [hcons, hxs, Option.map_some])

/-- **The simulation rule.** Let the relation `R` between the states of two machines depend on what
the second one has emitted. If every symbol takes related states to related states, the first
machine emitting the image under `f` of what the second emits, then so does every input. -/
theorem run_simulation {N : Transducer τ α γ} (R : List γ → σ → τ → Prop) (f : γ → β)
    (hstep : ∀ os s t x, R os s t → ∃ s' t' o,
      M.step s x = some (s', o.map f) ∧ N.step t x = some (t', o) ∧ R (os ++ o) s' t')
    {s : σ} {t : τ} (h : R [] s t) (xs : List α) :
    ∃ s' t' os, M.run s xs = some (s', os.map f) ∧ N.run t xs = some (t', os) ∧ R os s' t' := by
  induction xs using List.reverseRecOn with
  | nil => exact ⟨s, t, [], rfl, rfl, h⟩
  | append_singleton xs x ih =>
    obtain ⟨s', t', os, hM, hN, hR⟩ := ih
    obtain ⟨s'', t'', o, hMx, hNx, hR'⟩ := hstep os s' t' x hR
    refine ⟨s'', t'', os ++ o, ?_, run_concat_of_eq_some hN hNx, hR'⟩
    rw [List.map_append]
    exact run_concat_of_eq_some hM hMx

/-- **The refinement rule.** If a machine makes every step that a specification defines, with the
same output and into related states, then it makes every run that the specification defines. -/
theorem run_refines {N : Transducer τ α β} (R : σ → τ → Prop)
    (hstep : ∀ s t x t' o, R s t → N.step t x = some (t', o) →
      ∃ s', M.step s x = some (s', o) ∧ R s' t') {s : σ} {t t' : τ} {xs : List α} {os : List β}
    (h : R s t) (hrun : N.run t xs = some (t', os)) :
    ∃ s', M.run s xs = some (s', os) ∧ R s' t' := by
  induction xs generalizing s t os with
  | nil =>
    obtain ⟨rfl, rfl⟩ : t = t' ∧ [] = os := by simpa using hrun
    exact ⟨s, rfl, h⟩
  | cons x xs ih =>
    obtain ⟨⟨u, o⟩, hx, hrun⟩ := Option.bind_eq_some_iff.mp hrun
    obtain ⟨⟨u', os'⟩, hxs, hu⟩ := Option.map_eq_some_iff.mp hrun
    obtain ⟨rfl, rfl⟩ : u' = t' ∧ o ++ os' = os := by simpa using hu
    obtain ⟨v, hv, hR⟩ := hstep s t x u o h hx
    obtain ⟨s', hs', hR'⟩ := ih hR hxs
    exact ⟨s', by rw [run_cons, hv, Option.bind_some, hs', Option.map_some], hR'⟩

end Transducer
