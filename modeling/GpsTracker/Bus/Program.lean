import Mathlib.Tactic.Common

/-!
# Programs that access a device

A driver is a program of register accesses. The device it talks to does not wait for it: between
any two accesses something may happen at the device, such as the arrival of a packet. A schedule
says what happens before each access, one batch of events for one access, and after its end the
device is left alone. A program may also repeat an access until its reply satisfies a condition.

Partial correctness is proved with triples whose preconditions are stable under the events of the
device (`Device.Triple`). That a program completes is proved by counting its accesses
(`Program.AtMost`).

## Main definitions

* `Program`, `Device`, `Device.run`.
* `Device.Stable`, `Device.Triple`.
* `Device.Keeps`, `Program.AtMost`.

## Main results

* `Device.run_bind`.
* `Device.Triple.access`, `Device.Triple.poll`, `Device.Triple.bind`, `Device.Keeps.triple`.
* `Device.exists_run_nil`, `Device.exists_run_singleton`, `Device.exists_run_replicate`,
  `Device.run_poll_replicate`.
-/

namespace Bus

/-- A program that makes accesses of the type `Op` to a device, which replies to each. -/
inductive Program (Op Reply : Type) (α : Type) where
  | pure (a : α)
  | access (o : Op) (k : Reply → Program Op Reply α)
  | poll (o : Op) (stop : Reply → Bool) (k : Reply → Program Op Reply α)

variable {Op Reply Ev σ α β : Type}

namespace Program

/-- One program after another. -/
def bind : Program Op Reply α → (α → Program Op Reply β) → Program Op Reply β
  | pure a, f => f a
  | access o k, f => access o fun r => (k r).bind f
  | poll o stop k, f => poll o stop fun r => (k r).bind f

instance : Monad (Program Op Reply) where
  pure := pure
  bind := bind

@[simp] theorem pure_bind (a : α) (f : α → Program Op Reply β) :
    (Pure.pure a : Program Op Reply α) >>= f = f a := rfl

@[simp] theorem access_bind (o : Op) (k : Reply → Program Op Reply α)
    (f : α → Program Op Reply β) : access o k >>= f = access o fun r => k r >>= f := rfl

@[simp] theorem poll_bind (o : Op) (stop : Reply → Bool) (k : Reply → Program Op Reply α)
    (f : α → Program Op Reply β) : poll o stop k >>= f = poll o stop fun r => k r >>= f := rfl

/-- The program makes at most `n` accesses and repeats none. -/
def AtMost : ℕ → Program Op Reply α → Prop
  | _, pure _ => True
  | n + 1, access _ k => ∀ r, AtMost n (k r)
  | 0, access _ _ => False
  | _, poll _ _ _ => False

theorem AtMost.mono {n m : ℕ} {p : Program Op Reply α} (hp : p.AtMost n) (hnm : n ≤ m) :
    p.AtMost m := by
  induction p generalizing n m with
  | pure a => cases m <;> trivial
  | access o k ih =>
    cases n with
    | zero => exact hp.elim
    | succ n =>
      cases m with
      | zero => omega
      | succ m => exact fun r => ih r (hp r) (by omega)
  | poll o stop k ih => cases n <;> exact hp.elim

theorem AtMost.bind {n m : ℕ} {p : Program Op Reply α} {f : α → Program Op Reply β}
    (hp : p.AtMost n) (hf : ∀ a, (f a).AtMost m) : (p >>= f).AtMost (n + m) := by
  induction p generalizing n with
  | pure a => exact (hf a).mono (Nat.le_add_left m n)
  | access o k ih =>
    cases n with
    | zero => exact hp.elim
    | succ n =>
      rw [access_bind, Nat.succ_add]
      exact fun r => ih r (hp r)
  | poll o stop k ih => cases n <;> exact hp.elim

end Program

/-- A device that replies to accesses, and at which events happen that its state may disable. -/
structure Device (σ Op Reply Ev : Type) where
  access : σ → Op → Reply × σ
  event : σ → Ev → Option σ

namespace Device

variable (D : Device σ Op Reply Ev)

/-- Some events, one after the other. -/
def events (s : σ) (g : List Ev) : Option σ := g.foldlM D.event s

/-- An access repeated until its reply satisfies `stop`: the last reply, the rest of the schedule
and the state. There is none if the access is still to be repeated at the end of the schedule. -/
def runPoll (o : Op) (stop : Reply → Bool) :
    List (List Ev) → σ → Option (Reply × List (List Ev) × σ)
  | [], s =>
    let x := D.access s o
    if stop x.1 then some (x.1, [], x.2) else none
  | g :: gs, s => do
    let x := D.access (← D.events s g) o
    if stop x.1 then some (x.1, gs, x.2) else runPoll o stop gs x.2

/-- The run of a program under a schedule: the result, the rest of the schedule and the state. -/
def run : Program Op Reply α → List (List Ev) → σ → Option (α × List (List Ev) × σ)
  | .pure a, gs, s => some (a, gs, s)
  | .access o k, gs, s => do
    let x := D.access (← D.events s (gs.headD [])) o
    run (k x.1) gs.tail x.2
  | .poll o stop k, gs, s => do
    let (r, gs, s) ← D.runPoll o stop gs s
    run (k r) gs s

@[simp] theorem events_nil (s : σ) : D.events s [] = some s := rfl

theorem events_cons (s : σ) (e : Ev) (g : List Ev) :
    D.events s (e :: g) = (D.event s e).bind fun s => D.events s g := rfl

/-- **The run of one program after another.** -/
theorem run_bind (p : Program Op Reply α) (f : α → Program Op Reply β) (gs : List (List Ev))
    (s : σ) : D.run (p >>= f) gs s = (D.run p gs s).bind fun x => D.run (f x.1) x.2.1 x.2.2 := by
  induction p generalizing gs s with
  | pure a => rfl
  | access o k ih =>
    rw [Program.access_bind, run, run]
    cases D.events s (gs.headD []) with
    | none => rfl
    | some s => exact ih _ _ _
  | poll o stop k ih =>
    rw [Program.poll_bind, run, run]
    cases D.runPoll o stop gs s with
    | none => rfl
    | some x => exact ih _ _ _

/-! ### Triples -/

/-- Events preserve the predicate. -/
def Stable (P : σ → Prop) : Prop := ∀ s e s', P s → D.event s e = some s' → P s'

/-- Every completed run of the program from a state with `P` ends in a state with `Q`, under any
schedule. -/
def Triple (P : σ → Prop) (p : Program Op Reply α) (Q : α → σ → Prop) : Prop :=
  ∀ gs s a gs' s', P s → D.run p gs s = some (a, gs', s') → Q a s'

variable {D}

theorem Stable.events {P : σ → Prop} (hP : D.Stable P) {s s' : σ} {g : List Ev} (hs : P s)
    (h : D.events s g = some s') : P s' := by
  induction g generalizing s with
  | nil => exact Option.some_inj.mp h ▸ hs
  | cons e g ih =>
    rw [events_cons] at h
    obtain ⟨t, he, ht⟩ := Option.bind_eq_some_iff.mp h
    exact ih (hP s e t hs he) ht

namespace Triple

variable {P P' : σ → Prop} {Q Q' : α → σ → Prop}

theorem pure {a : α} (h : ∀ s, P s → Q a s) : D.Triple P (Pure.pure a) Q := by
  intro gs s b gs' s' hs hrun
  obtain ⟨rfl, rfl, rfl⟩ : a = b ∧ gs = gs' ∧ s = s' := by simpa [Pure.pure, run] using hrun
  exact h s hs

/-- **The rule of an access.** -/
theorem access {o : Op} {k : Reply → Program Op Reply α} (R : Reply → σ → Prop)
    (hP : D.Stable P) (h : ∀ s, P s → R (D.access s o).1 (D.access s o).2)
    (hk : ∀ r, D.Triple (R r) (k r) Q) : D.Triple P (.access o k) Q := by
  intro gs s a gs' s' hs hrun
  obtain ⟨t, ht, hrun⟩ := Option.bind_eq_some_iff.mp hrun
  exact hk _ _ _ _ _ _ (h t (hP.events hs ht)) hrun

private theorem runPoll_post {I : σ → Prop} {R : Reply → σ → Prop} {o : Op} {stop : Reply → Bool}
    (hI : D.Stable I)
    (h : ∀ s, I s → if stop (D.access s o).1 then R (D.access s o).1 (D.access s o).2
      else I (D.access s o).2)
    {gs gs' : List (List Ev)} {s s' : σ} {r : Reply} (hs : I s)
    (hrun : D.runPoll o stop gs s = some (r, gs', s')) : R r s' := by
  induction gs generalizing s with
  | nil =>
    have hpost := h s hs
    rw [runPoll] at hrun
    split at hrun
    case isTrue hstop =>
      obtain ⟨rfl, -, rfl⟩ := by simpa using hrun
      rwa [if_pos hstop] at hpost
    case isFalse => simp at hrun
  | cons g gs ih =>
    obtain ⟨t, ht, hrun⟩ := Option.bind_eq_some_iff.mp hrun
    have hpost := h t (hI.events hs ht)
    dsimp only at hrun
    split at hrun
    case isTrue hstop =>
      obtain ⟨rfl, -, rfl⟩ := by simpa using hrun
      rwa [if_pos hstop] at hpost
    case isFalse hstop =>
      rw [if_neg hstop] at hpost
      exact ih hpost hrun

/-- **The rule of a repeated access.** The invariant `I` is kept by the accesses that are repeated,
and the last one establishes `R`. -/
theorem poll {o : Op} {stop : Reply → Bool} {k : Reply → Program Op Reply α} {I : σ → Prop}
    (R : Reply → σ → Prop) (hI : D.Stable I)
    (h : ∀ s, I s → if stop (D.access s o).1 then R (D.access s o).1 (D.access s o).2
      else I (D.access s o).2)
    (hk : ∀ r, D.Triple (R r) (k r) Q) : D.Triple I (.poll o stop k) Q := by
  intro gs s a gs' s' hs hrun
  obtain ⟨⟨r, gs₁, t⟩, hpoll, hrun⟩ := Option.bind_eq_some_iff.mp hrun
  exact hk _ _ _ _ _ _ (runPoll_post hI h hs hpoll) hrun

/-- **The rule of composition.** -/
theorem bind {p : Program Op Reply α} {f : α → Program Op Reply β} {R : β → σ → Prop}
    (hp : D.Triple P p Q) (hf : ∀ a, D.Triple (Q a) (f a) R) : D.Triple P (p >>= f) R := by
  intro gs s b gs' s' hs hrun
  rw [run_bind] at hrun
  obtain ⟨⟨a, gs₁, t⟩, hrun₁, hrun₂⟩ := Option.bind_eq_some_iff.mp hrun
  exact hf a _ _ _ _ _ (hp _ _ _ _ _ hs hrun₁) hrun₂

theorem conseq {p : Program Op Reply α} (h : D.Triple P p Q) (hP : ∀ s, P' s → P s)
    (hQ : ∀ a s, Q a s → Q' a s) : D.Triple P' p Q' :=
  fun _ _ _ _ _ hs hrun => hQ _ _ (h _ _ _ _ _ (hP _ hs) hrun)

/-- A fact that does not depend on the state may be assumed. -/
theorem of_and {φ : Prop} {p : Program Op Reply α} (h : φ → D.Triple P p Q) :
    D.Triple (fun s => φ ∧ P s) p Q :=
  fun _ _ _ _ _ hs hrun => h hs.1 _ _ _ _ _ hs.2 hrun

end Triple

/-! ### Invariants -/

variable (D)

/-- Every access of the program preserves the predicate. -/
def Keeps (P : σ → Prop) : Program Op Reply α → Prop
  | .pure _ => True
  | .access o k => (∀ s, P s → P (D.access s o).2) ∧ ∀ r, Keeps P (k r)
  | .poll o _ k => (∀ s, P s → P (D.access s o).2) ∧ ∀ r, Keeps P (k r)

variable {D}

theorem Keeps.bind {P : σ → Prop} {p : Program Op Reply α} {f : α → Program Op Reply β}
    (hp : D.Keeps P p) (hf : ∀ a, D.Keeps P (f a)) : D.Keeps P (p >>= f) := by
  induction p with
  | pure a => exact hf a
  | access o k ih => exact ⟨hp.1, fun r => ih r (hp.2 r)⟩
  | poll o stop k ih => exact ⟨hp.1, fun r => ih r (hp.2 r)⟩

/-- **The invariant rule.** A stable predicate that every access preserves is preserved by the
program. -/
theorem Keeps.triple {P : σ → Prop} {p : Program Op Reply α} (hp : D.Keeps P p)
    (hP : D.Stable P) : D.Triple P p fun _ => P := by
  induction p with
  | pure a => exact Triple.pure fun _ hs => hs
  | access o k ih => exact Triple.access (fun _ => P) hP hp.1 fun r => ih r (hp.2 r)
  | poll o stop k ih =>
    refine Triple.poll (fun _ => P) hP (fun s hs => ?_) fun r => ih r (hp.2 r)
    split <;> exact hp.1 s hs

/-! ### Completion -/

variable (D)

/-- **A program that repeats no access completes when nothing happens at the device.** -/
theorem exists_run_nil {n : ℕ} {p : Program Op Reply α} (hp : p.AtMost n) (s : σ) :
    ∃ a s', D.run p [] s = some (a, [], s') := by
  induction p generalizing n s with
  | pure a => exact ⟨a, s, rfl⟩
  | access o k ih =>
    cases n with
    | zero => exact hp.elim
    | succ n => exact ih _ (hp _) _
  | poll o stop k ih => cases n <;> exact hp.elim

/-- The same when something happens before the first access. -/
theorem exists_run_singleton {n : ℕ} {p : Program Op Reply α} (hp : p.AtMost n) {s t : σ}
    {g : List Ev} (hg : D.events s g = some t) : ∃ x, D.run p [g] s = some x := by
  cases p with
  | pure a => exact ⟨_, rfl⟩
  | access o k =>
    cases n with
    | zero => exact hp.elim
    | succ n =>
      obtain ⟨a, s', hrun⟩ := D.exists_run_nil (hp (D.access t o).1) (D.access t o).2
      refine ⟨(a, [], s'), ?_⟩
      rw [run, List.headD_cons, hg]
      exact hrun
  | poll o stop k => cases n <;> exact hp.elim

/-- Nothing is left of an empty schedule. -/
theorem rest_eq_nil {p : Program Op Reply α} {s s' : σ} {a : α} {gs : List (List Ev)}
    (h : D.run p [] s = some (a, gs, s')) : gs = [] := by
  induction p generalizing s with
  | pure b => exact (Prod.mk.inj (Prod.mk.inj (Option.some_inj.mp h)).2).1.symm
  | access o k ih => exact ih _ h
  | poll o stop k ih =>
    obtain ⟨⟨r, gs₁, t⟩, hpoll, hrun⟩ := Option.bind_eq_some_iff.mp h
    rw [runPoll] at hpoll
    split at hpoll
    case isTrue =>
      obtain ⟨-, rfl, -⟩ := by simpa using hpoll
      exact ih r hrun
    case isFalse => simp at hpoll

/-- A program that makes at most `n` accesses completes within `n` of them, leaving the rest of the
schedule. -/
theorem exists_run_replicate {n m : ℕ} {p : Program Op Reply α} (hp : p.AtMost n) (hnm : n ≤ m)
    (gs : List (List Ev)) (s : σ) :
    ∃ a k s', D.run p (List.replicate m [] ++ gs) s = some (a, List.replicate k [] ++ gs, s') := by
  induction p generalizing n m s with
  | pure a => exact ⟨a, m, s, rfl⟩
  | access o k ih =>
    cases n with
    | zero => exact hp.elim
    | succ n =>
      obtain ⟨m, rfl⟩ := Nat.exists_eq_add_of_le' hnm
      exact ih _ (hp _) (Nat.le_add_left n m) _
  | poll o stop k ih => cases n <;> exact hp.elim

/-- **A repeated access ends with the event that makes its reply satisfy the condition.** -/
theorem run_poll_replicate {o : Op} {stop : Reply → Bool} (k : Reply → Program Op Reply α)
    {s t : σ} {g : List Ev} (m : ℕ) (gs : List (List Ev)) (hs : (D.access s o).2 = s)
    (hrepeat : stop (D.access s o).1 = false) (hg : D.events s g = some t)
    (hstop : stop (D.access t o).1 = true) :
    D.run (.poll o stop k) (List.replicate m [] ++ g :: gs) s =
      D.run (k (D.access t o).1) gs (D.access t o).2 := by
  have hpoll : D.runPoll o stop (List.replicate m [] ++ g :: gs) s =
      some ((D.access t o).1, gs, (D.access t o).2) := by
    induction m with
    | zero => simp [runPoll, hg, hstop]
    | succ m ih =>
      rw [List.replicate_succ, List.cons_append, runPoll]
      simpa [hrepeat, hs] using ih
  rw [run, hpoll]
  rfl

end Device

end Bus
