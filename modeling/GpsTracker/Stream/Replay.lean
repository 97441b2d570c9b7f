import Mathlib.Data.List.Basic
import Mathlib.Order.Monotone.Basic

/-!
# Values shown in the order of their history

Some of the symbols that a machine emits *record* a value, and some *show* one. What is shown
*replays* what has been recorded if each value shown has been recorded before, and none is shown
after a later one: a value may be shown many times or never, but time does not go back.

A machine that shows the value at some place of the history of what it has recorded, and only ever
moves this place forward, replays its records. `Replay.Follows` is the invariant for such machines:
the machine is at a place with a certain value, and it holds other values, in queues or buffers,
that follow in the history. It may lose any of them and may move to the first one.

## Main definitions

* `Replay`, `Replay.history`, `Replay.InOrder`.
* `Replay.Follows`.

## Main results

* `Replay.Follows.record`, `Replay.Follows.show`, `Replay.Follows.lose`, `Replay.Follows.advance`.
* `Replay.Follows.inOrder`.
-/

/-- The values that symbols of the type `γ` record and show, and those recorded at the start. -/
structure Replay (γ β : Type*) where
  recorded : γ → Option β
  shown : γ → Option β
  initial : List β

namespace Replay

variable {γ β : Type*} (P : Replay γ β)

/-- The values recorded after some symbols have been emitted. -/
def history (os : List γ) : List β := P.initial ++ os.filterMap P.recorded

/-- Each value shown has a place in the history before it, and these places never go back. -/
def InOrder (os : List γ) : Prop :=
  ∃ place : ℕ → ℕ, Monotone place ∧ ∀ n o b, os[n]? = some o → P.shown o = some b →
    (P.history (os.take n))[place n]? = some b

/-- The values are shown in order, none from a place after `m`. -/
def UpTo (os : List γ) (m : ℕ) : Prop :=
  ∃ place : ℕ → ℕ, Monotone place ∧ (∀ n, place n ≤ m) ∧
    ∀ n o b, os[n]? = some o → P.shown o = some b → (P.history (os.take n))[place n]? = some b

variable {P} {os : List γ} {m : ℕ}

theorem history_append (os os' : List γ) :
    P.history (os ++ os') = P.history os ++ os'.filterMap P.recorded := by
  rw [history, history, List.filterMap_append, List.append_assoc]

/-- A place in the history keeps its value. -/
theorem getElem?_history_append {b : β} (h : (P.history os)[m]? = some b) (os' : List γ) :
    (P.history (os ++ os'))[m]? = some b := by
  obtain ⟨hm, -⟩ := List.getElem?_eq_some_iff.mp h
  rw [history_append, List.getElem?_append_left hm, h]

theorem UpTo.inOrder (h : P.UpTo os m) : P.InOrder os := by
  obtain ⟨place, hmono, -, hshown⟩ := h
  exact ⟨place, hmono, hshown⟩

theorem upTo_nil (m : ℕ) : P.UpTo [] m :=
  ⟨fun _ => 0, monotone_const, fun _ => Nat.zero_le m, by simp⟩

/-- The place moves forward. -/
theorem UpTo.mono (h : P.UpTo os m) {m' : ℕ} (hm : m ≤ m') : P.UpTo os m' := by
  obtain ⟨place, hmono, hle, hshown⟩ := h
  exact ⟨place, hmono, fun n => (hle n).trans hm, hshown⟩

/-- **The value at the place is shown**, any number of times. -/
theorem UpTo.append (h : P.UpTo os m) {os' : List γ}
    (hshow : ∀ o ∈ os', ∀ b, P.shown o = some b → (P.history os)[m]? = some b) :
    P.UpTo (os ++ os') m := by
  obtain ⟨place, hmono, hle, hshown⟩ := h
  refine ⟨fun n => if n < os.length then place n else m, ?_, ?_, ?_⟩
  · intro n n' hn
    dsimp only
    split_ifs with h₁ h₂
    · exact hmono hn
    · exact hle n
    · omega
    · exact le_rfl
  · intro n
    dsimp only
    split_ifs
    · exact hle n
    · exact le_rfl
  · intro n o b ho hb
    dsimp only
    split_ifs with hn
    · rw [List.getElem?_append_left hn] at ho
      rw [List.take_append_of_le_length hn.le]
      exact hshown n o b ho hb
    · rw [List.getElem?_append_right (not_lt.mp hn)] at ho
      rw [List.take_append, List.take_of_length_le (not_lt.mp hn)]
      exact getElem?_history_append (hshow o (List.mem_of_getElem? ho) b hb) _

/-! ### Machines that move forward -/

variable (P) in
/-- The place in the history has the value `b`, and the values `rest` are found from there on, in
their order. -/
def Follows (os : List γ) (b : β) (rest : List β) : Prop :=
  ∃ m, P.UpTo os m ∧ (P.history os)[m]? = some b ∧ rest.Sublist ((P.history os).drop m)

variable {b : β} {rest : List β}

theorem Follows.inOrder (h : P.Follows os b rest) : P.InOrder os := by
  obtain ⟨m, hupTo, -, -⟩ := h
  exact hupTo.inOrder

theorem follows_nil (b : β) (rest : List β) (h : P.initial = b :: rest) : P.Follows [] b rest := by
  refine ⟨0, upTo_nil 0, by simp [history, h], ?_⟩
  simp [history, h]

/-- **Values are recorded**, and some of them kept behind the others. -/
theorem Follows.record (h : P.Follows os b rest) {os' : List γ}
    (hsilent : ∀ o ∈ os', P.shown o = none) {rest' : List β}
    (hrest : rest'.Sublist (os'.filterMap P.recorded)) :
    P.Follows (os ++ os') b (rest ++ rest') := by
  obtain ⟨m, hupTo, hb, hsub⟩ := h
  obtain ⟨hm, -⟩ := List.getElem?_eq_some_iff.mp hb
  refine ⟨m, hupTo.append fun o ho c hc => ?_, getElem?_history_append hb os', ?_⟩
  · exact absurd (hc.symm.trans (hsilent o ho)) (by simp)
  · rw [history_append, List.drop_append_of_le_length hm.le]
    exact hsub.append hrest

/-- **The value is shown**, any number of times, and nothing is recorded. -/
theorem Follows.show (h : P.Follows os b rest) {os' : List γ}
    (hshow : ∀ o ∈ os', ∀ c, P.shown o = some c → c = b)
    (hsilent : ∀ o ∈ os', P.recorded o = none) : P.Follows (os ++ os') b rest := by
  obtain ⟨m, hupTo, hb, hsub⟩ := h
  have hhistory : P.history (os ++ os') = P.history os := by
    rw [history_append, List.filterMap_eq_nil_iff.mpr hsilent, List.append_nil]
  refine ⟨m, hupTo.append fun o ho c hc => ?_, ?_, ?_⟩
  · rw [hshow o ho c hc, hb]
  · rw [hhistory, hb]
  · rw [hhistory]
    exact hsub

/-- **Values are lost.** -/
theorem Follows.lose (h : P.Follows os b rest) {rest' : List β} (hrest : rest'.Sublist rest) :
    P.Follows os b rest' := by
  obtain ⟨m, hupTo, hb, hsub⟩ := h
  exact ⟨m, hupTo, hb, hrest.trans hsub⟩

/-- **The place moves forward** to the next value that has been kept. -/
theorem Follows.advance {c : β} (h : P.Follows os b (c :: rest)) : P.Follows os c (c :: rest) := by
  obtain ⟨m, hupTo, -, hsub⟩ := h
  obtain ⟨before, after, hsplit, hc, hrest⟩ := List.cons_sublist_iff.mp hsub
  obtain ⟨n, hn, hget⟩ := List.getElem_of_mem hc
  have hdrop : (P.history os).drop (m + n) = before.drop n ++ after := by
    rw [← List.drop_drop, hsplit, List.drop_append_of_le_length hn.le]
  have hcons : before.drop n = c :: before.drop (n + 1) := by
    rw [List.drop_eq_getElem_cons hn, hget]
  refine ⟨m + n, hupTo.mono (Nat.le_add_right m n), ?_, ?_⟩
  · rw [← List.head?_drop, hdrop, hcons]
    rfl
  · rw [hdrop, hcons, List.cons_append, List.cons_sublist_cons]
    exact hrest.trans (List.sublist_append_right _ _)

end Replay
