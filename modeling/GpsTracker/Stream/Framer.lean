import GpsTracker.Stream.Transducer
import Mathlib.Data.List.Infix
import Mathlib.Tactic.Common

/-!
# Framers

A *framer* looks for a fixed header in a stream of symbols and captures the packet, of a fixed
length, that follows it. It compares one symbol at a time with the next symbol of the header and
starts over on a mismatch, without reconsidering the mismatched symbol (`nextMatch`); when the
whole header has matched it captures the following symbols unseen, and then looks for the next
header.

The packets such a machine emits are read off the stream: the stream falls into gaps, headers and
packets, in order and without overlap (`Framer.Segmented`, `Framer.run_segmented`). The converse
does not hold in general, since a mismatched symbol may itself begin a header. For a header whose
first symbol occurs nowhere else in it, the header is recognised exactly when no partial match is
pending (`Framer.run_header_iff`).

## Main definitions

* `nextMatch` : the count of matched symbols after one more symbol.
* `Framer`, `Framer.State`, `Framer.machine`.
* `Framer.Segmented`, `Framer.Pending`, `Framer.Accounts` : the stream up to the last packet, what
  follows it, and both together.

## Main results

* `Framer.run_segmented`.
* `Framer.run_header_iff`, `Framer.run_payload`, `Framer.run_frames`.
-/

/-! ### Matching a pattern without backtracking -/

section NextMatch

variable {α : Type*} [DecidableEq α]

/-- The number of symbols of `pat` matched after one more symbol `x`, when `m` were matched
before: one more if `x` is the next symbol of `pat`, and none otherwise. -/
def nextMatch (pat : List α) (m : ℕ) (x : α) : ℕ :=
  if pat[m]? = some x then m + 1 else 0

theorem nextMatch_of_eq {pat : List α} {m : ℕ} {x : α} (h : pat[m]? = some x) :
    nextMatch pat m x = m + 1 :=
  if_pos h

theorem nextMatch_of_ne {pat : List α} {m : ℕ} {x : α} (h : pat[m]? ≠ some x) :
    nextMatch pat m x = 0 :=
  if_neg h

/-- The matched prefix of the pattern is what was read last. -/
theorem take_nextMatch_suffix {pat xs : List α} {m : ℕ} (x : α) (h : pat.take m <:+ xs) :
    pat.take (nextMatch pat m x) <:+ xs ++ [x] := by
  by_cases hx : pat[m]? = some x
  · rw [nextMatch_of_eq hx, List.take_add_one, hx, Option.toList_some]
    obtain ⟨ys, rfl⟩ := h
    exact ⟨ys, by rw [List.append_assoc]⟩
  · rw [nextMatch_of_ne hx, List.take_zero]
    exact List.nil_suffix

theorem nextMatch_le_length {pat : List α} {m : ℕ} (x : α) :
    nextMatch pat m x ≤ pat.length := by
  by_cases hx : pat[m]? = some x
  · rw [nextMatch_of_eq hx]
    exact (List.getElem?_eq_some_iff.mp hx).1
  · rw [nextMatch_of_ne hx]
    exact Nat.zero_le _

end NextMatch

/-! ### Framers -/

/-- A header and the length of the packets that follow it. -/
structure Framer (α : Type*) where
  header : List α
  payload : ℕ
  header_ne_nil : header ≠ []
  payload_pos : 0 < payload

namespace Framer

variable {α : Type*}

/-- A framer looks for the header, with a number of its symbols matched, or captures a packet, of
which some symbols have been read. -/
inductive State (α : Type*) where
  | seek (matched : ℕ)
  | capture (captured : List α)

/-- The symbols of the packet being captured. -/
def State.captured : State α → List α
  | .seek _ => []
  | .capture c => c

variable (F : Framer α)

/-- The stream `xs` ends with the last of the packets `ps`, each of the prescribed length and each
immediately preceded by the header; between a packet and the next header there is a gap. -/
inductive Segmented : List α → List (List α) → Prop
  | nil : Segmented [] []
  | packet {xs ps} (gap p : List α) (h : Segmented xs ps) (hp : p.length = F.payload) :
      Segmented (xs ++ (gap ++ F.header ++ p)) (ps ++ [p])

/-- What has been read since the last packet: the matched prefix of the header is its end, or it
ends with the header and the captured symbols. -/
def Pending (rest : List α) : State α → Prop
  | .seek m => m < F.header.length ∧ F.header.take m <:+ rest
  | .capture c => c.length < F.payload ∧ ∃ gap, rest = gap ++ F.header ++ c

/-- The stream read, the packets emitted and the state of the framer agree. -/
def Accounts (xs : List α) (ps : List (List α)) (s : State α) : Prop :=
  ∃ done rest, xs = done ++ rest ∧ F.Segmented done ps ∧ F.Pending rest s

@[simp] theorem State.captured_seek (m : ℕ) : (State.seek m : State α).captured = [] := rfl

@[simp] theorem State.captured_capture (c : List α) : (State.capture c).captured = c := rfl

theorem length_header_pos : 0 < F.header.length :=
  List.length_pos_of_ne_nil F.header_ne_nil

variable [DecidableEq α]

/-- One symbol read by the framer. -/
def step : State α → α → State α × List (List α)
  | .seek m, x =>
    if nextMatch F.header m x = F.header.length then (.capture [], [])
    else (.seek (nextMatch F.header m x), [])
  | .capture c, x =>
    if c.length + 1 = F.payload then (.seek 0, [c ++ [x]]) else (.capture (c ++ [x]), [])

theorem step_capture_of_ne {c : List α} (h : c.length + 1 ≠ F.payload) (x : α) :
    F.step (.capture c) x = (.capture (c ++ [x]), []) :=
  if_neg h

theorem step_capture_of_eq {c : List α} (h : c.length + 1 = F.payload) (x : α) :
    F.step (.capture c) x = (.seek 0, [c ++ [x]]) :=
  if_pos h

/-- The framer as a transducer emitting packets. -/
def machine : Transducer (State α) α (List α) where
  step s x := some (F.step s x)

@[simp] theorem machine_step (s : State α) (x : α) : F.machine.step s x = some (F.step s x) := rfl

/-! ### The packets are segments of the stream -/

theorem pending_step_seek {rest : List α} {m : ℕ} (x : α) (h : F.Pending rest (.seek m)) :
    (F.step (.seek m) x).2 = [] ∧ F.Pending (rest ++ [x]) (F.step (.seek m) x).1 := by
  have hsuffix := take_nextMatch_suffix x h.2
  by_cases hm : nextMatch F.header m x = F.header.length
  · obtain ⟨gap, hgap⟩ := hsuffix
    rw [hm, List.take_length] at hgap
    simp only [step, hm, if_true]
    exact ⟨trivial, F.payload_pos, gap, by rw [hgap, List.append_nil]⟩
  · simp only [step, hm, if_false]
    exact ⟨trivial, lt_of_le_of_ne (nextMatch_le_length x) hm, hsuffix⟩

omit [DecidableEq α] in
theorem accounts_nil : F.Accounts [] [] (.seek 0) :=
  ⟨[], [], rfl, .nil, F.length_header_pos, List.nil_suffix⟩

theorem accounts_step {xs : List α} {ps : List (List α)} {s : State α} (x : α)
    (h : F.Accounts xs ps s) :
    F.Accounts (xs ++ [x]) (ps ++ (F.step s x).2) (F.step s x).1 := by
  obtain ⟨done, rest, rfl, hdone, hrest⟩ := h
  cases s with
  | seek m =>
    obtain ⟨hout, hpend⟩ := F.pending_step_seek x hrest
    rw [hout, List.append_nil]
    exact ⟨done, rest ++ [x], List.append_assoc .., hdone, hpend⟩
  | capture c =>
    obtain ⟨hc, gap, rfl⟩ := hrest
    by_cases hlen : c.length + 1 = F.payload
    · rw [F.step_capture_of_eq hlen]
      refine ⟨_, [], ?_, .packet gap (c ++ [x]) hdone (by simpa using hlen), F.length_header_pos,
        List.nil_suffix⟩
      simp only [List.append_assoc, List.append_nil]
    · rw [F.step_capture_of_ne hlen, List.append_nil]
      refine ⟨done, gap ++ F.header ++ c ++ [x], List.append_assoc .., hdone, ?_, gap, ?_⟩
      · rw [List.length_append, List.length_singleton]
        omega
      · rw [List.append_assoc]

/-- **The packets emitted are disjoint segments of the stream, in order, each immediately preceded
by the header**, and the state describes what was read since the last of them. -/
theorem run_segmented (xs : List α) :
    ∃ s ps, F.machine.run (.seek 0) xs = some (s, ps) ∧ F.Accounts xs ps s := by
  refine Transducer.run_invariant F.Accounts F.accounts_nil ?_ xs
  intro xs ps s x h
  exact ⟨(F.step s x).1, (F.step s x).2, rfl, F.accounts_step x h⟩

/-! ### Recognising a header -/

/-- With `m` symbols of the header matched, the rest of it is recognised. -/
theorem run_drop_header {m : ℕ} (hm : m < F.header.length) :
    F.machine.run (.seek m) (F.header.drop m) = some (.capture [], []) := by
  have hget : F.header[m]? = some F.header[m] := List.getElem?_eq_getElem hm
  rw [List.drop_eq_getElem_cons hm, Transducer.run_cons, machine_step, Option.bind_some]
  by_cases hlast : m + 1 = F.header.length
  · simp only [step, nextMatch_of_eq hget, hlast, if_true, List.drop_length, Transducer.run_nil,
      Option.map_some, List.append_nil]
  · simp only [step, nextMatch_of_eq hget, hlast, if_false, List.nil_append]
    rw [run_drop_header (by omega)]
    rfl
termination_by F.header.length - m

/-- Symbols other than the first one of the header match nothing when no match is pending. -/
theorem run_of_head_notMem {xs : List α} (h : F.header.head F.header_ne_nil ∉ xs) :
    F.machine.run (.seek 0) xs = some (.seek 0, []) := by
  induction xs with
  | nil => rfl
  | cons x xs ih =>
    have hx : F.header.head F.header_ne_nil ≠ x := List.ne_of_not_mem_cons h
    have hne : F.header[0]? ≠ some x := by
      rw [← List.head?_eq_getElem?, List.head?_eq_some_head F.header_ne_nil]
      simpa using hx
    have hlen : (0 : ℕ) ≠ F.header.length := F.length_header_pos.ne
    rw [Transducer.run_cons, machine_step, Option.bind_some]
    simp only [step, nextMatch_of_ne hne, hlen, if_false, ih (List.not_mem_of_not_mem_cons h),
      Option.map_some, List.append_nil]

variable (hhead : F.header.head F.header_ne_nil ∉ F.header.tail)
include hhead

/-- A pending partial match makes the framer miss a header whose first symbol occurs only once. -/
theorem run_header_of_pos {m : ℕ} (h0 : 0 < m) :
    F.machine.run (.seek m) F.header = some (.seek 0, []) := by
  have hne : F.header[m]? ≠ some (F.header.head F.header_ne_nil) := by
    intro h
    refine hhead (List.mem_iff_getElem?.mpr ⟨m - 1, ?_⟩)
    rw [List.getElem?_tail, Nat.sub_add_cancel h0, h]
  have hlen : (0 : ℕ) ≠ F.header.length := F.length_header_pos.ne
  have hcons := List.cons_head_tail F.header_ne_nil
  calc F.machine.run (.seek m) F.header
      = F.machine.run (.seek m) (F.header.head F.header_ne_nil :: F.header.tail) := by rw [hcons]
    _ = some (.seek 0, []) := by
      rw [Transducer.run_cons, machine_step, Option.bind_some]
      simp only [step, nextMatch_of_ne hne, hlen, if_false, F.run_of_head_notMem hhead,
        Option.map_some, List.append_nil]

/-- **A header is recognised exactly when no partial match is pending.** -/
theorem run_header_iff {m : ℕ} (hm : m < F.header.length) :
    F.machine.run (.seek m) F.header = some (.capture [], []) ↔ m = 0 := by
  constructor
  · intro h
    by_contra h0
    rw [F.run_header_of_pos hhead (Nat.pos_of_ne_zero h0)] at h
    simp at h
  · rintro rfl
    simpa using F.run_drop_header hm

omit hhead

/-! ### Capturing a packet -/

/-- The symbols of a packet that is not complete are captured. -/
theorem run_capture {c p : List α} (h : c.length + p.length < F.payload) :
    F.machine.run (.capture c) p = some (.capture (c ++ p), []) := by
  induction p generalizing c with
  | nil => simp
  | cons x p ih =>
    have hlen : c.length + 1 ≠ F.payload := by simp only [List.length_cons] at h; omega
    have hrest : (c ++ [x]).length + p.length < F.payload := by
      simp only [List.length_append, List.length_cons, List.length_nil] at h ⊢
      omega
    rw [Transducer.run_cons, machine_step, Option.bind_some, F.step_capture_of_ne hlen, ih hrest]
    simp

/-- **The symbols after a recognised header are emitted as a packet.** -/
theorem run_payload {p : List α} (hp : p.length = F.payload) :
    F.machine.run (.capture []) p = some (.seek 0, [p]) := by
  have hne : p ≠ [] := List.ne_nil_of_length_pos (hp ▸ F.payload_pos)
  have hsplit := List.dropLast_append_getLast hne
  have hlen : p.dropLast.length + 1 = F.payload := by
    rw [List.length_dropLast, hp]
    have := F.payload_pos
    omega
  have hinit : F.machine.run (.capture []) p.dropLast = some (.capture p.dropLast, []) := by
    simpa using F.run_capture (c := []) (p := p.dropLast) (by simp only [List.length_nil]; omega)
  have hlast : F.machine.step (.capture p.dropLast) (p.getLast hne) = some (.seek 0, [p]) := by
    rw [machine_step, F.step_capture_of_eq hlen, hsplit]
  have := Transducer.run_concat_of_eq_some hinit hlast
  rwa [hsplit] at this

/-- **Every packet is emitted** if the gaps before the headers do not contain the first symbol of
the header. -/
theorem run_frames {fs : List (List α × List α)}
    (h : ∀ f ∈ fs, F.header.head F.header_ne_nil ∉ f.1 ∧ f.2.length = F.payload) :
    F.machine.run (.seek 0) (fs.flatMap fun f => f.1 ++ F.header ++ f.2) =
      some (.seek 0, fs.map Prod.snd) := by
  induction fs with
  | nil => rfl
  | cons f fs ih =>
    obtain ⟨hgap, hlen⟩ := h f List.mem_cons_self
    have hheader := F.run_drop_header F.length_header_pos
    rw [List.drop_zero] at hheader
    rw [List.flatMap_cons, List.append_assoc, List.append_assoc,
      Transducer.run_append_of_eq_some (F.run_of_head_notMem hgap),
      Transducer.run_append_of_eq_some hheader,
      Transducer.run_append_of_eq_some (F.run_payload hlen),
      ih fun g hg => h g (List.mem_cons_of_mem f hg)]
    simp

end Framer
