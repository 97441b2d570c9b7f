import GpsTracker.Stream.Framer
import Mathlib.Algebra.Ring.Parity

/-!
# Scanning for a pattern without backtracking

A scan compares one symbol at a time with the next symbol of a pattern, starts over on a mismatch
without reconsidering the mismatched symbol (`nextMatch`), and stops when the whole pattern has
matched (`scanFrom`). It does not find every occurrence of the pattern: a mismatched symbol may
itself be the first one of an occurrence.

For a pattern whose first symbol occurs nowhere else in it, the scan can be described without the
count of matched symbols. The text before an occurrence ends with a number of *partial matches*,
proper prefixes of the pattern that follow one another directly (`EndsWithPartials`). The first of
them is matched, the first symbol of the second one is then skipped, and so the third one is matched
again: the occurrence is found when their number is even (`scanFrom_iff`).

## Main definitions

* `scanFrom` : the scan.
* `EndsWithPartials`, `Scanned`, `Matched` : partial matches, what has been read when a number of
  symbols are matched, and texts with an occurrence that is found.

## Main results

* `scanFrom_iff`.
-/

section Matcher

variable {α : Type*} [DecidableEq α] (pat : List α)

/-- Whether the scan finds the pattern in the text, when `m` symbols are matched before it. -/
def scanFrom : ℕ → List α → Bool
  | _, [] => false
  | m, x :: xs => nextMatch pat m x = pat.length || scanFrom (nextMatch pat m x) xs

omit [DecidableEq α] in
/-- The text ends with `k` partial matches that follow one another directly, and no more. -/
inductive EndsWithPartials : ℕ → List α → Prop
  | zero {xs : List α} (h : ∀ m, 0 < m → m < pat.length → ¬ pat.take m <:+ xs) :
      EndsWithPartials 0 xs
  | succ {k : ℕ} {xs : List α} {m : ℕ} (h : EndsWithPartials k xs) (hpos : 0 < m)
      (hm : m < pat.length) : EndsWithPartials (k + 1) (xs ++ pat.take m)

/-- What has been read when `m` symbols of the pattern are matched. -/
def Scanned (m : ℕ) (xs : List α) : Prop :=
  ∃ ys k, xs = ys ++ pat.take m ∧ Even k ∧ EndsWithPartials pat k ys

/-- The text has an occurrence of the pattern that an even number of partial matches precede. -/
def Matched (xs : List α) : Prop :=
  ∃ pre post k, xs = pre ++ pat ++ post ∧ Even k ∧ EndsWithPartials pat k pre

/-! ### Partial matches -/

omit [DecidableEq α] in
/-- The empty text ends with no partial match. -/
theorem endsWithPartials_nil : EndsWithPartials pat 0 [] := by
  refine .zero fun m hpos hm h => ?_
  have hlen := h.length_le
  rw [List.length_take, List.length_nil] at hlen
  omega

section Partials

variable {pat} {xs : List α} {m m' k k' : ℕ}

omit [DecidableEq α]

/-- A partial match followed by the next symbol of the pattern. -/
theorem take_succ_suffix_concat_iff {x : α} (hm : m < pat.length) :
    pat.take (m + 1) <:+ xs ++ [x] ↔ pat.take m <:+ xs ∧ pat[m]? = some x := by
  rw [List.take_add_one, List.getElem?_eq_getElem hm, Option.toList_some, Option.some_inj]
  constructor
  · rintro ⟨ys, hys⟩
    rw [← List.append_assoc] at hys
    obtain ⟨hxs, hx⟩ := List.append_inj' hys rfl
    exact ⟨⟨ys, hxs⟩, by simpa using hx⟩
  · rintro ⟨⟨ys, rfl⟩, rfl⟩
    exact ⟨ys, by rw [List.append_assoc]⟩

variable (hne : pat ≠ []) (hhead : pat.head hne ∉ pat.tail)
include hhead

/-- The first symbol of the pattern occurs nowhere else in it. -/
theorem getElem?_ne_head (hm : 0 < m) : pat[m]? ≠ some (pat.head hne) := by
  intro h
  refine hhead (List.mem_iff_getElem?.mpr ⟨m - 1, ?_⟩)
  rw [List.getElem?_tail, Nat.sub_add_cancel hm, h]

/-- A text ends with one partial match at most. -/
theorem eq_of_take_suffix (h0 : 0 < m) (h : pat.take m <:+ xs) (h0' : 0 < m')
    (h' : pat.take m' <:+ xs) (hm : m ≤ pat.length) (hm' : m' ≤ pat.length) : m = m' := by
  have hcase {a b : ℕ} (ha0 : 0 < a) (hb : b ≤ pat.length) (ha : pat.take a <:+ xs)
      (hbs : pat.take b <:+ xs) : ¬ a < b := by
    intro hab
    obtain ⟨zs, hzs⟩ := List.suffix_of_suffix_length_le ha hbs (by simp; omega)
    have hlen := congrArg List.length hzs
    have hget := congrArg (·[zs.length]?) hzs
    have hzero : (pat.take a)[0]? = some (pat.head hne) := by
      rw [List.getElem?_take_of_lt ha0, ← List.head?_eq_getElem?, List.head?_eq_some_head hne]
    simp only [List.length_append, List.length_take] at hlen
    simp only [List.getElem?_append_right le_rfl, Nat.sub_self, hzero] at hget
    rw [List.getElem?_take_of_lt (by omega)] at hget
    exact getElem?_ne_head hne hhead (by omega) hget.symm
  exact le_antisymm (not_lt.1 (hcase h0' hm h' h)) (not_lt.1 (hcase h0 hm' h h'))

/-- The partial matches at the end of a text can be counted in one way only. -/
theorem EndsWithPartials.unique (h : EndsWithPartials pat k xs)
    (h' : EndsWithPartials pat k' xs) : k = k' := by
  induction h generalizing k' with
  | zero hno =>
    rcases h' with _ | ⟨_, hpos, hm⟩
    · rfl
    · exact absurd (List.suffix_append ..) (hno _ hpos hm)
  | @succ k ys m hys hpos hm ih =>
    generalize hxs : ys ++ pat.take m = xs at h'
    rcases h' with hno | ⟨hys', hpos', hm'⟩
    · exact absurd (hxs ▸ List.suffix_append ..) (hno m hpos hm)
    · obtain rfl := eq_of_take_suffix hne hhead hpos (hxs ▸ List.suffix_append ..) hpos'
        (List.suffix_append ..) hm.le hm'.le
      obtain rfl := List.append_cancel_right hxs
      rw [ih hys']

/-- What is matched is determined by what has been read. -/
theorem Scanned.unique (h : Scanned pat m xs) (h' : Scanned pat m' xs) (hm : m < pat.length)
    (hm' : m' < pat.length) : m = m' := by
  have hcase {a b : ℕ} (ha : Scanned pat a xs) (hb : Scanned pat b xs) (hlen : a < pat.length)
      (hlen' : b < pat.length) (hpos : 0 < a) : a = b := by
    obtain ⟨ys, k, hys, heven, hends⟩ := ha
    obtain ⟨zs, j, hzs, heven', hends'⟩ := hb
    rcases Nat.eq_zero_or_pos b with rfl | hpos'
    · rw [List.take_zero, List.append_nil] at hzs
      have hcount := (hends.succ hpos hlen).unique hne hhead (hys ▸ hzs ▸ hends')
      exact absurd (hcount ▸ heven') (Nat.not_even_iff_odd.2 heven.add_one)
    · exact eq_of_take_suffix hne hhead hpos (hys ▸ List.suffix_append ..) hpos'
        (hzs ▸ List.suffix_append ..) hlen.le hlen'.le
  rcases Nat.eq_zero_or_pos m with rfl | hpos
  · rcases Nat.eq_zero_or_pos m' with rfl | hpos'
    · rfl
    · exact (hcase h' h hm' hm hpos').symm
  · exact hcase h h' hm hm' hpos

end Partials

/-! ### The scan -/

omit [DecidableEq α] in
theorem scanned_nil : Scanned pat 0 [] := ⟨[], 0, rfl, Even.zero, endsWithPartials_nil pat⟩

section Scan

variable {pat}

/-- With `m` symbols of the pattern matched, the rest of it is found. -/
theorem scanFrom_drop {m : ℕ} (hm : m < pat.length) (xs : List α) :
    scanFrom pat m (pat.drop m ++ xs) := by
  have hget : pat[m]? = some pat[m] := List.getElem?_eq_getElem hm
  rw [List.drop_eq_getElem_cons hm, List.cons_append, scanFrom, nextMatch_of_eq hget]
  by_cases hlast : m + 1 = pat.length
  · rw [decide_eq_true hlast, Bool.true_or]
  · rw [scanFrom_drop (by omega) xs, Bool.or_true]
termination_by pat.length - m

theorem scanFrom_append {m : ℕ} {xs : List α} (h : scanFrom pat m xs) (ys : List α) :
    scanFrom pat m (xs ++ ys) := by
  induction xs generalizing m with
  | nil => cases h
  | cons x xs ih =>
    simp only [List.cons_append, scanFrom, Bool.or_eq_true] at h ⊢
    exact h.imp_right ih

variable (hne : pat ≠ []) (hhead : pat.head hne ∉ pat.tail)
include hhead

/-- What one more symbol does to what has been read. -/
theorem scanned_nextMatch {xs : List α} {m : ℕ} (x : α) (h : Scanned pat m xs)
    (hm : m < pat.length) : Scanned pat (nextMatch pat m x) (xs ++ [x]) := by
  obtain ⟨ys, k, rfl, heven, hends⟩ := h
  by_cases hx : pat[m]? = some x
  · refine ⟨ys, k, ?_, heven, hends⟩
    rw [nextMatch_of_eq hx, List.take_add_one, hx, Option.toList_some, List.append_assoc]
  rw [nextMatch_of_ne hx]
  suffices h : ∃ j, Even j ∧ EndsWithPartials pat j (ys ++ pat.take m ++ [x]) by
    obtain ⟨j, hj, hjends⟩ := h
    exact ⟨_, j, (List.append_nil _).symm, hj, hjends⟩
  by_cases hfirst : pat[0]? = some x
  · -- The symbol begins a partial match that follows the one it ends.
    have hpos : 0 < m := Nat.pos_of_ne_zero fun h0 => hx (h0 ▸ hfirst)
    have hstep := (hends.succ hpos hm).succ Nat.one_pos (by omega)
    rw [List.take_add_one, List.take_zero, hfirst, Option.toList_some, List.nil_append] at hstep
    exact ⟨k + 2, heven.add even_two, hstep⟩
  by_cases hends' : ∃ j, 0 < j ∧ j < pat.length ∧ pat.take j <:+ ys ++ pat.take m ++ [x]
  · -- It continues a partial match that was not matched itself.
    obtain ⟨j, hpos, hj, hsuffix⟩ := hends'
    obtain ⟨j, rfl⟩ := Nat.exists_eq_add_of_le' hpos
    obtain ⟨hbefore, hnext⟩ := (take_succ_suffix_concat_iff (by omega)).1 hsuffix
    have hpos' : 0 < j := Nat.pos_of_ne_zero fun h0 => hfirst (h0 ▸ hnext)
    obtain rfl : m = 0 := by
      by_contra h0
      obtain rfl := eq_of_take_suffix hne hhead (Nat.pos_of_ne_zero h0) (List.suffix_append ys _)
        hpos' hbefore hm.le (by omega)
      exact hx hnext
    rw [List.take_zero, List.append_nil] at hbefore ⊢
    refine ⟨k, heven, ?_⟩
    rcases hends with hno | @⟨k, zs, i, hzs, hi, hi'⟩
    · exact absurd hbefore (hno j hpos' (by omega))
    · obtain rfl := eq_of_take_suffix hne hhead hi (List.suffix_append ..) hpos' hbefore hi'.le
        (by omega)
      have hstep := hzs.succ hpos hj
      rwa [List.take_add_one, hnext, Option.toList_some, ← List.append_assoc] at hstep
  · refine ⟨0, Even.zero, .zero ?_⟩
    intro j hpos hj hsuffix
    exact hends' ⟨j, hpos, hj, hsuffix⟩

/-- A scan that finds the pattern stops at its end. -/
theorem exists_scanned_of_scanFrom {done xs : List α} {m : ℕ} (h : Scanned pat m done)
    (hm : m < pat.length) (hscan : scanFrom pat m xs) :
    ∃ pre post, xs = pre ++ post ∧ Scanned pat pat.length (done ++ pre) := by
  induction xs generalizing done m with
  | nil => cases hscan
  | cons x xs ih =>
    have hnext := scanned_nextMatch hne hhead x h hm
    by_cases hlast : nextMatch pat m x = pat.length
    · exact ⟨[x], xs, rfl, hlast ▸ hnext⟩
    · have hrest : scanFrom pat (nextMatch pat m x) xs := by simpa [scanFrom, hlast] using hscan
      obtain ⟨pre, post, rfl, hend⟩ :=
        ih hnext (lt_of_le_of_ne (nextMatch_le_length x) hlast) hrest
      exact ⟨x :: pre, post, rfl, by simpa using hend⟩

/-- A scan that does not find the pattern goes on from a count that describes what it has read. -/
theorem exists_scanned_of_not_scanFrom {done xs : List α} {m : ℕ} (h : Scanned pat m done)
    (hm : m < pat.length) (hscan : ¬ scanFrom pat m xs) :
    ∃ m' < pat.length, Scanned pat m' (done ++ xs) ∧
      ∀ ys, scanFrom pat m (xs ++ ys) = scanFrom pat m' ys := by
  induction xs generalizing done m with
  | nil => exact ⟨m, hm, by simpa using h, fun _ => rfl⟩
  | cons x xs ih =>
    have hnext := scanned_nextMatch hne hhead x h hm
    simp only [scanFrom, Bool.or_eq_true, decide_eq_true_eq, not_or] at hscan
    obtain ⟨m', hm', hend, hrest⟩ :=
      ih hnext (lt_of_le_of_ne (nextMatch_le_length x) hscan.1) hscan.2
    refine ⟨m', hm', by simpa using hend, fun ys => ?_⟩
    rw [List.cons_append, scanFrom, hrest ys, decide_eq_false hscan.1, Bool.false_or]

/-- **The scan finds an occurrence exactly when an even number of partial matches precede it.** -/
theorem scanFrom_iff (xs : List α) : scanFrom pat 0 xs ↔ Matched pat xs := by
  have hlen : 0 < pat.length := List.length_pos_of_ne_nil hne
  constructor
  · intro h
    obtain ⟨pre, post, rfl, ys, k, hys, heven, hends⟩ :=
      exists_scanned_of_scanFrom hne hhead (scanned_nil pat) hlen h
    rw [List.take_length] at hys
    exact ⟨ys, post, k, by rw [← hys, List.nil_append], heven, hends⟩
  · rintro ⟨pre, post, k, rfl, heven, hends⟩
    by_cases hpre : scanFrom pat 0 pre
    · rw [List.append_assoc]
      exact scanFrom_append hpre _
    · obtain ⟨m, hm, hscanned, hrest⟩ :=
        exists_scanned_of_not_scanFrom hne hhead (scanned_nil pat) hlen hpre
      have hclean : Scanned pat 0 pre := ⟨pre, k, by simp, heven, hends⟩
      obtain rfl := hscanned.unique hne hhead hclean hm hlen
      rw [List.append_assoc, hrest]
      exact scanFrom_drop hlen post

end Scan

end Matcher
