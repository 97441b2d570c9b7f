import Mathlib.Algebra.Group.Prod
import Mathlib.Tactic.Abel

/-!
# Fletcher's checksum

Two running sums of a sequence of symbols: the sum of the symbols, and the sum of the values that
the first one takes. The second one counts each symbol once for itself and once for each symbol
after it (`fletcher_cons`), so that the checksum also depends on the order of the symbols.

The checksums of two sequences that differ in one symbol are different (`fletcher_symbol_inj`), and
those of two sequences that differ by the exchange of two symbols are equal only if the distance of
these annihilates their difference (`fletcher_exchange_iff`).

## Main definitions

* `fletcher`.

## Main results

* `fletcher_symbol_inj`, `fletcher_exchange_iff`.
-/

section Fletcher

variable {G : Type*}

/-- The checksum of a sequence. -/
def fletcher [AddCommMonoid G] (xs : List G) : G × G :=
  xs.foldl (fun ck x => (ck.1 + x, ck.2 + (ck.1 + x))) (0, 0)

@[simp] theorem fletcher_nil [AddCommMonoid G] : fletcher ([] : List G) = 0 := rfl

/-- The sums that begin with other values. -/
theorem foldl_fletcher [AddCommMonoid G] (xs : List G) (a b : G) :
    xs.foldl (fun ck x => (ck.1 + x, ck.2 + (ck.1 + x))) (a, b) =
      (a, b + xs.length • a) + fletcher xs := by
  induction xs generalizing a b with
  | nil => simp
  | cons x xs ih =>
    have hx : fletcher (x :: xs) = (0 + x, 0 + (0 + x) + xs.length • (0 + x)) + fletcher xs :=
      ih (0 + x) (0 + (0 + x))
    rw [List.foldl_cons, ih, hx]
    refine Prod.ext ?_ ?_
    · simp only [Prod.fst_add, zero_add, add_assoc]
    · simp only [Prod.snd_add, zero_add, List.length_cons, succ_nsmul, nsmul_add]
      abel

/-- **The first symbol** is counted once in the first sum, and once for each symbol of the sequence
in the second one. -/
theorem fletcher_cons [AddCommMonoid G] (x : G) (xs : List G) :
    fletcher (x :: xs) = (x, (xs.length + 1) • x) + fletcher xs := by
  rw [fletcher, List.foldl_cons, foldl_fletcher, zero_add, zero_add, add_comm _ 1, add_nsmul,
    one_nsmul]

variable [AddCommGroup G]

/-- Sequences of the same length with a common beginning. -/
theorem fletcher_append_left_inj (pre : List G) {xs ys : List G} (h : xs.length = ys.length) :
    fletcher (pre ++ xs) = fletcher (pre ++ ys) ↔ fletcher xs = fletcher ys := by
  induction pre with
  | nil => rfl
  | cons p pre ih =>
    simp only [List.cons_append, fletcher_cons, List.length_append, h, add_right_inj, ih]

/-- A symbol counted apart. -/
theorem fletcher_append_cons (pre post : List G) (x : G) :
    fletcher (pre ++ x :: post) = fletcher (pre ++ 0 :: post) + (x, (post.length + 1) • x) := by
  induction pre with
  | nil =>
    rw [List.nil_append, List.nil_append, fletcher_cons, fletcher_cons, nsmul_zero,
      ← Prod.zero_eq_mk, zero_add, add_comm]
  | cons p pre ih =>
    simp only [List.cons_append, fletcher_cons, ih, List.length_append, List.length_cons, add_assoc]

/-- **Sequences that differ in one symbol** have different checksums. -/
theorem fletcher_symbol_inj (pre post : List G) {x y : G} :
    fletcher (pre ++ x :: post) = fletcher (pre ++ y :: post) ↔ x = y := by
  rw [fletcher_append_cons pre post x, fletcher_append_cons pre post y, add_right_inj,
    Prod.mk.injEq]
  exact ⟨fun h => h.1, fun h => ⟨h, by rw [h]⟩⟩

/-- **Two symbols exchanged.** The checksum does not notice it exactly if the distance of the
symbols times their difference is zero. -/
theorem fletcher_exchange_iff (pre mid post : List G) {x y : G} :
    fletcher (pre ++ x :: (mid ++ y :: post)) = fletcher (pre ++ y :: (mid ++ x :: post)) ↔
      (mid.length + 1) • (x - y) = 0 := by
  have hlen : ∀ z : G, (mid ++ z :: post).length = mid.length + 1 + post.length := by
    intro z
    rw [List.length_append, List.length_cons]
    omega
  have hsplit : ∀ z : G, (mid.length + 1 + post.length + 1) • z =
      (mid.length + 1) • z + (post.length + 1) • z := fun z => by rw [← add_nsmul, add_assoc]
  rw [fletcher_append_left_inj pre (by simp [hlen]), fletcher_cons, fletcher_cons,
    fletcher_append_cons mid post x, fletcher_append_cons mid post y, hlen, hlen, hsplit, hsplit,
    nsmul_sub, sub_eq_zero]
  simp only [Prod.ext_iff, Prod.fst_add, Prod.snd_add]
  constructor
  · rintro ⟨-, h⟩
    refine add_right_cancel (b := (post.length + 1) • x + ((fletcher (mid ++ 0 :: post)).2 +
      (post.length + 1) • y)) ?_
    rw [← add_assoc, h]
    abel
  · intro h
    refine ⟨by abel, ?_⟩
    rw [h]
    abel

end Fletcher
