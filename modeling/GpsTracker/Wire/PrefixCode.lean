import Mathlib.Data.List.Basic
import Mathlib.Tactic.Common

/-!
# Prefix codes

A code in which the end of a word can be told from the word, so that a sequence of words is decoded
one word after the other. The words that are decoded from a text are those of which it consists
(`PrefixCode.decodeAll_eq_some_iff`); in particular a text consists of words in one way only.

## Main definitions

* `PrefixCode`, `PrefixCode.decodeAll`.

## Main results

* `PrefixCode.decodeAll_eq_some_iff`.
-/

/-- Words for the values of a type, and a function that takes the first word off a text. -/
structure PrefixCode (α β : Type*) where
  encode : α → List β
  decode : List β → Option (α × List β)
  encode_ne_nil (a : α) : encode a ≠ []
  decode_eq_some_iff {xs rest : List β} {a : α} :
    decode xs = some (a, rest) ↔ xs = encode a ++ rest

namespace PrefixCode

variable {α β : Type*} (C : PrefixCode α β)

/-- The words of a text, of which at most `n` are decoded. -/
def decodeUpTo : ℕ → List β → Option (List α)
  | _, [] => some []
  | 0, _ :: _ => none
  | n + 1, x :: xs =>
    (C.decode (x :: xs)).bind fun word => (decodeUpTo n word.2).map fun as => word.1 :: as

/-- The words of a text. -/
def decodeAll (xs : List β) : Option (List α) := C.decodeUpTo xs.length xs

theorem decode_encode_append (a : α) (rest : List β) :
    C.decode (C.encode a ++ rest) = some (a, rest) :=
  C.decode_eq_some_iff.mpr rfl

theorem length_encode_pos (a : α) : 0 < (C.encode a).length :=
  List.length_pos_of_ne_nil (C.encode_ne_nil a)

/-- There are not more words in a text than symbols. -/
theorem length_le_length_flatMap (as : List α) : as.length ≤ (as.flatMap C.encode).length := by
  induction as with
  | nil => simp
  | cons a as ih =>
    have hpos := C.length_encode_pos a
    rw [List.flatMap_cons, List.length_append, List.length_cons]
    omega

theorem decodeUpTo_flatMap (as : List α) {n : ℕ} (hn : as.length ≤ n) :
    C.decodeUpTo n (as.flatMap C.encode) = some as := by
  induction as generalizing n with
  | nil => cases n <;> rfl
  | cons a as ih =>
    obtain ⟨n, rfl⟩ : ∃ k, n = k + 1 := ⟨n - 1, by simp only [List.length_cons] at hn; omega⟩
    have hdecode := C.decode_encode_append a (as.flatMap C.encode)
    obtain ⟨x, xs, hx⟩ := List.exists_cons_of_ne_nil (C.encode_ne_nil a)
    rw [List.flatMap_cons]
    rw [hx, List.cons_append] at hdecode ⊢
    simp [decodeUpTo, hdecode, ih (Nat.le_of_succ_le_succ hn)]

theorem eq_flatMap_of_decodeUpTo {n : ℕ} {xs : List β} {as : List α}
    (h : C.decodeUpTo n xs = some as) : xs = as.flatMap C.encode := by
  induction n generalizing xs as with
  | zero =>
    cases xs with
    | nil => cases h; rfl
    | cons x xs => cases h
  | succ n ih =>
    cases xs with
    | nil => cases h; rfl
    | cons x xs =>
      obtain ⟨⟨a, rest⟩, hdecode, h⟩ := Option.bind_eq_some_iff.mp h
      obtain ⟨as', hrest, rfl⟩ := Option.map_eq_some_iff.mp h
      rw [List.flatMap_cons, ← ih hrest]
      exact C.decode_eq_some_iff.mp hdecode

/-- **The words decoded from a text** are those of which it consists. -/
theorem decodeAll_eq_some_iff {xs : List β} {as : List α} :
    C.decodeAll xs = some as ↔ xs = as.flatMap C.encode := by
  constructor
  · exact C.eq_flatMap_of_decodeUpTo
  · rintro rfl
    exact C.decodeUpTo_flatMap as (C.length_le_length_flatMap as)

end PrefixCode
