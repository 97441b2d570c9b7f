import Mathlib.Algebra.Group.Int.Defs
import Mathlib.Algebra.Group.Nat.Defs
import Mathlib.Tactic.Common

/-!
# Scanning a decimal number

The conversion `%d` of `sscanf`, on the bytes of an array. It skips white space and takes an
optional sign and the digits that follow. Its result depends on the bytes up to the first one after
the digits (`scanInt_append`). If there is no such byte in the array, the scan goes on outside of
it, and a value that does not fit into an `int` is undefined; in both cases the result is `none`.
A number in decimal notation is scanned as what it is (`scanInt_decimalBytes`).

## Main definitions

* `ascii`, `decimalBytes`.
* `scanInt`.

## Main results

* `scanInt_append`, `scanInt_decimalBytes`.
-/

/-! ### Texts as bytes -/

/-- The bytes of a text of ASCII characters. -/
def ascii (s : String) : List UInt8 := s.toList.map Char.toUInt8

/-- The decimal notation of a number. -/
def decimalBytes (n : ℕ) : List UInt8 := (Nat.toDigits 10 n).map Char.toUInt8

/-- A digit. -/
def isDigitByte (b : UInt8) : Bool := (Char.ofUInt8 b).isDigit

/-- A byte for which `isspace` holds. -/
def isSpaceByte (b : UInt8) : Bool := b = 0x20 || 0x09 ≤ b && b ≤ 0x0D

/-- The number that some digits denote. -/
def decimalValue (ds : List UInt8) : ℕ := Nat.ofDigitChars 10 (ds.map Char.ofUInt8) 0

/-! ### The scan -/

/-- The sign, and what follows it. -/
def splitSign : List UInt8 → ℤ × List UInt8
  | [] => (1, [])
  | b :: bs => if b = 0x2D then (-1, bs) else if b = 0x2B then (1, bs) else (1, b :: bs)

/-- What `sscanf` stores for `%d`, if anything. -/
def scanInt (xs : List UInt8) : Option (Option ℤ) :=
  let sd := splitSign (xs.dropWhile isSpaceByte)
  let digits := sd.2.takeWhile isDigitByte
  if digits.length = sd.2.length then none
  else if digits = [] then some none
  else
    let v := sd.1 * decimalValue digits
    if -2 ^ 31 ≤ v ∧ v < 2 ^ 31 then some (some v) else none

/-- What is stored fits into an `int`. -/
theorem lt_of_scanInt {xs : List UInt8} {v : ℤ} (h : scanInt xs = some (some v)) : v < 2 ^ 31 := by
  simp only [scanInt] at h
  split_ifs at h with _ _ hv
  · cases h
  · obtain rfl := Option.some_inj.mp (Option.some_inj.mp h)
    exact hv.2

theorem splitSign_append {xs : List UInt8} (h : xs ≠ []) (ys : List UInt8) :
    splitSign (xs ++ ys) = ((splitSign xs).1, (splitSign xs).2 ++ ys) := by
  obtain ⟨b, bs, rfl⟩ := List.exists_cons_of_ne_nil h
  simp only [splitSign, List.cons_append]
  split_ifs <;> rfl

/-- **What follows the byte after the digits does not matter.** -/
theorem scanInt_append {xs : List UInt8} {v : Option ℤ} (h : scanInt xs = some v)
    (ys : List UInt8) : scanInt (xs ++ ys) = some v := by
  have hend : ((splitSign (xs.dropWhile isSpaceByte)).2.takeWhile isDigitByte).length ≠
      (splitSign (xs.dropWhile isSpaceByte)).2.length := by
    intro hend
    simp [scanInt, hend] at h
  have hne : xs.dropWhile isSpaceByte ≠ [] := by
    intro hnil
    rw [hnil] at hend
    exact hend rfl
  have hdrop : (xs ++ ys).dropWhile isSpaceByte = xs.dropWhile isSpaceByte ++ ys := by
    rw [List.dropWhile_append, if_neg (by simpa using hne)]
  have htake : ((splitSign (xs.dropWhile isSpaceByte)).2 ++ ys).takeWhile isDigitByte =
      (splitSign (xs.dropWhile isSpaceByte)).2.takeWhile isDigitByte := by
    rw [List.takeWhile_append, if_neg hend]
  have hlen := (List.takeWhile_prefix isDigitByte
    (l := (splitSign (xs.dropWhile isSpaceByte)).2)).length_le
  have hend' : ((splitSign (xs.dropWhile isSpaceByte)).2.takeWhile isDigitByte).length ≠
      ((splitSign (xs.dropWhile isSpaceByte)).2 ++ ys).length := by
    rw [List.length_append]
    omega
  rw [← h]
  simp only [scanInt, hdrop, splitSign_append hne, htake, if_neg hend, if_neg hend']

/-! ### Decimal notation -/

section Decimal

variable {n : ℕ}

theorem ofUInt8_toUInt8_of_isDigit {c : Char} (h : c.isDigit = true) :
    Char.ofUInt8 c.toUInt8 = c := by
  obtain ⟨-, hle⟩ := Char.isDigit_iff_toNat.mp h
  apply Char.ext
  apply UInt32.toNat_inj.mp
  have hval : c.val.toNat ≤ 57 := hle
  change c.val.toUInt8.toUInt32.toNat = c.val.toNat
  rw [UInt8.toNat_toUInt32, UInt32.toNat_toUInt8]
  omega

theorem map_ofUInt8_decimalBytes : (decimalBytes n).map Char.ofUInt8 = Nat.toDigits 10 n := by
  rw [decimalBytes, List.map_map]
  refine (List.map_congr_left fun c hc => ?_).trans (List.map_id _)
  exact ofUInt8_toUInt8_of_isDigit (Nat.isDigit_of_mem_toDigits (by decide) (by decide) hc)

theorem isDigitByte_of_mem_decimalBytes {b : UInt8} (h : b ∈ decimalBytes n) :
    isDigitByte b = true := by
  have hb := List.mem_map_of_mem (f := Char.ofUInt8) h
  rw [map_ofUInt8_decimalBytes] at hb
  exact Nat.isDigit_of_mem_toDigits (by decide) (by decide) hb

theorem decimalBytes_ne_nil : decimalBytes n ≠ [] := by
  rw [decimalBytes, ne_eq, List.map_eq_nil_iff]
  exact Nat.toDigits_ne_nil

@[simp] theorem decimalValue_decimalBytes : decimalValue (decimalBytes n) = n := by
  rw [decimalValue, map_ofUInt8_decimalBytes, Nat.ofDigitChars_toDigits (by decide) (by decide)]

theorem isDigitByte_iff {b : UInt8} : isDigitByte b = true ↔ 0x30 ≤ b ∧ b ≤ 0x39 := by
  have hval : (Char.ofUInt8 b).toNat = b.toNat := UInt8.toNat_toUInt32 b
  rw [isDigitByte, Char.isDigit_iff_toNat, hval]
  exact Iff.rfl

/-- A digit is neither white space nor a sign. -/
theorem not_isSpaceByte_of_isDigitByte {b : UInt8} (h : isDigitByte b = true) :
    isSpaceByte b = false ∧ b ≠ 0x2D ∧ b ≠ 0x2B := by
  obtain ⟨hle, -⟩ := isDigitByte_iff.mp h
  refine ⟨?_, ?_, ?_⟩
  · simp only [isSpaceByte, Bool.or_eq_false_iff, Bool.and_eq_false_iff, decide_eq_false_iff_not]
    exact ⟨by rintro rfl; exact absurd hle (by decide),
      .inr fun hsmall => absurd (UInt8.le_trans hle hsmall) (by decide)⟩
  · rintro rfl
    exact absurd hle (by decide)
  · rintro rfl
    exact absurd hle (by decide)

/-- **A number in decimal notation is scanned as what it is.** -/
theorem scanInt_decimalBytes (hn : n < 2 ^ 31) {c : UInt8} (hc : isDigitByte c = false)
    (rest : List UInt8) : scanInt (decimalBytes n ++ c :: rest) = some (some (n : ℤ)) := by
  obtain ⟨d, ds, hds⟩ := List.exists_cons_of_ne_nil (decimalBytes_ne_nil (n := n))
  have hd : isDigitByte d = true := isDigitByte_of_mem_decimalBytes (n := n) (by simp [hds])
  obtain ⟨hspace, hminus, hplus⟩ := not_isSpaceByte_of_isDigitByte hd
  have hsign : splitSign ((decimalBytes n ++ c :: rest).dropWhile isSpaceByte) =
      (1, decimalBytes n ++ c :: rest) := by
    simp [hds, splitSign, hspace, hminus, hplus]
  have htake : (decimalBytes n ++ c :: rest).takeWhile isDigitByte = decimalBytes n := by
    rw [List.takeWhile_append_of_pos fun b hb => isDigitByte_of_mem_decimalBytes hb,
      List.takeWhile_cons_of_neg (by simp [hc]), List.append_nil]
  simp only [scanInt, hsign, htake, decimalValue_decimalBytes, Int.one_mul]
  rw [if_neg (by simp), if_neg decimalBytes_ne_nil, if_pos (by omega)]

end Decimal
