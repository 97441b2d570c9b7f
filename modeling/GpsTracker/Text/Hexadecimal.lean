import Mathlib.Algebra.Group.Nat.Defs
import Mathlib.Data.Fintype.Basic
import Mathlib.Tactic.Common

/-!
# Hexadecimal notation

Numbers of a fixed width in hexadecimal notation, as bytes of ASCII characters. The digits above
nine can be read in either case and are written in lower case.

## Main definitions

* `Hexadecimal.digit`, `Hexadecimal.digits`.
* `Hexadecimal.IsDigit`, `Hexadecimal.value`, `Hexadecimal.lower`.

## Main results

* `Hexadecimal.value_digit`, `Hexadecimal.digit_value`.
* `Hexadecimal.digits_add`, `Hexadecimal.digits_mod`.
-/

namespace Hexadecimal

/-- The digit for a number less than sixteen. -/
def digit (d : ℕ) : UInt8 := if d < 10 then 0x30 + d.toUInt8 else 0x57 + d.toUInt8

/-- The last `w` digits of a number, with leading zeros. -/
def digits : ℕ → ℕ → List UInt8
  | 0, _ => []
  | w + 1, n => digit (n / 16 ^ w % 16) :: digits w n

/-- A digit in either case. -/
def IsDigit (b : UInt8) : Prop :=
  0x30 ≤ b ∧ b ≤ 0x39 ∨ 0x41 ≤ b ∧ b ≤ 0x46 ∨ 0x61 ≤ b ∧ b ≤ 0x66

instance (b : UInt8) : Decidable (IsDigit b) :=
  inferInstanceAs (Decidable (_ ∨ _ ∨ _))

/-- The number for which a digit stands. -/
def value (b : UInt8) : ℕ :=
  if b ≤ 0x39 then (b - 0x30).toNat else if b ≤ 0x46 then (b - 0x37).toNat else (b - 0x57).toNat

/-- A digit in lower case. -/
def lower (b : UInt8) : UInt8 := if 0x41 ≤ b ∧ b ≤ 0x46 then b + 0x20 else b

@[simp] theorem length_digits (w n : ℕ) : (digits w n).length = w := by
  induction w with
  | zero => rfl
  | succ w ih => rw [digits, List.length_cons, ih]

/-- A property of bytes can be checked for each of them. -/
theorem forall_uint8 {P : UInt8 → Prop} (h : ∀ i : Fin 256, P (UInt8.ofFin i)) (b : UInt8) :
    P b := by
  simpa using h b.toFin

theorem value_lt {b : UInt8} : IsDigit b → value b < 16 :=
  forall_uint8 (P := fun b => IsDigit b → value b < 16) (by decide +kernel) b

theorem digit_value {b : UInt8} : IsDigit b → digit (value b) = lower b :=
  forall_uint8 (P := fun b => IsDigit b → digit (value b) = lower b) (by decide +kernel) b

theorem isDigit_digit {d : ℕ} (h : d < 16) : IsDigit (digit d) :=
  (by decide : ∀ d : Fin 16, IsDigit (digit d)) ⟨d, h⟩

theorem value_digit {d : ℕ} (h : d < 16) : value (digit d) = d :=
  (by decide : ∀ d : Fin 16, value (digit d) = d) ⟨d, h⟩

/-- A notation consists of those of two parts. -/
theorem digits_add (v w n : ℕ) : digits (v + w) n = digits v (n / 16 ^ w) ++ digits w n := by
  induction v with
  | zero => rw [Nat.zero_add, digits, List.nil_append]
  | succ v ih =>
    rw [Nat.succ_add, digits, digits, ih, Nat.div_div_eq_div_mul, ← Nat.pow_add, Nat.add_comm w,
      List.cons_append]

/-- The notation of a number depends on its last digits only. -/
theorem digits_mod (w n : ℕ) : digits w (n % 16 ^ w) = digits w n := by
  induction w generalizing n with
  | zero => rfl
  | succ w ih =>
    have htail : n % 16 ^ (w + 1) % 16 ^ w = n % 16 ^ w :=
      Nat.mod_mod_of_dvd n (Nat.pow_dvd_pow 16 (Nat.le_succ w))
    rw [digits, digits, ← ih (n % 16 ^ (w + 1)), htail, ih, Nat.pow_succ,
      Nat.mod_mul_right_div_self, Nat.mod_mod]

end Hexadecimal
