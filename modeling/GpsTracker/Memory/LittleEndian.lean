import Mathlib.Data.Nat.Digits.Lemmas
import Mathlib.Tactic.Ring

/-!
# Little-endian integers

The bytes of an integer type in the order in which a little-endian machine stores them, the least
significant byte first. A value of a signed type is stored as its residue, and read back as the
representative nearest to zero (`Int.bmod`).

## Main definitions

* `LittleEndian.ofNat`, `LittleEndian.toNat`.
* `IntType` : the width of an integer type and whether it is signed; `IntType.encode`,
  `IntType.decode`, `IntType.InRange`.

## Main results

* `LittleEndian.toNat_ofNat`, `LittleEndian.toNat_inj`.
* `IntType.decode_encode`, `IntType.decode_inj`.
-/

/-! ### Natural numbers -/

namespace LittleEndian

/-- The `w` low bytes of a number. -/
def ofNat : ℕ → ℕ → List UInt8
  | 0, _ => []
  | w + 1, n => UInt8.ofNat n :: ofNat w (n / 256)

/-- The number with the given bytes. -/
def toNat (bs : List UInt8) : ℕ := Nat.ofDigits 256 (bs.map UInt8.toNat)

@[simp] theorem toNat_nil : toNat [] = 0 := rfl

@[simp] theorem toNat_cons (b : UInt8) (bs : List UInt8) :
    toNat (b :: bs) = b.toNat + 256 * toNat bs := rfl

@[simp] theorem length_ofNat (w n : ℕ) : (ofNat w n).length = w := by
  induction w generalizing n with
  | zero => rfl
  | succ w ih => rw [ofNat, List.length_cons, ih]

/-- Reading back the low bytes of a number. -/
theorem toNat_ofNat (w n : ℕ) : toNat (ofNat w n) = n % 256 ^ w := by
  induction w generalizing n with
  | zero => rw [ofNat, toNat_nil, pow_zero, Nat.mod_one]
  | succ w ih =>
    rw [ofNat, toNat_cons, ih, pow_succ', Nat.mod_mul]
    rfl

private theorem map_toNat_lt (bs : List UInt8) : ∀ d ∈ bs.map UInt8.toNat, d < 256 := by
  intro d hd
  obtain ⟨b, -, rfl⟩ := List.mem_map.mp hd
  exact b.toNat_lt

theorem toNat_lt (bs : List UInt8) : toNat bs < 256 ^ bs.length := by
  simpa [toNat] using Nat.ofDigits_lt_base_pow_length (by norm_num) (map_toNat_lt bs)

/-- Lists of bytes of one length are determined by the number they stand for. -/
theorem toNat_inj {bs cs : List UInt8} (hlen : bs.length = cs.length) :
    toNat bs = toNat cs ↔ bs = cs := by
  constructor
  · intro h
    have hmap := Nat.ofDigits_inj_of_len_eq (by norm_num) (by simpa using hlen)
      (map_toNat_lt bs) (map_toNat_lt cs) h
    exact List.map_injective_iff.mpr (fun _ _ => UInt8.toNat_inj.mp) hmap
  · rintro rfl
    rfl

end LittleEndian

/-! ### Integer types -/

/-- An integer type of a positive number of bytes. -/
structure IntType where
  size : ℕ
  signed : Bool
  size_pos : 0 < size
  deriving DecidableEq

namespace IntType

variable (t : IntType)

/-- The values of the type. -/
def InRange (v : ℤ) : Prop :=
  if t.signed then -(256 ^ t.size : ℕ) ≤ v * 2 ∧ v * 2 < (256 ^ t.size : ℕ)
  else 0 ≤ v ∧ v < (256 ^ t.size : ℕ)

instance (v : ℤ) : Decidable (t.InRange v) := by
  unfold InRange
  infer_instance

/-- The bytes of a value. -/
def encode (v : ℤ) : List UInt8 :=
  LittleEndian.ofNat t.size (v % (256 ^ t.size : ℕ)).toNat

/-- The value with the given bytes. -/
def decode (bs : List UInt8) : ℤ :=
  if t.signed then (LittleEndian.toNat bs : ℤ).bmod (256 ^ t.size) else LittleEndian.toNat bs

@[simp] theorem length_encode (v : ℤ) : (t.encode v).length = t.size :=
  LittleEndian.length_ofNat ..

/-- The number that the bytes of a value stand for. -/
theorem toNat_encode (v : ℤ) :
    (LittleEndian.toNat (t.encode v) : ℤ) = v % (256 ^ t.size : ℕ) := by
  have hpos : (0 : ℤ) < (256 ^ t.size : ℕ) := by positivity
  have hnonneg := Int.emod_nonneg v hpos.ne'
  have hlt := Int.emod_lt_of_pos v hpos
  rw [encode, LittleEndian.toNat_ofNat, Nat.mod_eq_of_lt (by omega), Int.toNat_of_nonneg hnonneg]

/-- **Reading back a value of the type.** -/
theorem decode_encode {v : ℤ} (h : t.InRange v) : t.decode (t.encode v) = v := by
  rw [decode, toNat_encode]
  unfold InRange at h
  split at h
  case isTrue hs =>
    rw [if_pos hs, Int.emod_bmod]
    exact Int.bmod_eq_of_le_mul_two h.1 h.2
  case isFalse hs =>
    rw [if_neg hs]
    exact Int.emod_eq_of_lt h.1 h.2

/-- **The bytes are determined by the value read from them.** -/
theorem decode_inj {bs cs : List UInt8} (hbs : bs.length = t.size) (hcs : cs.length = t.size) :
    t.decode bs = t.decode cs ↔ bs = cs := by
  refine ⟨fun h => ?_, fun h => h ▸ rfl⟩
  rw [← LittleEndian.toNat_inj (hbs.trans hcs.symm)]
  have hb := LittleEndian.toNat_lt bs
  have hc := LittleEndian.toNat_lt cs
  rw [hbs] at hb
  rw [hcs] at hc
  unfold decode at h
  split at h
  · have hmod := congrArg (· % ((256 ^ t.size : ℕ) : ℤ)) h
    simp only [Int.bmod_emod] at hmod
    rw [Int.emod_eq_of_lt (by positivity) (by exact_mod_cast hb),
      Int.emod_eq_of_lt (by positivity) (by exact_mod_cast hc)] at hmod
    exact_mod_cast hmod
  · exact_mod_cast h

/-- What is read from memory is a value of the type. -/
theorem inRange_decode {bs : List UInt8} (h : bs.length = t.size) : t.InRange (t.decode bs) := by
  have hlt := LittleEndian.toNat_lt bs
  rw [h] at hlt
  unfold InRange decode
  split
  · have hpos : 0 < 256 ^ t.size := by positivity
    have hle := Int.le_bmod (x := LittleEndian.toNat bs) hpos
    have hbmod := Int.bmod_lt (x := LittleEndian.toNat bs) hpos
    omega
  · exact ⟨by positivity, by exact_mod_cast hlt⟩

end IntType
