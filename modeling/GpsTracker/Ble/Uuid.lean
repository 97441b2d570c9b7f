import GpsTracker.Text.DecimalScan
import GpsTracker.Text.Hexadecimal
import Mathlib.Data.UInt

/-!
# Identifiers of services and characteristics

The class `BLEUUID` holds an identifier of 16, 32 or 128 bits, reads it from a string and writes it
as a string of 36 characters. The short forms stand for identifiers of 128 bits, and `equals`
compares what they stand for (`equals_iff`). A string of 36 characters in either case is read as the
identifier that is written as the same string in lower case (`toString_ofString`), which is how the
clients write the identifiers that the firmware has in upper case.

## Main definitions

* `BleUuid`, `BleUuid.ofString`, `BleUuid.toString`, `BleUuid.to128`, `BleUuid.equals`.

## Main results

* `BleUuid.ofString_toString`, `BleUuid.toString_to128`.
* `BleUuid.equals_iff`, `BleUuid.toString_ofString`.
-/

namespace GpsTracker

open Hexadecimal

/-- A `BLEUUID`: no value, or an identifier of 16, 32 or 128 bits. The bytes of the last begin with
the least significant one. -/
inductive BleUuid where
  | null
  | uuid16 (u : UInt16)
  | uuid32 (u : UInt32)
  | uuid128 (bytes : List UInt8) (h : bytes.length = 16)
  deriving DecidableEq, Repr

namespace BleUuid

/-! ### Reading -/

/-- The number in which the constructor turns a character. -/
def nibble (b : UInt8) : UInt8 := (if b > 0x39 then b - 7 else b) &&& 0x0F

/-- The byte that two characters denote. -/
def hexByte (msb lsb : UInt8) : UInt8 := nibble msb <<< 4 ||| nibble lsb

/-- The sum over the pairs of characters of a short identifier. -/
def hexWord : List UInt8 → ℕ
  | msb :: lsb :: cs => (hexByte msb lsb).toNat <<< (4 * cs.length) + hexWord cs
  | _ => 0

/-- The bytes that the loop for strings of 36 characters stores, the most significant one first. A
hyphen is skipped before a pair of characters. After the last character there is one zero, and
nothing behind it may be read. -/
def hexPairs : List UInt8 → Option (List UInt8)
  | [] => some []
  | [c] => if c = 0x2D then none else some [hexByte c 0]
  | [c, d] => if c = 0x2D then some [hexByte d 0] else some [hexByte c d]
  | c :: d :: e :: cs =>
    if c = 0x2D then (hexPairs cs).map (hexByte d e :: ·)
    else (hexPairs (e :: cs)).map (hexByte c d :: ·)

/-- `BLEUUID(std::string)`. There is no result if the loop stores more than 16 bytes, or less, so
that some remain undefined. -/
def ofString (value : List UInt8) : Option BleUuid :=
  if value.length = 4 then some (uuid16 (hexWord value).toUInt16)
  else if value.length = 8 then some (uuid32 (hexWord value).toUInt32)
  else if h : value.length = 16 then some (uuid128 value.reverse (by simpa using h))
  else if value.length = 36 then do
    let bytes ← hexPairs value
    if h : bytes.length = 16 then some (uuid128 bytes.reverse (by simpa using h)) else none
  else some null

/-! ### Writing and comparing -/

/-- The hexadecimal notation of some bytes. -/
def hexText (bytes : List UInt8) : List UInt8 := bytes.flatMap fun b => digits 2 b.toNat

/-- The notation of an identifier, from its most significant byte on. -/
def text (bytes : List UInt8) : List UInt8 :=
  hexText (bytes.take 4) ++ 0x2D :: (hexText ((bytes.drop 4).take 2) ++
    0x2D :: (hexText ((bytes.drop 6).take 2) ++ 0x2D :: (hexText ((bytes.drop 8).take 2) ++
      0x2D :: hexText (bytes.drop 10))))

def toString : BleUuid → List UInt8
  | null => ascii "<NULL>"
  | uuid16 u => ascii "0000" ++ digits 4 u.toNat ++ ascii "-0000-1000-8000-00805f9b34fb"
  | uuid32 u => digits 8 u.toNat ++ ascii "-0000-1000-8000-00805f9b34fb"
  | uuid128 bytes _ => text bytes.reverse

/-- The fixed bytes of the identifiers that have a short form. -/
def baseBytes : List UInt8 :=
  [0xFB, 0x34, 0x9B, 0x5F, 0x80, 0x00, 0x00, 0x80, 0x00, 0x10, 0x00, 0x00]

def to128 : BleUuid → BleUuid
  | null => null
  | uuid16 u => uuid128 (baseBytes ++ [u.toUInt8, (u >>> 8).toUInt8, 0, 0]) (by simp [baseBytes])
  | uuid32 u => uuid128 (baseBytes ++
      [u.toUInt8, (u >>> 8).toUInt8, (u >>> 16).toUInt8, (u >>> 24).toUInt8])
    (by simp [baseBytes])
  | uuid128 bytes h => uuid128 bytes h

def equals : BleUuid → BleUuid → Bool
  | null, _ => false
  | _, null => false
  | uuid16 u, uuid16 v => v = u
  | uuid32 u, uuid32 v => v = u
  | uuid128 bs _, uuid128 cs _ => cs = bs
  | u, v => v.toString = u.toString

/-! ### Reading what has been written -/

theorem toNat_nibble {b : UInt8} : IsDigit b → (nibble b).toNat = value b :=
  forall_uint8 (P := fun b => IsDigit b → (nibble b).toNat = value b) (by decide +kernel) b

theorem ne_hyphen_of_isDigit {b : UInt8} (h : IsDigit b) : b ≠ 0x2D := by
  rintro rfl
  exact absurd h (by decide)

theorem toNat_hexByte {c d : UInt8} (hc : IsDigit c) (hd : IsDigit d) :
    (hexByte c d).toNat = 16 * value c + value d := by
  have hlc := value_lt hc
  have hld := value_lt hd
  have hshift : (nibble c <<< 4).toNat = 16 * value c := by
    simp [UInt8.toNat_shiftLeft, toNat_nibble hc, Nat.shiftLeft_eq]
    omega
  rw [hexByte, UInt8.toNat_or, hshift, toNat_nibble hd]
  exact (Nat.two_pow_add_eq_or_of_lt (i := 4) hld _).symm

theorem hexPairs_cons_cons {c : UInt8} (hc : c ≠ 0x2D) (d : UInt8) (cs : List UInt8) :
    hexPairs (c :: d :: cs) = (hexPairs cs).map (hexByte c d :: ·) := by
  cases cs <;> simp [hexPairs, hc]

theorem hexPairs_hyphen (c d : UInt8) (cs : List UInt8) :
    hexPairs (0x2D :: c :: d :: cs) = (hexPairs cs).map (hexByte c d :: ·) := by
  simp [hexPairs]

/-- The digits of a byte. -/
theorem exists_digits (b : UInt8) : ∃ c d, digits 2 b.toNat = [c, d] ∧ c ≠ 0x2D ∧
    hexByte c d = b := by
  have hb := b.toNat_lt
  have hdigits : digits 2 b.toNat = [digit (b.toNat / 16 % 16), digit (b.toNat / 1 % 16)] := rfl
  have hhigh : b.toNat / 16 % 16 < 16 := Nat.mod_lt _ (by decide)
  have hlow : b.toNat / 1 % 16 < 16 := Nat.mod_lt _ (by decide)
  refine ⟨_, _, hdigits, ne_hyphen_of_isDigit (isDigit_digit hhigh), ?_⟩
  apply UInt8.toNat_inj.mp
  rw [toNat_hexByte (isDigit_digit hhigh) (isDigit_digit hlow), value_digit hhigh, value_digit hlow]
  omega

@[simp] theorem hexText_cons (b : UInt8) (bs : List UInt8) :
    hexText (b :: bs) = digits 2 b.toNat ++ hexText bs := List.flatMap_cons

theorem hexPairs_hexText (bs rest : List UInt8) :
    hexPairs (hexText bs ++ rest) = (hexPairs rest).map (bs ++ ·) := by
  induction bs with
  | nil => simp [hexText]
  | cons b bs ih =>
    obtain ⟨c, d, hdigits, hc, hbyte⟩ := exists_digits b
    rw [hexText_cons, hdigits, List.append_assoc, List.cons_append, List.cons_append,
      List.nil_append, hexPairs_cons_cons hc, ih, hbyte, Option.map_map]
    rfl

theorem hexPairs_hyphen_hexText {bs : List UInt8} (hbs : bs ≠ []) (rest : List UInt8) :
    hexPairs (0x2D :: (hexText bs ++ rest)) = (hexPairs rest).map (bs ++ ·) := by
  obtain ⟨b, bs, rfl⟩ := List.exists_cons_of_ne_nil hbs
  obtain ⟨c, d, hdigits, hc, hbyte⟩ := exists_digits b
  rw [hexText_cons, hdigits, List.append_assoc, List.cons_append, List.cons_append,
    List.nil_append, hexPairs_hyphen, hexPairs_hexText, hbyte, Option.map_map]
  rfl

@[simp] theorem length_hexText (bs : List UInt8) : (hexText bs).length = 2 * bs.length := by
  induction bs with
  | nil => rfl
  | cons b bs ih =>
    rw [hexText_cons, List.length_append, length_digits, ih, List.length_cons]
    omega

theorem length_text {bs : List UInt8} (h : bs.length = 16) : (text bs).length = 36 := by
  simp [text, h]

/-- **The notation of an identifier is read as its bytes.** -/
theorem hexPairs_text {bs : List UInt8} (h : bs.length = 16) : hexPairs (text bs) = some bs := by
  have hne (k n : ℕ) (hk : k < 16) : (bs.drop k).take (n + 1) ≠ [] := by
    apply List.ne_nil_of_length_pos
    simp only [List.length_take, List.length_drop]
    omega
  have hlast : hexPairs (0x2D :: hexText (bs.drop 10)) = some (bs.drop 10) := by
    have hdrop : bs.drop 10 ≠ [] := by
      apply List.ne_nil_of_length_pos
      simp only [List.length_drop]
      omega
    rw [← List.append_nil (hexText _), hexPairs_hyphen_hexText hdrop]
    simp [hexPairs]
  rw [text, hexPairs_hexText, hexPairs_hyphen_hexText (hne 4 1 (by decide)),
    hexPairs_hyphen_hexText (hne 6 1 (by decide)), hexPairs_hyphen_hexText (hne 8 1 (by decide)),
    hlast]
  simp only [Option.map_some, Option.some_inj]
  match bs, h with
  | [_, _, _, _, _, _, _, _, _, _, _, _, _, _, _, _], _ => rfl

theorem ofString_text {bs : List UInt8} (h : bs.length = 16) :
    ofString (text bs) = some (uuid128 bs.reverse (by simpa using h)) := by
  have hlen := length_text h
  simp [ofString, hlen, hexPairs_text h, h]

/-! ### Short identifiers -/

theorem digits_four (n : ℕ) :
    digits 4 n = digits 2 (n / 256) ++ digits 2 (n % 256) := by
  rw [show (4 : ℕ) = 2 + 2 from rfl, digits_add, ← digits_mod 2 n]
  rfl

theorem digits_eight (n : ℕ) : digits 8 n =
    digits 2 (n / 2 ^ 24) ++ (digits 2 (n / 2 ^ 16 % 256) ++
      (digits 2 (n / 256 % 256) ++ digits 2 (n % 256))) := by
  rw [show (8 : ℕ) = 2 + (2 + (2 + 2)) from rfl, digits_add, digits_add, digits_add,
    ← digits_mod 2 (n / 16 ^ (2 + 2)), ← digits_mod 2 (n / 16 ^ 2), ← digits_mod 2 n]
  rfl

/-- The notation of the fixed bytes. -/
theorem text_base (b₃ b₂ b₁ b₀ : UInt8) : text (baseBytes ++ [b₀, b₁, b₂, b₃]).reverse =
    digits 2 b₃.toNat ++ (digits 2 b₂.toNat ++ (digits 2 b₁.toNat ++ (digits 2 b₀.toNat ++
      ascii "-0000-1000-8000-00805f9b34fb"))) := by
  have hbase : 0x2D :: (hexText [0x00, 0x00] ++ 0x2D :: (hexText [0x10, 0x00] ++
      0x2D :: (hexText [0x80, 0x00] ++ 0x2D :: hexText [0x00, 0x80, 0x5F, 0x9B, 0x34, 0xFB]))) =
        ascii "-0000-1000-8000-00805f9b34fb" := by
    decide
  rw [← hbase]
  simp [text, baseBytes, show hexText [] = [] from rfl]

/-- **The short forms are written like the identifiers for which they stand.** -/
theorem toString_to128 (u : BleUuid) : u.to128.toString = u.toString := by
  cases u with
  | null => rfl
  | uuid128 bytes h => rfl
  | uuid16 u =>
    have hu := u.toNat_lt
    have hlow : u.toUInt8.toNat = u.toNat % 256 := by simp
    have hhigh : (u >>> 8).toUInt8.toNat = u.toNat / 256 := by
      simp [Nat.shiftRight_eq_div_pow]
      omega
    have hzeros : ascii "0000" = digits 2 (0 : UInt8).toNat ++ digits 2 (0 : UInt8).toNat := by
      decide
    change text (baseBytes ++ _).reverse = ascii "0000" ++ digits 4 u.toNat ++ _
    rw [text_base, hlow, hhigh, digits_four, hzeros]
    simp only [List.append_assoc]
  | uuid32 u =>
    have hu := u.toNat_lt
    have hlow : u.toUInt8.toNat = u.toNat % 256 := by simp
    have hbyte (k : UInt32) (hk : k < 32) :
        (u >>> k).toUInt8.toNat = u.toNat / 2 ^ k.toNat % 256 := by
      have hk' : k.toNat < 32 := hk
      simp [Nat.shiftRight_eq_div_pow, Nat.mod_eq_of_lt hk']
    have hhigh : u.toNat / 2 ^ 24 % 256 = u.toNat / 2 ^ 24 := by omega
    change text (baseBytes ++ _).reverse = digits 8 u.toNat ++ _
    rw [text_base, hlow, hbyte 8 (by decide), hbyte 16 (by decide), hbyte 24 (by decide),
      digits_eight, ← hhigh]
    simp only [List.append_assoc]
    rfl

theorem length_toString {u : BleUuid} (h : u ≠ null) : u.toString.length = 36 := by
  rw [← toString_to128]
  cases u with
  | null => exact absurd rfl h
  | uuid16 | uuid32 | uuid128 => exact length_text (by simp [baseBytes, *])

/-- **What is written is read as the identifier of 128 bits.** -/
theorem ofString_toString {u : BleUuid} (h : u ≠ null) : ofString u.toString = some u.to128 := by
  have hlong (bytes : List UInt8) (hlen : bytes.length = 16) :
      ofString (toString (uuid128 bytes hlen)) = some (uuid128 bytes hlen) := by
    have hrev : bytes.reverse.length = 16 := by simpa using hlen
    simp [toString, ofString_text hrev]
  rw [← toString_to128]
  cases u with
  | null => exact absurd rfl h
  | uuid16 u => exact hlong _ _
  | uuid32 u => exact hlong _ _
  | uuid128 bytes hlen => exact hlong _ _

theorem toString_eq_iff {u v : BleUuid} (hu : u ≠ null) (hv : v ≠ null) :
    u.toString = v.toString ↔ u.to128 = v.to128 := by
  constructor
  · intro h
    have hread := (ofString_toString hu).symm.trans (h ▸ ofString_toString hv)
    exact Option.some_inj.mp hread
  · intro h
    rw [← toString_to128 u, h, toString_to128]

theorem uuid16_inj_of_to128 {u v : UInt16} (h : (uuid16 u).to128 = (uuid16 v).to128) : u = v := by
  obtain ⟨hlow, hhigh⟩ : u.toUInt8 = v.toUInt8 ∧ (u >>> 8).toUInt8 = (v >>> 8).toUInt8 := by
    simpa [to128] using h
  have hu := u.toNat_lt
  have hv := v.toNat_lt
  have hlow := congrArg UInt8.toNat hlow
  have hhigh := congrArg UInt8.toNat hhigh
  simp only [UInt16.toNat_toUInt8, UInt16.toNat_shiftRight, Nat.shiftRight_eq_div_pow] at hlow hhigh
  apply UInt16.toNat_inj.mp
  simp at hlow hhigh
  omega

theorem uuid32_inj_of_to128 {u v : UInt32} (h : (uuid32 u).to128 = (uuid32 v).to128) : u = v := by
  obtain ⟨h₀, h₁, h₂, h₃⟩ : u.toUInt8 = v.toUInt8 ∧ (u >>> 8).toUInt8 = (v >>> 8).toUInt8 ∧
      (u >>> 16).toUInt8 = (v >>> 16).toUInt8 ∧ (u >>> 24).toUInt8 = (v >>> 24).toUInt8 := by
    simpa [to128] using h
  have hu := u.toNat_lt
  have hv := v.toNat_lt
  have h₀ := congrArg UInt8.toNat h₀
  have h₁ := congrArg UInt8.toNat h₁
  have h₂ := congrArg UInt8.toNat h₂
  have h₃ := congrArg UInt8.toNat h₃
  simp only [UInt32.toNat_toUInt8, UInt32.toNat_shiftRight, Nat.shiftRight_eq_div_pow]
    at h₀ h₁ h₂ h₃
  apply UInt32.toNat_inj.mp
  simp at h₀ h₁ h₂ h₃
  omega

/-- **Two identifiers are equal exactly when they stand for the same 128 bits**, in whichever form
each of them is held. No identifier without a value is equal to another. -/
theorem equals_iff (u v : BleUuid) :
    u.equals v = true ↔ u ≠ null ∧ v ≠ null ∧ u.to128 = v.to128 := by
  have hmixed {u v : BleUuid} (hu : u ≠ null) (hv : v ≠ null) :
      decide (v.toString = u.toString) = true ↔ u ≠ null ∧ v ≠ null ∧ u.to128 = v.to128 := by
    rw [decide_eq_true_iff, eq_comm, toString_eq_iff hu hv]
    simp [hu, hv]
  cases u with
  | null => simp [equals]
  | uuid16 u =>
    cases v with
    | null => simp [equals]
    | uuid16 v =>
      have hinj : v = u ↔ (uuid16 u).to128 = (uuid16 v).to128 :=
        ⟨fun h => by rw [h], fun h => (uuid16_inj_of_to128 h).symm⟩
      simp [equals, hinj]
    | uuid32 v => exact hmixed (by simp) (by simp)
    | uuid128 cs hcs => exact hmixed (by simp) (by simp)
  | uuid32 u =>
    cases v with
    | null => simp [equals]
    | uuid16 v => exact hmixed (by simp) (by simp)
    | uuid32 v =>
      have hinj : v = u ↔ (uuid32 u).to128 = (uuid32 v).to128 :=
        ⟨fun h => by rw [h], fun h => (uuid32_inj_of_to128 h).symm⟩
      simp [equals, hinj]
    | uuid128 cs hcs => exact hmixed (by simp) (by simp)
  | uuid128 bs hbs =>
    cases v with
    | null => simp [equals]
    | uuid16 v => exact hmixed (by simp) (by simp)
    | uuid32 v => exact hmixed (by simp) (by simp)
    | uuid128 cs hcs => simp [equals, to128, eq_comm]

/-! ### Strings in either case -/

/-- A string of 36 characters: groups of 8, 4, 4, 4 and 12 digits, with hyphens between them. -/
structure IsCanonical (value : List UInt8) : Prop where
  exists_groups : ∃ g₁ g₂ g₃ g₄ g₅, value = g₁ ++ 0x2D :: (g₂ ++ 0x2D :: (g₃ ++ 0x2D ::
      (g₄ ++ 0x2D :: g₅))) ∧ g₁.length = 8 ∧ g₂.length = 4 ∧ g₃.length = 4 ∧ g₄.length = 4 ∧
      g₅.length = 12 ∧ ∀ c ∈ g₁ ++ g₂ ++ g₃ ++ g₄ ++ g₅, IsDigit c

/-- Pairs of digits in lower case are the notation of some bytes. -/
theorem exists_bytes {cs : List UInt8} {n : ℕ} (hlen : cs.length = 2 * n)
    (hcs : ∀ c ∈ cs, IsDigit c) : ∃ bs, bs.length = n ∧ cs.map lower = hexText bs ∧
      ∀ rest, hexPairs (cs ++ rest) = (hexPairs rest).map (bs ++ ·) ∧
        (0 < n → hexPairs (0x2D :: (cs ++ rest)) = (hexPairs rest).map (bs ++ ·)) := by
  induction n generalizing cs with
  | zero =>
    obtain rfl := List.length_eq_zero_iff.mp hlen
    exact ⟨[], rfl, rfl, fun rest => ⟨by simp, by simp⟩⟩
  | succ n ih =>
    match cs, hlen with
    | c :: d :: cs, hlen =>
      simp only [List.forall_mem_cons] at hcs
      obtain ⟨hc, hd, hcs⟩ := hcs
      obtain ⟨bs, hbs, hlower, hread⟩ := ih (by simp at hlen; omega) hcs
      have hbyte := toNat_hexByte hc hd
      have hvc := value_lt hc
      have hvd := value_lt hd
      have hdigits : digits 2 (hexByte c d).toNat = [lower c, lower d] := by
        have hhigh : (16 * value c + value d) / 16 % 16 = value c := by omega
        have hlow : (16 * value c + value d) / 1 % 16 = value d := by omega
        rw [hbyte, ← digit_value hc, ← digit_value hd]
        change [digit ((16 * value c + value d) / 16 % 16),
          digit ((16 * value c + value d) / 1 % 16)] = _
        rw [hhigh, hlow]
      refine ⟨hexByte c d :: bs, by rw [List.length_cons, hbs], ?_, fun rest => ⟨?_, fun _ => ?_⟩⟩
      · rw [hexText_cons, hdigits, ← hlower]
        rfl
      · rw [List.cons_append, List.cons_append, hexPairs_cons_cons (ne_hyphen_of_isDigit hc),
          (hread rest).1, Option.map_map]
        rfl
      · rw [List.cons_append, List.cons_append, hexPairs_hyphen, (hread rest).1, Option.map_map]
        rfl

theorem text_append {b₁ b₂ b₃ b₄ b₅ : List UInt8} (hb₁ : b₁.length = 4) (hb₂ : b₂.length = 2)
    (hb₃ : b₃.length = 2) (hb₄ : b₄.length = 2) :
    text (b₁ ++ (b₂ ++ (b₃ ++ (b₄ ++ b₅)))) = hexText b₁ ++ 0x2D :: (hexText b₂ ++
      0x2D :: (hexText b₃ ++ 0x2D :: (hexText b₄ ++ 0x2D :: hexText b₅))) := by
  have hdrop₄ : (b₁ ++ (b₂ ++ (b₃ ++ (b₄ ++ b₅)))).drop 4 = b₂ ++ (b₃ ++ (b₄ ++ b₅)) :=
    List.drop_left' hb₁
  have hdrop₆ : (b₁ ++ (b₂ ++ (b₃ ++ (b₄ ++ b₅)))).drop 6 = b₃ ++ (b₄ ++ b₅) := by
    rw [← List.drop_drop (i := 2) (j := 4), hdrop₄, List.drop_left' hb₂]
  have hdrop₈ : (b₁ ++ (b₂ ++ (b₃ ++ (b₄ ++ b₅)))).drop 8 = b₄ ++ b₅ := by
    rw [← List.drop_drop (i := 2) (j := 6), hdrop₆, List.drop_left' hb₃]
  have hdrop₁₀ : (b₁ ++ (b₂ ++ (b₃ ++ (b₄ ++ b₅)))).drop 10 = b₅ := by
    rw [← List.drop_drop (i := 2) (j := 8), hdrop₈, List.drop_left' hb₄]
  rw [text, hdrop₄, hdrop₆, hdrop₈, hdrop₁₀, List.take_left' hb₁, List.take_left' hb₂,
    List.take_left' hb₃, List.take_left' hb₄]

/-- **A string of 36 characters** in either case is read as the identifier that is written as the
same string in lower case. -/
theorem toString_ofString {value : List UInt8} (h : IsCanonical value) :
    ∃ u, ofString value = some u ∧ u ≠ null ∧ u.toString = value.map lower := by
  obtain ⟨g₁, g₂, g₃, g₄, g₅, rfl, hl₁, hl₂, hl₃, hl₄, hl₅, hg⟩ := h
  simp only [List.forall_mem_append] at hg
  obtain ⟨⟨⟨⟨hg₁, hg₂⟩, hg₃⟩, hg₄⟩, hg₅⟩ := hg
  obtain ⟨b₁, hb₁, hlow₁, hread₁⟩ := exists_bytes (n := 4) hl₁ hg₁
  obtain ⟨b₂, hb₂, hlow₂, hread₂⟩ := exists_bytes (n := 2) hl₂ hg₂
  obtain ⟨b₃, hb₃, hlow₃, hread₃⟩ := exists_bytes (n := 2) hl₃ hg₃
  obtain ⟨b₄, hb₄, hlow₄, hread₄⟩ := exists_bytes (n := 2) hl₄ hg₄
  obtain ⟨b₅, hb₅, hlow₅, hread₅⟩ := exists_bytes (n := 6) hl₅ hg₅
  have hpairs : hexPairs (g₁ ++ 0x2D :: (g₂ ++ 0x2D :: (g₃ ++ 0x2D :: (g₄ ++ 0x2D :: g₅)))) =
      some (b₁ ++ (b₂ ++ (b₃ ++ (b₄ ++ b₅)))) := by
    have hlast := (hread₅ []).2 (by decide)
    rw [List.append_nil] at hlast
    rw [(hread₁ _).1, (hread₂ _).2 (by decide), (hread₃ _).2 (by decide), (hread₄ _).2 (by decide),
      hlast]
    simp [hexPairs]
  have hlen : (b₁ ++ (b₂ ++ (b₃ ++ (b₄ ++ b₅)))).length = 16 := by
    simp [hb₁, hb₂, hb₃, hb₄, hb₅]
  refine ⟨uuid128 (b₁ ++ (b₂ ++ (b₃ ++ (b₄ ++ b₅)))).reverse (by rw [List.length_reverse, hlen]),
    ?_, by simp, ?_⟩
  · have hvalue :
        (g₁ ++ 0x2D :: (g₂ ++ 0x2D :: (g₃ ++ 0x2D :: (g₄ ++ 0x2D :: g₅)))).length = 36 := by
      simp [hl₁, hl₂, hl₃, hl₄, hl₅]
    simp only [ofString, hvalue, hpairs, Option.bind_eq_bind, Option.bind_some, hlen]
    simp
  · rw [toString, List.reverse_reverse, text_append hb₁ hb₂ hb₃ hb₄, ← hlow₁, ← hlow₂, ← hlow₃,
      ← hlow₄, ← hlow₅]
    simp [show lower 0x2D = 0x2D from rfl]

/-- The identifier of the service, as the firmware has it. -/
theorem toString_ofString_service :
    ∃ u, ofString (ascii "6E400001-B5A3-F393-E0A9-E50E24DCCA9E") = some u ∧ u ≠ null ∧
      u.toString = (ascii "6E400001-B5A3-F393-E0A9-E50E24DCCA9E").map lower :=
  toString_ofString ⟨ascii "6E400001", ascii "B5A3", ascii "F393", ascii "E0A9",
    ascii "E50E24DCCA9E", by decide +kernel⟩

end BleUuid

end GpsTracker
