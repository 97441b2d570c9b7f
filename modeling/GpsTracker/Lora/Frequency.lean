import GpsTracker.Lora.Settings
import GpsTracker.Memory.LittleEndian
import GpsTracker.Numeric.Quantization

/-!
# The carrier frequency

The radio counts its carrier frequency in steps of 32000000 / 2 ^ 19 Hz, in a number of 24 bits that
`lora_set_frequency` computes with 64 bits and writes in three bytes. For all frequencies that the
24 bits can hold nothing is lost on the way: the number is the quantization of the frequency
(`FrequencyCall.frf_eq_quantize`). The carrier is therefore less than a step below the frequency,
and frequencies that are a step apart get different carriers (`loraSetFrequency_carrier`).

## Main definitions

* `Chip.frf`, `carrier`, `frfStep`.
* `InBand`, `FrequencyCall`.

## Main results

* `FrequencyCall.frf_eq`, `FrequencyCall.frf_eq_quantize`.
* `loraSetFrequency_carrier`.
-/

namespace GpsTracker

/-! ### The frequency registers -/

/-- The number of steps in the frequency registers. -/
def Chip.frf (c : Chip) : ℕ :=
  (c.reg .frfMsb).toNat * 2 ^ 16 + (c.reg .frfMid).toNat * 2 ^ 8 + (c.reg .frfLsb).toNat

/-- The carrier frequency that a number of steps programs, in Hz. -/
def carrier (n : ℕ) : ℚ := n * 32000000 / 2 ^ 19

/-- The width of a step in Hz. -/
def frfStep : ℚ := (32000000 : ℕ) / (2 ^ 19 : ℕ)

/-- The frequencies that 24 bits can hold, in Hz. -/
def InBand (f : ℤ) : Prop := 0 ≤ f ∧ f < 1024000000

instance (f : ℤ) : Decidable (InBand f) := inferInstanceAs (Decidable (_ ∧ _))

theorem frfStep_pos : 0 < frfStep := by
  norm_num [frfStep]

theorem frfStep_lt : frfStep < 62 := by
  norm_num [frfStep]

theorem carrier_eq (n : ℕ) : carrier n = n * frfStep := by
  rw [carrier, frfStep, mul_div_assoc]
  norm_num

/-- The top of the band is the first frequency that 24 bits cannot hold. -/
theorem quantize_lt_of_inBand {f : ℤ} (hf : InBand f) : quantize frfStep f < 2 ^ 24 := by
  have htop : ((2 ^ 24 : ℤ) : ℚ) * frfStep = (1024000000 : ℤ) := by norm_num [frfStep]
  rw [quantize_lt_iff frfStep_pos, htop]
  exact_mod_cast hf.2

/-! ### The computation with 64 bits -/

section Computation

variable {f : ℤ}

theorem InBand.toNat_ofInt (hf : InBand f) : (UInt64.ofInt f).toNat = f.toNat := by
  have hmod : f % 2 ^ 64 = f := Int.emod_eq_of_lt hf.1 (hf.2.trans (by norm_num))
  have hlt : f.toNat < 2 ^ 64 := by
    have htop := hf.2
    omega
  rw [UInt64.ofInt, hmod, UInt64.toNat_ofNat_of_lt' hlt]

/-- The shift does not overflow. -/
theorem InBand.toNat_shiftLeft (hf : InBand f) :
    (UInt64.ofInt f <<< 19).toNat = f.toNat * 2 ^ 19 := by
  have hlt : f.toNat * 2 ^ 19 < 2 ^ 64 := by
    have htop := hf.2
    omega
  rw [UInt64.toNat_shiftLeft, hf.toNat_ofInt]
  exact (congrArg (· % 2 ^ 64) (Nat.shiftLeft_eq ..)).trans (Nat.mod_eq_of_lt hlt)

/-- **The quotient is the quantization of the frequency.** -/
theorem InBand.toNat_quotient (hf : InBand f) :
    (((UInt64.ofInt f <<< 19) / 32000000).toNat : ℤ) = quantize frfStep f := by
  have hquot : ((UInt64.ofInt f <<< 19) / 32000000).toNat = f.toNat * 2 ^ 19 / 32000000 := by
    rw [UInt64.toNat_div, hf.toNat_shiftLeft]
    rfl
  rw [hquot, frfStep, quantize_div, Int.natCast_ediv, Nat.cast_mul, Int.toNat_of_nonneg hf.1]

/-- The three bytes of a number are those of its low 24 bits. -/
theorem toNat_bytes (x : UInt64) :
    (x >>> 16).toUInt8.toNat * 2 ^ 16 + (x >>> 8).toUInt8.toNat * 2 ^ 8 +
      (x >>> 0).toUInt8.toNat = x.toNat % 2 ^ 24 := by
  have hlow : (x >>> 0).toUInt8 = .ofNat x.toNat := by
    rw [← UInt8.toNat_inj]
    simp
  have hmid : (x >>> 8).toUInt8 = .ofNat (x.toNat / 256) := by
    rw [← UInt8.toNat_inj]
    simp [Nat.shiftRight_eq_div_pow]
  have hhigh : (x >>> 16).toUInt8 = .ofNat (x.toNat / 256 / 256) := by
    rw [← UInt8.toNat_inj]
    simp [Nat.shiftRight_eq_div_pow, Nat.div_div_eq_div_mul]
  have hbytes := LittleEndian.toNat_ofNat 3 x.toNat
  simp only [LittleEndian.ofNat, ← hlow, ← hmid, ← hhigh, LittleEndian.toNat_cons,
    LittleEndian.toNat_nil] at hbytes
  omega

end Computation

/-! ### Calls of `lora_set_frequency` -/

/-- A completed call of `lora_set_frequency`, from any chip and under any schedule. -/
structure FrequencyCall (R : ResetValues) (f : ℤ) where
  vars : LoraVars
  before : Chip
  schedule : List (List ChipEvent)
  varsAfter : LoraVars
  rest : List (List ChipEvent)
  after : Chip
  run_eq : (loraChip R).run ((SetterCall.setFrequency f).prog vars) schedule before =
    some (varsAfter, rest, after)

namespace FrequencyCall

variable {R : ResetValues} {f g : ℤ} (call : FrequencyCall R f)

/-- A call completes when nothing happens at the chip. -/
theorem exists_call (R : ResetValues) (f : ℤ) (v : LoraVars) (c : Chip) :
    ∃ call : FrequencyCall R f, call.vars = v ∧ call.before = c ∧ call.schedule = [] :=
  ⟨⟨v, c, [], _, _, _, SetterCall.run_prog R (.setFrequency f) v c⟩, rfl, rfl, rfl⟩

/-- The registers hold the low 24 bits of the quotient. -/
theorem frf_eq : call.after.frf = ((UInt64.ofInt f <<< 19) / 32000000).toNat % 2 ^ 24 := by
  obtain ⟨-, hstores⟩ := (SetterCall.setFrequency f).triple_prog call.vars _ call.before _ _ _
    (fun r _ => rfl) call.run_eq
  have hmsb := hstores .frfMsb (by decide)
  have hmid := hstores .frfMid (by decide)
  have hlsb := hstores .frfLsb (by decide)
  simp only [SetterCall.writes, MaskedWrite.applyAll, List.foldl_cons, List.foldl_nil]
    at hmsb hmid hlsb
  rw [wholeReg_apply_of_ne (by simp), wholeReg_apply_of_ne (by simp),
    wholeReg_apply_self] at hmsb
  rw [wholeReg_apply_of_ne (by simp), wholeReg_apply_self] at hmid
  rw [wholeReg_apply_self] at hlsb
  rw [← toNat_bytes, ← UInt8.toBitVec_inj.mp hmsb, ← UInt8.toBitVec_inj.mp hmid,
    ← UInt8.toBitVec_inj.mp hlsb, Chip.frf]

/-- **Nothing is lost for a frequency that 24 bits can hold.** -/
theorem frf_eq_quantize (hf : InBand f) : (call.after.frf : ℤ) = quantize frfStep f := by
  have hquot := hf.toNat_quotient
  have hlt := quantize_lt_of_inBand hf
  rw [← hquot] at hlt ⊢
  rw [call.frf_eq, Nat.mod_eq_of_lt (by exact_mod_cast hlt)]

/-- The same as a division that rounds down. -/
theorem frf_eq_div (hf : InBand f) : (call.after.frf : ℤ) = f * 2 ^ 19 / 32000000 := by
  rw [call.frf_eq_quantize hf, frfStep, quantize_div]
  rfl

/-- The carrier is a multiple of the step. -/
theorem carrier_frf_eq (hf : InBand f) :
    carrier call.after.frf = quantize frfStep (f : ℚ) * frfStep := by
  rw [carrier_eq, ← call.frf_eq_quantize hf, Int.cast_natCast]

theorem carrier_frf_le (hf : InBand f) : carrier call.after.frf ≤ f := by
  rw [call.carrier_frf_eq hf]
  exact quantize_mul_le frfStep_pos

theorem sub_lt_carrier_frf (hf : InBand f) : (f : ℚ) - 62 < carrier call.after.frf := by
  rw [call.carrier_frf_eq hf]
  exact (sub_lt_sub_left frfStep_lt _).trans (sub_lt_quantize_mul frfStep_pos)

variable {R' : ResetValues} (call' : FrequencyCall R' g)

/-- Calls in the order of their frequencies program numbers in this order. -/
theorem frf_le_frf (hf : InBand f) (hg : InBand g) (hfg : f ≤ g) :
    call.after.frf ≤ call'.after.frf := by
  have hle : quantize frfStep (f : ℚ) ≤ quantize frfStep g :=
    quantize_le_quantize frfStep_pos.le (Int.cast_le.mpr hfg)
  rw [← call.frf_eq_quantize hf, ← call'.frf_eq_quantize hg] at hle
  exact Int.ofNat_le.mp hle

/-- Calls with frequencies that are a step apart program different numbers. -/
theorem frf_lt_frf (hf : InBand f) (hg : InBand g) (hfg : 62 ≤ g - f) :
    call.after.frf < call'.after.frf := by
  have hstep : frfStep ≤ (g : ℚ) - f := frfStep_lt.le.trans (by exact_mod_cast hfg)
  have hlt : quantize frfStep (f : ℚ) < quantize frfStep g :=
    quantize_lt_quantize frfStep_pos hstep
  rw [← call.frf_eq_quantize hf, ← call'.frf_eq_quantize hg] at hlt
  exact Int.ofNat_lt.mp hlt

end FrequencyCall

/-- **The carrier frequency.** For every frequency that 24 bits can hold a call of
`lora_set_frequency` completes and computes without overflow, and the bytes it writes recombine to
the number of steps below the frequency. The carrier is at most the frequency and less than 62 Hz
below it. Frequencies in order program numbers in order, and different ones if they are 62 Hz
apart. -/
theorem loraSetFrequency_carrier (R : ResetValues) {f : ℤ} (hf : InBand f) :
    (∀ v c, ∃ call : FrequencyCall R f, call.vars = v ∧ call.before = c) ∧
      (UInt64.ofInt f <<< 19).toNat = f.toNat * 2 ^ 19 ∧
      ∀ call : FrequencyCall R f,
        (call.after.frf : ℤ) = f * 2 ^ 19 / 32000000 ∧
        (f : ℚ) - 62 < carrier call.after.frf ∧ carrier call.after.frf ≤ f ∧
        ∀ (R' : ResetValues) (g : ℤ) (call' : FrequencyCall R' g), InBand g → f ≤ g →
          call.after.frf ≤ call'.after.frf ∧ (62 ≤ g - f → call.after.frf < call'.after.frf) := by
  refine ⟨fun v c => ?_, hf.toNat_shiftLeft, fun call => ⟨call.frf_eq_div hf,
    call.sub_lt_carrier_frf hf, call.carrier_frf_le hf, fun R' g call' hg hfg =>
      ⟨call.frf_le_frf call' hf hg hfg, call.frf_lt_frf call' hf hg⟩⟩⟩
  obtain ⟨call, hv, hc, -⟩ := FrequencyCall.exists_call R f v c
  exact ⟨call, hv, hc⟩

/-- The frequency of the receiver. -/
theorem loraSetFrequency_carrier_868 :
    ∃ call : FrequencyCall .sx1276 868000000, call.before = zeroChip ∧
      call.after.frf = 0xd90000 ∧ carrier call.after.frf ≤ 868000000 := by
  obtain ⟨hexists, -, hcall⟩ := loraSetFrequency_carrier .sx1276 (f := 868000000) (by decide)
  obtain ⟨call, -, hc⟩ := hexists ⟨0, 0⟩ zeroChip
  obtain ⟨hfrf, -, hle, -⟩ := hcall call
  exact ⟨call, hc, Int.ofNat_inj.mp hfrf, by exact_mod_cast hle⟩

end GpsTracker
