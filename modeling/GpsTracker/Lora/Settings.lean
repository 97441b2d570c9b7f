import GpsTracker.Bits.MaskedWrite
import GpsTracker.Lora.Driver
import Mathlib.Tactic.IntervalCases

/-!
# The settings of the modem

The functions of `components/lora/lora.c` that set the modem share two registers and write others
of their own. Each of them is a list of masked writes (`SetterCall.prog_eq`), so that when nothing
happens at the chip the effect of any calls is that of their masked writes on the registers
(`run_settings`).

After any calls with any arguments each field of the two shared registers has the value that the
last call of its own function encodes, bits that belong to no setting are unchanged, and the
detection registers fit the spreading factor. Calls that set different settings commute
(`loraSettings`).

## Main definitions

* `LoraVars`, `SetterCall`, `settings`.
* `Field`, `Field.encoding`, `Setting`.
* `SetterCall.writes`.

## Main results

* `SetterCall.prog_eq`, `run_settings`.
* `loraSettings`.
-/

namespace GpsTracker

/-! ### The calls -/

/-- The variables `__implicit` and `__frequency`. -/
structure LoraVars where
  implicit : ℤ
  frequency : ℤ
  deriving DecidableEq, Repr

/-- A call of a function that sets the modem. -/
inductive SetterCall where
  | setBandwidth (sbw : ℤ)
  | setCodingRate (denominator : ℤ)
  | explicitHeaderMode
  | implicitHeaderMode (size : ℤ)
  | setSpreadingFactor (sf : ℤ)
  | enableCrc
  | disableCrc
  | setTxPower (level : ℤ)
  | setFrequency (frequency : ℤ)
  | setPreambleLength (length : ℤ)
  | setSyncWord (sw : ℤ)
  deriving DecidableEq, Repr

namespace SetterCall

/-- The program of a call. -/
def prog : SetterCall → LoraVars → LoraProg LoraVars
  | setBandwidth sbw, v => do
    loraSetBandwidth sbw
    return v
  | setCodingRate denominator, v => do
    loraSetCodingRate denominator
    return v
  | explicitHeaderMode, v => do
    let implicit ← loraExplicitHeaderMode
    return { v with implicit := implicit }
  | implicitHeaderMode size, v => do
    let implicit ← loraImplicitHeaderMode size
    return { v with implicit := implicit }
  | setSpreadingFactor sf, v => do
    loraSetSpreadingFactor sf
    return v
  | enableCrc, v => do
    loraEnableCrc
    return v
  | disableCrc, v => do
    loraDisableCrc
    return v
  | setTxPower level, v => do
    loraSetTxPower level
    return v
  | setFrequency frequency, v => do
    loraSetFrequency frequency
    return { v with frequency := frequency }
  | setPreambleLength length, v => do
    loraSetPreambleLength length
    return v
  | setSyncWord sw, v => do
    loraSetSyncWord sw
    return v

/-- The variables after a call. -/
def vars : SetterCall → LoraVars → LoraVars
  | explicitHeaderMode, v => { v with implicit := 0 }
  | implicitHeaderMode _, v => { v with implicit := 1 }
  | setFrequency frequency, v => { v with frequency := frequency }
  | _, v => v

end SetterCall

/-- Some calls, one after the other. -/
def settings : LoraVars → List SetterCall → LoraProg LoraVars
  | v, [] => pure v
  | v, call :: calls => do
    let v ← call.prog v
    settings v calls

/-! ### Fields -/

/-- What a call sets. -/
inductive Setting where
  | bandwidth | codingRate | headerMode | spreadingFactor | crc | txPower | frequency
  | preambleLength | syncWord
  deriving DecidableEq, Repr

/-- The setting of a call. -/
def SetterCall.setting : SetterCall → Setting
  | setBandwidth _ => .bandwidth
  | setCodingRate _ => .codingRate
  | explicitHeaderMode | implicitHeaderMode _ => .headerMode
  | setSpreadingFactor _ => .spreadingFactor
  | enableCrc | disableCrc => .crc
  | setTxPower _ => .txPower
  | setFrequency _ => .frequency
  | setPreambleLength _ => .preambleLength
  | setSyncWord _ => .syncWord

/-- The fields of `REG_MODEM_CONFIG_1` and `REG_MODEM_CONFIG_2`. -/
inductive Field where
  | bandwidth | codingRate | headerMode | spreadingFactor | crc
  deriving DecidableEq, Repr

namespace Field

/-- The setting that a field holds. -/
def setting : Field → Setting
  | bandwidth => .bandwidth
  | codingRate => .codingRate
  | headerMode => .headerMode
  | spreadingFactor => .spreadingFactor
  | crc => .crc

/-- The register of a field. -/
def reg : Field → Reg
  | bandwidth | codingRate | headerMode => .modemConfig1
  | spreadingFactor | crc => .modemConfig2

/-- The bits of a field. -/
def mask : Field → UInt8
  | bandwidth => 0xf0
  | codingRate => 0x0e
  | headerMode => 0x01
  | spreadingFactor => 0xf0
  | crc => 0x04

end Field

/-- The bandwidths of the chip, in Hz, but for the widest one. -/
def bandwidths : List ℤ := [7800, 10400, 15600, 20800, 31250, 41700, 62500, 125000, 250000]

/-- The index of the first bandwidth that is not less than the given one. -/
def bandwidthIndex (sbw : ℤ) : ℕ := bandwidths.findIdx (sbw ≤ ·)

/-- A number clamped to an interval. -/
def clamp (lo hi x : ℤ) : ℤ := max lo (min x hi)

/-- The bits of a field that a call encodes, in their place, if the call is one of the functions
that set the field. -/
def Field.encoding : Field → SetterCall → Option UInt8
  | bandwidth, .setBandwidth sbw => some (.ofNat (16 * bandwidthIndex sbw))
  | codingRate, .setCodingRate denominator => some (.ofInt (2 * (clamp 5 8 denominator - 4)))
  | headerMode, .explicitHeaderMode => some 0
  | headerMode, .implicitHeaderMode _ => some 1
  | spreadingFactor, .setSpreadingFactor sf => some (.ofInt (16 * clamp 6 12 sf))
  | crc, .enableCrc => some 4
  | crc, .disableCrc => some 0
  | _, _ => none

/-- The bits that belong to some setting. -/
def ownedBits : Reg → UInt8
  | .modemConfig1 => 0xff
  | .modemConfig2 => 0xf4
  | .frfMsb | .frfMid | .frfLsb | .paConfig | .preambleMsb | .preambleLsb | .payloadLength
  | .detectionOptimize | .detectionThreshold | .syncWord => 0xff
  | _ => 0

/-! ### Calls as masked writes -/

/-- A masked write as a program: without reading the register if the mask has all its bits. -/
def loraUpdate (a : MaskedWrite Reg 8) : LoraProg Unit :=
  if a.mask = BitVec.allOnes 8 then loraWriteReg a.reg (.ofBitVec a.value)
  else do
    let x ← loraReadReg a.reg
    loraWriteReg a.reg (.ofBitVec (mergeBits a.mask a.value x.toBitVec))

/-- Some masked writes as a program. -/
def loraUpdates : List (MaskedWrite Reg 8) → LoraProg Unit
  | [] => pure ()
  | a :: as => do
    loraUpdate a
    loraUpdates as

/-- A write of a whole register. -/
def wholeReg (r : Reg) (v : UInt8) : MaskedWrite Reg 8 :=
  ⟨r, BitVec.allOnes 8, v.toBitVec⟩

/-- A write of a field. -/
def Field.write (f : Field) (v : UInt8) : MaskedWrite Reg 8 := ⟨f.reg, f.mask.toBitVec, v.toBitVec⟩

/-- The masked writes of a call. -/
def SetterCall.writes : SetterCall → List (MaskedWrite Reg 8)
  | setBandwidth sbw => [Field.bandwidth.write (.ofNat (16 * bandwidthIndex sbw))]
  | setCodingRate denominator =>
    [Field.codingRate.write (.ofInt (2 * (clamp 5 8 denominator - 4)))]
  | explicitHeaderMode => [Field.headerMode.write 0]
  | implicitHeaderMode size =>
    [Field.headerMode.write Field.headerMode.mask, wholeReg .payloadLength (.ofInt size)]
  | setSpreadingFactor sf =>
    [wholeReg .detectionOptimize (if clamp 6 12 sf = 6 then 0xc5 else 0xc3),
      wholeReg .detectionThreshold (if clamp 6 12 sf = 6 then 0x0c else 0x0a),
      Field.spreadingFactor.write (.ofInt (16 * clamp 6 12 sf))]
  | enableCrc => [Field.crc.write Field.crc.mask]
  | disableCrc => [Field.crc.write 0]
  | setTxPower level => [wholeReg .paConfig (paBoost ||| .ofInt (clamp 2 17 level - 2))]
  | setFrequency frequency =>
    let frf : UInt64 := (UInt64.ofInt frequency <<< 19) / 32000000
    [wholeReg .frfMsb (frf >>> 16).toUInt8, wholeReg .frfMid (frf >>> 8).toUInt8,
      wholeReg .frfLsb (frf >>> 0).toUInt8]
  | setPreambleLength length =>
    [wholeReg .preambleMsb (.ofInt (length >>> (8 : ℕ))),
      wholeReg .preambleLsb (.ofInt (length >>> (0 : ℕ)))]
  | setSyncWord sw => [wholeReg .syncWord (.ofInt sw)]

/-- The registers and bits that belong to a setting. -/
def Setting.places : Setting → List (Reg × BitVec 8)
  | bandwidth => [(.modemConfig1, 0xf0)]
  | codingRate => [(.modemConfig1, 0x0e)]
  | headerMode => [(.modemConfig1, 0x01), (.payloadLength, 0xff)]
  | spreadingFactor =>
    [(.detectionOptimize, 0xff), (.detectionThreshold, 0xff), (.modemConfig2, 0xf0)]
  | crc => [(.modemConfig2, 0x04)]
  | txPower => [(.paConfig, 0xff)]
  | frequency => [(.frfMsb, 0xff), (.frfMid, 0xff), (.frfLsb, 0xff)]
  | preambleLength => [(.preambleMsb, 0xff), (.preambleLsb, 0xff)]
  | syncWord => [(.syncWord, 0xff)]

/-! ### Encodings -/

theorem clamp_eq (lo hi x : ℤ) (h : lo ≤ hi) :
    (if x < lo then lo else if x > hi then hi else x) = clamp lo hi x := by
  unfold clamp
  split_ifs <;> omega

theorem le_clamp (lo hi x : ℤ) : lo ≤ clamp lo hi x := le_max_left ..

theorem clamp_le {lo hi : ℤ} (x : ℤ) (h : lo ≤ hi) : clamp lo hi x ≤ hi :=
  max_le h (min_le_right ..)

theorem bandwidthIndex_le (sbw : ℤ) : bandwidthIndex sbw ≤ 9 :=
  List.findIdx_le_length

/-- The index of a bandwidth, moved to its place. -/
theorem shiftLeft_bandwidth {n : ℕ} (h : n ≤ 9) :
    (UInt8.ofNat n <<< (4 : UInt8)) = .ofNat (16 * n) ∧
      UInt8.ofNat (16 * n) &&& 0xf0 = .ofNat (16 * n) := by
  interval_cases n <;> decide

/-- The code of a coding rate, moved to its place. -/
theorem shiftLeft_codingRate {n : ℤ} (h : 5 ≤ n) (h' : n ≤ 8) :
    (UInt8.ofInt (n - 4) <<< (1 : UInt8)) = .ofInt (2 * (n - 4)) ∧
      UInt8.ofInt (2 * (n - 4)) &&& 0x0e = .ofInt (2 * (n - 4)) := by
  interval_cases n <;> decide

/-- A spreading factor, moved to its place. -/
theorem shiftLeft_spreadingFactor {n : ℤ} (h : 6 ≤ n) (h' : n ≤ 12) :
    (UInt8.ofInt n <<< (4 : UInt8) &&& 0xf0) = .ofInt (16 * n) ∧
      UInt8.ofInt (16 * n) &&& 0xf0 = .ofInt (16 * n) := by
  interval_cases n <;> decide

/-- A comparison of `lora_set_bandwidth`, the last ones first. -/
private theorem ite_ofNat {p : Prop} [Decidable p] {x : UInt8} {k n : ℕ}
    (h : x = .ofNat (k + 1 + n)) :
    (if p then .ofNat k else x) = UInt8.ofNat (k + if p then 0 else n + 1) := by
  split
  · rfl
  · rw [h, Nat.add_assoc, Nat.add_comm 1]

/-- The comparisons of `lora_set_bandwidth` look for the first bandwidth that is not less. -/
theorem bandwidth_eq (sbw : ℤ) :
    (if sbw ≤ 7800 then 0
      else if sbw ≤ 10400 then 1
      else if sbw ≤ 15600 then 2
      else if sbw ≤ 20800 then 3
      else if sbw ≤ 31250 then 4
      else if sbw ≤ 41700 then 5
      else if sbw ≤ 62500 then 6
      else if sbw ≤ 125000 then 7
      else if sbw ≤ 250000 then 8
      else 9 : UInt8) = .ofNat (bandwidthIndex sbw) := by
  simp only [bandwidthIndex, bandwidths, List.findIdx_cons, List.findIdx_nil, Bool.cond_decide]
  rw [← Nat.zero_add (ite _ _ _)]
  iterate 9 refine ite_ofNat ?_
  rfl

/-- What a call encodes lies in its field. -/
theorem Field.encoding_and_mask {f : Field} {s : SetterCall} {x : UInt8}
    (h : f.encoding s = some x) : x &&& f.mask = x := by
  cases f <;> cases s <;> simp only [encoding, reduceCtorEq, Option.some_inj] at h <;> subst h
  case bandwidth.setBandwidth sbw => exact (shiftLeft_bandwidth (bandwidthIndex_le sbw)).2
  case codingRate.setCodingRate d =>
    exact (shiftLeft_codingRate (le_clamp ..) (clamp_le d (by decide))).2
  case spreadingFactor.setSpreadingFactor sf =>
    exact (shiftLeft_spreadingFactor (le_clamp ..) (clamp_le sf (by decide))).2
  all_goals rfl

/-! ### Programs as masked writes -/

/-- A function that replaces a field of a register. -/
theorem loraUpdate_write (f : Field) (v : UInt8) {g : UInt8 → UInt8}
    (h : ∀ x, (g x).toBitVec = mergeBits f.mask.toBitVec v.toBitVec x.toBitVec) :
    loraUpdate (f.write v) = loraReadReg f.reg >>= fun x => loraWriteReg f.reg (g x) := by
  have hmask : f.mask.toBitVec ≠ BitVec.allOnes 8 := by cases f <;> decide
  rw [loraUpdate, Field.write, if_neg hmask]
  congr 1
  funext x
  rw [← h, UInt8.ofBitVec_toBitVec]

/-- A function that replaces a field by its own bits. -/
theorem loraUpdate_write_of_and (f : Field) {v : UInt8} (h : v &&& f.mask = v) :
    loraUpdate (f.write v) =
      loraReadReg f.reg >>= fun x => loraWriteReg f.reg ((x &&& ~~~f.mask) ||| v) := by
  refine loraUpdate_write f v fun x => ?_
  have hv : v.toBitVec &&& f.mask.toBitVec = v.toBitVec := by rw [← UInt8.toBitVec_and, h]
  rw [mergeBits, hv]
  rfl

/-- A function that sets the bits of a field. -/
theorem loraUpdate_write_mask (f : Field) : loraUpdate (f.write f.mask) =
    loraReadReg f.reg >>= fun x => loraWriteReg f.reg (x ||| f.mask) :=
  loraUpdate_write f _ fun x => (mergeBits_self _ x.toBitVec).symm

/-- A function that clears the bits of a field. -/
theorem loraUpdate_write_zero (f : Field) : loraUpdate (f.write 0) =
    loraReadReg f.reg >>= fun x => loraWriteReg f.reg (x &&& ~~~f.mask) :=
  loraUpdate_write f _ fun x => (mergeBits_zero _ x.toBitVec).symm

/-- **A call is the list of its masked writes.** -/
theorem SetterCall.prog_eq (s : SetterCall) (v : LoraVars) :
    s.prog v = loraUpdates s.writes >>= fun _ => pure (s.vars v) := by
  cases s with
  | setBandwidth sbw =>
    obtain ⟨hshift, hmask⟩ := shiftLeft_bandwidth (bandwidthIndex_le sbw)
    simp only [prog, writes, loraUpdates, loraSetBandwidth, bandwidth_eq, hshift,
      loraUpdate_write_of_and .bandwidth hmask]
    rfl
  | setCodingRate denominator =>
    obtain ⟨hshift, hmask⟩ := shiftLeft_codingRate (le_clamp 5 8 denominator)
      (clamp_le denominator (by decide))
    simp only [prog, writes, loraUpdates, loraSetCodingRate, clamp_eq 5 8 _ (by decide), hshift,
      loraUpdate_write_of_and .codingRate hmask]
    rfl
  | explicitHeaderMode =>
    simp only [prog, writes, loraUpdates, loraUpdate_write_zero]
    rfl
  | implicitHeaderMode size =>
    simp only [prog, writes, loraUpdates, loraUpdate_write_mask]
    rfl
  | setSpreadingFactor sf =>
    obtain ⟨hshift, hmask⟩ := shiftLeft_spreadingFactor (le_clamp 6 12 sf)
      (clamp_le sf (by decide))
    simp only [prog, writes, loraUpdates, loraSetSpreadingFactor, clamp_eq 6 12 _ (by decide),
      hshift, loraUpdate_write_of_and .spreadingFactor hmask]
    split <;> rfl
  | enableCrc =>
    simp only [prog, writes, loraUpdates, loraUpdate_write_mask]
    rfl
  | disableCrc =>
    simp only [prog, writes, loraUpdates, loraUpdate_write_zero]
    rfl
  | setTxPower level =>
    simp only [prog, writes, loraUpdates, loraSetTxPower, clamp_eq 2 17 _ (by decide)]
    rfl
  | setFrequency frequency => rfl
  | setPreambleLength length => rfl
  | setSyncWord sw => rfl

/-! ### The places of the settings -/

/-- A register that reads as it has been written. -/
def Reg.Plain (r : Reg) : Prop := ownedBits r ≠ 0

instance (r : Reg) : Decidable r.Plain := inferInstanceAs (Decidable (_ ≠ _))

/-- A call writes the places of its setting only. -/
theorem SetterCall.mem_places (s : SetterCall) :
    ∀ a ∈ s.writes, (a.reg, a.mask) ∈ s.setting.places := by
  cases s <;> simp [writes, setting, Setting.places, wholeReg, Field.write, Field.reg, Field.mask]

/-- The places lie in registers that read as they have been written, within the bits that belong to
some setting. -/
theorem Setting.plain_of_mem_places (x : Setting) :
    ∀ p ∈ x.places, p.1.Plain ∧ ~~~(ownedBits p.1).toBitVec &&& p.2 = 0#8 := by
  cases x <;> decide

/-- The places of different settings have no bit in common. -/
theorem Setting.disjoint_places {x y : Setting} (h : x ≠ y) :
    ∀ p ∈ x.places, ∀ q ∈ y.places, p.1 = q.1 → p.2 &&& q.2 = 0#8 := by
  cases x <;> cases y <;> first | exact absurd rfl h | decide

theorem SetterCall.plain_of_mem_writes (s : SetterCall) : ∀ a ∈ s.writes, a.reg.Plain :=
  fun a ha => (s.setting.plain_of_mem_places _ (s.mem_places a ha)).1

/-- Calls of different settings write different bits. -/
theorem SetterCall.independent {s s' : SetterCall} (h : s.setting ≠ s'.setting) :
    ∀ a ∈ s.writes, ∀ b ∈ s'.writes, a.Independent b :=
  fun a ha b hb =>
    Setting.disjoint_places h (a.reg, a.mask) (s.mem_places a ha) (b.reg, b.mask)
      (s'.mem_places b hb)

/-! ### The registers after some calls -/

namespace Chip

variable (c : Chip)

/-- The registers as bits. -/
def bits (r : Reg) : BitVec 8 := (c.reg r).toBitVec

/-- The chip with other registers. -/
def setBits (s : Reg → BitVec 8) : Chip := { c with reg := fun r => .ofBitVec (s r) }

@[simp] theorem bits_setBits (s : Reg → BitVec 8) : (c.setBits s).bits = s := rfl

variable {r : Reg}

theorem write_of_plain (h : r.Plain) (v : UInt8) : c.write r v = c.setReg r v := by
  cases r <;> first | rfl | exact absurd rfl h

theorem read_of_plain (h : r.Plain) : c.read r = (c.reg r, c) := by
  cases r <;> first | rfl | exact absurd rfl h

/-- A masked write of a register. -/
theorem setReg_eq_setBits (a : MaskedWrite Reg 8) :
    c.setReg a.reg (.ofBitVec (mergeBits a.mask a.value (c.bits a.reg))) =
      c.setBits (a.apply c.bits) := by
  rw [setReg, setBits]
  congr 1
  funext r
  by_cases hr : r = a.reg
  · subst hr
    simp [MaskedWrite.apply_self]
  · simp [hr, a.apply_of_ne _ hr, bits]

end Chip

section Run

variable (R : ResetValues)

/-- A masked write when nothing happens at the chip. -/
theorem run_loraUpdate_bind {α : Type} {a : MaskedWrite Reg 8} (ha : a.reg.Plain)
    (f : Unit → LoraProg α) (c : Chip) :
    (loraChip R).run (loraUpdate a >>= f) [] c =
      (loraChip R).run (f ()) [] (c.setBits (a.apply c.bits)) := by
  unfold loraUpdate
  split
  case isTrue hmask =>
    rw [← c.setReg_eq_setBits, hmask, mergeBits_allOnes, ← c.write_of_plain ha]
    simp [loraWriteReg, Bus.Device.run]
  case isFalse =>
    rw [← c.setReg_eq_setBits, ← c.write_of_plain ha]
    simp [loraReadReg, loraWriteReg, Bus.Device.run, c.read_of_plain ha, Chip.bits]

/-- Some masked writes when nothing happens at the chip. -/
theorem run_loraUpdates {as : List (MaskedWrite Reg 8)} (has : ∀ a ∈ as, a.reg.Plain) (c : Chip) :
    (loraChip R).run (loraUpdates as) [] c =
      some ((), [], c.setBits (MaskedWrite.applyAll as c.bits)) := by
  induction as generalizing c with
  | nil => rfl
  | cons a as ih =>
    simp only [List.mem_cons, forall_eq_or_imp] at has
    rw [loraUpdates, run_loraUpdate_bind R has.1, ih has.2]
    rfl

/-- A call when nothing happens at the chip. -/
theorem SetterCall.run_prog (s : SetterCall) (v : LoraVars) (c : Chip) :
    (loraChip R).run (s.prog v) [] c =
      some (s.vars v, [], c.setBits (MaskedWrite.applyAll s.writes c.bits)) := by
  rw [s.prog_eq, Bus.Device.run_bind, run_loraUpdates R s.plain_of_mem_writes]
  rfl

/-- **Some calls when nothing happens at the chip.** -/
theorem run_settings (calls : List SetterCall) (v : LoraVars) (c : Chip) :
    (loraChip R).run (settings v calls) [] c =
      some (calls.foldl (fun v s => s.vars v) v, [],
        c.setBits (calls.foldl (fun t s => MaskedWrite.applyAll s.writes t) c.bits)) := by
  induction calls generalizing v c with
  | nil => rfl
  | cons call calls ih =>
    rw [settings, Bus.Device.run_bind, call.run_prog, Option.bind_some, ih]
    rfl

end Run

/-! ### Calls while something happens at the chip -/

/-- The registers that read as they have been written hold `t`. -/
def Chip.Stores (t : Reg → BitVec 8) (c : Chip) : Prop := ∀ r : Reg, r.Plain → c.bits r = t r

section Schedule

variable {R : ResetValues} {t : Reg → BitVec 8}

/-- Nothing that happens at the chip changes these registers. -/
theorem stable_stores (R : ResetValues) (t : Reg → BitVec 8) :
    (loraChip R).Stable (Chip.Stores t) := by
  refine stable_of_events R (fun c a _ hc r hr => ?_) fun c _ hc r hr => ?_
  · rw [← hc r hr]
    cases r <;> first | exact absurd rfl hr | simp [Chip.bits, Chip.receive]
  · rw [← hc r hr]
    cases r <;> first | exact absurd rfl hr | simp [Chip.bits, Chip.transmit]

/-- A masked write under any schedule. -/
theorem triple_loraUpdate {a : MaskedWrite Reg 8} (ha : a.reg.Plain) :
    (loraChip R).Triple (Chip.Stores t) (loraUpdate a) fun _ => Chip.Stores (a.apply t) := by
  have hwrite : ∀ c, Chip.Stores t c →
      (c.write a.reg (.ofBitVec (mergeBits a.mask a.value (t a.reg)))).Stores (a.apply t) := by
    intro c hc r hr
    rw [c.write_of_plain ha, ← hc _ ha, c.setReg_eq_setBits, Chip.bits_setBits]
    by_cases heq : r = a.reg
    · rw [heq, a.apply_self, a.apply_self, hc _ ha]
    · rw [a.apply_of_ne _ heq, a.apply_of_ne _ heq, hc r hr]
  unfold loraUpdate
  split
  case isTrue hmask =>
    refine triple_loraWriteReg (stable_stores R t) fun c hc => ?_
    have hc' := hwrite c hc
    rwa [hmask, mergeBits_allOnes] at hc'
  case isFalse =>
    refine (triple_loraReadReg (Q := fun x c => x.toBitVec = t a.reg ∧ c.Stores t)
      (stable_stores R t) fun c hc => ?_).bind fun x => .of_and fun hx => ?_
    · rw [c.read_of_plain ha]
      exact ⟨hc _ ha, hc⟩
    · rw [hx]
      exact triple_loraWriteReg (stable_stores R t) hwrite

/-- **A call under any schedule** writes its masked writes. -/
theorem SetterCall.triple_prog (s : SetterCall) (v : LoraVars) :
    (loraChip R).Triple (Chip.Stores t) (s.prog v) fun v' c =>
      v' = s.vars v ∧ c.Stores (MaskedWrite.applyAll s.writes t) := by
  have hall : ∀ (as : List (MaskedWrite Reg 8)) (t : Reg → BitVec 8), (∀ a ∈ as, a.reg.Plain) →
      (loraChip R).Triple (Chip.Stores t) (loraUpdates as)
        fun _ => Chip.Stores (MaskedWrite.applyAll as t) := by
    intro as
    induction as with
    | nil => exact fun t _ => .pure fun c hc => hc
    | cons a as ih =>
      intro t has
      simp only [List.mem_cons, forall_eq_or_imp] at has
      exact (triple_loraUpdate has.1).bind fun _ => ih (a.apply t) has.2
  rw [s.prog_eq]
  exact (hall s.writes t s.plain_of_mem_writes).bind fun _ => .pure fun c hc => ⟨rfl, hc⟩

end Schedule

/-! ### What one call does to a field -/

/-- A call of another setting leaves a field as it is. -/
theorem Field.applyAll_writes_of_ne {f : Field} {s : SetterCall} (h : f.setting ≠ s.setting)
    (t : Reg → BitVec 8) : MaskedWrite.applyAll s.writes t f.reg &&& f.mask.toBitVec =
      t f.reg &&& f.mask.toBitVec := by
  have hplace : (f.reg, f.mask.toBitVec) ∈ f.setting.places := by
    cases f <;> simp [setting, Setting.places, reg, mask]
  exact MaskedWrite.applyAll_and_of_avoids t fun a ha =>
    Setting.disjoint_places h _ hplace _ (s.mem_places a ha)

/-- A call of its own setting writes what it encodes to a field, and the field no more. -/
theorem Field.exists_writes_eq {f : Field} {s : SetterCall} {x : UInt8}
    (h : f.encoding s = some x) :
    ∃ as bs, s.writes = as ++ f.write x :: bs ∧ ∀ b ∈ bs, b.reg ≠ f.reg := by
  cases f <;> cases s <;> simp only [encoding, reduceCtorEq, Option.some_inj] at h <;> subst h
  case headerMode.implicitHeaderMode size =>
    exact ⟨[], [wholeReg .payloadLength (.ofInt size)], rfl, by simp [wholeReg, reg]⟩
  case spreadingFactor.setSpreadingFactor sf => exact ⟨[_, _], [], rfl, by simp⟩
  all_goals exact ⟨[], [], rfl, by simp⟩

/-- A call of its own setting determines a field. -/
theorem Field.applyAll_writes_of_eq {f : Field} {s : SetterCall} {x : UInt8}
    (h : f.encoding s = some x) (t : Reg → BitVec 8) :
    MaskedWrite.applyAll s.writes t f.reg &&& f.mask.toBitVec = x.toBitVec := by
  obtain ⟨as, bs, hwrites, hbs⟩ := f.exists_writes_eq h
  have hcover : f.mask.toBitVec &&& ~~~(f.write x).mask = 0#8 := BitVec.and_not_self _
  have hlast : MaskedWrite.applyAll (as ++ f.write x :: bs) t f.reg &&& f.mask.toBitVec =
      x.toBitVec &&& f.mask.toBitVec :=
    MaskedWrite.applyAll_and_of_covers (f.write x) t hcover
      fun b hb hreg => absurd hreg.symm (hbs b hb)
  calc MaskedWrite.applyAll s.writes t f.reg &&& f.mask.toBitVec
      = x.toBitVec &&& f.mask.toBitVec := by rw [hwrites]; exact hlast
    _ = x.toBitVec := by rw [← UInt8.toBitVec_and, f.encoding_and_mask h]

/-- The value of a field. -/
def Field.value (f : Field) (t : Reg → BitVec 8) : UInt8 := .ofBitVec (t f.reg) &&& f.mask

/-- A call determines a field of its own setting, and leaves the others as they are. -/
theorem Field.value_applyAll_writes (f : Field) (t : Reg → BitVec 8) (s : SetterCall) :
    f.value (MaskedWrite.applyAll s.writes t) = (f.encoding s).getD (f.value t) := by
  rcases hs : f.encoding s with _ | x
  · have hne : f.setting ≠ s.setting := by
      rintro h
      cases f <;> cases s <;> simp [setting, SetterCall.setting, encoding] at h hs
    exact UInt8.toBitVec_inj.1 (f.applyAll_writes_of_ne hne t)
  · exact UInt8.toBitVec_inj.1 (f.applyAll_writes_of_eq hs t)

/-- No call changes a bit that belongs to no setting. -/
theorem SetterCall.applyAll_writes_of_not_owned (r : Reg) (t : Reg → BitVec 8) (s : SetterCall) :
    MaskedWrite.applyAll s.writes t r &&& ~~~(ownedBits r).toBitVec =
      t r &&& ~~~(ownedBits r).toBitVec := by
  refine MaskedWrite.applyAll_and_of_avoids t fun a ha hr => ?_
  subst hr
  exact (s.setting.plain_of_mem_places _ (s.mem_places a ha)).2

/-- The detection registers and the spreading factor. -/
def detection (t : Reg → BitVec 8) : BitVec 8 × BitVec 8 × BitVec 8 :=
  (t .detectionOptimize, t .detectionThreshold, t .modemConfig2 &&& 0xf0)

/-- The detection registers and the spreading factor that a call sets. -/
def SetterCall.detection : SetterCall → Option (BitVec 8 × BitVec 8 × BitVec 8)
  | setSpreadingFactor sf =>
    some (if clamp 6 12 sf = 6 then 0xc5 else 0xc3, if clamp 6 12 sf = 6 then 0x0c else 0x0a,
      (UInt8.ofInt (16 * clamp 6 12 sf)).toBitVec)
  | _ => none

/-- A call of another setting leaves the detection registers as they are. -/
theorem SetterCall.detection_applyAll_writes_of_ne {s : SetterCall}
    (h : s.setting ≠ .spreadingFactor) (t : Reg → BitVec 8) :
    GpsTracker.detection (MaskedWrite.applyAll s.writes t) = GpsTracker.detection t := by
  have hplaces : ∀ x : Setting, x ≠ .spreadingFactor → ∀ p ∈ x.places,
      .detectionOptimize ≠ p.1 ∧ .detectionThreshold ≠ p.1 := by
    intro x hx
    cases x <;> first | exact absurd rfl hx | decide
  have hreg := fun a ha => hplaces s.setting h _ (s.mem_places a ha)
  rw [GpsTracker.detection, MaskedWrite.applyAll_of_ne t fun a ha => (hreg a ha).1,
    MaskedWrite.applyAll_of_ne t fun a ha => (hreg a ha).2]
  exact congrArg (fun x => (_, _, x))
    (Field.applyAll_writes_of_ne (f := .spreadingFactor) (Ne.symm h) t)

theorem wholeReg_apply_self (r : Reg) (v : UInt8) (t : Reg → BitVec 8) :
    (wholeReg r v).apply t r = v.toBitVec :=
  ((wholeReg r v).apply_self t).trans (mergeBits_allOnes ..)

theorem wholeReg_apply_of_ne {r r' : Reg} (h : r' ≠ r) (v : UInt8) (t : Reg → BitVec 8) :
    (wholeReg r v).apply t r' = t r' :=
  MaskedWrite.apply_of_ne _ t h

/-- A call that sets the spreading factor determines the detection registers. -/
theorem detection_setSpreadingFactor (sf : ℤ) (t : Reg → BitVec 8) :
    some (detection (MaskedWrite.applyAll (SetterCall.setSpreadingFactor sf).writes t)) =
      (SetterCall.setSpreadingFactor sf).detection := by
  have hfield : _ = (UInt8.ofInt (16 * clamp 6 12 sf)).toBitVec :=
    Field.applyAll_writes_of_eq (f := .spreadingFactor) (s := .setSpreadingFactor sf) rfl t
  have hlast : ∀ (v : UInt8) (t : Reg → BitVec 8) (r : Reg), r ≠ .modemConfig2 →
      (Field.spreadingFactor.write v).apply t r = t r :=
    fun v t r hr => MaskedWrite.apply_of_ne _ t hr
  rw [detection, SetterCall.detection, ← hfield]
  simp only [SetterCall.writes, MaskedWrite.applyAll, List.foldl_cons, List.foldl_nil]
  rw [hlast _ _ _ (by decide), hlast _ _ _ (by decide), wholeReg_apply_self,
    wholeReg_apply_of_ne (by simp), wholeReg_apply_self]
  split <;> rfl

/-- A call determines the detection registers or leaves them as they are. -/
theorem SetterCall.detection_applyAll_writes (t : Reg → BitVec 8) (s : SetterCall) :
    GpsTracker.detection (MaskedWrite.applyAll s.writes t) =
      s.detection.getD (GpsTracker.detection t) := by
  by_cases h : s.setting = .spreadingFactor
  · cases s <;> simp only [setting, reduceCtorEq] at h
    rw [← detection_setSpreadingFactor _ t, Option.getD_some]
  · rw [detection_applyAll_writes_of_ne h]
    cases s <;> first | rfl | exact absurd rfl h

/-- The detection registers fit the spreading factor that a call sets. -/
theorem SetterCall.eq_of_detection_eq {s : SetterCall} {x y z : BitVec 8}
    (h : s.detection = some (x, y, z)) :
    (x, y) = if z = 0x60 then (0xc5, 0x0c) else (0xc3, 0x0a) := by
  cases s <;> simp only [detection, reduceCtorEq, Option.some_inj, Prod.mk.injEq] at h
  case setSpreadingFactor sf =>
    obtain ⟨rfl, rfl, rfl⟩ := h
    have hlo := le_clamp 6 12 sf
    have hhi : clamp 6 12 sf ≤ 12 := clamp_le sf (by decide)
    generalize clamp 6 12 sf = n at hlo hhi
    interval_cases n <;> decide

/-! ### Any calls -/

theorem SetterCall.vars_comm {s s' : SetterCall} (h : s.setting ≠ s'.setting) (v : LoraVars) :
    s'.vars (s.vars v) = s.vars (s'.vars v) := by
  cases s <;> cases s' <;> first | rfl | exact absurd rfl h

/-- Calls that set different settings commute. -/
theorem run_settings_comm (R : ResetValues) {s s' : SetterCall} (h : s.setting ≠ s'.setting)
    (v : LoraVars) (c : Chip) : (loraChip R).run (settings v [s, s']) [] c =
      (loraChip R).run (settings v [s', s]) [] c := by
  have hcomm := MaskedWrite.applyAll_append_comm c.bits (SetterCall.independent h)
  simp only [MaskedWrite.applyAll, List.foldl_append] at hcomm
  simp only [run_settings, List.foldl_cons, List.foldl_nil, SetterCall.vars_comm h,
    MaskedWrite.applyAll, hcomm]

/-- Once the spreading factor has been set the detection registers fit it. -/
theorem detection_foldl_fits {calls : List SetterCall} {t₀ t : Reg → BitVec 8}
    (hsf : ∃ sf, .setSpreadingFactor sf ∈ calls)
    (ht : calls.foldl (fun t s => MaskedWrite.applyAll s.writes t) t₀ = t) :
    (t .detectionOptimize, t .detectionThreshold) =
      if t .modemConfig2 &&& 0xf0 = 0x60 then (0xc5, 0x0c) else (0xc3, 0x0a) := by
  obtain ⟨sf, hsf⟩ := hsf
  have hlast := foldl_lastWriter detection SetterCall.detection
    SetterCall.detection_applyAll_writes calls t₀
  have hne : calls.filterMap SetterCall.detection ≠ [] :=
    List.ne_nil_of_mem (List.mem_filterMap.2 ⟨_, hsf, rfl⟩)
  obtain ⟨s, -, hs⟩ := List.mem_filterMap.1 (List.getLast_mem hne)
  rw [List.getLast?_eq_some_getLast hne, Option.getD_some, ht] at hlast
  rw [← hlast] at hs
  exact s.eq_of_detection_eq hs

/-- **The settings of the modem.** After any calls with any arguments each field holds what the last
call of its own function encodes, or its initial value if there is none; bits that belong to no
setting are unchanged; once the spreading factor has been set the detection registers fit it; and
calls that set different settings commute. -/
theorem loraSettings (R : ResetValues) (calls : List SetterCall) (v : LoraVars) (c : Chip) :
    ∃ v' c', (loraChip R).run (settings v calls) [] c = some (v', [], c') ∧
      (∀ f : Field, c'.reg f.reg &&& f.mask =
        (calls.filterMap f.encoding).getLast?.getD (c.reg f.reg &&& f.mask)) ∧
      (∀ r, c'.reg r &&& ~~~ownedBits r = c.reg r &&& ~~~ownedBits r) ∧
      ((∃ sf, .setSpreadingFactor sf ∈ calls) →
        (c'.reg .detectionOptimize, c'.reg .detectionThreshold) =
          if c'.reg .modemConfig2 &&& 0xf0 = 0x60 then (0xc5, 0x0c) else (0xc3, 0x0a)) ∧
      ∀ s s' : SetterCall, s.setting ≠ s'.setting →
        (loraChip R).run (settings v [s, s']) [] c =
          (loraChip R).run (settings v [s', s]) [] c := by
  refine ⟨_, _, run_settings R calls v c, fun f => ?_, fun r => ?_, ?_,
    fun s s' h => run_settings_comm R h v c⟩
  · exact foldl_lastWriter f.value f.encoding f.value_applyAll_writes calls c.bits
  · have hlast := foldl_lastWriter (fun t => t r &&& ~~~(ownedBits r).toBitVec) (fun _ => none)
      (SetterCall.applyAll_writes_of_not_owned r) calls c.bits
    rw [List.filterMap_none] at hlast
    exact UInt8.toBitVec_inj.1 hlast
  · intro hsf
    generalize ht : calls.foldl (fun t s => MaskedWrite.applyAll s.writes t) c.bits = t
    have hfit := detection_foldl_fits hsf ht
    change (UInt8.ofBitVec (t .detectionOptimize), UInt8.ofBitVec (t .detectionThreshold)) =
      if UInt8.ofBitVec (t .modemConfig2) &&& 0xf0 = 0x60 then (0xc5, 0x0c) else (0xc3, 0x0a)
    have hiff : UInt8.ofBitVec (t .modemConfig2) &&& 0xf0 = 0x60 ↔
        t .modemConfig2 &&& 0xf0 = 0x60 :=
      UInt8.toBitVec_inj.symm
    by_cases hsix : t .modemConfig2 &&& 0xf0 = 0x60
    · rw [if_pos hsix, Prod.mk.injEq] at hfit
      rw [if_pos (hiff.2 hsix), hfit.1, hfit.2]
      rfl
    · rw [if_neg hsix, Prod.mk.injEq] at hfit
      rw [if_neg (mt hiff.1 hsix), hfit.1, hfit.2]
      rfl

/-- The narrowest bandwidth and the smallest spreading factor are set at a chip that holds ones. -/
theorem loraSettings_narrow :
    ∃ v' c', (loraChip .sx1276).run
        (settings ⟨0, 0⟩ [.setBandwidth 125000, .setSpreadingFactor 3, .setBandwidth 7800]) []
        (zeroChip.setReg .modemConfig1 0xff) = some (v', [], c') ∧
      c'.reg .modemConfig1 &&& 0xf0 = 0x00 ∧ c'.reg .modemConfig1 &&& 0x0e = 0x0e ∧
      (c'.reg .detectionOptimize, c'.reg .detectionThreshold) =
        if c'.reg .modemConfig2 &&& 0xf0 = 0x60 then (0xc5, 0x0c) else (0xc3, 0x0a) := by
  obtain ⟨v', c', hrun, hfield, -, hdetection, -⟩ := loraSettings .sx1276
    [.setBandwidth 125000, .setSpreadingFactor 3, .setBandwidth 7800] ⟨0, 0⟩
    (zeroChip.setReg .modemConfig1 0xff)
  exact ⟨v', c', hrun, hfield .bandwidth, hfield .codingRate, hdetection ⟨3, by simp⟩⟩

end GpsTracker
