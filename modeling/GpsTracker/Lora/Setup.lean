import GpsTracker.Lora.Driver

/-!
# Initialisation of the radio

Whatever state the chip is in, and whatever happens until it is reset, after `lora_init` it is in
standby with no interrupt pending, with explicit headers, and sends from the beginning of its FIFO
(`triple_loraInit`). The settings that `app_main` makes afterwards do not change that
(`triple_radioSetup`).

## Main definitions

* `Chip.Fresh`, `Chip.Initialised`.
* `radioSetup`.

## Main results

* `triple_loraInit`, `triple_radioSetup`.
-/

namespace GpsTracker

/-- The calls by which `app_main` prepares the radio. -/
def radioSetup : LoraProg Unit := do
  let _ ← loraInit
  loraSetFrequency 868000000
  loraSetTxPower 17
  loraSetSpreadingFactor 12
  loraEnableCrc

/-! ### The chip during initialisation -/

namespace Chip

/-- Nothing happens at the chip, no interrupt is pending and packets have an explicit header. -/
structure Fresh (c : Chip) : Prop where
  quiet : c.Quiet
  irqFlags : c.reg .irqFlags = 0
  explicit : c.reg .modemConfig1 &&& 0x01 = 0

/-- In addition the chip sends from the beginning of its FIFO. -/
structure Initialised (c : Chip) : Prop extends Fresh c where
  txBase : c.reg .fifoTxBaseAddr = 0

variable {c : Chip}

theorem fresh_reset (c : Chip) (R : ResetValues) : (c.reset R).Fresh where
  quiet := by
    have hne : ∀ v : UInt8, v &&& modeLongRangeMode ≠ 0 → R.val .opMode ≠ v := by
      rintro v hv rfl
      exact hv R.opMode_and
    exact ⟨hne _ (by decide), hne _ (by decide)⟩
  irqFlags := R.irqFlags_eq
  explicit := R.modemConfig1_and

theorem Fresh.read (h : c.Fresh) (r : Reg) : (c.read r).2.Fresh where
  quiet := by
    rw [Quiet, c.read_reg_of_ne r (by simp)]
    exact h.quiet
  irqFlags := by rw [c.read_reg_of_ne r (by simp), h.irqFlags]
  explicit := by rw [c.read_reg_of_ne r (by simp), h.explicit]

theorem Fresh.write (h : c.Fresh) {r : Reg} (hmode : r ≠ .opMode) (hconfig : r ≠ .modemConfig1)
    (v : UInt8) : (c.write r v).Fresh where
  quiet := by
    rw [Quiet, c.write_reg_of_ne hmode.symm (by simp)]
    exact h.quiet
  irqFlags := by
    by_cases hr : r = .irqFlags
    · rw [hr, write_irqFlags_reg, h.irqFlags, UInt8.zero_and]
    · rw [c.write_reg_of_ne (Ne.symm hr) (by simp), h.irqFlags]
  explicit := by rw [c.write_reg_of_ne hconfig.symm (by simp), h.explicit]

/-- A change to a mode in which nothing happens. -/
theorem Fresh.write_opMode (h : c.Fresh) {v : UInt8}
    (hrx : v ≠ modeLongRangeMode ||| modeRxContinuous) (htx : v ≠ modeLongRangeMode ||| modeTx) :
    (c.write .opMode v).Fresh where
  quiet := by
    rw [Quiet, write_opMode_reg]
    exact ⟨hrx, htx⟩
  irqFlags := by rw [c.write_reg_of_ne (by simp) (by simp), h.irqFlags]
  explicit := by rw [c.write_reg_of_ne (by simp) (by simp), h.explicit]

theorem Initialised.read (h : c.Initialised) (r : Reg) : (c.read r).2.Initialised where
  toFresh := h.toFresh.read r
  txBase := by rw [c.read_reg_of_ne r (by simp), h.txBase]

theorem Initialised.write (h : c.Initialised) {r : Reg} (hmode : r ≠ .opMode)
    (hconfig : r ≠ .modemConfig1) (hbase : r ≠ .fifoTxBaseAddr) (v : UInt8) :
    (c.write r v).Initialised where
  toFresh := h.toFresh.write hmode hconfig v
  txBase := by rw [c.write_reg_of_ne hbase.symm (by simp), h.txBase]

theorem Initialised.write_opMode (h : c.Initialised) {v : UInt8}
    (hrx : v ≠ modeLongRangeMode ||| modeRxContinuous) (htx : v ≠ modeLongRangeMode ||| modeTx) :
    (c.write .opMode v).Initialised where
  toFresh := h.toFresh.write_opMode hrx htx
  txBase := by rw [c.write_reg_of_ne (by simp) (by simp), h.txBase]

end Chip

/-! ### Initialisation -/

section

variable (R : ResetValues)

theorem stable_fresh : (loraChip R).Stable Chip.Fresh := stable_of_quiet R fun _ h => h.quiet

theorem stable_initialised : (loraChip R).Stable Chip.Initialised :=
  stable_of_quiet R fun _ h => h.quiet

theorem keeps_loraCheckVersion {P : Chip → Prop} (hread : ∀ c, P c → P (c.read .version).2)
    (n : ℕ) : (loraChip R).Keeps P (loraCheckVersion n) := by
  induction n with
  | zero => trivial
  | succ n ih =>
    refine (keeps_loraReadReg hread).bind fun version => ?_
    split
    · trivial
    · exact ih

theorem keeps_loraSetTxPower (level : ℤ) :
    (loraChip R).Keeps Chip.Initialised (loraSetTxPower level) :=
  keeps_loraWriteReg fun _ hc => hc.write (by simp) (by simp) (by simp) _

theorem keeps_loraSetFrequency (frequency : ℤ) :
    (loraChip R).Keeps Chip.Initialised (loraSetFrequency frequency) := by
  refine (keeps_loraWriteReg fun c hc => ?_).bind fun _ =>
    (keeps_loraWriteReg fun c hc => ?_).bind fun _ => keeps_loraWriteReg fun c hc => ?_
  all_goals exact hc.write (by simp) (by simp) (by simp) _

theorem keeps_loraSetSpreadingFactor (sf : ℤ) :
    (loraChip R).Keeps Chip.Initialised (loraSetSpreadingFactor sf) := by
  have hwrite : ∀ (r : Reg) (v : UInt8), r ≠ .opMode → r ≠ .modemConfig1 →
      r ≠ .fifoTxBaseAddr → (loraChip R).Keeps Chip.Initialised (loraWriteReg r v) :=
    fun r v hmode hconfig hbase => keeps_loraWriteReg fun _ hc => hc.write hmode hconfig hbase v
  have hconfig : (loraChip R).Keeps Chip.Initialised (loraReadReg .modemConfig2) :=
    keeps_loraReadReg fun _ hc => hc.read _
  unfold loraSetSpreadingFactor
  dsimp only
  generalize (if sf < 6 then 6 else if sf > 12 then 12 else sf) = sf
  split
  all_goals
    exact (hwrite _ _ (by simp) (by simp) (by simp)).bind fun _ =>
      (hwrite _ _ (by simp) (by simp) (by simp)).bind fun _ =>
        hconfig.bind fun _ => hwrite _ _ (by simp) (by simp) (by simp)

theorem keeps_loraEnableCrc : (loraChip R).Keeps Chip.Initialised loraEnableCrc :=
  (keeps_loraReadReg fun _ hc => hc.read _).bind fun _ =>
    keeps_loraWriteReg fun _ hc => hc.write (by simp) (by simp) (by simp) _

/-- **`lora_init` initialises the chip**, whatever its state was. -/
theorem triple_loraInit :
    (loraChip R).Triple (fun _ => True) loraInit fun _ => Chip.Initialised := by
  have hreset : (loraChip R).Triple (fun _ => True) loraReset fun _ => Chip.Fresh := by
    refine .access (fun _ => Chip.Fresh) (fun _ _ _ _ _ => trivial) (fun c _ => c.fresh_reset R)
      fun _ => .access (fun _ => Chip.Fresh) (stable_fresh R) (fun c hc => hc) fun _ => .pure ?_
    exact fun _ hc => hc
  refine hreset.bind fun _ => ?_
  refine ((keeps_loraCheckVersion R (fun c hc => hc.read _) _).triple (stable_fresh R)).bind
    fun _ => ?_
  refine (triple_loraWriteReg (Q := Chip.Fresh) (stable_fresh R) fun c hc =>
    hc.write_opMode (by decide) (by decide)).bind fun _ => ?_
  refine (triple_loraWriteReg (Q := Chip.Fresh) (stable_fresh R) fun c hc =>
    hc.write (by simp) (by simp) _).bind fun _ => ?_
  refine (triple_loraWriteReg (Q := Chip.Initialised) (stable_fresh R) fun c hc =>
    ⟨hc.write (by simp) (by simp) _, by simp [Chip.write]⟩).bind fun _ => ?_
  refine Bus.Device.Keeps.triple ?_ (stable_initialised R)
  refine (keeps_loraReadReg fun c hc => hc.read _).bind fun lna =>
    (keeps_loraWriteReg fun c hc => ?_).bind fun _ => (keeps_loraWriteReg fun c hc => ?_).bind
      fun _ => (keeps_loraSetTxPower R 17).bind fun _ => .bind (keeps_loraWriteReg fun c hc => ?_)
        fun _ => trivial
  · exact hc.write (by simp) (by simp) (by simp) _
  · exact hc.write (by simp) (by simp) (by simp) _
  · exact hc.write_opMode (by decide) (by decide)

/-- **The radio is still initialised after the settings of `app_main`.** -/
theorem triple_radioSetup :
    (loraChip R).Triple (fun _ => True) radioSetup fun _ => Chip.Initialised :=
  (triple_loraInit R).bind fun _ => Bus.Device.Keeps.triple
    ((keeps_loraSetFrequency R _).bind fun _ => (keeps_loraSetTxPower R _).bind fun _ =>
      (keeps_loraSetSpreadingFactor R _).bind fun _ => keeps_loraEnableCrc R)
    (stable_initialised R)

end

end GpsTracker
