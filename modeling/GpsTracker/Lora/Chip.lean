import GpsTracker.Bus.Program
import Mathlib.Data.Fintype.Basic
import Mathlib.Logic.Function.Basic

/-!
# The radio chip

The registers of an SX127x radio as the driver in `components/lora/lora.c` uses them: a FIFO of 256
bytes behind an address pointer that counts up with every access and wraps, interrupt flags that
are cleared by writing ones, and the mode of operation. A packet may arrive while the chip is in
continuous receive mode, at any address of the FIFO, and a transmission may end while it is in
transmit mode. In standby nothing happens (`loraChip_event_eq_none`).

The chip keeps the packets it has put on the air and those that have arrived, in order, which the
driver cannot see. The strength of a signal is not modelled: the registers that report it keep
their values.

## Main definitions

* `Reg`, `IrqFlag`, `Chip`.
* `Arrival`, `ChipEvent`, `loraChip`.

## Main results

* `Chip.spi_write`, `Chip.spi_read`, `Chip.write_reg_of_ne`, `Chip.read_reg_of_ne`.
* `stable_of_events`, `stable_of_quiet`.
-/

namespace GpsTracker

/-! ### Registers -/

/-- The registers that the driver accesses. -/
inductive Reg where
  | fifo | opMode | frfMsb | frfMid | frfLsb | paConfig | lna | fifoAddrPtr | fifoTxBaseAddr
  | fifoRxBaseAddr | fifoRxCurrentAddr | irqFlags | rxNbBytes | pktSnrValue | pktRssiValue
  | modemConfig1 | modemConfig2 | preambleMsb | preambleLsb | payloadLength | modemConfig3
  | detectionOptimize | detectionThreshold | syncWord | version
  deriving DecidableEq, Repr

namespace Reg

/-- The address of a register. -/
def addr : Reg → UInt8
  | fifo => 0x00
  | opMode => 0x01
  | frfMsb => 0x06
  | frfMid => 0x07
  | frfLsb => 0x08
  | paConfig => 0x09
  | lna => 0x0c
  | fifoAddrPtr => 0x0d
  | fifoTxBaseAddr => 0x0e
  | fifoRxBaseAddr => 0x0f
  | fifoRxCurrentAddr => 0x10
  | irqFlags => 0x12
  | rxNbBytes => 0x13
  | pktSnrValue => 0x19
  | pktRssiValue => 0x1a
  | modemConfig1 => 0x1d
  | modemConfig2 => 0x1e
  | preambleMsb => 0x20
  | preambleLsb => 0x21
  | payloadLength => 0x22
  | modemConfig3 => 0x26
  | detectionOptimize => 0x31
  | detectionThreshold => 0x37
  | syncWord => 0x39
  | version => 0x42

/-- All registers. -/
def all : List Reg :=
  [fifo, opMode, frfMsb, frfMid, frfLsb, paConfig, lna, fifoAddrPtr, fifoTxBaseAddr,
    fifoRxBaseAddr, fifoRxCurrentAddr, irqFlags, rxNbBytes, pktSnrValue, pktRssiValue,
    modemConfig1, modemConfig2, preambleMsb, preambleLsb, payloadLength, modemConfig3,
    detectionOptimize, detectionThreshold, syncWord, version]

/-- The register at an address. -/
def ofAddr? (a : UInt8) : Option Reg := all.find? fun r => r.addr = a

end Reg

/-! ### Modes and flags -/

def modeLongRangeMode : UInt8 := 0x80
def modeSleep : UInt8 := 0x00
def modeStdby : UInt8 := 0x01
def modeTx : UInt8 := 0x03
def modeRxContinuous : UInt8 := 0x05

/-- The interrupt flags that the driver knows. -/
inductive IrqFlag where
  | txDone | payloadCrcError | rxDone
  deriving DecidableEq, Repr

namespace IrqFlag

/-- The mask of a flag. -/
def mask : IrqFlag → UInt8
  | txDone => 0x08
  | payloadCrcError => 0x20
  | rxDone => 0x40

/-- The position of the bit of a flag. -/
def bit : IrqFlag → ℕ
  | txDone => 3
  | payloadCrcError => 5
  | rxDone => 6

/-- The flag is set in the value of the register. -/
def isSet (i : IrqFlag) (flags : UInt8) : Bool := flags.toBitVec.getLsbD i.bit

/-- The test of a mask tests the bit of the flag. -/
theorem and_mask_eq_zero (i : IrqFlag) (flags : UInt8) :
    flags &&& i.mask = 0 ↔ i.isSet flags = false := by
  have h : ∀ i : IrqFlag, ∀ x : BitVec 8,
      x &&& i.mask.toBitVec = 0 ↔ x.getLsbD i.bit = false := by
    intro i
    cases i <;> decide +kernel
  rw [← UInt8.toBitVec_inj]
  exact h i flags.toBitVec

@[simp] theorem isSet_or (i : IrqFlag) (x y : UInt8) :
    i.isSet (x ||| y) = (i.isSet x || i.isSet y) := by
  simp [isSet]

@[simp] theorem isSet_clear (i : IrqFlag) (x y : UInt8) :
    i.isSet (x &&& ~~~y) = (i.isSet x && !i.isSet y) := by
  have hbit : i.bit < 8 := by cases i <;> decide
  simp [isSet, hbit]

@[simp] theorem isSet_zero (i : IrqFlag) : i.isSet 0 = false := by
  cases i <;> rfl

@[simp] theorem isSet_mask (i j : IrqFlag) : i.isSet j.mask = decide (i = j) := by
  cases i <;> cases j <;> rfl

end IrqFlag

/-! ### The chip -/

/-- A packet that arrives: its bytes, the address at which the chip stores them, and whether its
checksum fails. -/
structure Arrival where
  data : List UInt8
  addr : UInt8
  damaged : Bool
  length_pos : 0 < data.length
  length_lt : data.length < 256
  deriving DecidableEq

/-- The state of the chip, with the packets it has put on the air and those that have arrived. -/
structure Chip where
  reg : Reg → UInt8
  fifo : UInt8 → UInt8
  air : List (List UInt8)
  arrived : List Arrival

/-- A chip with zeros in its registers and its FIFO. -/
def zeroChip : Chip := ⟨fun _ => 0, fun _ => 0, [], []⟩

/-- The values of the registers after a reset. No interrupt is pending, the chip is not in its
long range mode, and packets have an explicit header. -/
structure ResetValues where
  val : Reg → UInt8
  irqFlags_eq : val .irqFlags = 0
  opMode_and : val .opMode &&& modeLongRangeMode = 0
  modemConfig1_and : val .modemConfig1 &&& 0x01 = 0

/-- The values of an SX1276. -/
def ResetValues.sx1276 : ResetValues where
  val
    | .opMode => 0x09
    | .frfMsb => 0x6c
    | .frfMid => 0x80
    | .paConfig => 0x4f
    | .lna => 0x20
    | .fifoTxBaseAddr => 0x80
    | .modemConfig1 => 0x72
    | .modemConfig2 => 0x70
    | .preambleLsb => 0x08
    | .payloadLength => 0x01
    | .detectionOptimize => 0xc3
    | .detectionThreshold => 0x0a
    | .syncWord => 0x12
    | .version => 0x12
    | _ => 0x00
  irqFlags_eq := rfl
  opMode_and := by decide
  modemConfig1_and := by decide

namespace Chip

variable (c : Chip)

/-- The chip with another value of a register. -/
def setReg (r : Reg) (v : UInt8) : Chip := { c with reg := Function.update c.reg r v }

/-- A read of a register. A read of the FIFO moves the address pointer on. -/
def read : Reg → UInt8 × Chip
  | .fifo => (c.fifo (c.reg .fifoAddrPtr), c.setReg .fifoAddrPtr (c.reg .fifoAddrPtr + 1))
  | r => (c.reg r, c)

/-- A write of a register. A write of the FIFO moves the address pointer on, ones written to the
interrupt flags clear them, and registers that the chip itself sets are read only. -/
def write : Reg → UInt8 → Chip
  | .fifo, v =>
    { c.setReg .fifoAddrPtr (c.reg .fifoAddrPtr + 1) with
      fifo := Function.update c.fifo (c.reg .fifoAddrPtr) v }
  | .irqFlags, v => c.setReg .irqFlags (c.reg .irqFlags &&& ~~~v)
  | .fifoRxCurrentAddr, _ | .rxNbBytes, _ | .pktSnrValue, _ | .pktRssiValue, _
  | .version, _ => c
  | r, v => c.setReg r v

/-- A transaction of two bytes: the address of a register, with the highest bit set for a write,
and the value to write. The reply is the second byte that comes back. -/
def spi (out0 out1 : UInt8) : UInt8 × Chip :=
  match Reg.ofAddr? (out0 &&& 0x7f) with
  | none => (0, c)
  | some r => if out0 &&& 0x80 = 0 then c.read r else (0, c.write r out1)

@[simp] theorem setReg_reg (r r' : Reg) (v : UInt8) :
    (c.setReg r v).reg r' = if r' = r then v else c.reg r' :=
  Function.update_apply ..

/-- The transaction of a write. -/
theorem spi_write (r : Reg) (v : UInt8) : c.spi (0x80 ||| r.addr) v = (0, c.write r v) := by
  cases r <;> rfl

/-- The transaction of a read. -/
theorem spi_read (r : Reg) (v : UInt8) : c.spi r.addr v = c.read r := by
  cases r <;> rfl

/-- A write changes no other register, but for the address pointer. -/
theorem write_reg_of_ne {r r' : Reg} (h : r' ≠ r) (hptr : r' ≠ .fifoAddrPtr) (v : UInt8) :
    (c.write r v).reg r' = c.reg r' := by
  cases r <;> simp [write, h, hptr]

/-- A read changes no register, but for the address pointer. -/
theorem read_reg_of_ne (r : Reg) {r' : Reg} (hptr : r' ≠ .fifoAddrPtr) :
    (c.read r).2.reg r' = c.reg r' := by
  cases r <;> simp [read, hptr]

@[simp] theorem write_opMode_reg (v : UInt8) : (c.write .opMode v).reg .opMode = v := by
  simp [write]

@[simp] theorem write_irqFlags_reg (v : UInt8) :
    (c.write .irqFlags v).reg .irqFlags = c.reg .irqFlags &&& ~~~v := by
  simp [write]

@[simp] theorem write_air (r : Reg) (v : UInt8) : (c.write r v).air = c.air := by
  cases r <;> rfl

@[simp] theorem write_arrived (r : Reg) (v : UInt8) : (c.write r v).arrived = c.arrived := by
  cases r <;> rfl

@[simp] theorem read_air (r : Reg) : (c.read r).2.air = c.air := by
  cases r <;> rfl

@[simp] theorem read_arrived (r : Reg) : (c.read r).2.arrived = c.arrived := by
  cases r <;> rfl

/-- The chip after a reset. -/
def reset (R : ResetValues) : Chip := { c with reg := R.val }

/-- The bytes at an address of the FIFO. -/
def fifoBytes (a : UInt8) (n : ℕ) : List UInt8 := (List.range n).map fun i => c.fifo (a + .ofNat i)

/-- The packet that a transmission sends. -/
def txPacket : List UInt8 := c.fifoBytes (c.reg .fifoTxBaseAddr) (c.reg .payloadLength).toNat

/-- The end of a transmission, after which the chip is in standby. -/
def transmit : Chip :=
  { c with
    reg := Function.update (Function.update c.reg .opMode (modeLongRangeMode ||| modeStdby))
      .irqFlags (c.reg .irqFlags ||| IrqFlag.txDone.mask)
    air := c.air ++ [c.txPacket] }

/-- The value of the interrupt flags after an arrival. -/
def flagsAfter (a : Arrival) : UInt8 :=
  c.reg .irqFlags ||| IrqFlag.rxDone.mask |||
    if a.damaged then IrqFlag.payloadCrcError.mask else 0

/-- The arrival of a packet. -/
def receive (a : Arrival) : Chip where
  reg := Function.update (Function.update (Function.update c.reg
    .fifoRxCurrentAddr a.addr) .rxNbBytes (.ofNat a.data.length)) .irqFlags (c.flagsAfter a)
  fifo x := a.data[(x - a.addr).toNat]?.getD (c.fifo x)
  air := c.air
  arrived := c.arrived ++ [a]

end Chip

/-- What the driver does at the chip: a transaction, or a level of the reset pin. -/
inductive LoraOp where
  | spi (out0 out1 : UInt8)
  | setRst (level : Bool)
  deriving DecidableEq, Repr

/-- What happens at the chip without the driver. -/
inductive ChipEvent where
  | arrive (a : Arrival)
  | txDone
  deriving DecidableEq

/-- The chip as the driver sees it. A low level of the reset pin resets it. -/
def loraChip (R : ResetValues) : Bus.Device Chip LoraOp UInt8 ChipEvent where
  access c
    | .spi out0 out1 => c.spi out0 out1
    | .setRst level => (0, if level then c else c.reset R)
  event c
    | .arrive a =>
      if c.reg .opMode = modeLongRangeMode ||| modeRxContinuous then some (c.receive a) else none
    | .txDone =>
      if c.reg .opMode = modeLongRangeMode ||| modeTx then some c.transmit else none

/-! ### When something may happen -/

/-- The chip neither receives nor transmits. -/
def Chip.Quiet (c : Chip) : Prop :=
  c.reg .opMode ≠ modeLongRangeMode ||| modeRxContinuous ∧
    c.reg .opMode ≠ modeLongRangeMode ||| modeTx

theorem Chip.quiet_of_stdby {c : Chip} (h : c.reg .opMode = modeLongRangeMode ||| modeStdby) :
    c.Quiet := by
  rw [Quiet, h]
  decide

variable (R : ResetValues)

/-- Nothing happens at a chip that neither receives nor transmits. -/
theorem loraChip_event_eq_none {c : Chip} (h : c.Quiet) (e : ChipEvent) :
    (loraChip R).event c e = none := by
  cases e with
  | arrive a => exact if_neg h.1
  | txDone => exact if_neg h.2

/-- An arrival that happens. -/
@[simp] theorem loraChip_arrive {c c' : Chip} {a : Arrival} :
    (loraChip R).event c (.arrive a) = some c' ↔
      c.reg .opMode = modeLongRangeMode ||| modeRxContinuous ∧ c.receive a = c' := by
  simp [loraChip]

/-- The end of a transmission that happens. -/
@[simp] theorem loraChip_txDone {c c' : Chip} :
    (loraChip R).event c .txDone = some c' ↔
      c.reg .opMode = modeLongRangeMode ||| modeTx ∧ c.transmit = c' := by
  simp [loraChip]

/-- **The rule of stability.** A predicate is stable if arrivals preserve it in receive mode, and
ends of transmissions in transmit mode. -/
theorem stable_of_events {P : Chip → Prop}
    (harrive : ∀ c a, c.reg .opMode = modeLongRangeMode ||| modeRxContinuous → P c →
      P (c.receive a))
    (htxDone : ∀ c, c.reg .opMode = modeLongRangeMode ||| modeTx → P c → P c.transmit) :
    (loraChip R).Stable P := by
  intro c e c' hc he
  cases e with
  | arrive a =>
    obtain ⟨hmode, rfl⟩ := (loraChip_arrive R).mp he
    exact harrive c a hmode hc
  | txDone =>
    obtain ⟨hmode, rfl⟩ := (loraChip_txDone R).mp he
    exact htxDone c hmode hc

/-- A predicate on chips that neither receive nor transmit is stable. -/
theorem stable_of_quiet {P : Chip → Prop} (h : ∀ c, P c → c.Quiet) : (loraChip R).Stable P := by
  intro c e c' hc he
  rw [loraChip_event_eq_none R (h c hc)] at he
  cases he

end GpsTracker
