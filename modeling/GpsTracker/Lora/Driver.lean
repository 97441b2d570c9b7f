import GpsTracker.Lora.Chip
import GpsTracker.Memory.StructLayout

/-!
# The driver of the radio

The functions of `components/lora/lora.c` as programs of transactions with the chip. The delays
between transactions are no accesses of the chip and are left out: what may happen at the chip in
the meantime is a matter of the schedule under which a program runs. The variable `__implicit` is
passed to the functions that read it and returned by those that assign it; so is `__frequency`.

## Main definitions

* `LoraProg`, `loraWriteReg`, `loraReadReg`.
* `loraInit`, `loraSendPacket`, `loraReceivePacket`, `loraReceived`, `loraReceive`.
* `loraSetBandwidth`, `loraSetCodingRate`, `loraExplicitHeaderMode`, `loraImplicitHeaderMode` and
  the other functions that set the modem.

## Main results

* `triple_loraWriteReg`, `triple_loraReadReg`.
-/

namespace GpsTracker

/-- A program of transactions with the chip. -/
abbrev LoraProg (α : Type) := Bus.Program LoraOp UInt8 α

/-! ### Register access -/

/-- `lora_write_reg`. -/
def loraWriteReg (reg : Reg) (val : UInt8) : LoraProg Unit :=
  .access (.spi (0x80 ||| reg.addr) val) fun _ => pure ()

/-- `lora_read_reg`. -/
def loraReadReg (reg : Reg) : LoraProg UInt8 :=
  .access (.spi reg.addr 0xff) pure

/-! ### Modes -/

/-- `lora_reset`. -/
def loraReset : LoraProg Unit :=
  .access (.setRst false) fun _ => .access (.setRst true) fun _ => pure ()

/-- `lora_idle`. -/
def loraIdle : LoraProg Unit := loraWriteReg .opMode (modeLongRangeMode ||| modeStdby)

/-- `lora_sleep`. -/
def loraSleep : LoraProg Unit := loraWriteReg .opMode (modeLongRangeMode ||| modeSleep)

/-- `lora_receive`. -/
def loraReceive : LoraProg Unit := loraWriteReg .opMode (modeLongRangeMode ||| modeRxContinuous)

/-! ### Configuration -/

def paBoost : UInt8 := 0x80

/-- `lora_set_tx_power`. -/
def loraSetTxPower (level : ℤ) : LoraProg Unit :=
  let level := if level < 2 then 2 else if level > 17 then 17 else level
  loraWriteReg .paConfig (paBoost ||| .ofInt (level - 2))

/-- `lora_set_frequency`, without its assignment to `__frequency`. -/
def loraSetFrequency (frequency : ℤ) : LoraProg Unit := do
  let frf : UInt64 := (UInt64.ofInt frequency <<< 19) / 32000000
  loraWriteReg .frfMsb (frf >>> 16).toUInt8
  loraWriteReg .frfMid (frf >>> 8).toUInt8
  loraWriteReg .frfLsb (frf >>> 0).toUInt8

/-- `lora_set_spreading_factor`. -/
def loraSetSpreadingFactor (sf : ℤ) : LoraProg Unit := do
  let sf := if sf < 6 then 6 else if sf > 12 then 12 else sf
  if sf = 6 then do
    loraWriteReg .detectionOptimize 0xc5
    loraWriteReg .detectionThreshold 0x0c
  else do
    loraWriteReg .detectionOptimize 0xc3
    loraWriteReg .detectionThreshold 0x0a
  let config ← loraReadReg .modemConfig2
  let field : UInt8 := UInt8.ofInt sf <<< (4 : UInt8) &&& 0xf0
  loraWriteReg .modemConfig2 ((config &&& 0x0f) ||| field)

/-- `lora_set_bandwidth`. The thresholds of the source are floating point constants with integer
values. -/
def loraSetBandwidth (sbw : ℤ) : LoraProg Unit := do
  let bw : UInt8 :=
    if sbw ≤ 7800 then 0
    else if sbw ≤ 10400 then 1
    else if sbw ≤ 15600 then 2
    else if sbw ≤ 20800 then 3
    else if sbw ≤ 31250 then 4
    else if sbw ≤ 41700 then 5
    else if sbw ≤ 62500 then 6
    else if sbw ≤ 125000 then 7
    else if sbw ≤ 250000 then 8
    else 9
  let config ← loraReadReg .modemConfig1
  loraWriteReg .modemConfig1 ((config &&& 0x0f) ||| bw <<< (4 : UInt8))

/-- `lora_set_coding_rate`. -/
def loraSetCodingRate (denominator : ℤ) : LoraProg Unit := do
  let denominator := if denominator < 5 then 5 else if denominator > 8 then 8 else denominator
  let cr : UInt8 := .ofInt (denominator - 4)
  let config ← loraReadReg .modemConfig1
  loraWriteReg .modemConfig1 ((config &&& 0xf1) ||| cr <<< (1 : UInt8))

/-- `lora_explicit_header_mode`, with the value that it assigns to `__implicit`. -/
def loraExplicitHeaderMode : LoraProg ℤ := do
  let config ← loraReadReg .modemConfig1
  loraWriteReg .modemConfig1 (config &&& 0xfe)
  return 0

/-- `lora_implicit_header_mode`, with the value that it assigns to `__implicit`. -/
def loraImplicitHeaderMode (size : ℤ) : LoraProg ℤ := do
  let config ← loraReadReg .modemConfig1
  loraWriteReg .modemConfig1 (config ||| 0x01)
  loraWriteReg .payloadLength (.ofInt size)
  return 1

/-- `lora_set_preamble_length`. -/
def loraSetPreambleLength (length : ℤ) : LoraProg Unit := do
  loraWriteReg .preambleMsb (.ofInt (length >>> (8 : ℕ)))
  loraWriteReg .preambleLsb (.ofInt (length >>> (0 : ℕ)))

/-- `lora_set_sync_word`. -/
def loraSetSyncWord (sw : ℤ) : LoraProg Unit := loraWriteReg .syncWord (.ofInt sw)

/-- `lora_enable_crc`. -/
def loraEnableCrc : LoraProg Unit := do
  let config ← loraReadReg .modemConfig2
  loraWriteReg .modemConfig2 (config ||| 0x04)

/-- `lora_disable_crc`. -/
def loraDisableCrc : LoraProg Unit := do
  let config ← loraReadReg .modemConfig2
  loraWriteReg .modemConfig2 (config &&& 0xfb)

/-- The loop of `lora_init` that waits for the version of the chip, for at most `n` reads. -/
def loraCheckVersion : ℕ → LoraProg Unit
  | 0 => pure ()
  | n + 1 => do
    let version ← loraReadReg .version
    if version = 0x12 then pure () else loraCheckVersion n

def timeoutReset : ℕ := 100

/-- `lora_init`, from the reset of the chip on. -/
def loraInit : LoraProg ℤ := do
  loraReset
  loraCheckVersion timeoutReset
  loraSleep
  loraWriteReg .fifoRxBaseAddr 0
  loraWriteReg .fifoTxBaseAddr 0
  let lna ← loraReadReg .lna
  loraWriteReg .lna (lna ||| 0x03)
  loraWriteReg .modemConfig3 0x04
  loraSetTxPower 17
  loraIdle
  return 1

/-! ### Packets -/

/-- The loop of `lora_send_packet` over the bytes of the packet. -/
def loraWriteFifo : List UInt8 → LoraProg Unit
  | [] => pure ()
  | b :: bs => do
    loraWriteReg .fifo b
    loraWriteFifo bs

/-- `lora_send_packet` up to the start of the transmission. -/
def loraTransmit (buf : ByteMemory) (size : ℤ) : LoraProg Unit := do
  loraIdle
  loraWriteReg .fifoAddrPtr 0
  loraWriteFifo (buf.load 0 size.toNat)
  loraWriteReg .payloadLength (.ofInt size)
  loraWriteReg .opMode (modeLongRangeMode ||| modeTx)

/-- `lora_send_packet`. -/
def loraSendPacket (buf : ByteMemory) (size : ℤ) : LoraProg Unit := do
  loraTransmit buf size
  .poll (.spi Reg.irqFlags.addr 0xff) (fun irq => irq &&& IrqFlag.txDone.mask ≠ 0) fun _ =>
    loraWriteReg .irqFlags IrqFlag.txDone.mask

/-- The loop of `lora_receive_packet` over `n` bytes of the packet, from the index `i` on. -/
def loraReadFifo (buf : ByteMemory) : ℕ → ℕ → LoraProg ByteMemory
  | _, 0 => pure buf
  | i, n + 1 => do
    let b ← loraReadReg .fifo
    loraReadFifo (buf.store i [b]) (i + 1) n

/-- `lora_receive_packet` from the address of the packet on, with the length read before. -/
def loraCopyPacket (buf : ByteMemory) (size : ℤ) (len : UInt8) : LoraProg (ℤ × ByteMemory) := do
  let addr ← loraReadReg .fifoRxCurrentAddr
  loraWriteReg .fifoAddrPtr addr
  let len : ℤ := if len.toNat > size then size else len.toNat
  let buf ← loraReadFifo buf 0 len.toNat
  return (len, buf)

/-- `lora_receive_packet` from the end of its tests on. -/
def loraFetchPacket (implicit : ℤ) (buf : ByteMemory) (size : ℤ) : LoraProg (ℤ × ByteMemory) := do
  let len ← loraReadReg (if implicit ≠ 0 then .payloadLength else .rxNbBytes)
  loraIdle
  loraCopyPacket buf size len

/-- `lora_receive_packet`: the value returned and the buffer. -/
def loraReceivePacket (implicit : ℤ) (buf : ByteMemory) (size : ℤ) :
    LoraProg (ℤ × ByteMemory) := do
  let irq ← loraReadReg .irqFlags
  loraWriteReg .irqFlags irq
  if irq &&& IrqFlag.rxDone.mask = 0 then return (0, buf)
  else if irq &&& IrqFlag.payloadCrcError.mask ≠ 0 then return (0, buf)
  else loraFetchPacket implicit buf size

/-- `lora_received`. -/
def loraReceived : LoraProg ℤ := do
  let irq ← loraReadReg .irqFlags
  if irq &&& IrqFlag.rxDone.mask ≠ 0 then return 1 else return 0

/-! ### Status -/

/-- `lora_packet_rssi`. -/
def loraPacketRssi (frequency : ℤ) : LoraProg ℤ := do
  let rssi ← loraReadReg .pktRssiValue
  return rssi.toNat - if frequency < 868000000 then 164 else 157

/-- `lora_packet_snr`, in quarters of a decibel. -/
def loraPacketSnr : LoraProg ℤ := do
  let snr ← loraReadReg .pktSnrValue
  return snr.toInt8.toInt

/-- `lora_close`. -/
def loraClose : LoraProg Unit := loraSleep

/-- The loop of `lora_dump_registers` over the addresses that remain, with the values read. -/
def loraDump : List UInt8 → LoraProg (List UInt8)
  | [] => pure []
  | a :: as => .access (.spi a 0xff) fun val => do
    let vals ← loraDump as
    return val :: vals

/-- `lora_dump_registers`, with the values that it prints. -/
def loraDumpRegisters : LoraProg (List UInt8) := loraDump ((List.range 0x40).map .ofNat)

/-! ### Rules -/

section Rules

variable {R : ResetValues} {P : Chip → Prop} {r : Reg} {v : UInt8}

@[simp] theorem loraChip_access_write (c : Chip) :
    (loraChip R).access c (.spi (0x80 ||| r.addr) v) = (0, c.write r v) := c.spi_write r v

@[simp] theorem loraChip_access_read (c : Chip) :
    (loraChip R).access c (.spi r.addr v) = c.read r := c.spi_read r v

/-- The rule of `lora_write_reg`. -/
theorem triple_loraWriteReg {Q : Chip → Prop} (hP : (loraChip R).Stable P)
    (h : ∀ c, P c → Q (c.write r v)) : (loraChip R).Triple P (loraWriteReg r v) fun _ => Q :=
  .access (fun _ => Q) hP (fun c hc => by simpa using h c hc) fun _ => .pure fun _ hc => hc

/-- The rule of `lora_read_reg`. -/
theorem triple_loraReadReg {Q : UInt8 → Chip → Prop} (hP : (loraChip R).Stable P)
    (h : ∀ c, P c → Q (c.read r).1 (c.read r).2) :
    (loraChip R).Triple P (loraReadReg r) Q :=
  .access Q hP (fun c hc => by simpa using h c hc) fun _ => .pure fun _ hc => hc

theorem keeps_loraWriteReg (h : ∀ c, P c → P (c.write r v)) :
    (loraChip R).Keeps P (loraWriteReg r v) :=
  ⟨fun c hc => by simpa using h c hc, fun _ => trivial⟩

theorem keeps_loraReadReg (h : ∀ c, P c → P (c.read r).2) :
    (loraChip R).Keeps P (loraReadReg r) :=
  ⟨fun c hc => by simpa using h c hc, fun _ => trivial⟩

/-- A run that begins with `lora_write_reg`. -/
theorem run_loraWriteReg_bind {α : Type} {f : Unit → LoraProg α} {gs : List (List ChipEvent)}
    {c : Chip} {y : α × List (List ChipEvent) × Chip} :
    (loraChip R).run (loraWriteReg r v >>= f) gs c = some y ↔
      ∃ c₁, (loraChip R).events c (gs.headD []) = some c₁ ∧
        (loraChip R).run (f ()) gs.tail (c₁.write r v) = some y := by
  rw [← Option.bind_eq_some_iff]
  simp [loraWriteReg, Bus.Device.run]

/-- A run that begins with `lora_read_reg`. -/
theorem run_loraReadReg_bind {α : Type} {f : UInt8 → LoraProg α} {gs : List (List ChipEvent)}
    {c : Chip} {y : α × List (List ChipEvent) × Chip} :
    (loraChip R).run (loraReadReg r >>= f) gs c = some y ↔
      ∃ c₁, (loraChip R).events c (gs.headD []) = some c₁ ∧
        (loraChip R).run (f (c₁.read r).1) gs.tail (c₁.read r).2 = some y := by
  rw [← Option.bind_eq_some_iff]
  simp [loraReadReg, Bus.Device.run]

end Rules

end GpsTracker
