import GpsTracker.Lora.Reception

/-!
# Transmission of a packet

A call of `lora_send_packet` puts exactly its packet on the air, whatever happens at the chip
meanwhile (`triple_loraSendPacket`), and it returns when the chip has sent the packet
(`exists_run_loraSendPacket`). The call stops the radio, copies the packet to the beginning of the
FIFO, sets the length and starts the transmission. It then waits for `TX_DONE`, which belongs to
its own packet because no call leaves the flag behind.

## Main definitions

* `Chip.Ready` : the chip between two calls, with the packets put on the air so far.

## Main results

* `stable_ready`.
* `triple_loraSendPacket`, `exists_run_loraSendPacket`.
-/

namespace GpsTracker

/-! ### The chip between and within calls -/

namespace Chip

/-- Packets have an explicit header and are sent from the beginning of the FIFO, and the packets
`A` have been put on the air. -/
structure Linked (A : List (List UInt8)) (c : Chip) : Prop where
  txBase : c.reg .fifoTxBaseAddr = 0
  explicit : c.reg .modemConfig1 &&& 0x01 = 0
  air : c.air = A

/-- The chip between two calls: it is not sending, and `TX_DONE` is clear. -/
structure Ready (A : List (List UInt8)) (c : Chip) : Prop extends Linked A c where
  mode : c.reg .opMode ≠ modeLongRangeMode ||| modeTx
  txDone : c.flag .txDone = false

/-- The bytes `bs` of a packet have been copied to the chip. -/
structure Loaded (A : List (List UInt8)) (bs : List UInt8) (c : Chip) : Prop extends
    Ready A c where
  stdby : c.reg .opMode = modeLongRangeMode ||| modeStdby
  addrPtr : c.reg .fifoAddrPtr = .ofNat bs.length
  bytes : c.fifoBytes 0 bs.length = bs

/-- The chip sends the packet `pkt`. -/
structure Sending (A : List (List UInt8)) (pkt : List UInt8) (c : Chip) : Prop extends
    Linked A c where
  mode : c.reg .opMode = modeLongRangeMode ||| modeTx
  txDone : c.flag .txDone = false
  packet : c.txPacket = pkt

/-- The chip has sent its packet and reports it. -/
structure Sent (A : List (List UInt8)) (c : Chip) : Prop extends Linked A c where
  stdby : c.reg .opMode = modeLongRangeMode ||| modeStdby
  txDone : c.flag .txDone = true

variable {A : List (List UInt8)} {c : Chip}

/-- A write of another register than the ones that describe the link. -/
theorem Linked.write (h : c.Linked A) {r : Reg} (hbase : r ≠ .fifoTxBaseAddr)
    (hconfig : r ≠ .modemConfig1) (v : UInt8) : (c.write r v).Linked A where
  txBase := by rw [c.write_reg_of_ne hbase.symm (by simp), h.txBase]
  explicit := by rw [c.write_reg_of_ne hconfig.symm (by simp), h.explicit]
  air := by rw [write_air, h.air]

theorem Linked.read (h : c.Linked A) (r : Reg) : (c.read r).2.Linked A where
  txBase := by rw [c.read_reg_of_ne r (by simp), h.txBase]
  explicit := by rw [c.read_reg_of_ne r (by simp), h.explicit]
  air := by rw [read_air, h.air]

/-- A write of a register that a chip between two calls may be written to. -/
theorem Ready.write (h : c.Ready A) {r : Reg} (hbase : r ≠ .fifoTxBaseAddr)
    (hconfig : r ≠ .modemConfig1) {v : UInt8}
    (hmode : r = .opMode → v ≠ modeLongRangeMode ||| modeTx) : (c.write r v).Ready A where
  toLinked := h.toLinked.write hbase hconfig v
  mode := by
    by_cases hr : r = .opMode
    · rw [hr, write_opMode_reg]
      exact hmode hr
    · rw [c.write_reg_of_ne (Ne.symm hr) (by simp)]
      exact h.mode
  txDone := by
    by_cases hr : r = .irqFlags
    · rw [hr, flag_write_irqFlags, h.txDone, Bool.false_and]
    · rw [flag, c.write_reg_of_ne (Ne.symm hr) (by simp)]
      exact h.txDone

theorem Ready.read (h : c.Ready A) (r : Reg) : (c.read r).2.Ready A where
  toLinked := h.toLinked.read r
  mode := by
    rw [c.read_reg_of_ne r (by simp)]
    exact h.mode
  txDone := by
    rw [flag, c.read_reg_of_ne r (by simp)]
    exact h.txDone

theorem Ready.receive (h : c.Ready A) (a : Arrival) : (c.receive a).Ready A where
  txBase := by simpa [Chip.receive] using h.txBase
  explicit := by simpa [Chip.receive] using h.explicit
  air := h.air
  mode := by simpa [Chip.receive] using h.mode
  txDone := by simp [h.txDone]

/-- Writing a byte to the FIFO copies it after the bytes copied before. -/
theorem fifoBytes_write_fifo {n : ℕ} (hn : n < 256) (hptr : c.reg .fifoAddrPtr = .ofNat n)
    (b : UInt8) : (c.write .fifo b).fifoBytes 0 (n + 1) = c.fifoBytes 0 n ++ [b] := by
  have hne : ∀ i < n, UInt8.ofNat i ≠ UInt8.ofNat n := by
    intro i hi h
    have := congrArg UInt8.toNat h
    simp only [UInt8.toNat_ofNat'] at this
    omega
  simp only [fifoBytes, List.range_succ, List.map_append, List.map_cons, List.map_nil,
    Chip.write, hptr, UInt8.zero_add]
  congr 1
  · refine List.map_congr_left fun i hi => ?_
    exact Function.update_of_ne (hne i (List.mem_range.mp hi)) ..
  · rw [Function.update_self]

theorem Loaded.write_fifo {bs : List UInt8} (h : c.Loaded A bs) (hbs : bs.length < 255)
    (b : UInt8) : (c.write .fifo b).Loaded A (bs ++ [b]) where
  toReady := h.toReady.write (by simp) (by simp) (by simp)
  stdby := by rw [c.write_reg_of_ne (by simp) (by simp), h.stdby]
  addrPtr := by simp [Chip.write, h.addrPtr]
  bytes := by
    rw [List.length_append, List.length_singleton, fifoBytes_write_fifo (by omega) h.addrPtr,
      h.bytes]

/-- The start of the transmission of the packet that has been copied. -/
theorem Loaded.start {bs : List UInt8} (h : c.Loaded A bs) (hlen : c.reg .payloadLength = .ofNat
    bs.length) (hbs : bs.length < 256) :
    (c.write .opMode (modeLongRangeMode ||| modeTx)).Sending A bs where
  toLinked := h.toLinked.write (by simp) (by simp) _
  mode := by rw [write_opMode_reg]
  txDone := by
    rw [flag, c.write_reg_of_ne (by simp) (by simp)]
    exact h.txDone
  packet := by
    rw [txPacket, c.write_reg_of_ne (by simp) (by simp), c.write_reg_of_ne (by simp) (by simp),
      h.txBase, hlen, UInt8.toNat_ofNat', Nat.mod_eq_of_lt hbs]
    exact h.bytes

/-- The end of the transmission. -/
theorem Sending.transmit {pkt : List UInt8} (h : c.Sending A pkt) :
    c.transmit.Sent (A ++ [pkt]) where
  txBase := by simpa [Chip.transmit] using h.txBase
  explicit := by simpa [Chip.transmit] using h.explicit
  air := by simp [Chip.transmit, h.air, h.packet]
  stdby := by simp [Chip.transmit]
  txDone := by simp [Chip.transmit, flag]

theorem Sent.clear (h : c.Sent A) : (c.write .irqFlags IrqFlag.txDone.mask).Ready A where
  toLinked := h.toLinked.write (by simp) (by simp) _
  mode := by
    rw [c.write_reg_of_ne (by simp) (by simp), h.stdby]
    decide
  txDone := by simp

end Chip

/-! ### Stability -/

section Stability

variable (R : ResetValues) (A : List (List UInt8))

/-- Packets that arrive between two calls do not disturb the sender. -/
theorem stable_ready : (loraChip R).Stable (Chip.Ready A) :=
  stable_of_events R (fun _ a _ h => h.receive a) fun _ hmode h => absurd hmode h.mode

theorem stable_loaded (bs : List UInt8) : (loraChip R).Stable (Chip.Loaded A bs) :=
  stable_of_quiet R fun _ h => Chip.quiet_of_stdby h.stdby

/-- While the chip sends a packet the only thing that can happen is that it has sent it. -/
theorem stable_sending_or_sent (pkt : List UInt8) :
    (loraChip R).Stable fun c => c.Sending A pkt ∨ c.Sent (A ++ [pkt]) := by
  refine stable_of_events R ?_ ?_
  · rintro c a hmode (h | h)
    · exact absurd (h.mode.symm.trans hmode) (by decide)
    · exact absurd hmode (Chip.quiet_of_stdby h.stdby).1
  · rintro c hmode (h | h)
    · exact .inr h.transmit
    · exact absurd hmode (Chip.quiet_of_stdby h.stdby).2

end Stability

/-! ### The call -/

variable {R : ResetValues} {A : List (List UInt8)}

theorem triple_loraWriteFifo {done bs : List UInt8} (h : done.length + bs.length < 256) :
    (loraChip R).Triple (Chip.Loaded A done) (loraWriteFifo bs)
      fun _ => Chip.Loaded A (done ++ bs) := by
  induction bs generalizing done with
  | nil => exact .pure fun c hc => by simpa using hc
  | cons b bs ih =>
    rw [List.length_cons] at h
    have hstep := triple_loraWriteReg (r := .fifo) (v := b) (stable_loaded R A done)
      fun c hc => hc.write_fifo (by omega) b
    refine hstep.bind fun _ => ?_
    have hrest : (done ++ [b]).length + bs.length < 256 := by simp; omega
    simpa using ih hrest

/-- The packet of a call. -/
def sentPacket (buf : ByteMemory) (size : ℤ) : List UInt8 := buf.load 0 size.toNat

theorem triple_loraTransmit (buf : ByteMemory) {size : ℤ} (h0 : 0 ≤ size) (h : size < 256) :
    (loraChip R).Triple (Chip.Ready A) (loraTransmit buf size)
      fun _ => Chip.Sending A (sentPacket buf size) := by
  have hlen : (sentPacket buf size).length = size.toNat := ByteMemory.length_load ..
  refine (triple_loraWriteReg (Q := fun c => c.Ready A ∧
    c.reg .opMode = modeLongRangeMode ||| modeStdby) (stable_ready R A) ?_).bind fun _ => ?_
  · intro c hc
    exact ⟨hc.write (by simp) (by simp) fun _ => by decide, c.write_opMode_reg _⟩
  refine (triple_loraWriteReg (Q := Chip.Loaded A []) ?_ ?_).bind fun _ => ?_
  · exact stable_of_quiet R fun c hc => Chip.quiet_of_stdby hc.2
  · intro c hc
    refine ⟨hc.1.write (by simp) (by simp) (by simp), ?_, by simp [Chip.write], rfl⟩
    rw [c.write_reg_of_ne (by simp) (by simp), hc.2]
  have hfifo : ([] : List UInt8).length + (sentPacket buf size).length < 256 := by simp; omega
  refine (triple_loraWriteFifo hfifo).bind fun _ => ?_
  rw [List.nil_append]
  refine (triple_loraWriteReg (Q := fun c => c.Loaded A (sentPacket buf size) ∧
    c.reg .payloadLength = .ofNat (sentPacket buf size).length)
    (stable_loaded R A _) ?_).bind fun _ => ?_
  · intro c hc
    refine ⟨⟨hc.toReady.write (by simp) (by simp) (by simp), ?_, ?_, hc.bytes⟩, ?_⟩
    · rw [c.write_reg_of_ne (by simp) (by simp), hc.stdby]
    · simpa [Chip.write] using hc.addrPtr
    · simp only [Chip.write, Chip.setReg_reg, if_true, hlen]
      rw [UInt8.ofInt, Int.emod_eq_of_lt h0 (by omega)]
  · exact triple_loraWriteReg (stable_of_quiet R fun c hc => Chip.quiet_of_stdby hc.1.stdby)
      fun c hc => hc.1.start hc.2 (by omega)

/-- **A call of `lora_send_packet` puts its packet on the air**, and nothing else. -/
theorem triple_loraSendPacket (buf : ByteMemory) {size : ℤ} (h0 : 0 ≤ size) (h : size < 256) :
    (loraChip R).Triple (Chip.Ready A) (loraSendPacket buf size)
      fun _ => Chip.Ready (A ++ [sentPacket buf size]) := by
  refine (triple_loraTransmit buf h0 h).bind fun _ => ?_
  refine .conseq (.poll (I := fun c => c.Sending A (sentPacket buf size) ∨
    c.Sent (A ++ [sentPacket buf size])) (fun _ => Chip.Sent (A ++ [sentPacket buf size]))
    (stable_sending_or_sent R A _) ?_ fun _ => ?_) (fun c hc => .inl hc) fun _ _ hc => hc
  · rintro c (hc | hc)
    · simpa [Chip.read, hc.txDone] using Or.inl hc
    · simpa [Chip.read, hc.txDone] using hc
  · exact triple_loraWriteReg (stable_of_quiet R fun c hc => Chip.quiet_of_stdby hc.stdby)
      fun c hc => hc.clear

/-! ### Completion -/

theorem atMost_loraWriteFifo (bs : List UInt8) : (loraWriteFifo bs).AtMost bs.length := by
  induction bs with
  | nil => trivial
  | cons b bs ih => exact fun _ => ih

theorem atMost_loraTransmit (buf : ByteMemory) (size : ℤ) :
    (loraTransmit buf size).AtMost (size.toNat + 4) := by
  refine .mono (n := 1 + (1 + ((sentPacket buf size).length + (1 + 1)))) ?_ ?_
  · exact (atMost_loraWriteReg _ _).bind fun _ => (atMost_loraWriteReg _ _).bind fun _ =>
      (atMost_loraWriteFifo _).bind fun _ => (atMost_loraWriteReg _ _).bind fun _ =>
        atMost_loraWriteReg _ _
  · simp [sentPacket]
    omega

/-- **The call returns when the chip has sent the packet**, however long that takes. -/
theorem exists_run_loraSendPacket {c : Chip} (hc : c.Ready A) (buf : ByteMemory) {size : ℤ}
    (h0 : 0 ≤ size) (h : size < 256) {m : ℕ} (hm : size.toNat + 4 ≤ m) :
    ∃ c', (loraChip R).run (loraSendPacket buf size) (List.replicate m [] ++ [[.txDone]]) c =
      some ((), [], c') ∧ c'.Ready (A ++ [sentPacket buf size]) := by
  obtain ⟨⟨⟩, k, c₁, hrun⟩ := (loraChip R).exists_run_replicate (atMost_loraTransmit buf size) hm
    [[.txDone]] c
  have hsend := triple_loraTransmit buf h0 h _ _ _ _ _ hc hrun
  have hrun' : (loraChip R).run (loraSendPacket buf size) (List.replicate m [] ++ [[.txDone]]) c =
      some ((), [], c₁.transmit.write .irqFlags IrqFlag.txDone.mask) := by
    have hsent := hsend.transmit.txDone
    have hevent : (loraChip R).events c₁ [.txDone] = some c₁.transmit := by
      simp [Bus.Device.events_cons, loraChip, hsend.mode]
    rw [loraSendPacket, Bus.Device.run_bind, hrun, Option.bind_some,
      (loraChip R).run_poll_replicate _ k [] (by rw [loraChip_access_read]; rfl)
        (by simp [Chip.read, hsend.txDone]) hevent (by simp [Chip.read, hsent])]
    simp [loraWriteReg, Bus.Device.run, Chip.read, pure]
  exact ⟨_, hrun', triple_loraSendPacket buf h0 h _ _ _ _ _ hc hrun'⟩

end GpsTracker
