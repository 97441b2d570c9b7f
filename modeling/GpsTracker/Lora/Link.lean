import GpsTracker.Lora.Receiver
import GpsTracker.Lora.Transmission

/-!
# The radio link

After `lora_init` the driver is called in any order to send, to receive and to listen, while
packets arrive at any moment. The packets put on the air are exactly those given to
`lora_send_packet`, in order.

A call of `lora_receive_packet` during which nothing happens hands over the last packet that has
arrived, if it is intact, in exactly two kinds of states (`loraLink_iff`): the buffer has no room,
or the chip reports the packet and no checksum error, and the bytes of it that fit into the buffer
are not overwritten. The chip keeps the report of a damaged packet until it is cleared, also when an
intact packet arrives meanwhile, and `lora_send_packet` copies its packet to the beginning of the
FIFO, where a packet that has arrived may be. So a packet may be lost in two ways (`not_loraLink`).

## Main definitions

* `RadioCall`, `LinkEvent`, `Link`, `linkMachine`.
* `Arrival.Survives` : the bytes of a packet that are not overwritten by packets sent.

## Main results

* `triple_prog`, `Link.Sound.step`.
* `loraLink_iff`, `not_loraLink`.
-/

namespace GpsTracker

/-! ### Runs of the link -/

/-- A call of the driver. -/
inductive RadioCall where
  | sendPacket (buf : ByteMemory) (size : ℤ) (h : 1 ≤ size ∧ size ≤ 255)
  | receivePacket (buf : ByteMemory) (size : ℤ)
  | received
  | receive

namespace RadioCall

/-- The program of a call, without its result. -/
def prog : RadioCall → LoraProg Unit
  | sendPacket buf size _ => loraSendPacket buf size
  | receivePacket buf size => do
    let _ ← loraReceivePacket 0 buf size
  | received => do
    let _ ← loraReceived
  | receive => loraReceive

/-- The packet that a call is to send. -/
def sent : RadioCall → List (List UInt8)
  | sendPacket buf size _ => [sentPacket buf size]
  | _ => []

/-- The call fetches a packet. -/
def fetches : RadioCall → Bool
  | receivePacket _ _ => true
  | _ => false

end RadioCall

/-- What happens on the link: a call of the driver, with what happens at the chip before each of
its accesses, or something at the chip between two calls. -/
inductive LinkEvent where
  | call (call : RadioCall) (gs : List (List ChipEvent))
  | chip (e : ChipEvent)

/-- The packet that is to be sent. -/
def LinkEvent.sent : LinkEvent → List (List UInt8)
  | call c _ => c.sent
  | chip _ => []

/-- The chip, the packets that have been sent since the last one arrived, and whether one has
arrived since the last call of `lora_receive_packet`. -/
structure Link where
  chip : Chip
  sentSince : List (List UInt8)
  unread : Bool

/-- The link after the chip has got to the state `c`. -/
def Link.next (s : Link) (c : Chip) (sent : List (List UInt8)) (fetches : Bool) : Link where
  chip := c
  sentSince := if c.arrived = s.chip.arrived then s.sentSince ++ sent else sent
  unread := !fetches && (s.unread || c.arrived ≠ s.chip.arrived)

/-- The link, with the packets that are put on the air. -/
def linkMachine (R : ResetValues) : Transducer Link LinkEvent (List UInt8) where
  step s
    | .call call gs => ((loraChip R).run call.prog gs s.chip).map fun x =>
      (s.next x.2.2 call.sent call.fetches, x.2.2.air.drop s.chip.air.length)
    | .chip e => ((loraChip R).event s.chip e).map fun c =>
      (s.next c [] false, c.air.drop s.chip.air.length)

/-- The link after `lora_init`. -/
def Link.init (c : Chip) : Link := ⟨c, [], false⟩

/-- The byte at an address of the FIFO, where `b` was, after packets have been copied to its
beginning. -/
def byteAfter (x : UInt8) (sent : List (List UInt8)) (b : UInt8) : UInt8 :=
  sent.foldl (fun b pkt => pkt[x.toNat]?.getD b) b

/-- The first `n` bytes of the packet are still where the chip has stored them when the packets
`sent` have been sent. -/
def Arrival.Survives (a : Arrival) (n : ℕ) (sent : List (List UInt8)) : Prop :=
  ∀ k < n, ∀ b, a.data[k]? = some b → byteAfter (a.addr + .ofNat k) sent b = b

/-! ### What the calls preserve -/

section

variable {R : ResetValues} {P : Chip → Prop}

theorem keeps_loraReadFifo (hread : ∀ c r, P c → P (c.read r).2) (buf : ByteMemory) (i n : ℕ) :
    (loraChip R).Keeps P (loraReadFifo buf i n) := by
  induction n generalizing buf i with
  | zero => trivial
  | succ n ih => exact (keeps_loraReadReg fun c => hread c _).bind fun _ => ih _ _

/-- A call of `lora_receive_packet` reads registers, clears interrupt flags, stops the radio and
sets the address pointer. -/
theorem keeps_loraReceivePacket (hread : ∀ c r, P c → P (c.read r).2)
    (hirq : ∀ c v, P c → P (c.write .irqFlags v))
    (hidle : ∀ c, P c → P (c.write .opMode (modeLongRangeMode ||| modeStdby)))
    (hptr : ∀ c v, P c → P (c.write .fifoAddrPtr v)) (implicit : ℤ) (buf : ByteMemory) (size : ℤ) :
    (loraChip R).Keeps P (loraReceivePacket implicit buf size) := by
  refine (keeps_loraReadReg fun c => hread c _).bind fun irq =>
    (keeps_loraWriteReg fun c => hirq c _).bind fun _ => ?_
  split
  · trivial
  · split
    · trivial
    · exact (keeps_loraReadReg fun c => hread c _).bind fun len =>
        (keeps_loraWriteReg hidle).bind fun _ => (keeps_loraReadReg fun c => hread c _).bind
          fun addr => (keeps_loraWriteReg fun c => hptr c _).bind fun _ =>
            (keeps_loraReadFifo hread _ _ _).bind fun _ => trivial

theorem keeps_loraReceived (hread : ∀ c r, P c → P (c.read r).2) :
    (loraChip R).Keeps P loraReceived := by
  refine (keeps_loraReadReg fun c => hread c _).bind fun irq => ?_
  split <;> trivial

theorem keeps_loraWriteFifo (hwrite : ∀ c v, P c → P (c.write .fifo v)) (bs : List UInt8) :
    (loraChip R).Keeps P (loraWriteFifo bs) := by
  induction bs with
  | nil => trivial
  | cons b bs ih => exact (keeps_loraWriteReg fun c => hwrite c _).bind fun _ => ih

/-- A call of `lora_send_packet` reads and writes registers, and clears the flag `TX_DONE`. -/
theorem keeps_loraSendPacket (hread : ∀ c r, P c → P (c.read r).2)
    (hwrite : ∀ c r v, r ≠ .irqFlags → P c → P (c.write r v))
    (hirq : ∀ c, P c → P (c.write .irqFlags IrqFlag.txDone.mask)) (buf : ByteMemory) (size : ℤ) :
    (loraChip R).Keeps P (loraSendPacket buf size) := by
  have hreg : ∀ r v, r ≠ .irqFlags → (loraChip R).Keeps P (loraWriteReg r v) := fun r v hr =>
    keeps_loraWriteReg fun c => hwrite c r v hr
  refine .bind ((hreg _ _ (by simp)).bind fun _ => (hreg _ _ (by simp)).bind fun _ =>
    (keeps_loraWriteFifo (fun c v => hwrite c _ v (by simp)) _).bind fun _ =>
      (hreg _ _ (by simp)).bind fun _ => hreg _ _ (by simp)) fun _ => ?_
  exact ⟨fun c hc => by simpa using hread c .irqFlags hc, fun _ => keeps_loraWriteReg hirq⟩

/-- A call reads and writes registers. -/
theorem keeps_prog (hread : ∀ c r, P c → P (c.read r).2)
    (hwrite : ∀ c r v, P c → P (c.write r v)) (call : RadioCall) :
    (loraChip R).Keeps P call.prog := by
  cases call with
  | sendPacket buf size h =>
    exact keeps_loraSendPacket hread (fun c r v _ => hwrite c r v) (fun c => hwrite c _ _) buf size
  | receivePacket buf size =>
    exact (keeps_loraReceivePacket hread (fun c => hwrite c _) (fun c => hwrite c _ _)
      (fun c => hwrite c _) 0 buf size).bind fun _ => trivial
  | received => exact (keeps_loraReceived hread).bind fun _ => trivial
  | receive => exact keeps_loraWriteReg fun c => hwrite c _ _

end

/-! ### Reports of a checksum error -/

namespace Chip

/-- A checksum error that the chip reports is that of a packet that has arrived after the packets
`B`. -/
def CrcAccounted (B : List Arrival) (c : Chip) : Prop :=
  ∃ new, c.arrived = B ++ new ∧ (c.flag .payloadCrcError = true → ∃ a ∈ new, a.damaged = true)

variable {B : List Arrival} {c : Chip}

/-- A write sets no flag. -/
theorem flag_of_write {r : Reg} {v : UInt8} {i : IrqFlag} (h : (c.write r v).flag i = true) :
    c.flag i = true := by
  by_cases hr : r = .irqFlags
  · rw [hr, flag_write_irqFlags, Bool.and_eq_true] at h
    exact h.1
  · rwa [flag, c.write_reg_of_ne (Ne.symm hr) (by simp)] at h

theorem CrcAccounted.write (h : c.CrcAccounted B) (r : Reg) (v : UInt8) :
    (c.write r v).CrcAccounted B := by
  obtain ⟨new, harr, hcrc⟩ := h
  exact ⟨new, by rw [write_arrived, harr], fun hflag => hcrc (flag_of_write hflag)⟩

theorem CrcAccounted.read (h : c.CrcAccounted B) (r : Reg) : (c.read r).2.CrcAccounted B := by
  obtain ⟨new, harr, hcrc⟩ := h
  refine ⟨new, by rw [read_arrived, harr], fun hflag => hcrc ?_⟩
  rwa [flag, c.read_reg_of_ne r (by simp)] at hflag

theorem stable_crcAccounted (R : ResetValues) (B : List Arrival) :
    (loraChip R).Stable (CrcAccounted B) := by
  refine stable_of_events R ?_ ?_
  · rintro c a - ⟨new, harr, hcrc⟩
    refine ⟨new ++ [a], by simp [receive, harr], fun hflag => ?_⟩
    simp only [flag_receive, reduceCtorEq, decide_false, Bool.or_false, decide_true,
      Bool.and_true, Bool.or_eq_true] at hflag
    rcases hflag with hflag | hflag
    · obtain ⟨b, hb, hdam⟩ := hcrc hflag
      exact ⟨b, by simp [hb], hdam⟩
    · exact ⟨a, by simp, hflag⟩
  · rintro c - ⟨new, harr, hcrc⟩
    refine ⟨new, harr, fun hflag => hcrc ?_⟩
    simpa [transmit, flag] using hflag

end Chip

/-! ### The last packet that has arrived -/

theorem byteAfter_concat (x : UInt8) (sent : List (List UInt8)) (pkt : List UInt8) (b : UInt8) :
    byteAfter x (sent ++ [pkt]) b = pkt[x.toNat]?.getD (byteAfter x sent b) := by
  rw [byteAfter, List.foldl_concat, byteAfter]

namespace Chip

/-- The registers describe the packet `a`, and the FIFO has its bytes but for those overwritten by
the packets `sent`. -/
structure HoldsAfter (sent : List (List UInt8)) (a : Arrival) (c : Chip) : Prop where
  rxNbBytes_eq : c.reg .rxNbBytes = .ofNat a.data.length
  fifoRxCurrentAddr_eq : c.reg .fifoRxCurrentAddr = a.addr
  fifo_eq : ∀ k b, a.data[k]? = some b →
    c.fifo (a.addr + .ofNat k) = byteAfter (a.addr + .ofNat k) sent b

/-- The packets that have arrived begin with `old`. The last one that has arrived after the packets
`B` is held but for what has been overwritten, by the packets `sent` if it is the last one of `old`,
and by the packets `sent'` if it has arrived since. -/
structure Tracks (B old : List Arrival) (sent sent' : List (List UInt8)) (c : Chip) : Prop where
  prefix_arrived : old <+: c.arrived
  holdsAfter : ∀ new a, c.arrived = B ++ new ++ [a] →
    c.HoldsAfter (if c.arrived = old then sent else sent') a

/-- The chip does not receive. -/
def Deaf (c : Chip) : Prop := c.reg .opMode ≠ modeLongRangeMode ||| modeRxContinuous

variable {B old : List Arrival} {sent sent' : List (List UInt8)} {c c' : Chip}

theorem holdsAfter_receive (c : Chip) (a : Arrival) : (c.receive a).HoldsAfter [] a where
  rxNbBytes_eq := (c.holds_receive a).rxNbBytes_eq
  fifoRxCurrentAddr_eq := (c.holds_receive a).fifoRxCurrentAddr_eq
  fifo_eq k b hk := by
    have hbytes := (c.holds_receive a).fifoBytes_eq
    have hlt : k < a.data.length := (List.getElem?_eq_some_iff.mp hk).1
    rw [← hbytes] at hk
    simpa [fifoBytes, hlt, byteAfter] using hk

theorem Tracks.receive (h : c.Tracks B old sent []) (a : Arrival) :
    (c.receive a).Tracks B old sent [] where
  prefix_arrived := h.prefix_arrived.trans (List.prefix_append _ _)
  holdsAfter new b hnew := by
    have hne : (c.receive a).arrived ≠ old := by
      intro heq
      have hle := h.prefix_arrived.length_le
      rw [← heq, Chip.receive, List.length_append, List.length_singleton] at hle
      omega
    obtain ⟨-, rfl⟩ := List.append_singleton_inj.mp hnew
    rw [if_neg hne]
    exact c.holdsAfter_receive a

/-- A change that does not concern the packet. -/
theorem Tracks.congr (h : c.Tracks B old sent sent') (harr : c'.arrived = c.arrived)
    (hnb : c'.reg .rxNbBytes = c.reg .rxNbBytes)
    (haddr : c'.reg .fifoRxCurrentAddr = c.reg .fifoRxCurrentAddr) (hfifo : c'.fifo = c.fifo) :
    c'.Tracks B old sent sent' := by
  obtain ⟨hbegins, hholds⟩ := h
  rw [← harr] at hbegins hholds
  refine ⟨hbegins, fun new a hnew => ?_⟩
  obtain ⟨hnb', haddr', hfifo'⟩ := hholds new a hnew
  exact ⟨hnb.trans hnb', haddr.trans haddr', fun k b hk => hfifo ▸ hfifo' k b hk⟩

theorem Tracks.transmit (h : c.Tracks B old sent sent') : c.transmit.Tracks B old sent sent' :=
  h.congr rfl (by simp [Chip.transmit]) (by simp [Chip.transmit]) rfl

theorem Tracks.read (h : c.Tracks B old sent sent') (r : Reg) :
    (c.read r).2.Tracks B old sent sent' :=
  h.congr (c.read_arrived r) (c.read_reg_of_ne r (by simp)) (c.read_reg_of_ne r (by simp))
    (by cases r <;> rfl)

theorem Tracks.write (h : c.Tracks B old sent sent') {r : Reg} (hr : r ≠ .fifo) (v : UInt8) :
    (c.write r v).Tracks B old sent sent' := by
  refine h.congr (c.write_arrived r v) ?_ ?_ ?_
  all_goals cases r <;> first | rfl | exact absurd rfl hr

/-- Before a packet is copied to the FIFO nothing of it is there. -/
theorem Tracks.begin (h : c.Tracks B old sent []) :
    c.Tracks B old (sent ++ [[]]) [[]] := by
  refine ⟨h.prefix_arrived, fun new a hnew => ?_⟩
  obtain ⟨hnb, haddr, hfifo⟩ := h.holdsAfter new a hnew
  refine ⟨hnb, haddr, fun k b hk => (hfifo k b hk).trans ?_⟩
  split <;> simp [byteAfter]

/-- The FIFO after a write behind the bytes `done`. -/
theorem write_fifo_fifo {done : List UInt8} (hdone : done.length < 255)
    (hptr : c.reg .fifoAddrPtr = .ofNat done.length) (b p : UInt8) :
    (c.write .fifo b).fifo p = if p.toNat = done.length then b else c.fifo p := by
  have hiff : p = UInt8.ofNat done.length ↔ p.toNat = done.length := by
    rw [← UInt8.toNat_inj, UInt8.toNat_ofNat', Nat.mod_eq_of_lt (by omega)]
  simp only [Chip.write, hptr, Function.update_apply, hiff]

/-- A byte that is copied to the FIFO after the bytes `done` of a packet. -/
theorem Tracks.write_fifo {done : List UInt8} (hdone : done.length < 255)
    (hptr : c.reg .fifoAddrPtr = .ofNat done.length) (b : UInt8)
    (h : c.Tracks B old (sent ++ [done]) [done]) :
    (c.write .fifo b).Tracks B old (sent ++ [done ++ [b]]) [done ++ [b]] := by
  refine ⟨h.prefix_arrived, fun new a hnew => ?_⟩
  obtain ⟨hnb, haddr, hfifo⟩ := h.holdsAfter new a hnew
  refine ⟨by simpa [Chip.write] using hnb, by simpa [Chip.write] using haddr, fun k x hk => ?_⟩
  have hcopy : ∀ p sent₀, c.fifo p = byteAfter p (sent₀ ++ [done]) x →
      (c.write .fifo b).fifo p = byteAfter p (sent₀ ++ [done ++ [b]]) x := fun p sent₀ hp => by
    rw [byteAfter_concat] at hp ⊢
    rw [write_fifo_fifo hdone hptr, hp]
    rcases lt_trichotomy p.toNat done.length with hlt | heq | hgt
    · rw [if_neg hlt.ne, List.getElem?_append_left hlt]
    · rw [if_pos heq, heq, List.getElem?_concat_length, Option.getD_some]
    · rw [if_neg hgt.ne', List.getElem?_eq_none hgt.le, List.getElem?_eq_none (by simpa using hgt)]
  have hfifo := hfifo k x hk
  rw [write_arrived]
  split at hfifo
  case isTrue hold => rw [if_pos hold, hcopy _ sent hfifo]
  case isFalse hnew' => rw [if_neg hnew', hcopy _ [] hfifo, List.nil_append]

/-- While a packet is copied to the FIFO the chip does not receive. The bytes `done` have been
copied. -/
structure Copying (B old : List Arrival) (sent : List (List UInt8)) (done : List UInt8)
    (c : Chip) : Prop where
  deaf : c.Deaf
  addrPtr : c.reg .fifoAddrPtr = .ofNat done.length
  tracks : c.Tracks B old (sent ++ [done]) [done]

theorem deaf_write_opMode {v : UInt8} (hv : v ≠ modeLongRangeMode ||| modeRxContinuous) :
    (c.write .opMode v).Deaf := by
  rwa [Deaf, write_opMode_reg]

theorem Deaf.write (h : c.Deaf) {r : Reg} (hr : r ≠ .opMode) (v : UInt8) : (c.write r v).Deaf := by
  rwa [Deaf, c.write_reg_of_ne hr.symm (by simp)]

theorem Deaf.transmit (c : Chip) : c.transmit.Deaf := by
  simp [Deaf, Chip.transmit]
  decide

theorem Copying.write_fifo {done : List UInt8} (h : c.Copying B old sent done)
    (hdone : done.length < 255) (b : UInt8) :
    (c.write .fifo b).Copying B old sent (done ++ [b]) where
  deaf := h.deaf.write (by simp) b
  addrPtr := by simp [Chip.write, h.addrPtr]
  tracks := h.tracks.write_fifo hdone h.addrPtr b

/-- The packets that have arrived begin with `old`. If there are more, or `unread` is set, the chip
reports a packet. -/
structure Reports (old : List Arrival) (unread : Bool) (c : Chip) : Prop where
  prefix_arrived : old <+: c.arrived
  rxDone : unread = true ∨ c.arrived ≠ old → c.flag .rxDone = true

variable {unread : Bool}

theorem Reports.receive (h : c.Reports old unread) (a : Arrival) :
    (c.receive a).Reports old unread where
  prefix_arrived := h.prefix_arrived.trans (List.prefix_append _ _)
  rxDone _ := by simp

theorem Reports.congr (h : c.Reports old unread) (harr : c'.arrived = c.arrived)
    (hflag : c'.flag .rxDone = c.flag .rxDone) : c'.Reports old unread :=
  ⟨harr ▸ h.prefix_arrived, fun hnew => hflag.trans (h.rxDone (harr ▸ hnew))⟩

theorem Reports.read (h : c.Reports old unread) (r : Reg) : (c.read r).2.Reports old unread :=
  h.congr (c.read_arrived r) (by rw [flag, c.read_reg_of_ne r (by simp), flag])

theorem Reports.write (h : c.Reports old unread) {r : Reg} (hr : r ≠ .irqFlags) (v : UInt8) :
    (c.write r v).Reports old unread :=
  h.congr (c.write_arrived r v) (by rw [flag, c.write_reg_of_ne hr.symm (by simp), flag])

theorem Reports.clear_txDone (h : c.Reports old unread) :
    (c.write .irqFlags IrqFlag.txDone.mask).Reports old unread :=
  h.congr (c.write_arrived _ _) (by simp)

theorem Reports.transmit (h : c.Reports old unread) : c.transmit.Reports old unread :=
  h.congr rfl (by simp [Chip.transmit, flag])

end Chip

/-! ### The calls -/

section Calls

variable {R : ResetValues} {B old : List Arrival} {sent sent' : List (List UInt8)}

theorem stable_tracks (R : ResetValues) (B old : List Arrival) (sent : List (List UInt8)) :
    (loraChip R).Stable (Chip.Tracks B old sent []) :=
  stable_of_events R (fun _ a _ h => h.receive a) fun _ _ h => h.transmit

/-- A chip that does not receive goes on to hold what it holds. -/
theorem stable_deaf (R : ResetValues) (B old : List Arrival) (sent sent' : List (List UInt8)) :
    (loraChip R).Stable fun c => c.Deaf ∧ c.Tracks B old sent sent' :=
  stable_of_events R (fun _ _ hmode h => absurd hmode h.1) fun c _ h =>
    ⟨Chip.Deaf.transmit c, h.2.transmit⟩

theorem stable_copying (R : ResetValues) (B old : List Arrival) (sent : List (List UInt8))
    (done : List UInt8) : (loraChip R).Stable (Chip.Copying B old sent done) :=
  stable_of_events R (fun _ _ hmode h => absurd hmode h.deaf) fun c _ h =>
    ⟨Chip.Deaf.transmit c, by simpa [Chip.transmit] using h.addrPtr, h.tracks.transmit⟩

theorem stable_reports (R : ResetValues) (old : List Arrival) (unread : Bool) :
    (loraChip R).Stable (Chip.Reports old unread) :=
  stable_of_events R (fun _ a _ h => h.receive a) fun _ _ h => h.transmit

theorem triple_loraWriteFifo_copying {done bs : List UInt8} (h : done.length + bs.length < 256) :
    (loraChip R).Triple (Chip.Copying B old sent done) (loraWriteFifo bs)
      fun _ => Chip.Copying B old sent (done ++ bs) := by
  induction bs generalizing done with
  | nil => exact .pure fun c hc => by simpa using hc
  | cons b bs ih =>
    rw [List.length_cons] at h
    refine (triple_loraWriteReg (stable_copying R B old sent done)
      fun c hc => hc.write_fifo (by omega) b).bind fun _ => ?_
    have hrest : (done ++ [b]).length + bs.length < 256 := by simp; omega
    simpa using ih hrest

/-- When the transmission starts, the bytes in the place of those that are sent have been
overwritten. -/
theorem triple_loraTransmit_tracks (buf : ByteMemory) {size : ℤ} (h : size < 256) :
    (loraChip R).Triple (Chip.Tracks B old sent []) (loraTransmit buf size) fun _ c => c.Deaf ∧
      c.Tracks B old (sent ++ [sentPacket buf size]) [sentPacket buf size] := by
  have hlen : ([] : List UInt8).length + (sentPacket buf size).length < 256 := by
    simp [sentPacket]
    omega
  refine (triple_loraWriteReg (Q := fun c => c.Deaf ∧ c.Tracks B old sent [])
    (stable_tracks R B old sent)
    fun c hc => ⟨Chip.deaf_write_opMode (by decide), hc.write (by simp) _⟩).bind fun _ => ?_
  refine (triple_loraWriteReg (Q := Chip.Copying B old sent []) (stable_deaf R B old sent [])
    fun c hc => ⟨hc.1.write (by simp) 0, by simp [Chip.write],
      (hc.2.write (by simp) 0).begin⟩).bind fun _ => ?_
  refine (triple_loraWriteFifo_copying hlen).bind fun _ => ?_
  rw [List.nil_append]
  refine (triple_loraWriteReg (Q := fun c => c.Deaf ∧
    c.Tracks B old (sent ++ [sentPacket buf size]) [sentPacket buf size])
    (stable_copying R B old sent _)
    fun c hc => ⟨hc.deaf.write (by simp) _, hc.tracks.write (by simp) _⟩).bind fun _ => ?_
  exact triple_loraWriteReg (stable_deaf R B old _ _)
    fun c hc => ⟨Chip.deaf_write_opMode (by decide), hc.2.write (by simp) _⟩

/-- **What `lora_send_packet` does to the packet that the chip holds**: it overwrites the bytes in
the place of its own. -/
theorem triple_loraSendPacket_tracks (buf : ByteMemory) {size : ℤ} (h : size < 256) :
    (loraChip R).Triple (Chip.Tracks B old sent []) (loraSendPacket buf size)
      fun _ => Chip.Tracks B old (sent ++ [sentPacket buf size]) [sentPacket buf size] := by
  refine (triple_loraTransmit_tracks buf h).bind fun _ => ?_
  refine .poll (fun _ c => c.Deaf ∧
    c.Tracks B old (sent ++ [sentPacket buf size]) [sentPacket buf size])
    (stable_deaf R B old _ _) (fun c hc => ?_) fun _ => ?_
  · have hread : (c.read .irqFlags).2.Deaf ∧ (c.read .irqFlags).2.Tracks B old
        (sent ++ [sentPacket buf size]) [sentPacket buf size] := ⟨hc.1, hc.2.read _⟩
    rw [loraChip_access_read]
    split <;> exact hread
  · exact triple_loraWriteReg (stable_deaf R B old _ _) fun c hc => hc.2.write (by simp) _

/-- A call puts the packet it is to send on the air, and nothing else. -/
theorem triple_prog (A : List (List UInt8)) (call : RadioCall) :
    (loraChip R).Triple (Chip.Ready A) call.prog fun _ => Chip.Ready (A ++ call.sent) := by
  have hread : ∀ c r, Chip.Ready A c → Chip.Ready A (c.read r).2 := fun c r hc => hc.read r
  have hkeeps : ∀ p : LoraProg Unit, (loraChip R).Keeps (Chip.Ready A) p →
      (loraChip R).Triple (Chip.Ready A) p fun _ => Chip.Ready (A ++ []) := fun p hp => by
    simpa using hp.triple (stable_ready R A)
  cases call with
  | sendPacket buf size h => exact triple_loraSendPacket buf (by omega) (by omega)
  | receivePacket buf size =>
    refine hkeeps _ ((keeps_loraReceivePacket hread (fun c v hc => ?_) (fun c hc => ?_)
      (fun c v hc => ?_) 0 buf size).bind fun _ => trivial)
    · exact hc.write (by simp) (by simp) (by simp)
    · exact hc.write (by simp) (by simp) fun _ => by decide
    · exact hc.write (by simp) (by simp) (by simp)
  | received => exact hkeeps _ ((keeps_loraReceived hread).bind fun _ => trivial)
  | receive =>
    exact hkeeps _ (keeps_loraWriteReg fun c hc => hc.write (by simp) (by simp) fun _ => by decide)

/-- A call leaves the packet that the chip holds as it is, but for the bytes in the place of a
packet that it sends. -/
theorem triple_prog_tracks (call : RadioCall) :
    (loraChip R).Triple (Chip.Tracks B old sent []) call.prog
      fun _ => Chip.Tracks B old (sent ++ call.sent) call.sent := by
  have hread : ∀ c r, Chip.Tracks B old sent [] c → Chip.Tracks B old sent [] (c.read r).2 :=
    fun c r hc => hc.read r
  have hkeeps : ∀ p : LoraProg Unit, (loraChip R).Keeps (Chip.Tracks B old sent []) p →
      (loraChip R).Triple (Chip.Tracks B old sent []) p
        fun _ => Chip.Tracks B old (sent ++ []) [] := fun p hp => by
    simpa using hp.triple (stable_tracks R B old sent)
  cases call with
  | sendPacket buf size h => exact triple_loraSendPacket_tracks buf (by omega)
  | receivePacket buf size =>
    exact hkeeps _ ((keeps_loraReceivePacket hread (fun c v hc => hc.write (by simp) v)
      (fun c hc => hc.write (by simp) _) (fun c v hc => hc.write (by simp) v) 0 buf size).bind
        fun _ => trivial)
  | received => exact hkeeps _ ((keeps_loraReceived hread).bind fun _ => trivial)
  | receive => exact hkeeps _ (keeps_loraWriteReg fun c hc => hc.write (by simp) _)

/-- A packet that has arrived is reported until a call of `lora_receive_packet`. -/
theorem triple_prog_reports {unread : Bool} {call : RadioCall} (h : call.fetches = false) :
    (loraChip R).Triple (Chip.Reports old unread) call.prog fun _ => Chip.Reports old unread := by
  have hread : ∀ c r, Chip.Reports old unread c → Chip.Reports old unread (c.read r).2 :=
    fun c r hc => hc.read r
  refine Bus.Device.Keeps.triple ?_ (stable_reports R old unread)
  cases call with
  | sendPacket buf size hsize =>
    exact keeps_loraSendPacket hread (fun c r v hr hc => hc.write hr v)
      (fun c hc => hc.clear_txDone) buf size
  | receivePacket buf size => cases h
  | received => exact (keeps_loraReceived hread).bind fun _ => trivial
  | receive => exact keeps_loraWriteReg fun c hc => hc.write (by simp) _

end Calls

/-! ### The link -/

section

variable {R : ResetValues} {B : List Arrival} {A os : List (List UInt8)} {s t : Link}

/-- `lora_init` leaves the chip ready. -/
theorem Chip.Initialised.ready {c : Chip} (h : c.Initialised) : c.Ready c.air where
  txBase := h.txBase
  explicit := h.explicit
  air := rfl
  mode := h.quiet.2
  txDone := by simp [Chip.flag, h.irqFlags]

/-- `lora_init` leaves no checksum error reported. -/
theorem Chip.Initialised.crcAccounted {c : Chip} (h : c.Initialised) : c.CrcAccounted c.arrived :=
  ⟨[], by simp, by simp [Chip.flag, h.irqFlags]⟩

/-- What holds after every run since the packets `B` had arrived, in which the packets `A` have been
put on the air. -/
structure Link.Sound (B : List Arrival) (A : List (List UInt8)) (s : Link) : Prop where
  ready : s.chip.Ready A
  crcAccounted : s.chip.CrcAccounted B
  holdsAfter : ∀ new a, s.chip.arrived = B ++ new ++ [a] → s.chip.HoldsAfter s.sentSince a
  rxDone : s.unread = true → s.chip.flag .rxDone = true

theorem Link.sound_init {c : Chip} (h : c.Initialised) : (Link.init c).Sound c.arrived c.air where
  ready := h.ready
  crcAccounted := h.crcAccounted
  holdsAfter new a hnew := by
    have hlen := congrArg List.length hnew
    simp [Link.init] at hlen
  rxDone hunread := by cases hunread

theorem Link.Sound.tracks (h : s.Sound B A) :
    s.chip.Tracks B s.chip.arrived s.sentSince [] where
  prefix_arrived := List.prefix_rfl
  holdsAfter new a hnew := by
    rw [if_pos rfl]
    exact h.holdsAfter new a hnew

theorem Link.Sound.reports (h : s.Sound B A) : s.chip.Reports s.chip.arrived s.unread where
  prefix_arrived := List.prefix_rfl
  rxDone hunread := h.rxDone (hunread.resolve_right fun hne => hne rfl)

/-- What is known of the chip after an event is known of the link. -/
theorem Link.sound_next {c : Chip} {A' sent : List (List UInt8)} {fetches : Bool}
    (hready : c.Ready A') (hcrc : c.CrcAccounted B)
    (htracks : c.Tracks B s.chip.arrived (s.sentSince ++ sent) sent)
    (hreports : fetches = false → c.Reports s.chip.arrived s.unread) :
    (s.next c sent fetches).Sound B A' where
  ready := hready
  crcAccounted := hcrc
  holdsAfter := htracks.holdsAfter
  rxDone hunread := by
    simp only [Link.next, Bool.and_eq_true, Bool.not_eq_true', Bool.or_eq_true,
      decide_eq_true_eq] at hunread
    exact (hreports hunread.1).rxDone hunread.2

/-- **One event.** What is put on the air is what is to be sent. -/
theorem Link.Sound.step (h : s.Sound B A) {e : LinkEvent}
    (hstep : (linkMachine R).step s e = some (t, os)) : t.Sound B (A ++ e.sent) ∧ os = e.sent := by
  have hair : ∀ c : Chip, c.Ready (A ++ e.sent) → c.air.drop s.chip.air.length = e.sent := by
    intro c hc
    rw [hc.air, h.ready.air, List.drop_left]
  cases e with
  | call call gs =>
    obtain ⟨⟨⟨⟩, gs', c⟩, hrun, hts⟩ := Option.map_eq_some_iff.mp hstep
    obtain ⟨rfl, rfl⟩ := Prod.mk.inj hts
    have hready := triple_prog A call _ _ _ _ _ h.ready hrun
    have hcrc : c.CrcAccounted B :=
      (keeps_prog (fun c r hc => hc.read r) (fun c r v hc => hc.write r v) call).triple
        (Chip.stable_crcAccounted R B) _ _ _ _ _ h.crcAccounted hrun
    refine ⟨sound_next hready hcrc ?_ fun hfetch => ?_, hair c hready⟩
    · exact triple_prog_tracks call _ _ _ _ _ h.tracks hrun
    · exact triple_prog_reports hfetch _ _ _ _ _ h.reports hrun
  | chip e =>
    obtain ⟨c, he, hts⟩ := Option.map_eq_some_iff.mp hstep
    obtain ⟨rfl, rfl⟩ := Prod.mk.inj hts
    have hready : c.Ready (A ++ []) := by
      simpa using stable_ready R A _ _ _ h.ready he
    refine ⟨sound_next hready (Chip.stable_crcAccounted R B _ _ _ h.crcAccounted he) ?_ fun _ => ?_,
      hair c hready⟩
    · simpa using stable_tracks R B _ _ _ _ _ h.tracks he
    · exact stable_reports R _ _ _ _ _ h.reports he

/-- **A run.** -/
theorem Link.Sound.run (h : s.Sound B A) {es : List LinkEvent}
    (hrun : (linkMachine R).run s es = some (t, os)) :
    t.Sound B (A ++ os) ∧ os = es.flatMap LinkEvent.sent := by
  induction es generalizing s A os with
  | nil =>
    obtain ⟨rfl, rfl⟩ := Prod.mk.inj (Option.some_inj.mp hrun)
    exact ⟨by simpa using h, rfl⟩
  | cons e es ih =>
    rw [Transducer.run_cons] at hrun
    obtain ⟨⟨u, o⟩, he, hrun⟩ := Option.bind_eq_some_iff.mp hrun
    obtain ⟨⟨v, os'⟩, hes, hv⟩ := Option.map_eq_some_iff.mp hrun
    obtain ⟨rfl, rfl⟩ := Prod.mk.inj hv
    obtain ⟨hu, rfl⟩ := h.step he
    obtain ⟨ht, rfl⟩ := ih hu hes
    exact ⟨by simpa using ht, rfl⟩

/-- The bytes of a packet that the chip still holds. -/
theorem Chip.HoldsAfter.fifoBytes_iff {c : Chip} {sent : List (List UInt8)} {a : Arrival}
    (h : c.HoldsAfter sent a) {n : ℕ} (hn : n ≤ a.data.length) :
    c.fifoBytes (c.reg .fifoRxCurrentAddr) n = a.data.take n ↔ a.Survives n sent := by
  have hbyte : ∀ k b, k < n → a.data[k]? = some b →
      (c.fifoBytes (c.reg .fifoRxCurrentAddr) n)[k]? =
        some (byteAfter (a.addr + .ofNat k) sent b) := by
    intro k b hk hb
    simp [Chip.fifoBytes, hk, h.fifoRxCurrentAddr_eq, h.fifo_eq k b hb]
  constructor
  · intro heq k hk b hb
    rw [← Option.some_inj, ← hbyte k b hk hb, heq, List.getElem?_take_of_lt hk, hb]
  · intro hsurvives
    refine List.ext_getElem? fun k => ?_
    by_cases hk : k < n
    · obtain ⟨b, hb⟩ : ∃ b, a.data[k]? = some b := ⟨_, List.getElem?_eq_getElem (by omega)⟩
      rw [hbyte k b hk hb, hsurvives k hk b hb, List.getElem?_take_of_lt hk, hb]
    · rw [List.getElem?_eq_none (by simpa using hk), List.getElem?_eq_none (by simp; omega)]

/-- **The link.** After `lora_init`, whatever calls are made and whatever arrives meanwhile, the
packets put on the air are those given to `lora_send_packet`, in order, and a further call returns
as soon as the chip has sent its packet. The last packet that has arrived, if it is intact, is
handed over by a call of `lora_receive_packet` during which nothing happens exactly when the buffer
has no room, or the chip reports a packet and no checksum error, and the bytes of the packet that
fit into the buffer survive what has been sent since. A packet that has arrived since the last such
call is reported, and a checksum error is reported only if a damaged packet has arrived. -/
theorem loraLink_iff {gs gs₁ : List (List ChipEvent)} {c₀ c₁ : Chip} {r : ℤ} {es : List LinkEvent}
    (hinit : (loraChip R).run loraInit gs c₀ = some (r, gs₁, c₁))
    (hrun : (linkMachine R).run (.init c₁) es = some (s, os)) :
    os = es.flatMap LinkEvent.sent ∧
      (∀ buf size m, 1 ≤ size → size ≤ 255 → size.toNat + 4 ≤ m →
        ∃ c, (loraChip R).run (loraSendPacket buf size) (List.replicate m [] ++ [[.txDone]])
          s.chip = some ((), [], c) ∧ c.air = s.chip.air ++ [sentPacket buf size]) ∧
      (∀ new a, s.chip.arrived = c₁.arrived ++ new ++ [a] → a.damaged = false →
        ∀ buf (size : ℤ), 0 ≤ size → (s.chip.HandsOver R a buf size ↔
          size = 0 ∨ s.chip.HasPacket ∧
            a.Survives (min (a.data.length : ℤ) size).toNat s.sentSince)) ∧
      (s.unread = true → s.chip.flag .rxDone = true) ∧
      (s.chip.flag .payloadCrcError = true →
        ∃ b ∈ s.chip.arrived.drop c₁.arrived.length, b.damaged = true) := by
  have hc₁ : c₁.Initialised := triple_loraInit R _ _ _ _ _ trivial hinit
  obtain ⟨hs, hos⟩ := (Link.sound_init hc₁).run hrun
  refine ⟨hos, fun buf size m h1 h255 hm => ?_, fun new a harr ha buf size hsize => ?_, hs.rxDone,
    fun hflag => ?_⟩
  · obtain ⟨c, hsend, hc⟩ := exists_run_loraSendPacket hs.ready buf (by omega) (by omega) hm
    exact ⟨c, hsend, by rw [hc.air, hs.ready.air]⟩
  · have hholds := hs.holdsAfter new a harr
    rw [Chip.handsOver_iff hholds.rxNbBytes_eq buf hsize, hholds.fifoBytes_iff (by omega)]
  · obtain ⟨new, hnew, hdamaged⟩ := hs.crcAccounted
    rw [hnew, List.drop_left]
    exact hdamaged hflag

/-- A packet of two bytes that is stored behind the first bytes of the FIFO. -/
def arrivalBehind : Arrival := { intactArrival with addr := 0x10 }

/-- A packet that has arrived behind the place of a packet that is sent is handed over. -/
theorem loraLink_iff_both_ways : ∃ c₁ s,
    (loraChip .sx1276).run loraInit [] zeroChip = some (1, [], c₁) ∧
      (linkMachine .sx1276).run (.init c₁) [.call .receive [], .chip (.arrive arrivalBehind),
        .call (.sendPacket (fun _ => 9) 3 (by decide)) (List.replicate 7 [] ++ [[.txDone]])] =
          some (s, [[9, 9, 9]]) ∧
      s.chip.HandsOver .sx1276 arrivalBehind (fun _ => 0) 20 := by
  obtain ⟨c₁, hinit, s, hrun, harr, hsent, hflags⟩ : ∃ c₁,
      (loraChip .sx1276).run loraInit [] zeroChip = some (1, [], c₁) ∧ ∃ s,
        (linkMachine .sx1276).run (.init c₁) [.call .receive [], .chip (.arrive arrivalBehind),
          .call (.sendPacket (fun _ => 9) 3 (by decide)) (List.replicate 7 [] ++ [[.txDone]])] =
            some (s, [[9, 9, 9]]) ∧
          s.chip.arrived = c₁.arrived ++ [] ++ [arrivalBehind] ∧ s.sentSince = [[9, 9, 9]] ∧
          s.chip.reg .irqFlags = 0x40 := ⟨_, rfl, _, rfl, rfl, rfl, rfl⟩
  have hiff := (loraLink_iff hinit hrun).2.2.1 [] arrivalBehind harr rfl (fun _ => 0) 20 (by decide)
  refine ⟨c₁, s, hinit, hrun, hiff.mpr (.inr ⟨?_, ?_⟩)⟩
  · rw [Chip.HasPacket, Chip.flag, Chip.flag, hflags]
    decide
  · rw [hsent]
    intro k hk b _
    have hk : k = 0 ∨ k = 1 := by
      have : k < 2 := hk
      omega
    rcases hk with rfl | rfl <;> rfl

/-- **A packet is lost in two ways.** An intact packet that arrives after a damaged one is not
handed over, and neither is one in whose place a packet is sent. -/
theorem not_loraLink : ∃ c₁ s t,
    (loraChip .sx1276).run loraInit [] zeroChip = some (1, [], c₁) ∧
      (linkMachine .sx1276).run (.init c₁) [.call .receive [], .chip (.arrive damagedArrival),
        .chip (.arrive intactArrival)] = some (s, []) ∧
      ¬ s.chip.HandsOver .sx1276 intactArrival (fun _ => 0) 20 ∧
      (linkMachine .sx1276).run (.init c₁) [.call .receive [], .chip (.arrive intactArrival),
        .call (.sendPacket (fun _ => 9) 3 (by decide)) (List.replicate 7 [] ++ [[.txDone]])] =
          some (t, [[9, 9, 9]]) ∧
      ¬ t.chip.HandsOver .sx1276 intactArrival (fun _ => 0) 20 := by
  obtain ⟨c₁, hinit, s, hs, hnb, hflags, t, ht, htnb, htaddr, htfifo⟩ : ∃ c₁,
      (loraChip .sx1276).run loraInit [] zeroChip = some (1, [], c₁) ∧ ∃ s,
        (linkMachine .sx1276).run (.init c₁) [.call .receive [], .chip (.arrive damagedArrival),
          .chip (.arrive intactArrival)] = some (s, []) ∧ s.chip.reg .rxNbBytes = 2 ∧
          s.chip.reg .irqFlags = 0x60 ∧ ∃ t,
        (linkMachine .sx1276).run (.init c₁) [.call .receive [], .chip (.arrive intactArrival),
          .call (.sendPacket (fun _ => 9) 3 (by decide)) (List.replicate 7 [] ++ [[.txDone]])] =
            some (t, [[9, 9, 9]]) ∧ t.chip.reg .rxNbBytes = 2 ∧
          t.chip.reg .fifoRxCurrentAddr = 0 ∧ t.chip.fifoBytes 0 2 = [9, 9] :=
    ⟨_, rfl, _, rfl, rfl, rfl, _, rfl, rfl, rfl, rfl⟩
  refine ⟨c₁, s, t, hinit, hs, fun h => ?_, ht, fun h => ?_⟩
  · rcases (Chip.handsOver_iff hnb _ (by decide)).mp h with h | ⟨hp, -⟩
    · cases h
    · rw [Chip.HasPacket, Chip.flag, Chip.flag, hflags] at hp
      exact absurd hp.2 (by decide)
  · rcases (Chip.handsOver_iff htnb _ (by decide)).mp h with h | ⟨-, hbytes⟩
    · cases h
    · rw [htaddr] at hbytes
      exact absurd (htfifo.symm.trans hbytes) (by decide)

end

end GpsTracker
