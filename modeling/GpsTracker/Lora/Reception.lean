import GpsTracker.Lora.Driver

/-!
# Reception of a packet

What a call of `lora_receive_packet` does under any schedule (`loraReceivePacket_cases`): it reads
and clears the interrupt flags, and if they report an intact packet it reads the length, stops the
radio and copies that many bytes, but not more than the buffer has room for, from the address that
the chip then gives. When nothing happens during the call, it hands over the packet whose length is
in the register if the chip reports it without a checksum error and its bytes are in the FIFO
(`Chip.handsOver_iff`).

## Main definitions

* `Chip.flag`, `Chip.HasPacket`, `Chip.Holds`, `Chip.HandsOver`.

## Main results

* `Chip.holds_receive`, `Chip.hasPacket_receive_iff`.
* `loraReceivePacket_cases`, `loraReceivePacket_cases_nil`, `Chip.handsOver_iff`.
-/

namespace GpsTracker

/-! ### Packets in the chip -/

namespace Chip

variable (c : Chip)

/-- An interrupt flag of the chip. -/
def flag (i : IrqFlag) : Bool := i.isSet (c.reg .irqFlags)

/-- The test of a mask tests the flag. -/
@[simp] theorem irqFlags_and_mask (i : IrqFlag) :
    c.reg .irqFlags &&& i.mask = 0 ↔ c.flag i = false :=
  i.and_mask_eq_zero _

/-- The flags report a packet without a checksum error. -/
def HasPacket : Prop := c.flag .rxDone = true ∧ c.flag .payloadCrcError = false

instance : Decidable c.HasPacket := inferInstanceAs (Decidable (_ ∧ _))

/-- The tests of the driver. -/
theorem hasPacket_iff : c.HasPacket ↔ c.reg .irqFlags &&& IrqFlag.rxDone.mask ≠ 0 ∧
    c.reg .irqFlags &&& IrqFlag.payloadCrcError.mask = 0 := by
  simp [HasPacket]

/-- The registers describe the packet, and the FIFO has its bytes. -/
structure Holds (a : Arrival) : Prop where
  rxNbBytes_eq : c.reg .rxNbBytes = .ofNat a.data.length
  fifoRxCurrentAddr_eq : c.reg .fifoRxCurrentAddr = a.addr
  fifoBytes_eq : c.fifoBytes a.addr a.data.length = a.data

@[simp] theorem length_fifoBytes (a : UInt8) (n : ℕ) : (c.fifoBytes a n).length = n := by
  simp [fifoBytes]

theorem fifoBytes_succ (a : UInt8) (n : ℕ) :
    c.fifoBytes a (n + 1) = c.fifo a :: c.fifoBytes (a + 1) n := by
  simp only [fifoBytes, List.range_succ_eq_map, List.map_cons, List.map_map]
  simp [Function.comp_def, UInt8.add_assoc, UInt8.add_comm]

theorem take_fifoBytes (a : UInt8) {m n : ℕ} (h : m ≤ n) :
    (c.fifoBytes a n).take m = c.fifoBytes a m := by
  rw [fifoBytes, ← List.map_take, List.take_range, min_eq_left h, fifoBytes]

variable {c}

theorem Holds.toNat_rxNbBytes {a : Arrival} (h : c.Holds a) :
    (c.reg .rxNbBytes).toNat = a.data.length := by
  rw [h.rxNbBytes_eq, UInt8.toNat_ofNat', Nat.mod_eq_of_lt a.length_lt]

/-- The bytes that a call copies are those of the packet. -/
theorem Holds.fifoBytes_take {a : Arrival} (h : c.Holds a) {n : ℕ} (hn : n ≤ a.data.length) :
    c.fifoBytes (c.reg .fifoRxCurrentAddr) n = a.data.take n := by
  rw [h.fifoRxCurrentAddr_eq, ← c.take_fifoBytes a.addr hn, h.fifoBytes_eq]

/-- **The chip holds a packet that has just arrived**, wherever it was stored. -/
theorem holds_receive (c : Chip) (a : Arrival) : (c.receive a).Holds a where
  rxNbBytes_eq := by simp [receive]
  fifoRxCurrentAddr_eq := by simp [receive]
  fifoBytes_eq := by
    refine List.ext_getElem (by simp) fun k hk hk' => ?_
    have hlt := a.length_lt
    have hsub : a.addr + UInt8.ofNat k - a.addr = UInt8.ofNat k := by
      rw [UInt8.add_comm, UInt8.add_sub_cancel]
    simp only [fifoBytes, receive, List.getElem_map, List.getElem_range, hsub]
    rw [UInt8.toNat_ofNat', Nat.mod_eq_of_lt (hk'.trans hlt), List.getElem?_eq_getElem hk',
      Option.getD_some]

theorem Holds.write_irqFlags {a : Arrival} (h : c.Holds a) (v : UInt8) :
    (c.write .irqFlags v).Holds a := by
  obtain ⟨hnb, haddr, hbytes⟩ := h
  exact ⟨by simpa [write] using hnb, by simpa [write] using haddr, hbytes⟩

@[simp] theorem flag_receive (c : Chip) (a : Arrival) (i : IrqFlag) :
    (c.receive a).flag i = (c.flag i || decide (i = .rxDone) ||
      (a.damaged && decide (i = .payloadCrcError))) := by
  cases h : a.damaged <;> simp [flag, receive, flagsAfter, h]

/-- An intact packet that arrives is reported unless a checksum error is already reported. -/
theorem hasPacket_receive_iff (c : Chip) {a : Arrival} (ha : a.damaged = false) :
    (c.receive a).HasPacket ↔ c.flag .payloadCrcError = false := by
  simp [HasPacket, ha]

@[simp] theorem flag_write_irqFlags (c : Chip) (v : UInt8) (i : IrqFlag) :
    (c.write .irqFlags v).flag i = (c.flag i && !i.isSet v) := by
  simp [flag, write]

end Chip

/-! ### Copying a packet -/

variable {R : ResetValues}

/-- The loop over the bytes of a packet copies them from the address pointer on. -/
theorem triple_loraReadFifo {c₀ : Chip} (hc₀ : c₀.Quiet) (buf : ByteMemory) (p : UInt8)
    (i n : ℕ) :
    (loraChip R).Triple (fun c => c = c₀.setReg .fifoAddrPtr p) (loraReadFifo buf i n)
      fun b c => b = buf.store i (c₀.fifoBytes p n) ∧ ∃ q, c = c₀.setReg .fifoAddrPtr q := by
  induction n generalizing buf p i with
  | zero =>
    refine .pure ?_
    rintro c rfl
    exact ⟨by simp [Chip.fifoBytes], p, rfl⟩
  | succ n ih =>
    refine (triple_loraReadReg (Q := fun b c => b = c₀.fifo p ∧
      c = c₀.setReg .fifoAddrPtr (p + 1)) (stable_of_quiet R ?_) ?_).bind fun b => ?_
    · rintro c rfl
      simpa [Chip.Quiet] using hc₀
    · rintro c rfl
      simp [Chip.read, Chip.setReg]
    · refine .of_and fun hb => (ih (buf.store i [b]) (p + 1) (i + 1)).conseq (fun _ hc => hc) ?_
      rintro b' c ⟨rfl, hq⟩
      refine ⟨?_, hq⟩
      rw [hb, c₀.fifoBytes_succ]
      exact buf.store_store i [c₀.fifo p] _

/-- `loraCopyPacket` at a quiet chip. -/
theorem triple_loraCopyPacket {c₀ : Chip} (hc₀ : c₀.Quiet) (buf : ByteMemory) (size : ℤ)
    (len : UInt8) :
    (loraChip R).Triple (fun c => c = c₀) (loraCopyPacket buf size len) fun x c =>
      x.1 = min (len.toNat : ℤ) size ∧
        x.2 = buf.store 0 (c₀.fifoBytes (c₀.reg .fifoRxCurrentAddr) x.1.toNat) ∧
          ∃ q, c = c₀.setReg .fifoAddrPtr q := by
  refine (triple_loraReadReg (Q := fun addr c => addr = c₀.reg .fifoRxCurrentAddr ∧ c = c₀)
    (stable_of_quiet R ?_) ?_).bind fun addr => ?_
  · rintro c rfl
    exact hc₀
  · rintro c rfl
    exact ⟨rfl, rfl⟩
  refine (triple_loraWriteReg (Q := fun c => addr = c₀.reg .fifoRxCurrentAddr ∧
    c = c₀.setReg .fifoAddrPtr addr) (stable_of_quiet R ?_) ?_).bind fun _ => ?_
  · rintro c ⟨-, rfl⟩
    exact hc₀
  · rintro c ⟨haddr, rfl⟩
    exact ⟨haddr, rfl⟩
  refine .of_and fun haddr => (triple_loraReadFifo hc₀ buf addr 0 _).bind fun b => ?_
  refine .pure ?_
  rintro c ⟨rfl, hq⟩
  exact ⟨by dsimp only; omega, by rw [haddr], hq⟩

/-! ### The calls of `lora_receive_packet` -/

/-- The register that the length of a packet is read from. -/
def lengthReg (implicit : ℤ) : Reg := if implicit ≠ 0 then .payloadLength else .rxNbBytes

@[simp] theorem lengthReg_zero : lengthReg 0 = .rxNbBytes := rfl

theorem Chip.read_lengthReg (c : Chip) (implicit : ℤ) :
    c.read (lengthReg implicit) = (c.reg (lengthReg implicit), c) := by
  unfold lengthReg
  split <;> rfl

@[simp] theorem Chip.write_irqFlags_lengthReg (c : Chip) (v : UInt8) (implicit : ℤ) :
    (c.write .irqFlags v).reg (lengthReg implicit) = c.reg (lengthReg implicit) := by
  unfold lengthReg
  split <;> exact c.write_reg_of_ne (by simp) (by simp) v

/-- What the call does from the end of its tests on. Something may happen before the length is
read and before the radio is stopped. -/
theorem loraFetchPacket_spec {implicit : ℤ} {buf : ByteMemory} {size : ℤ}
    {gs gs' : List (List ChipEvent)} {c c' : Chip} {x : ℤ × ByteMemory}
    (h : (loraChip R).run (loraFetchPacket implicit buf size) gs c = some (x, gs', c')) :
    ∃ c₁ c₂, (loraChip R).events c (gs.getD 0 []) = some c₁ ∧
      (loraChip R).events c₁ (gs.getD 1 []) = some c₂ ∧
      x.1 = min ((c₁.reg (lengthReg implicit)).toNat : ℤ) size ∧
      x.2 = buf.store 0 (c₂.fifoBytes (c₂.reg .fifoRxCurrentAddr) x.1.toNat) ∧
      ∃ q, c' = (c₂.setReg .opMode (modeLongRangeMode ||| modeStdby)).setReg .fifoAddrPtr q := by
  obtain ⟨c₁, h₁, h⟩ := run_loraReadReg_bind.mp h
  change (loraChip R).run _ gs.tail (c₁.read (lengthReg implicit)).2 = _ at h
  rw [c₁.read_lengthReg] at h
  obtain ⟨c₂, h₂, h⟩ := run_loraWriteReg_bind.mp h
  have hquiet : (c₂.write .opMode (modeLongRangeMode ||| modeStdby)).Quiet :=
    Chip.quiet_of_stdby (by simp [Chip.write])
  have hpost := triple_loraCopyPacket hquiet buf size _ _ _ _ _ _ rfl h
  have hlen : (c₁.read (if implicit ≠ 0 then .payloadLength else .rxNbBytes)).1 =
      c₁.reg (lengthReg implicit) := congrArg Prod.fst (c₁.read_lengthReg implicit)
  rw [hlen] at hpost
  refine ⟨c₁, c₂, ?_, ?_, hpost.1, hpost.2.1, hpost.2.2⟩
  · simpa [List.head?_eq_getElem?] using h₁
  · simpa using h₂

/-- **What a call of `lora_receive_packet` does.** The flags are those at the first access. They
are cleared at the second one, and if they report an intact packet it is fetched. -/
theorem loraReceivePacket_cases {implicit : ℤ} {buf : ByteMemory} {size : ℤ}
    {gs gs' : List (List ChipEvent)} {c c' : Chip} {x : ℤ × ByteMemory}
    (h : (loraChip R).run (loraReceivePacket implicit buf size) gs c = some (x, gs', c')) :
    ∃ c₁ c₂, (loraChip R).events c (gs.getD 0 []) = some c₁ ∧
      (loraChip R).events c₁ (gs.getD 1 []) = some c₂ ∧
      (¬ c₁.HasPacket ∧ x = (0, buf) ∧ gs' = gs.drop 2 ∧
          c' = c₂.write .irqFlags (c₁.reg .irqFlags) ∨
        c₁.HasPacket ∧ (loraChip R).run (loraFetchPacket implicit buf size) (gs.drop 2)
          (c₂.write .irqFlags (c₁.reg .irqFlags)) = some (x, gs', c')) := by
  obtain ⟨c₁, h₁, h⟩ := run_loraReadReg_bind.mp h
  obtain ⟨c₂, h₂, h⟩ := run_loraWriteReg_bind.mp h
  have hread : c₁.read .irqFlags = (c₁.reg .irqFlags, c₁) := rfl
  have htail : gs.tail.tail = gs.drop 2 := by
    rw [← List.drop_one, ← List.drop_one, List.drop_drop]
  rw [hread] at h h₂
  rw [htail] at h
  refine ⟨c₁, c₂, by simpa [List.head?_eq_getElem?] using h₁, by simpa using h₂, ?_⟩
  rw [Chip.hasPacket_iff]
  dsimp only at h
  by_cases hrx : c₁.reg .irqFlags &&& IrqFlag.rxDone.mask = 0
  · rw [if_pos hrx] at h
    obtain ⟨rfl, rfl, rfl⟩ := by simpa [Bus.Device.run, pure] using h
    exact .inl ⟨fun hp => hp.1 hrx, rfl, rfl, rfl⟩
  · rw [if_neg hrx] at h
    by_cases hcrc : c₁.reg .irqFlags &&& IrqFlag.payloadCrcError.mask = 0
    · rw [if_neg (not_not.mpr hcrc)] at h
      exact .inr ⟨⟨hrx, hcrc⟩, h⟩
    · rw [if_pos hcrc] at h
      obtain ⟨rfl, rfl, rfl⟩ := by simpa [Bus.Device.run, pure] using h
      exact .inl ⟨fun hp => hcrc hp.2, rfl, rfl, rfl⟩

/-- The same for a call during which nothing happens. -/
theorem loraReceivePacket_cases_nil {implicit : ℤ} {buf : ByteMemory} {size : ℤ}
    {gs' : List (List ChipEvent)} {c c' : Chip} {x : ℤ × ByteMemory}
    (h : (loraChip R).run (loraReceivePacket implicit buf size) [] c = some (x, gs', c')) :
    ¬ c.HasPacket ∧ x = (0, buf) ∧ c' = c.write .irqFlags (c.reg .irqFlags) ∨
      c.HasPacket ∧ x.1 = min ((c.reg (lengthReg implicit)).toNat : ℤ) size ∧
        x.2 = buf.store 0 (c.fifoBytes (c.reg .fifoRxCurrentAddr) x.1.toNat) ∧
        ∃ q, c' = ((c.write .irqFlags (c.reg .irqFlags)).setReg .opMode
          (modeLongRangeMode ||| modeStdby)).setReg .fifoAddrPtr q := by
  obtain ⟨c₁, c₂, h₁, h₂, hcases⟩ := loraReceivePacket_cases h
  obtain rfl : c = c₁ := by simpa using h₁
  obtain rfl : c = c₂ := by simpa using h₂
  obtain ⟨hno, hx, -, hc'⟩ | ⟨hyes, hfetch⟩ := hcases
  · exact .inl ⟨hno, hx, hc'⟩
  obtain ⟨c₃, c₄, h₃, h₄, hlen, hbuf, hc'⟩ := loraFetchPacket_spec hfetch
  obtain rfl : c.write .irqFlags (c.reg .irqFlags) = c₃ := by simpa using h₃
  obtain rfl : c.write .irqFlags (c.reg .irqFlags) = c₄ := by simpa using h₄
  rw [c.write_irqFlags_lengthReg] at hlen
  rw [c.write_reg_of_ne (by simp) (by simp)] at hbuf
  exact .inr ⟨hyes, hlen, hbuf, hc'⟩

/-- A run that begins with `lora_received`. -/
theorem run_loraReceived_bind {α : Type} {f : ℤ → LoraProg α} {gs : List (List ChipEvent)}
    {c : Chip} {y : α × List (List ChipEvent) × Chip} :
    (loraChip R).run (loraReceived >>= f) gs c = some y ↔
      ∃ c₁, (loraChip R).events c (gs.headD []) = some c₁ ∧
        (loraChip R).run (f (if c₁.flag .rxDone then 1 else 0)) gs.tail c₁ = some y := by
  have hf : ∀ c₁ : Chip, (if c₁.reg .irqFlags &&& IrqFlag.rxDone.mask ≠ 0 then pure 1 else pure 0 :
      LoraProg ℤ) >>= f = f (if c₁.flag .rxDone then 1 else 0) := by
    intro c₁
    cases hflag : c₁.flag .rxDone <;> simp [hflag]
  rw [loraReceived, ← Option.bind_eq_some_iff, loraReadReg]
  simp only [Bus.Program.access_bind, Bus.Device.run, Bus.Program.pure_bind,
    loraChip_access_read, Chip.read, hf]
  rfl

/-! ### Completion -/

theorem atMost_loraWriteReg (r : Reg) (v : UInt8) : (loraWriteReg r v).AtMost 1 :=
  fun _ => trivial

theorem atMost_loraReadReg (r : Reg) : (loraReadReg r).AtMost 1 := fun _ => trivial

theorem atMost_loraReadFifo (buf : ByteMemory) (i n : ℕ) : (loraReadFifo buf i n).AtMost n := by
  induction n generalizing buf i with
  | zero => trivial
  | succ n ih => exact fun _ => ih _ _

theorem atMost_loraCopyPacket (buf : ByteMemory) (size : ℤ) (len : UInt8) :
    (loraCopyPacket buf size len).AtMost (1 + (1 + (size.toNat + 0))) := by
  refine (atMost_loraReadReg _).bind fun addr => (atMost_loraWriteReg _ _).bind fun _ => ?_
  refine .bind ((atMost_loraReadFifo _ _ _).mono ?_) fun _ => trivial
  omega

/-- A call makes a bounded number of accesses. -/
theorem atMost_loraReceivePacket (implicit : ℤ) (buf : ByteMemory) (size : ℤ) :
    (loraReceivePacket implicit buf size).AtMost (size.toNat + 6) := by
  refine .mono (n := 1 + (1 + (1 + (1 + (1 + (1 + (size.toNat + 0))))))) ?_ (by omega)
  refine (atMost_loraReadReg _).bind fun irq => (atMost_loraWriteReg _ _).bind fun _ => ?_
  split
  · exact .mono (n := 0) trivial (Nat.zero_le _)
  · split
    · exact .mono (n := 0) trivial (Nat.zero_le _)
    · exact (atMost_loraReadReg _).bind fun len => (atMost_loraWriteReg _ _).bind fun _ =>
        atMost_loraCopyPacket buf size len

theorem atMost_loraReceived : loraReceived.AtMost (1 + 0) := by
  refine (atMost_loraReadReg _).bind fun irq => ?_
  split <;> trivial

/-- A call during which nothing happens returns the length of the packet `a`, or the size of the
buffer if that is smaller, copies as many bytes of the packet to the buffer and leaves the rest of
the buffer alone. -/
def Chip.HandsOver (R : ResetValues) (c : Chip) (a : Arrival) (buf : ByteMemory) (size : ℤ) :
    Prop :=
  ∃ (n : ℕ) (buf' : ByteMemory) (c' : Chip), (n : ℤ) = min (a.data.length : ℤ) size ∧
    (loraChip R).run (loraReceivePacket 0 buf size) [] c = some (((n : ℤ), buf'), [], c') ∧
    buf'.load 0 n = a.data.take n ∧ ∀ k, n ≤ k → buf' k = buf k

/-- **When a call hands over a packet** whose length is in the register: when the chip reports it
without a checksum error and the bytes of it that fit into the buffer are in the FIFO, or when the
buffer has no room at all. -/
theorem Chip.handsOver_iff {c : Chip} {a : Arrival} (ha : c.reg .rxNbBytes = .ofNat a.data.length)
    (buf : ByteMemory) {size : ℤ} (hsize : 0 ≤ size) :
    c.HandsOver R a buf size ↔ size = 0 ∨ c.HasPacket ∧
      c.fifoBytes (c.reg .fifoRxCurrentAddr) (min (a.data.length : ℤ) size).toNat =
        a.data.take (min (a.data.length : ℤ) size).toNat := by
  have hpos := a.length_pos
  have hnb : (c.reg .rxNbBytes).toNat = a.data.length := by
    rw [ha, UInt8.toNat_ofNat', Nat.mod_eq_of_lt a.length_lt]
  obtain ⟨⟨m, buf₁⟩, c₁, hrun⟩ :=
    (loraChip R).exists_run_nil (atMost_loraReceivePacket 0 buf size) c
  constructor
  · rintro ⟨n, buf', c', hn, hrun', hload, -⟩
    obtain ⟨⟨rfl, rfl⟩, -⟩ : (m = n ∧ buf₁ = buf') ∧ c₁ = c' := by simpa [hrun] using hrun'
    refine or_iff_not_imp_left.mpr fun hne => ?_
    obtain ⟨-, hx, -⟩ | ⟨hp, -, hbuf, -⟩ := loraReceivePacket_cases_nil hrun
    · obtain ⟨hm, -⟩ := Prod.mk.inj hx
      omega
    · rw [← hn, Int.toNat_natCast]
      dsimp only at hbuf
      rw [Int.toNat_natCast] at hbuf
      have hcopied := buf.load_store 0 (c.fifoBytes (c.reg .fifoRxCurrentAddr) n)
      rw [c.length_fifoBytes, ← hbuf, hload] at hcopied
      exact ⟨hp, hcopied.symm⟩
  · intro h
    obtain ⟨hno, hx, -⟩ | ⟨-, hm, hbuf, -⟩ := loraReceivePacket_cases_nil hrun
    · obtain ⟨rfl, rfl⟩ := Prod.mk.inj hx
      rcases h with rfl | ⟨hp, -⟩
      · exact ⟨0, buf₁, c₁, by omega, hrun, rfl, fun _ _ => rfl⟩
      · exact absurd hp hno
    · dsimp only at hm hbuf
      rw [lengthReg_zero, hnb] at hm
      obtain ⟨n, rfl⟩ := Int.eq_ofNat_of_zero_le (show 0 ≤ m by omega)
      rw [Int.toNat_natCast] at hbuf
      have hbytes : c.fifoBytes (c.reg .fifoRxCurrentAddr) n = a.data.take n := by
        rcases h with rfl | ⟨-, hbytes⟩
        · obtain rfl : n = 0 := by omega
          rfl
        · rwa [← hm, Int.toNat_natCast] at hbytes
      rw [hbytes] at hbuf
      have hlen : (a.data.take n).length = n := List.length_take_of_le (by omega)
      have hload := buf.load_store 0 (a.data.take n)
      rw [hlen, ← hbuf] at hload
      refine ⟨n, buf₁, c₁, hm, hrun, hload, fun k hk => ?_⟩
      rw [hbuf]
      exact ByteMemory.store_of_notMem (by omega)

end GpsTracker
