import GpsTracker.Lora.Setup
import GpsTracker.Lora.Reception
import GpsTracker.Stream.Transducer

/-!
# The receiver

The receiver asks the chip again and again whether a packet has arrived, and reads it if so. Packets
arrive between any two of its accesses. The call of `lora_receive_packet` reads and clears the
interrupt flags, and reads the length, before it stops the radio: a packet that arrives in between
replaces the one that the flags were about, whether or not it is damaged, and leaves its own flag
behind. A damaged packet is then delivered (`not_receiveAtomic`).

If no packet arrives between the clearing of the flags and the stop of the radio, and the last one
that arrives between the reading and the clearing of the flags is intact, every packet delivered is
an intact packet that has arrived, and none is delivered twice (`receivesAtomically`).

## Main definitions

* `receiveTurn`, `Receiver`, `receiverMachine`.
* `Delivers`, `ReceivesAtomically`, `ReceiveAtomic`.
* `Undisturbed`.

## Main results

* `receivesAtomically`, `not_receiveAtomic`.
-/

namespace GpsTracker

/-! ### The loop -/

/-- One turn of the loop of the receiver, from the call of `lora_received` to the next call of
`lora_receive`: the value returned by `lora_receive_packet`, if it is called, and the buffer. -/
def receiveTurn (buf : ByteMemory) (size : ℤ) : LoraProg (Option ℤ × ByteMemory) := do
  let received ← loraReceived
  if received ≠ 0 then
    let (n, buf) ← loraReceivePacket 0 buf size
    loraReceive
    return (some n, buf)
  else
    loraReceive
    return (none, buf)

/-- The state of the receiver between two turns. -/
structure Receiver where
  chip : Chip
  buf : ByteMemory

/-- A value returned by `lora_receive_packet`, and the buffer then. -/
abbrev Delivery := ℤ × ByteMemory

/-- The turns of the receiver, each with what happens at the chip before each of its accesses. -/
def receiverMachine (R : ResetValues) (size : ℤ) :
    Transducer Receiver (List (List ChipEvent)) Delivery where
  step s gs := ((loraChip R).run (receiveTurn s.buf size) gs s.chip).map fun x =>
    (⟨x.2.2, x.1.2⟩, x.1.1.toList.map fun n => (n, x.1.2))

/-- The receiver after the preparation of the radio and the first call of `lora_receive`. -/
def Receiver.Started (R : ResetValues) (s : Receiver) : Prop :=
  ∃ gs c₀ gs', (loraChip R).run (do radioSetup; loraReceive) gs c₀ = some ((), gs', s.chip)

/-- The chip listens, and reports neither a packet nor a checksum error. -/
structure Chip.Listening (c : Chip) : Prop where
  mode : c.reg .opMode = modeLongRangeMode ||| modeRxContinuous
  rxDone : c.flag .rxDone = false
  crcError : c.flag .payloadCrcError = false

/-- A chip that reports nothing listens after a call of `lora_receive`. -/
theorem Chip.listening_write_opMode {c : Chip} (hrx : c.flag .rxDone = false)
    (hcrc : c.flag .payloadCrcError = false) :
    (c.write .opMode (modeLongRangeMode ||| modeRxContinuous)).Listening where
  mode := by simp [write]
  rxDone := by simpa [write, flag] using hrx
  crcError := by simpa [write, flag] using hcrc

theorem Receiver.Started.listening {R : ResetValues} {s : Receiver} (hs : s.Started R) :
    s.chip.Listening := by
  obtain ⟨gs, c₀, gs', hrun⟩ := hs
  have hlisten : (loraChip R).Triple (fun _ => True) (do radioSetup; loraReceive)
      fun _ => Chip.Listening := by
    refine (triple_radioSetup R).bind fun _ => triple_loraWriteReg (stable_initialised R) ?_
    intro c hc
    exact Chip.listening_write_opMode (by simp [Chip.flag, hc.irqFlags])
      (by simp [Chip.flag, hc.irqFlags])
  exact hlisten _ _ _ _ _ trivial hrun

/-! ### Atomicity -/

/-- The call delivers the intact packet `a`, up to the size of the buffer. -/
def Delivers (size : ℤ) (d : Delivery) (a : Arrival) : Prop :=
  a.damaged = false ∧ d.1 = min (a.data.length : ℤ) size ∧
    d.2.load 0 d.1.toNat = a.data.take d.1.toNat

/-- The calls that return a positive value deliver distinct packets of the list `arrived`. -/
def ReceivesAtomically (size : ℤ) (arrived : List Arrival) (ds : List Delivery) : Prop :=
  ∃ as : List Arrival, as.Subperm arrived ∧
    List.Forall₂ (Delivers size) (ds.filter fun d => 0 < d.1) as

/-- The packets that have arrived in a run of the receiver. -/
def arrivedSince (s t : Receiver) : List Arrival := t.chip.arrived.drop s.chip.arrived.length

/-- The receiver delivers packets atomically in every run. -/
def ReceiveAtomic (R : ResetValues) (size : ℤ) : Prop :=
  ∀ (s t : Receiver) (turns : List (List (List ChipEvent))) (ds : List Delivery), s.Started R →
    (receiverMachine R size).run s turns = some (t, ds) →
      ReceivesAtomically size (arrivedSince s t) ds

/-- In a turn in which `lora_receive_packet` finds a packet to fetch, no packet arrives between the
clearing of the flags and the stop of the radio, and the last packet that has arrived when the flags
are cleared is intact. -/
def Undisturbed (R : ResetValues) (c : Chip) (gs : List (List ChipEvent)) : Prop :=
  ∀ c₀ c₁ c₂, (loraChip R).events c (gs.getD 0 []) = some c₀ →
    (loraChip R).events c₀ (gs.getD 1 []) = some c₁ →
    (loraChip R).events c₁ (gs.getD 2 []) = some c₂ → c₀.flag .rxDone = true → c₁.HasPacket →
      (∀ a ∈ c₂.arrived.getLast?, a.damaged = false) ∧ gs.getD 3 [] = [] ∧ gs.getD 4 [] = []

/-- Packets that arrive only before a turn do not disturb it if the last one is intact. -/
theorem undisturbed_singleton {R : ResetValues} {c : Chip} {g : List ChipEvent}
    (h : ∀ c', (loraChip R).events c g = some c' → ∀ a ∈ c'.arrived.getLast?,
      a.damaged = false) : Undisturbed R c [g] := by
  intro c₀ c₁ c₂ h₀ h₁ h₂ _ _
  obtain rfl : c₀ = c₁ := by simpa using h₁
  obtain rfl : c₀ = c₂ := by simpa using h₂
  exact ⟨h c₀ (by simpa using h₀), rfl, rfl⟩

/-! ### The invariant -/

namespace Chip

/-- The packets `as`, which have been delivered, are among those that have arrived after the packets
`B`. If the chip reports a packet, it is the last that has arrived, it has not been delivered, the
chip holds it, and if it is damaged a checksum error is reported. -/
def Accounts (B as : List Arrival) (c : Chip) : Prop :=
  ∃ new, c.arrived = B ++ new ∧ as.Sublist new ∧
    (c.flag .rxDone = true → ∃ older a, new = older ++ [a] ∧ as.Sublist older ∧ c.Holds a ∧
      (a.damaged = true → c.flag .payloadCrcError = true))

variable {B as : List Arrival} {c : Chip}

theorem Accounts.receive (h : c.Accounts B as) (a : Arrival) : (c.receive a).Accounts B as := by
  obtain ⟨new, harr, hsub, -⟩ := h
  refine ⟨new ++ [a], by simp [Chip.receive, harr], hsub.trans (List.sublist_append_left _ _),
    fun _ => ⟨new, a, rfl, hsub, c.holds_receive a, fun hdam => by simp [hdam]⟩⟩

/-- A change that does not concern the packet that the chip reports. -/
theorem Accounts.congr (h : c.Accounts B as) {c' : Chip} (harr : c'.arrived = c.arrived)
    (hrx : c'.flag .rxDone = c.flag .rxDone)
    (hcrc : c'.flag .payloadCrcError = c.flag .payloadCrcError)
    (hholds : ∀ a, c.Holds a → c'.Holds a) : c'.Accounts B as := by
  obtain ⟨new, hnew, hsub, hlast⟩ := h
  refine ⟨new, harr.trans hnew, hsub, fun hflag => ?_⟩
  obtain ⟨older, a, rfl, hsub', ha, hdam⟩ := hlast (hrx ▸ hflag)
  exact ⟨older, a, rfl, hsub', hholds a ha, fun h => hcrc ▸ hdam h⟩

/-- The chip no longer reports a packet. -/
theorem Accounts.clear (h : c.Accounts B as) {c' : Chip} (harr : c'.arrived = c.arrived)
    (hrx : c'.flag .rxDone = false) : c'.Accounts B as := by
  obtain ⟨new, hnew, hsub, -⟩ := h
  exact ⟨new, harr.trans hnew, hsub, fun hflag => absurd (hrx.symm.trans hflag) (by simp)⟩

/-- The packet that the chip reports is delivered. -/
theorem Accounts.deliver (h : c.Accounts B as) (hrx : c.flag .rxDone = true) :
    ∃ a, c.arrived.getLast? = some a ∧ c.Holds a ∧ ∀ c' : Chip, c'.arrived = c.arrived →
      c'.flag .rxDone = false → c'.Accounts B (as ++ [a]) := by
  obtain ⟨new, hnew, -, hlast⟩ := h
  obtain ⟨older, a, rfl, hsub, ha, -⟩ := hlast hrx
  refine ⟨a, by rw [hnew, ← List.append_assoc, List.getLast?_concat], ha, fun c' harr hclear => ?_⟩
  exact ⟨older ++ [a], harr.trans hnew, hsub.append_right _, fun hflag =>
    absurd (hclear.symm.trans hflag) (by simp)⟩

/-- The packet that the chip reports, if any: the last that has arrived. -/
def reported (c : Chip) : List Arrival :=
  if c.flag .rxDone then c.arrived.getLast?.toList else []

/-- If the chip reports a packet, it is the last that has arrived, the chip holds it, and if it is
damaged a checksum error is reported. -/
def ReportsLast (c : Chip) : Prop :=
  c.flag .rxDone = true → ∃ a, c.arrived.getLast? = some a ∧ c.Holds a ∧
    (a.damaged = true → c.flag .payloadCrcError = true)

theorem Accounts.reportsLast (h : c.Accounts B as) : c.ReportsLast := by
  intro hflag
  obtain ⟨new, hnew, -, hlast⟩ := h
  obtain ⟨older, a, rfl, -, ha, hdam⟩ := hlast hflag
  exact ⟨a, by rw [hnew, ← List.append_assoc, List.getLast?_concat], ha, hdam⟩

/-- The packets that have been delivered come before the one that is reported. -/
theorem Accounts.sublist (h : c.Accounts B as) :
    ∃ new, c.arrived = B ++ new ∧ (as ++ c.reported).Sublist new := by
  obtain ⟨new, hnew, hsub, hlast⟩ := h
  refine ⟨new, hnew, ?_⟩
  cases hflag : c.flag .rxDone with
  | false => simpa [reported, hflag] using hsub
  | true =>
    obtain ⟨older, a, rfl, hsub', -, -⟩ := hlast hflag
    rw [reported, if_pos hflag, hnew, ← List.append_assoc, List.getLast?_concat]
    exact hsub'.append_right _

theorem ReportsLast.accounts (h : c.ReportsLast) :
    ∃ B, c.arrived = B ++ c.reported ∧ c.Accounts B [] := by
  cases hflag : c.flag .rxDone with
  | false =>
    exact ⟨c.arrived, by simp [reported, hflag], [], by simp, by simp, by simp [hflag]⟩
  | true =>
    obtain ⟨a, hlast, ha, hdam⟩ := h hflag
    obtain ⟨B, harr⟩ := List.getLast?_eq_some_iff.mp hlast
    exact ⟨B, by simp [reported, hflag, harr], [a], harr, by simp,
      fun _ => ⟨[], a, rfl, by simp, ha, hdam⟩⟩

theorem Accounts.transmit (h : c.Accounts B as) : c.transmit.Accounts B as := by
  refine h.congr rfl (by simp [Chip.transmit, flag]) (by simp [Chip.transmit, flag]) ?_
  rintro a ⟨hnb, haddr, hbytes⟩
  exact ⟨by simpa [Chip.transmit] using hnb, by simpa [Chip.transmit] using haddr, hbytes⟩

theorem Accounts.write_opMode (h : c.Accounts B as) (v : UInt8) :
    (c.write .opMode v).Accounts B as := by
  refine h.congr rfl (by simp [Chip.write, flag]) (by simp [Chip.write, flag]) ?_
  rintro a ⟨hnb, haddr, hbytes⟩
  exact ⟨by simpa [Chip.write] using hnb, by simpa [Chip.write] using haddr, hbytes⟩

theorem stable_accounts (R : ResetValues) (B as : List Arrival) :
    (loraChip R).Stable (Accounts B as) :=
  stable_of_events R (fun _ a _ h => h.receive a) fun _ _ h => h.transmit

/-- A reported packet is reported until the flag is cleared. -/
theorem stable_rxDone (R : ResetValues) : (loraChip R).Stable fun c => c.flag .rxDone = true := by
  refine stable_of_events R (fun c a _ _ => by simp) fun c _ h => ?_
  simpa [Chip.transmit, flag] using h

end Chip

/-! ### One turn -/

section Turn

variable {R : ResetValues} {size : ℤ}

/-- What a turn does, call by call. -/
theorem receiveTurn_cases {buf : ByteMemory} {gs gs' : List (List ChipEvent)} {c c' : Chip}
    {x : Option ℤ × ByteMemory}
    (h : (loraChip R).run (receiveTurn buf size) gs c = some (x, gs', c')) :
    ∃ c₀ c₁ gs₁, (loraChip R).events c (gs.getD 0 []) = some c₀ ∧
      (c₀.flag .rxDone = false ∧ x = (none, buf) ∧ c₁ = c₀ ∧ gs₁ = gs.tail ∨
        c₀.flag .rxDone = true ∧ ∃ n, x.1 = some n ∧
          (loraChip R).run (loraReceivePacket 0 buf size) gs.tail c₀ =
            some ((n, x.2), gs₁, c₁)) ∧
      ∃ c₂, (loraChip R).events c₁ (gs₁.headD []) = some c₂ ∧
        c' = c₂.write .opMode (modeLongRangeMode ||| modeRxContinuous) := by
  obtain ⟨c₀, h₀, h⟩ := run_loraReceived_bind.mp h
  rw [List.headD_eq_head?_getD, List.head?_eq_getElem?] at h₀
  rw [← List.getD_eq_getElem?_getD] at h₀
  cases hrx : c₀.flag .rxDone with
  | false =>
    rw [hrx, if_neg (by simp)] at h
    obtain ⟨c₂, h₂, h⟩ := run_loraWriteReg_bind.mp h
    obtain ⟨rfl, -, rfl⟩ := by simpa [Bus.Device.run, pure] using h
    exact ⟨c₀, c₀, gs.tail, h₀, .inl ⟨hrx, rfl, rfl, rfl⟩, c₂, h₂, rfl⟩
  | true =>
    rw [hrx, if_pos rfl, if_pos one_ne_zero, Bus.Device.run_bind] at h
    obtain ⟨⟨⟨n, buf'⟩, gs₁, c₁⟩, hcall, h⟩ := Option.bind_eq_some_iff.mp h
    obtain ⟨c₂, h₂, h⟩ := run_loraWriteReg_bind.mp h
    obtain ⟨rfl, -, rfl⟩ := by simpa [Bus.Device.run, pure] using h
    exact ⟨c₀, c₁, gs₁, h₀, .inr ⟨hrx, n, rfl, hcall⟩, c₂, h₂, rfl⟩

/-- A turn makes a bounded number of accesses. -/
theorem atMost_receiveTurn (buf : ByteMemory) (size : ℤ) :
    (receiveTurn buf size).AtMost (1 + 0 + (size.toNat + 6 + (1 + 0))) := by
  refine atMost_loraReceived.bind fun received => ?_
  split
  · exact (atMost_loraReceivePacket 0 buf size).bind fun _ =>
      (atMost_loraWriteReg _ _).bind fun _ => trivial
  · exact .mono (n := 1 + 0) ((atMost_loraWriteReg _ _).bind fun _ => trivial)
      (Nat.le_add_left _ _)

/-- The fetch of a packet that the chip holds, during which no packet arrives. -/
theorem fetch_delivers {buf : ByteMemory} {gs gs' : List (List ChipEvent)} {c c' : Chip}
    {x : ℤ × ByteMemory} {a : Arrival} (ha : c.Holds a) (hdam : a.damaged = false)
    (h3 : gs.getD 0 [] = []) (h4 : gs.getD 1 [] = [])
    (h : (loraChip R).run (loraFetchPacket 0 buf size) gs c = some (x, gs', c')) :
    Delivers size x a ∧ c'.arrived = c.arrived ∧ ∀ i, c'.flag i = c.flag i := by
  obtain ⟨c₁, c₂, h₁, h₂, hn, hbuf, q, rfl⟩ := loraFetchPacket_spec h
  rw [h3, Bus.Device.events_nil] at h₁
  obtain rfl := Option.some_inj.mp h₁
  rw [h4, Bus.Device.events_nil] at h₂
  obtain rfl := Option.some_inj.mp h₂
  rw [lengthReg_zero, ha.toNat_rxNbBytes] at hn
  rw [ha.fifoBytes_take (by omega)] at hbuf
  have hlen : (a.data.take x.1.toNat).length = x.1.toNat := List.length_take_of_le (by omega)
  have hload := buf.load_store 0 (a.data.take x.1.toNat)
  rw [hlen, ← hbuf] at hload
  exact ⟨⟨hdam, hn, hload⟩, rfl, fun i => by simp [Chip.flag]⟩

/-- **A turn that is not disturbed** delivers at most one packet, which had not been delivered
before, and if it delivers none the buffer stays as it is. -/
theorem receiveTurn_accounts {B as : List Arrival} {buf : ByteMemory}
    {gs gs' : List (List ChipEvent)} {c c' : Chip} {x : Option ℤ × ByteMemory}
    (hc : c.Accounts B as) (hund : Undisturbed R c gs)
    (h : (loraChip R).run (receiveTurn buf size) gs c = some (x, gs', c')) :
    ∃ as', c'.Accounts B (as ++ as') ∧ List.Forall₂ (Delivers size)
      ((x.1.toList.map fun n => (n, x.2)).filter fun d => 0 < d.1) as' ∧
        (0 < size → as' = [] → x.2 = buf) := by
  obtain ⟨c₀, c₁, gs₁, h₀, hcall, c₂, h₂, rfl⟩ := receiveTurn_cases h
  have hlisten : ∀ as, c₁.Accounts B as →
      (c₂.write .opMode (modeLongRangeMode ||| modeRxContinuous)).Accounts B as := fun as hacc =>
    ((Chip.stable_accounts R B as).events hacc h₂).write_opMode _
  have hc₀ := (Chip.stable_accounts R B as).events hc h₀
  rcases hcall with ⟨-, rfl, rfl, -⟩ | ⟨hrx, n, hx, hcall⟩
  · exact ⟨[], by simpa using hlisten as hc₀, by simp, fun _ _ => rfl⟩
  obtain ⟨d₁, d₂, hd₁, hd₂, hcases⟩ := loraReceivePacket_cases hcall
  have hrx₁ := (Chip.stable_rxDone R).events hrx hd₁
  have hrx₂ := (Chip.stable_rxDone R).events hrx₁ hd₂
  have hc₂ := (Chip.stable_accounts R B as).events
    ((Chip.stable_accounts R B as).events hc₀ hd₁) hd₂
  have hclear : (d₂.write .irqFlags (d₁.reg .irqFlags)).flag .rxDone = false := by
    rw [Chip.flag_write_irqFlags, ← Chip.flag, hrx₁]
    simp
  rcases hcases with ⟨-, hx', -, rfl⟩ | ⟨hp, hfetch⟩
  · obtain ⟨rfl, hbuf⟩ := Prod.mk.inj hx'
    exact ⟨[], by simpa using hlisten as (hc₂.clear rfl hclear), by simp [hx], fun _ _ => hbuf⟩
  · have htail : ∀ k, gs.tail.getD k [] = gs.getD (k + 1) [] := by cases gs <;> simp
    have hdrop : ∀ k, (gs.tail.drop 2).getD k [] = gs.getD (k + 3) [] := by
      intro k
      simp [Nat.add_comm]
    rw [htail] at hd₁ hd₂
    obtain ⟨hintact, h3, h4⟩ := hund c₀ d₁ d₂ h₀ hd₁ hd₂ hrx hp
    obtain ⟨a, hlast, ha, hdeliver⟩ := hc₂.deliver hrx₂
    obtain ⟨hdel, harr, hflag⟩ := fetch_delivers (ha.write_irqFlags _) (hintact a hlast)
      ((hdrop 0).trans h3) ((hdrop 1).trans h4) hfetch
    have hrx' := (hflag .rxDone).trans hclear
    by_cases hn : 0 < n
    · exact ⟨[a], hlisten _ (hdeliver c₁ harr hrx'), by simpa [hx, hn] using hdel, by simp⟩
    · -- A packet is not empty, so that it is a buffer without room that gets no byte of it.
      refine ⟨[], by simpa using hlisten as (hc₂.clear harr hrx'), by simp [hx, hn],
        fun hsize _ => ?_⟩
      have hlen := hdel.2.1
      have hpos := a.length_pos
      dsimp only at hlen
      omega

/-- **The packets on their way** through the chip to the loop, in a turn that is not disturbed: the
one that the chip reports and those that have still to arrive. The turn leaves the buffer alone or
delivers one of them, and those that remain come after it. -/
theorem receiveTurn_reported {buf : ByteMemory} {gs gs' : List (List ChipEvent)} {c c' : Chip}
    {x : Option ℤ × ByteMemory} (hsize : 0 < size) (hc : c.ReportsLast)
    (hund : Undisturbed R c gs)
    (h : (loraChip R).run (receiveTurn buf size) gs c = some (x, gs', c'))
    {arrivals arrivals' : List Arrival}
    (harr : c'.arrived ++ arrivals' = c.arrived ++ arrivals) :
    c'.ReportsLast ∧
      (x.2 = buf ∧ (c'.reported ++ arrivals').Sublist (c.reported ++ arrivals) ∨
        ∃ a n, x.1 = some n ∧ Delivers size (n, x.2) a ∧
          (a :: (c'.reported ++ arrivals')).Sublist (c.reported ++ arrivals)) := by
  obtain ⟨B, hB, hacc⟩ := hc.accounts
  obtain ⟨as, hacc', hall, hbuf⟩ := receiveTurn_accounts hacc hund h
  obtain ⟨new, hnew, hsub⟩ := hacc'.sublist
  have hall_new : new ++ arrivals' = c.reported ++ arrivals := by
    rwa [hnew, hB, List.append_assoc, List.append_assoc, List.append_cancel_left_eq] at harr
  have hway : (as ++ (c'.reported ++ arrivals')).Sublist (c.reported ++ arrivals) := by
    rw [← hall_new, ← List.append_assoc]
    exact hsub.append_right arrivals'
  refine ⟨hacc'.reportsLast, ?_⟩
  obtain ⟨_ | n, buf'⟩ := x
  · obtain rfl : as = [] := by simpa using hall
    exact .inl ⟨hbuf hsize rfl, hway⟩
  · by_cases hn : 0 < n
    · obtain ⟨a, hdel, rfl⟩ : ∃ a, Delivers size (n, buf') a ∧ as = [a] := by
        simpa [hn, List.forall₂_cons_left_iff] using hall
      exact .inr ⟨a, n, rfl, hdel, hway⟩
    · obtain rfl : as = [] := by simpa [hn] using hall
      exact .inl ⟨hbuf hsize rfl, hway⟩

/-- A turn ends in receive mode. -/
theorem opMode_receiveTurn {buf : ByteMemory} {gs gs' : List (List ChipEvent)} {c c' : Chip}
    {x : Option ℤ × ByteMemory}
    (h : (loraChip R).run (receiveTurn buf size) gs c = some (x, gs', c')) :
    c'.reg .opMode = modeLongRangeMode ||| modeRxContinuous := by
  obtain ⟨-, c₁, -, -, -, c₂, -, rfl⟩ := receiveTurn_cases h
  exact c₂.write_opMode_reg _

end Turn

/-! ### Runs -/

section Run

variable {R : ResetValues} {size : ℤ}

/-- A receiver that has just started has received nothing. -/
theorem Receiver.Started.accounts {s : Receiver} (hs : s.Started R) :
    s.chip.Accounts s.chip.arrived [] := by
  exact ⟨[], by simp, by simp, fun h => absurd (hs.listening.rxDone.symm.trans h) (by simp)⟩

/-- **In a run of undisturbed turns packets are delivered atomically.** At every point of the run
each call of `lora_receive_packet` that has returned a positive value has delivered an intact packet
that has arrived, up to the size of the buffer, and no packet has been delivered twice. -/
theorem receivesAtomically {s : Receiver} (hs : s.Started R)
    {turns : List (List (List ChipEvent))}
    (hund : ∀ pre gs post t ds, turns = pre ++ gs :: post →
      (receiverMachine R size).run s pre = some (t, ds) → Undisturbed R t.chip gs) :
    ∀ pre post t ds, turns = pre ++ post → (receiverMachine R size).run s pre = some (t, ds) →
      ReceivesAtomically size (arrivedSince s t) ds := by
  rintro pre post t ds rfl hrun
  have hinv : ∃ as, t.chip.Accounts s.chip.arrived as ∧
      List.Forall₂ (Delivers size) (ds.filter fun d => 0 < d.1) as := by
    refine Transducer.run_induction (fun ds t => ∃ as, t.chip.Accounts s.chip.arrived as ∧
      List.Forall₂ (Delivers size) (ds.filter fun d => 0 < d.1) as)
      ⟨[], hs.accounts, by simp⟩ ?_ hrun
    rintro xs ys u ds gs v o rfl hxs ⟨as, hacc, hall⟩ hstep
    obtain ⟨⟨x, gs', c'⟩, hturn, hv⟩ := Option.map_eq_some_iff.mp hstep
    obtain ⟨rfl, rfl⟩ := Prod.mk.inj hv
    obtain ⟨as', hacc', hall', -⟩ :=
      receiveTurn_accounts hacc (hund xs gs (ys ++ post) u ds (by simp) hxs) hturn
    refine ⟨as ++ as', hacc', ?_⟩
    rw [List.filter_append]
    exact List.rel_append hall hall'
  obtain ⟨as, ⟨new, hnew, hsub, -⟩, hall⟩ := hinv
  refine ⟨as, ?_, hall⟩
  rw [arrivedSince, hnew, List.drop_left]
  exact hsub.subperm

end Run

/-! ### A disturbed turn -/

def intactArrival : Arrival := ⟨[1, 2], 0, false, by decide, by decide⟩

def damagedArrival : Arrival := ⟨[7, 8], 0, true, by decide, by decide⟩

/-- An intact packet that arrives between two turns is delivered. -/
theorem receivesAtomically_intact : ∃ s t d,
    (receiverMachine .sx1276 20).run s [[[.arrive intactArrival]]] = some (t, [d]) ∧ d.1 = 2 ∧
      ReceivesAtomically 20 (arrivedSince s t) [d] := by
  obtain ⟨c, hstart, t, d, hrun, hd⟩ : ∃ c,
      (loraChip .sx1276).run (do radioSetup; loraReceive) [] zeroChip = some ((), [], c) ∧
        ∃ t d, (receiverMachine .sx1276 20).run ⟨c, fun _ => 0⟩ [[[.arrive intactArrival]]] =
          some (t, [d]) ∧ d.1 = 2 := ⟨_, rfl, _, _, rfl, rfl⟩
  refine ⟨⟨c, fun _ => 0⟩, t, d, hrun, hd, receivesAtomically ⟨[], zeroChip, [], hstart⟩ ?_
    [[[.arrive intactArrival]]] [] t [d] rfl hrun⟩
  intro pre gs post u ds hturns hpre
  obtain ⟨rfl, rfl, rfl⟩ : pre = [] ∧ gs = [[.arrive intactArrival]] ∧ post = [] := by
    simpa [List.singleton_eq_append_iff] using hturns
  obtain ⟨rfl, -⟩ := Prod.mk.inj (Option.some_inj.mp hpre)
  refine undisturbed_singleton fun c' hc' => ?_
  obtain ⟨-, rfl⟩ := by simpa [Bus.Device.events_cons, loraChip] using hc'
  simp [Chip.receive, intactArrival]

/-- **A damaged packet is delivered** when it arrives between the moment at which the length is read
and the stop of the radio. -/
theorem not_receiveAtomic : ¬ ReceiveAtomic .sx1276 20 := by
  intro h
  obtain ⟨c, hstart, t, d, hrun, hd, hbuf, harr⟩ : ∃ c,
      (loraChip .sx1276).run (do radioSetup; loraReceive) [] zeroChip = some ((), [], c) ∧
        ∃ t d, (receiverMachine .sx1276 20).run ⟨c, fun _ => 0⟩
          [[[.arrive intactArrival], [], [], [], [.arrive damagedArrival]]] = some (t, [d]) ∧
          d.1 = 2 ∧ d.2.load 0 2 = [7, 8] ∧
          arrivedSince ⟨c, fun _ => 0⟩ t = [intactArrival, damagedArrival] :=
    ⟨_, rfl, _, _, rfl, rfl, rfl, rfl⟩
  obtain ⟨as, hsub, hall⟩ := h ⟨c, fun _ => 0⟩ t _ [d] ⟨[], zeroChip, [], hstart⟩ hrun
  rw [harr] at hsub
  rw [List.filter_singleton, hd] at hall
  obtain ⟨a, as, ⟨hdam, -, hload⟩, -, rfl⟩ := List.forall₂_cons_left_iff.mp hall
  rw [hd, show (2 : ℤ).toNat = 2 from rfl, hbuf] at hload
  have ha : a = intactArrival ∨ a = damagedArrival := by
    simpa using hsub.subset (List.mem_cons_self ..)
  rcases ha with rfl | rfl
  · exact absurd hload (by decide)
  · exact absurd hdam (by decide)

end GpsTracker
