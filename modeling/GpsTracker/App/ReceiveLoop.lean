import GpsTracker.App.Packet
import GpsTracker.Lora.Receiver

/-!
# The receive loop

The loop of `app_main` in its role as a receiver. After each call of `lora_receive_packet` it
publishes the six characteristics from its packet when a client is connected, and ignores the value
that the call returned. After a call that failed, or delivered a packet of another size, it
publishes what was in the packet before. What it publishes in a run is what has been delivered
exactly when, in every turn in which a client is connected and packets have arrived, all of them are
intact and the last one has the size of `packet_t` (`publicationIntegrity_iff`). A damaged first
packet makes the loop publish the initial content of its packet (`not_publicationIntegrity`).

Packets arrive here between the calls of the driver. What happens when they arrive during a call
is the subject of the file on the receiver.

## Main definitions

* `Poll`, `Publication`, `receiveLoop`.
* `PublicationIntegrity`, `Poll.WellReceived`.

## Main results

* `receiveTurn_cases_of_arrive`, `receiveTurn_cases_of_listening`.
* `publicationIntegrity_iff`, `not_publicationIntegrity`.
-/

namespace GpsTracker

/-! ### Turns between whose calls packets arrive -/

section Turn

variable {R : ResetValues}

namespace Chip

variable {c : Chip}

/-- The chip after the arrival of some packets. -/
def receiveAll (c : Chip) (as : List Arrival) : Chip := as.foldl Chip.receive c

theorem events_arrive (hc : c.reg .opMode = modeLongRangeMode ||| modeRxContinuous)
    (as : List Arrival) : (loraChip R).events c (as.map .arrive) = some (c.receiveAll as) := by
  induction as generalizing c with
  | nil => rfl
  | cons a as ih =>
    have hmode : (c.receive a).reg .opMode = modeLongRangeMode ||| modeRxContinuous := by
      simpa [Chip.receive] using hc
    have hevent : (loraChip R).event c (.arrive a) = some (c.receive a) := by simp [loraChip, hc]
    rw [List.map_cons, Bus.Device.events_cons, hevent]
    exact ih hmode

theorem flag_receiveAll_rxDone (as : List Arrival) :
    (c.receiveAll as).flag .rxDone = (c.flag .rxDone || !as.isEmpty) := by
  induction as using List.reverseRecOn with
  | nil => simp [receiveAll]
  | append_singleton as a ih => simp [receiveAll]

theorem flag_receiveAll_crcError (as : List Arrival) :
    (c.receiveAll as).flag .payloadCrcError =
      (c.flag .payloadCrcError || as.any Arrival.damaged) := by
  induction as using List.reverseRecOn with
  | nil => simp [receiveAll]
  | append_singleton as a ih =>
    rw [receiveAll] at ih
    simp [receiveAll, ih, Bool.or_assoc]

@[simp] theorem arrived_receiveAll (as : List Arrival) :
    (c.receiveAll as).arrived = c.arrived ++ as := by
  induction as using List.reverseRecOn with
  | nil => simp [receiveAll]
  | append_singleton as a ih =>
    rw [receiveAll] at ih
    simp [receiveAll, receive, ih]

theorem holds_receiveAll {as : List Arrival} {a : Arrival} (h : as.getLast? = some a) :
    (c.receiveAll as).Holds a := by
  obtain ⟨bs, rfl⟩ := List.getLast?_eq_some_iff.mp h
  rw [receiveAll, List.foldl_append]
  exact holds_receive _ a

end Chip

variable {size : ℤ} {buf : ByteMemory} {c : Chip} {as : List Arrival}

/-- The chip reports the last packet and holds it, whether it arrived just now or earlier. -/
theorem Chip.ReportsLast.receiveAll (hc : c.ReportsLast) {a : Arrival}
    (ha : (c.reported ++ as).getLast? = some a) :
    (c.receiveAll as).Holds a ∧
      (a.damaged = true → (c.receiveAll as).flag .payloadCrcError = true) := by
  rcases as.eq_nil_or_concat' with rfl | ⟨bs, b, rfl⟩
  · rw [List.append_nil, Chip.reported] at ha
    split_ifs at ha with hrx
    · obtain ⟨a', hlast, hholds, hdam⟩ := hc hrx
      obtain rfl : a' = a := by simpa [hlast] using ha
      exact ⟨hholds, hdam⟩
    · simp at ha
  · rw [← List.append_assoc, List.getLast?_concat, Option.some_inj] at ha
    obtain rfl := ha
    refine ⟨Chip.holds_receiveAll List.getLast?_concat, fun hdam => ?_⟩
    simp [Chip.flag_receiveAll_crcError, hdam]

theorem Chip.ReportsLast.reported_eq_nil_iff (hc : c.ReportsLast) :
    c.reported = [] ↔ c.flag .rxDone = false := by
  rw [Chip.reported]
  split_ifs with hrx
  · obtain ⟨a, hlast, -⟩ := hc hrx
    simp [hlast, hrx]
  · simpa using hrx

/-- **What a turn does when packets arrive only before it.** The chip may report a packet that it
has received earlier, but no checksum error. If there is no packet the packet of the loop stays as
it is. If one that arrives is damaged the call fails, and if not it delivers the last one. In each
case the chip then listens again. -/
theorem receiveTurn_cases_of_arrive {gs' : List (List ChipEvent)} {c' : Chip}
    {x : Option ℤ × ByteMemory} (hmode : c.reg .opMode = modeLongRangeMode ||| modeRxContinuous)
    (hc : c.ReportsLast) (hcrc₀ : c.flag .payloadCrcError = false)
    (h : (loraChip R).run (receiveTurn buf size) [as.map .arrive] c = some (x, gs', c')) :
    c'.Listening ∧ c'.arrived = c.arrived ++ as ∧ (c.reported ++ as = [] ∧ x = (none, buf) ∨
      (∃ a ∈ as, a.damaged = true) ∧ x = (some 0, buf) ∨
      (∀ a ∈ as, a.damaged = false) ∧ ∃ a n, (c.reported ++ as).getLast? = some a ∧
        x.1 = some n ∧ Delivers size (n, x.2) a) := by
  obtain ⟨c₀, c₁, gs₁, h₀, hcall, c₂, h₂, rfl⟩ := receiveTurn_cases h
  obtain rfl : c.receiveAll as = c₀ := by
    simpa [Chip.events_arrive hmode] using h₀
  have hrx : (c.receiveAll as).flag .rxDone = false ↔ c.reported ++ as = [] := by
    rw [Chip.flag_receiveAll_rxDone, List.append_eq_nil_iff, hc.reported_eq_nil_iff]
    simp
  have hcrc : (c.receiveAll as).flag .payloadCrcError = as.any Arrival.damaged := by
    rw [Chip.flag_receiveAll_crcError, hcrc₀, Bool.false_or]
  rcases hcall with ⟨hno, rfl, rfl, rfl⟩ | ⟨hyes, n, hx, hcall⟩
  · obtain rfl : c.receiveAll as = c₂ := by simpa using h₂
    have hnil := hrx.mp hno
    obtain rfl := (List.append_eq_nil_iff.mp hnil).2
    exact ⟨Chip.listening_write_opMode hno (by simpa using hcrc), by simp, .inl ⟨hnil, rfl⟩⟩
  · obtain rfl := (loraChip R).rest_eq_nil hcall
    obtain rfl : c₁ = c₂ := by simpa using h₂
    obtain ⟨d₁, d₂, hd₁, hd₂, hcases⟩ := loraReceivePacket_cases hcall
    obtain rfl : c.receiveAll as = d₁ := by simpa using hd₁
    obtain rfl : c.receiveAll as = d₂ := by simpa using hd₂
    have hclear : ∀ i, ((c.receiveAll as).write .irqFlags ((c.receiveAll as).reg .irqFlags)).flag
        i = false := fun i => by
      rw [Chip.flag_write_irqFlags, Chip.flag]
      simp
    rcases hcases with ⟨hno, hx', -, rfl⟩ | ⟨hp, hfetch⟩
    · obtain ⟨rfl, hbuf⟩ := Prod.mk.inj hx'
      refine ⟨Chip.listening_write_opMode (hclear _) (hclear _), by simp,
        .inr (.inl ⟨?_, Prod.ext hx hbuf⟩)⟩
      rw [Chip.HasPacket, not_and, hcrc, Bool.not_eq_false, List.any_eq_true] at hno
      exact hno hyes
    · have hintact : ∀ a ∈ as, a.damaged = false := by
        simpa [hcrc] using hp.2
      have hne : c.reported ++ as ≠ [] := fun hnil => by simp [hrx.mpr hnil] at hyes
      obtain ⟨a, ha⟩ : ∃ a, (c.reported ++ as).getLast? = some a :=
        ⟨_, List.getLast?_eq_some_getLast hne⟩
      obtain ⟨hholds, hdam⟩ := hc.receiveAll ha
      have hgood : a.damaged = false := Bool.eq_false_iff.mpr fun hd => by
        simpa [hp.2] using hdam hd
      obtain ⟨hdel, harr, hflag⟩ := fetch_delivers (hholds.write_irqFlags _) hgood rfl rfl hfetch
      have hquiet : ∀ i, c₁.flag i = false := fun i => (hflag i).trans (hclear i)
      exact ⟨Chip.listening_write_opMode (hquiet _) (hquiet _), by simp [harr],
        .inr (.inr ⟨hintact, a, n, ha, hx, hdel⟩)⟩

/-- The same for a chip that reports nothing. -/
theorem receiveTurn_cases_of_listening {gs' : List (List ChipEvent)} {c' : Chip}
    {x : Option ℤ × ByteMemory} (hc : c.Listening)
    (h : (loraChip R).run (receiveTurn buf size) [as.map .arrive] c = some (x, gs', c')) :
    c'.Listening ∧ (as = [] ∧ x = (none, buf) ∨
      (∃ a ∈ as, a.damaged = true) ∧ x = (some 0, buf) ∨
      (∀ a ∈ as, a.damaged = false) ∧ ∃ a n, as.getLast? = some a ∧ x.1 = some n ∧
        Delivers size (n, x.2) a) := by
  have hlast : c.ReportsLast := fun hrx => absurd (hc.rxDone.symm.trans hrx) (by simp)
  obtain ⟨hc', -, hcases⟩ := receiveTurn_cases_of_arrive hc.mode hlast hc.crcError h
  rw [hlast.reported_eq_nil_iff.mpr hc.rxDone, List.nil_append] at hcases
  exact ⟨hc', hcases⟩

end Turn

/-! ### The loop -/

/-- What a turn of the loop meets: the packets that have arrived since the turn before, and whether
a client is connected when it publishes. -/
structure Poll where
  arrivals : List Arrival
  connected : Bool

/-- A publication: the value that `lora_receive_packet` has returned in the same turn, the packet
then, and the values set and notified. -/
structure Publication where
  size : ℤ
  packet : ByteMemory
  values : Characteristic → List UInt8

/-- What is published after the calls of a turn. -/
def publications (connected : Bool) (x : Option ℤ × ByteMemory) : List Publication :=
  if connected then x.1.toList.map fun n => ⟨n, x.2, fun c => c.value x.2⟩ else []

/-- The receive loop of `app_main`, turn by turn. -/
def receiveLoop (R : ResetValues) : Transducer Receiver Poll Publication where
  step s p :=
    ((loraChip R).run (receiveTurn s.buf packetT.sizeof) [p.arrivals.map .arrive] s.chip).map
      fun x => (⟨x.2.2, x.1.2⟩, publications p.connected x.1)

/-- What a turn publishes is taken from the packet that has been delivered in this turn, which is
the last that has arrived, is intact and has the size of `packet_t`. -/
def PublishesDelivered (p : Poll) (o : List Publication) : Prop :=
  ∀ pub ∈ o, ∃ a, p.arrivals.getLast? = some a ∧ a.data.length = packetT.sizeof ∧
    Delivers packetT.sizeof (pub.size, pub.packet) a ∧
    ∀ c, pub.values c = (a.data.drop (packetT.offset c.member)).take c.numBytes

/-- Every turn of the run publishes what has been delivered in it. -/
def PublicationIntegrity (R : ResetValues) (s : Receiver) (polls : List Poll) : Prop :=
  ∀ pre p post t ds u o, polls = pre ++ p :: post → (receiveLoop R).run s pre = some (t, ds) →
    (receiveLoop R).step t p = some (u, o) → PublishesDelivered p o

/-- If a client is connected and packets have arrived, all of them are intact and the last one has
the size of `packet_t`. -/
def Poll.WellReceived (p : Poll) : Prop :=
  p.connected = true → p.arrivals ≠ [] → (∀ a ∈ p.arrivals, a.damaged = false) ∧
    ∀ a, p.arrivals.getLast? = some a → a.data.length = packetT.sizeof

/-- The values set from a packet that has been delivered are its fields. -/
theorem Delivers.value_eq {d : Delivery} {a : Arrival} (h : Delivers packetT.sizeof d a)
    (hlen : a.data.length = packetT.sizeof) (c : Characteristic) :
    c.value d.2 = (a.data.drop (packetT.offset c.member)).take c.numBytes := by
  obtain ⟨-, hn, hload⟩ := h
  have hsize : d.1.toNat = packetT.sizeof := by omega
  have hle := packetT.offset_add_size_le c.member
  rw [← c.numBytes_eq] at hle
  rw [hsize, List.take_of_length_le hlen.le] at hload
  rw [← hload, d.2.take_drop_load hle, Characteristic.value]

/-- **One turn.** It completes, the chip listens again, and the turn publishes what has been
delivered in it exactly when its packets have been well received. -/
theorem receiveLoop_step {R : ResetValues} {t : Receiver} (ht : t.chip.Listening) (p : Poll) :
    ∃ u o, (receiveLoop R).step t p = some (u, o) ∧ u.chip.Listening ∧
      (PublishesDelivered p o ↔ p.WellReceived) := by
  obtain ⟨⟨x, gs', c'⟩, hrun⟩ := (loraChip R).exists_run_singleton
    (atMost_receiveTurn t.buf packetT.sizeof) (Chip.events_arrive ht.mode p.arrivals)
  obtain ⟨hlisten, hcases⟩ := receiveTurn_cases_of_listening ht hrun
  have hstep : (receiveLoop R).step t p = some (⟨c', x.2⟩, publications p.connected x) := by
    change Option.map _ ((loraChip R).run _ _ _) = _
    rw [hrun, Option.map_some]
  refine ⟨_, _, hstep, hlisten, ?_⟩
  cases hconn : p.connected with
  | false => simp [PublishesDelivered, Poll.WellReceived, publications, hconn]
  | true =>
    rcases hcases with ⟨hnil, rfl⟩ | ⟨⟨a, ha, hdam⟩, rfl⟩ | ⟨hintact, a, n, hlast, hx, hdel⟩
    · simp [PublishesDelivered, Poll.WellReceived, publications, hnil]
    · refine iff_of_false (fun hpub => ?_) fun hwell => ?_
      · obtain ⟨b, -, -, ⟨-, hn, -⟩, -⟩ := hpub ⟨0, t.buf, fun c => c.value t.buf⟩
          (by simp [publications])
        have hpos := b.length_pos
        dsimp only at hn
        rw [sizeof_packetT] at hn
        omega
      · have hfalse := (hwell hconn (List.ne_nil_of_mem ha)).1 a ha
        exact absurd (hdam.symm.trans hfalse) (by simp)
    · have hpubs : publications true x = [⟨n, x.2, fun c => c.value x.2⟩] := by
        simp [publications, hx]
      rw [hpubs]
      constructor
      · intro hpub _ _
        obtain ⟨b, hb, hlen, -⟩ := hpub _ (List.mem_singleton_self _)
        refine ⟨hintact, fun a' ha' => ?_⟩
        obtain rfl : b = a' := Option.some_inj.mp (hb.symm.trans ha')
        exact hlen
      · intro hwell pub hpub
        obtain rfl := List.mem_singleton.mp hpub
        have hlen := (hwell hconn (List.ne_nil_of_mem (List.mem_of_getLast? hlast))).2 a hlast
        exact ⟨a, hlast, hlen, hdel, fun c => hdel.value_eq hlen c⟩

/-! ### Runs -/

/-- In a run that begins when the receiver has started, the chip listens between two turns. -/
theorem exists_receiveLoop_run {R : ResetValues} {s : Receiver} (hs : s.Started R)
    (polls : List Poll) :
    ∃ t ds, (receiveLoop R).run s polls = some (t, ds) ∧ t.chip.Listening := by
  refine Transducer.run_invariant (fun _ _ (t : Receiver) => t.chip.Listening) hs.listening ?_ polls
  intro xs ds t p ht
  obtain ⟨u, o, hstep, hu, -⟩ := receiveLoop_step (R := R) ht p
  exact ⟨u, o, hstep, hu⟩

/-- **The loop publishes what has been delivered exactly when every turn in which a client is
connected has received its packets well.** -/
theorem publicationIntegrity_iff {R : ResetValues} {s : Receiver} (hs : s.Started R)
    (polls : List Poll) : PublicationIntegrity R s polls ↔ ∀ p ∈ polls, p.WellReceived := by
  constructor
  · intro h p hp
    obtain ⟨pre, post, rfl⟩ := List.append_of_mem hp
    obtain ⟨t, ds, hrun, ht⟩ := exists_receiveLoop_run hs pre
    obtain ⟨u, o, hstep, -, hiff⟩ := receiveLoop_step (R := R) ht p
    exact hiff.mp (h pre p post t ds u o rfl hrun hstep)
  · rintro h pre p post t ds u o rfl hrun hstep
    obtain ⟨t', ds', hrun', ht⟩ := exists_receiveLoop_run hs pre
    obtain ⟨rfl, rfl⟩ := Prod.mk.inj (Option.some_inj.mp (hrun'.symm.trans hrun))
    obtain ⟨u', o', hstep', -, hiff⟩ := receiveLoop_step (R := R) ht p
    obtain ⟨rfl, rfl⟩ := Prod.mk.inj (Option.some_inj.mp (hstep'.symm.trans hstep))
    exact hiff.mpr (h p (by simp))

/-- A packet with the size of `packet_t`. -/
def wholePacket : Arrival := ⟨List.replicate 20 1, 0, false, by decide, by decide⟩

/-- A packet of the right size is published as it is. -/
theorem publicationIntegrity_wholePacket : ∃ s t pub, s.Started .sx1276 ∧
    (receiveLoop .sx1276).run s [⟨[wholePacket], true⟩] = some (t, [pub]) ∧ pub.size = 20 ∧
      pub.values .lat = [1, 1, 1, 1] ∧ PublicationIntegrity .sx1276 s [⟨[wholePacket], true⟩] := by
  obtain ⟨c, hstart, t, pub, hrun, hsize, hlat⟩ : ∃ c,
      (loraChip .sx1276).run (do radioSetup; loraReceive) [] zeroChip = some ((), [], c) ∧
        ∃ t pub, (receiveLoop .sx1276).run ⟨c, fun _ => 0⟩ [⟨[wholePacket], true⟩] =
          some (t, [pub]) ∧ pub.size = 20 ∧ pub.values .lat = [1, 1, 1, 1] :=
    ⟨_, rfl, _, _, rfl, rfl, rfl⟩
  have hs : Receiver.Started .sx1276 ⟨c, fun _ => 0⟩ := ⟨[], zeroChip, [], hstart⟩
  refine ⟨_, t, pub, hs, hrun, hsize, hlat, (publicationIntegrity_iff hs _).mpr ?_⟩
  simp [Poll.WellReceived, wholePacket, sizeof_packetT]

/-- **A damaged packet makes the loop publish the initial content of its packet.** -/
theorem not_publicationIntegrity :
    ¬ ∀ s : Receiver, s.Started .sx1276 → ∀ polls, PublicationIntegrity .sx1276 s polls := by
  intro h
  obtain ⟨c, hstart⟩ : ∃ c,
      (loraChip .sx1276).run (do radioSetup; loraReceive) [] zeroChip = some ((), [], c) :=
    ⟨_, rfl⟩
  have hs : Receiver.Started .sx1276 ⟨c, fun _ => 0⟩ := ⟨[], zeroChip, [], hstart⟩
  obtain ⟨u, o, hstep, -, hiff⟩ := receiveLoop_step (R := .sx1276) hs.listening
    ⟨[damagedArrival], true⟩
  have hwell := hiff.mp (h _ hs [⟨[damagedArrival], true⟩] [] _ [] _ [] u o rfl rfl hstep)
  exact absurd (hwell rfl (by simp)).1 (by simp [damagedArrival])

end GpsTracker
