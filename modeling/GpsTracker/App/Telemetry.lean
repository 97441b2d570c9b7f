import GpsTracker.App.Sampling
import GpsTracker.App.ReceiveLoop
import GpsTracker.Ble.Server
import GpsTracker.Lora.Link
import GpsTracker.Stream.Replay

/-!
# From the sender to the clients

The two devices together. The sender puts packets on the air, the receiver hears some of them and
may hear damaged ones, its loop copies what it receives to the characteristics and notifies the
clients, and meanwhile the clients connect, disconnect, read, and switch notifications on and off.
All this happens in any order, and packets arrive between any two accesses to the chip of the
receiver, also during a call of `lora_receive_packet` and while the loop publishes.

The results rest on these assumptions. The two radios have been set up by `app_main`, the one of the
receiver listens, the server has just been created, and no client is connected (`Started`). The
characteristics have distinct handles. The clients respect the properties of the characteristics,
which are not to be written, write to descriptors what fits into a packet, and negotiate packet
sizes from 23 to 601 bytes (`BleServer.Reportable`). Nobody but the sender sends packets that are
heard intact. The turns of the receiver are undisturbed (`UndisturbedTurns`): in a call that fetches
a packet, none arrives between the clearing of the flags and the stop of the radio, and the last one
before is intact. Without this a damaged packet can be delivered (`not_receiveAtomic`).

What a run then keeps (`Telemetry.Sound`) is about the packets on their way: the one in the memory
of the receiver, the one that its chip reports, and those that have still to arrive. Their values
follow the one that the server has in the history of what has been sent.

## Main definitions

* `Telemetry`, `telemetry`, `Telemetry.UndisturbedTurns`.
* `Characteristic.replay`, `Telemetry.Sound`.

## Main results

* `Telemetry.Started.sound_of_run`.
-/

namespace GpsTracker

/-! ### The system -/

/-- An operation by which the loop of the receiver publishes its packet. -/
inductive PublishOp where
  | setValue (c : Characteristic)
  | notify (c : Characteristic)
  deriving DecidableEq, Repr

/-- The characteristics in the order in which the loop publishes them. -/
def Characteristic.all : List Characteristic := [.fix, .numSat, .lat, .lon, .speed, .height]

theorem Characteristic.mem_all (c : Characteristic) : c ∈ all := by
  cases c <;> decide

/-- The operations on some characteristics. -/
def publishOps (cs : List Characteristic) : List PublishOp :=
  cs.flatMap fun c => [.setValue c, .notify c]

/-- The radio of the sender; the receiver with its radio, the packets that it hears and that have
still to arrive at its chip, its server, its flag, and what its loop has still to publish. -/
structure Telemetry where
  sender : Chip
  receiver : Receiver
  arrivals : List Arrival
  server : BleServer Characteristic
  deviceConnected : Bool
  todo : List PublishOp

/-- What happens: the sender sends a packet with members read from the memories `nav`, and the
receiver hears some packets; it hears noise; the stack reports an event; the loop of the receiver
looks for packets, with something happening at the chip before each of its accesses; or it makes a
step of publishing, the stack sending notifications to the clients of the set `sent`. -/
inductive TelemetryEvent where
  | send (nav : PacketMember → ByteMemory) (stack : ByteMemory) (gs : List (List ChipEvent))
      (heard : List Arrival)
  | noise (heard : List Arrival)
  | client (e : ServerEvent Characteristic)
  | receive (gs : List (List ChipEvent))
  | publish (sent : ℕ → Bool)

/-- What can be observed: the packets that are sent, and what the server does. -/
inductive TelemetryAction where
  | sent (v : packetT.Value)
  | server (a : ServerAction)

/-- The callbacks of `MyServerCallbacks`. -/
def callback (deviceConnected : Bool) : ServerAction → Bool
  | .onConnect => true
  | .onDisconnect => false
  | _ => deviceConnected

/-- What the stack may report of clients that do not write to the characteristics. -/
def BleServer.Reportable {ι : Type} (order : List ι) (s : BleServer ι) : ServerEvent ι → Prop
  | .connect conn => conn ∉ s.connectedServers.keys ∧ conn < 2 ^ 16
  | .disconnect conn => conn ∈ s.connectedServers.keys
  | .mtu conn mtu => conn ∈ s.connectedServers.keys ∧ 23 ≤ mtu ∧ mtu ≤ espGattMaxAttrLen + 1
  | .read conn _ _ _ => conn ∈ s.connectedServers.keys
  | .write conn h _ _ _ value => conn ∈ s.connectedServers.keys ∧ Fits value ∧
      ∀ i ∈ order, h ≠ (s.chars i).handle
  | .execWrite conn _ => conn ∈ s.connectedServers.keys
  | .setValue _ _ | .notify _ _ => False

instance {ι : Type} (order : List ι) (s : BleServer ι) (e : ServerEvent ι) :
    Decidable (s.Reportable order e) := by
  cases e <;> unfold BleServer.Reportable <;> infer_instance

/-- The packets that are not damaged. -/
def intact (as : List Arrival) : List Arrival := as.filter fun a => !a.damaged

/-- What the radio of the receiver can hear of the packets `air`: each of them or not, in their
order, and damaged packets. -/
def Hears (heard : List Arrival) (air : List (List UInt8)) : Prop :=
  ((intact heard).map Arrival.data).Sublist air

instance (heard : List Arrival) (air : List (List UInt8)) : Decidable (Hears heard air) :=
  inferInstanceAs (Decidable (List.Sublist _ _))

namespace Telemetry

/-- A turn of the loop of the sender. -/
def send (R : ResetValues) (s : Telemetry) (nav : PacketMember → ByteMemory) (stack : ByteMemory)
    (gs : List (List ChipEvent)) (heard : List Arrival) :
    Option (Telemetry × List TelemetryAction) := do
  let v := packetOf nav
  let (_, _, chip) ←
    (loraChip R).run (loraSendPacket (packetT.write stack v) packetT.sizeof) gs s.sender
  if Hears heard (chip.air.drop s.sender.air.length) then
    return ({ s with sender := chip, arrivals := s.arrivals ++ heard }, [.sent v])
  else none

/-- An event of the stack. -/
def client (order : List Characteristic) (s : Telemetry) (e : ServerEvent Characteristic) :
    Option (Telemetry × List TelemetryAction) := do
  if s.server.Reportable order e then
    let (server, as) ← (bleServer order).step s.server e
    return ({ s with
      server := server
      deviceConnected := as.foldl callback s.deviceConnected }, as.map .server)
  else none

/-- A turn of the loop of the receiver, from the call of `lora_received` to the next call of
`lora_receive`. What arrives at the chip is what the receiver hears next. The loop publishes if it
has called `lora_receive_packet` and a client is connected. The call of `lora_receive` comes after
that in the source, but only sets the mode: what arrives in between arrives here before the next
turn. -/
def receive (R : ResetValues) (s : Telemetry) (gs : List (List ChipEvent)) :
    Option (Telemetry × List TelemetryAction) :=
  if s.todo = [] then do
    let ((n, buf), _, chip) ←
      (loraChip R).run (receiveTurn s.receiver.buf packetT.sizeof) gs s.receiver.chip
    let heard := s.receiver.chip.arrived ++ s.arrivals
    if chip.arrived <+: heard then
      return ({ s with
        receiver := ⟨chip, buf⟩
        arrivals := heard.drop chip.arrived.length
        todo := if n.isSome ∧ s.deviceConnected then publishOps Characteristic.all else [] }, [])
    else none
  else none

/-- A step of publishing. -/
def publish (s : Telemetry) (sent : ℕ → Bool) : Option (Telemetry × List TelemetryAction) :=
  match s.todo with
  | .setValue c :: ops =>
    some ({ s with server := s.server.setValue c (c.value s.receiver.buf), todo := ops }, [])
  | .notify c :: ops => do
    let as ← s.server.notify c sent
    return ({ s with todo := ops }, as.map .server)
  | [] => none

/-- The devices when their loops begin. -/
structure Started (R R' : ResetValues) (handle descHandle : Characteristic → ℕ)
    (s : Telemetry) : Prop where
  sender : ∃ gs c₀ gs', (loraChip R).run radioSetup gs c₀ = some ((), gs', s.sender)
  receiver : s.receiver.Started R'
  arrivals : s.arrivals = []
  server : s.server = .init handle descHandle
  deviceConnected : s.deviceConnected = false
  todo : s.todo = []

end Telemetry

/-- The two devices, with radios of their own. -/
def telemetry (R R' : ResetValues) (order : List Characteristic) :
    Transducer Telemetry TelemetryEvent TelemetryAction where
  step s
    | .send nav stack gs heard => s.send R nav stack gs heard
    | .noise heard =>
      if Hears heard [] then some ({ s with arrivals := s.arrivals ++ heard }, []) else none
    | .client e => s.client order e
    | .receive gs => s.receive R' gs
    | .publish sent => s.publish sent

/-- The turns of the loop of the receiver in a run are undisturbed. -/
def Telemetry.UndisturbedTurns (R R' : ResetValues) (order : List Characteristic) (s : Telemetry)
    (es : List TelemetryEvent) : Prop :=
  ∀ pre gs post t os, es = pre ++ .receive gs :: post →
    (telemetry R R' order).run s pre = some (t, os) → Undisturbed R' t.receiver.chip gs

/-! ### What is shown -/

/-- The value of the characteristic with a handle that a client is shown. -/
def ServerAction.shown (handle : ℕ) : ServerAction → Option (List UInt8)
  | .notification _ h value => if h = handle then some value else none
  | .readResponse _ h rsp => if h = handle then some rsp.value else none
  | _ => none

namespace Characteristic

/-- The value of a characteristic from a packet. -/
def encoding (c : Characteristic) (v : packetT.Value) : List UInt8 :=
  (packetT.type c.member).encode (v.val c.member)

/-- The bytes of a packet that are the value of a characteristic. -/
def slice (c : Characteristic) (data : List UInt8) : List UInt8 :=
  (data.drop (packetT.offset c.member)).take c.numBytes

/-- What is recorded of a characteristic when packets are sent, and shown in the responses and the
notifications of the server. At the start there are the empty value of the characteristic and the
one in the memory of the receiver. -/
def replay (c : Characteristic) (handle : ℕ) (packet : ByteMemory) :
    Replay TelemetryAction (List UInt8) where
  recorded
    | .sent v => some (c.encoding v)
    | .server _ => none
  shown
    | .sent _ => none
    | .server a => a.shown handle
  initial := [[], c.value packet]

/-- The value of a characteristic in a packet on the air. -/
theorem slice_write (c : Characteristic) (stack : ByteMemory) (v : packetT.Value) :
    c.slice ((packetT.write stack v).load 0 packetT.sizeof) = c.encoding v := by
  have hle := packetT.offset_add_size_le c.member
  rw [← c.numBytes_eq] at hle
  rw [slice, ByteMemory.take_drop_load _ hle]
  exact (c.value_eq_bytes _).trans (packetT.bytes_write stack v c.member)

theorem fits_value (c : Characteristic) (packet : ByteMemory) : Fits (c.value packet) := by
  rw [Fits, value, ByteMemory.length_load]
  cases c <;> decide

end Characteristic

/-! ### The invariant -/

namespace Telemetry

/-- The values are those of one packet: the one in the memory of the receiver at the start, or one
that has been sent. -/
def FromPacket (packet₀ : ByteMemory) (os : List TelemetryAction)
    (value : Characteristic → List UInt8) : Prop :=
  (∀ c, value c = c.value packet₀) ∨ ∃ v, .sent v ∈ os ∧ ∀ c, value c = c.encoding v

/-- The value of a characteristic in the server. -/
def value (s : Telemetry) (c : Characteristic) : List UInt8 := (s.server.chars c).value.value

/-- The intact packets on their way to the loop of the receiver: the one that its chip reports, and
those that have still to arrive there. -/
def packets (s : Telemetry) : List Arrival := intact (s.receiver.chip.reported ++ s.arrivals)

/-- The values of a characteristic on their way to the server: in the packet of the receiver, and
in the packets on their way to it. -/
def onTheWay (s : Telemetry) (c : Characteristic) : List (List UInt8) :=
  c.value s.receiver.buf :: s.packets.map fun a => c.slice a.data

/-- What holds after every run, in which `os` has been observed. -/
structure Sound (handle descHandle : Characteristic → ℕ) (packet₀ : ByteMemory)
    (os : List TelemetryAction) (s : Telemetry) : Prop where
  ready : ∃ A, s.sender.Ready A
  mode : s.receiver.chip.reg .opMode = modeLongRangeMode ||| modeRxContinuous
  reportsLast : s.receiver.chip.ReportsLast
  refines : ∃ t : GattSpec Characteristic, s.server.Refines handle descHandle t ∧
    ∀ c, t.pending c = []
  packets_sent : ∀ a ∈ s.packets, ∃ v stack, .sent v ∈ os ∧
    a.data = (packetT.write stack v).load 0 packetT.sizeof
  packet : FromPacket packet₀ os fun c => c.value s.receiver.buf
  published : s.todo ≠ [] → ∀ c, .setValue c ∉ s.todo → s.value c = c.value s.receiver.buf
  consistent : s.todo = [] → (∀ c, s.value c = []) ∨ FromPacket packet₀ os s.value
  follows : ∀ c : Characteristic,
    (c.replay (handle c) packet₀).Follows os (s.value c) (s.onTheWay c)

variable {R R' : ResetValues} {handle descHandle : Characteristic → ℕ} {packet₀ : ByteMemory}
  {os os' : List TelemetryAction} {s s' : Telemetry} {order : List Characteristic}

theorem FromPacket.append {value : Characteristic → List UInt8} (h : FromPacket packet₀ os value)
    (os' : List TelemetryAction) : FromPacket packet₀ (os ++ os') value := by
  rcases h with h | ⟨v, hv, h⟩
  · exact .inl h
  · exact .inr ⟨v, List.mem_append_left _ hv, h⟩

theorem Started.packets_eq_nil (h : s.Started R R' handle descHandle) : s.packets = [] := by
  simp [packets, Chip.reported, h.receiver.listening.rxDone, h.arrivals, intact]

theorem Started.sound (h : s.Started R R' handle descHandle) :
    s.Sound handle descHandle s.receiver.buf [] where
  ready := by
    obtain ⟨gs, c₀, gs', hrun⟩ := h.sender
    exact ⟨_, (triple_radioSetup R _ _ _ _ _ trivial hrun).ready⟩
  mode := h.receiver.listening.mode
  reportsLast := h.receiver.accounts.reportsLast
  refines := ⟨.init, h.server ▸ BleServer.refines_init handle descHandle, fun _ => rfl⟩
  packets_sent := by simp [h.packets_eq_nil]
  packet := .inl fun _ => rfl
  published hne := absurd h.todo hne
  consistent _ := .inl fun c => by rw [value, h.server]; rfl
  follows c := by
    refine Replay.follows_nil _ _ ?_
    simp [Characteristic.replay, onTheWay, value, h.server, h.packets_eq_nil, BleServer.init,
      BleValue.init]

/-- The receiver hears some packets of those that are being sent. -/
theorem Sound.hear (h : s.Sound handle descHandle packet₀ os) {sender : Chip} {heard : List Arrival}
    {air : List (List UInt8)} {A : List (List UInt8)} (hready : sender.Ready A)
    (hheard : Hears heard air)
    (hair : ∀ d ∈ air, ∃ v stack, .sent v ∈ os ++ os' ∧
      d = (packetT.write stack v).load 0 packetT.sizeof)
    (hshown : ∀ c o, o ∈ os' → (Characteristic.replay c (handle c) packet₀).shown o = none)
    (hrecorded : ∀ c : Characteristic, (air.map c.slice).Sublist
      (os'.filterMap (c.replay (handle c) packet₀).recorded)) :
    Sound handle descHandle packet₀ (os ++ os')
      { s with sender := sender, arrivals := s.arrivals ++ heard } := by
  have happend : packets { s with sender := sender, arrivals := s.arrivals ++ heard } =
      s.packets ++ intact heard := by
    simp [packets, intact]
  refine ⟨⟨A, hready⟩, h.mode, h.reportsLast, h.refines, fun a ha => ?_, h.packet.append os',
    h.published, fun hnil => (h.consistent hnil).imp_right (·.append os'), fun c => ?_⟩
  · rw [happend] at ha
    rcases List.mem_append.mp ha with ha | ha
    · obtain ⟨v, stack, hv, hdata⟩ := h.packets_sent a ha
      exact ⟨v, stack, List.mem_append_left _ hv, hdata⟩
    · exact hair a.data (hheard.subset (List.mem_map_of_mem ha))
  · have hsub : ((intact heard).map fun a => c.slice a.data).Sublist
        (os'.filterMap (c.replay (handle c) packet₀).recorded) := by
      have hmap := (hheard.map c.slice).trans (hrecorded c)
      rwa [List.map_map] at hmap
    have hfollows := (h.follows c).record (hshown c) hsub
    rw [onTheWay, happend, List.map_append, ← List.cons_append]
    exact hfollows

/-- **A packet is sent.** -/
theorem Sound.send (h : s.Sound handle descHandle packet₀ os) {nav : PacketMember → ByteMemory}
    {stack : ByteMemory} {gs : List (List ChipEvent)} {heard : List Arrival}
    (hstep : s.send R nav stack gs heard = some (s', os')) :
    s'.Sound handle descHandle packet₀ (os ++ os') := by
  obtain ⟨A, hready⟩ := h.ready
  obtain ⟨⟨⟨⟩, gs', chip⟩, hrun, hstep⟩ := Option.bind_eq_some_iff.mp hstep
  obtain ⟨hheard, hstep⟩ := Option.ite_none_right_eq_some.mp hstep
  obtain ⟨rfl, rfl⟩ := Prod.mk.inj (Option.some.inj hstep)
  have hpos : (0 : ℤ) ≤ packetT.sizeof := by omega
  have hsize : (packetT.sizeof : ℤ) < 256 := by
    rw [sizeof_packetT]
    decide
  have hsend := triple_loraSendPacket (packetT.write stack (packetOf nav)) hpos hsize _ _ _ _ _
    hready hrun
  have hair : chip.air.drop s.sender.air.length =
      [(packetT.write stack (packetOf nav)).load 0 packetT.sizeof] := by
    rw [hsend.air, hready.air, List.drop_left, sentPacket, Int.toNat_natCast]
  rw [hair] at hheard
  refine h.hear hsend hheard ?_ (by simp [Characteristic.replay]) fun c => ?_
  · intro d hd
    exact ⟨packetOf nav, stack, by simp, List.mem_singleton.mp hd⟩
  · simp [Characteristic.replay, c.slice_write]

end Telemetry

/-- **What the stack may report** has an effect that is specified: the values stay as they are, and
clients are shown no others. -/
theorem BleServer.Refines.exists_step_of_reportable {handle descHandle : Characteristic → ℕ}
    {order : List Characteristic} {server : BleServer Characteristic} {t : GattSpec Characteristic}
    (h : server.Refines handle descHandle t) (hpending : ∀ c, t.pending c = [])
    (horder : ∀ c, c ∈ order) (hhandle : Function.Injective handle)
    {e : ServerEvent Characteristic} (he : server.Reportable order e) :
    ∃ t' as, (gattSpec order handle descHandle).step t e = some (t', as) ∧ t'.value = t.value ∧
      (∀ c, t'.pending c = []) ∧ ∀ a ∈ as, ∀ c x, a.shown (handle c) = some x → x = t.value c := by
  have hkeys := h.keys_eq
  cases e with
  | connect conn =>
    exact ⟨_, _, if_pos (hkeys ▸ he), rfl, hpending, by simp [ServerAction.shown]⟩
  | disconnect conn =>
    exact ⟨_, _, if_pos (hkeys ▸ he), rfl, hpending, by simp [ServerAction.shown]⟩
  | mtu conn mtu =>
    exact ⟨_, _, if_pos (hkeys ▸ he), rfl, hpending, by simp⟩
  | read conn a isLong needRsp =>
    refine ⟨_, _, if_pos (hkeys ▸ he), rfl, hpending, ?_⟩
    intro act hact c x hx
    obtain ⟨i, -, hact⟩ := List.mem_flatMap.mp hact
    split_ifs at hact with hi
    · obtain rfl := List.mem_singleton.mp hact
      obtain ⟨hic, rfl⟩ : a = handle c ∧ t.value i = x := by simpa [ServerAction.shown] using hx
      rw [hhandle (hi.1.symm.trans hic)]
    · simp at hact
  | write conn a offset isPrep needRsp data =>
    obtain ⟨hconn, hfits, hother⟩ := he
    have hne : ∀ c, a ≠ handle c := fun c => (h.chars_hold c).handle_eq ▸ hother c (horder c)
    have hlen : data.length ≤ 100 := hfits.le.trans (by decide)
    exact ⟨_, _, if_pos ⟨hkeys ▸ hconn, hlen, fun _ => hfits⟩, by simp [hne],
      by simp [hne, hpending], by simp [hne]⟩
  | execWrite conn exec =>
    have hfits : ∀ i ∈ order, exec = true → Fits (t.pending i) := by
      intro i _ _
      rw [hpending]
      decide
    refine ⟨_, _, if_pos ⟨hkeys ▸ he, hfits⟩, by simp [hpending], fun _ => rfl, ?_⟩
    intro act hact c x hx
    obtain ⟨i, -, rfl⟩ := List.mem_map.mp hact
    simp [ServerAction.shown] at hx
  | setValue i data => exact he.elim
  | notify i sent => exact he.elim

namespace Telemetry

variable {R R' : ResetValues} {handle descHandle : Characteristic → ℕ} {packet₀ : ByteMemory}
  {os os' : List TelemetryAction} {s s' : Telemetry} {order : List Characteristic}

theorem FromPacket.congr {value value' : Characteristic → List UInt8}
    (h : FromPacket packet₀ os value) (hvalue : ∀ c, value' c = value c) :
    FromPacket packet₀ os value' := by
  rwa [funext hvalue]

theorem Sound.packets_sent_append (h : s.Sound handle descHandle packet₀ os)
    (os' : List TelemetryAction) : ∀ a ∈ s.packets, ∃ v stack, .sent v ∈ os ++ os' ∧
      a.data = (packetT.write stack v).load 0 packetT.sizeof := by
  intro a ha
  obtain ⟨v, stack, hv, hdata⟩ := h.packets_sent a ha
  exact ⟨v, stack, List.mem_append_left _ hv, hdata⟩

/-- Nothing is recorded by what the server does, and what it shows is the value of a
characteristic. -/
theorem follows_server {c : Characteristic} {value : List UInt8} {rest : List (List UInt8)}
    (h : (c.replay (handle c) packet₀).Follows os value rest) {as : List ServerAction}
    (hshown : ∀ a ∈ as, ∀ x, a.shown (handle c) = some x → x = value) :
    (c.replay (handle c) packet₀).Follows (os ++ as.map .server) value rest := by
  refine h.show ?_ ?_
  · intro o ho x hx
    obtain ⟨a, ha, rfl⟩ := List.mem_map.mp ho
    exact hshown a ha x hx
  · intro o ho
    obtain ⟨a, -, rfl⟩ := List.mem_map.mp ho
    rfl

theorem value_eq {t : GattSpec Characteristic} (h : s.server.Refines handle descHandle t)
    (c : Characteristic) : s.value c = t.value c := by
  rw [value, (h.chars_hold c).value_eq]

/-- **The stack reports an event.** -/
theorem Sound.client (h : s.Sound handle descHandle packet₀ os) (hnodup : order.Nodup)
    (horder : ∀ c, c ∈ order) (hhandle : Function.Injective handle)
    {e : ServerEvent Characteristic} (hstep : s.client order e = some (s', os')) :
    s'.Sound handle descHandle packet₀ (os ++ os') := by
  obtain ⟨t, ht, hpending⟩ := h.refines
  obtain ⟨he, hstep⟩ := Option.ite_none_right_eq_some.mp hstep
  obtain ⟨⟨server, as⟩, hserver, hstep⟩ := Option.bind_eq_some_iff.mp hstep
  obtain ⟨rfl, rfl⟩ := Prod.mk.inj (Option.some.inj hstep)
  obtain ⟨t', as', hspec, hvalue, hpending', hshown⟩ :=
    ht.exists_step_of_reportable hpending horder hhandle he
  obtain ⟨server', hserver', ht'⟩ := ht.step hnodup horder hspec
  obtain ⟨rfl, rfl⟩ := Prod.mk.inj (Option.some.inj (hserver'.symm.trans hserver))
  have hsame : ∀ c, (server'.chars c).value.value = s.value c := by
    intro c
    rw [value_eq ht, ← hvalue, (ht'.chars_hold c).value_eq]
  refine ⟨h.ready, h.mode, h.reportsLast, ⟨t', ht', hpending'⟩, h.packets_sent_append _,
    h.packet.append _, fun hne c hc => (hsame c).trans (h.published hne c hc), fun hnil => ?_,
    fun c => ?_⟩
  · exact (h.consistent hnil).imp (fun hempty c => (hsame c).trans (hempty c))
      fun hpacket => (hpacket.append _).congr hsame
  · have hshows : ∀ a ∈ as', ∀ x, a.shown (handle c) = some x → x = s.value c :=
      fun a ha x hx => (hshown a ha c x hx).trans (value_eq ht c).symm
    have hfollows := follows_server (h.follows c) hshows
    rw [← hsame c] at hfollows
    exact hfollows

/-- **An operation on a characteristic.** -/
theorem Sound.operate (h : s.Sound handle descHandle packet₀ os)
    {ops : List PublishOp} {server : BleServer Characteristic} {t : GattSpec Characteristic}
    (ht : server.Refines handle descHandle t) (hpending : ∀ c, t.pending c = [])
    (hpublished : ∀ c, .setValue c ∉ ops → t.value c = c.value s.receiver.buf)
    (hvalue : ∀ c, t.value c = s.value c ∨ t.value c = c.value s.receiver.buf)
    {as : List ServerAction}
    (hshown : ∀ a ∈ as, ∀ c x, a.shown (handle c) = some x → x = t.value c) :
    Sound handle descHandle packet₀ (os ++ as.map .server)
      { s with server := server, todo := ops } := by
  have hnew : ∀ c, (server.chars c).value.value = t.value c := fun c => by
    rw [(ht.chars_hold c).value_eq]
  refine ⟨h.ready, h.mode, h.reportsLast, ⟨t, ht, hpending⟩, h.packets_sent_append _,
    h.packet.append _, fun _ c hc => (hnew c).trans (hpublished c hc), fun hops => ?_, fun c => ?_⟩
  · refine .inr ((h.packet.append _).congr fun c => (hnew c).trans (hpublished c ?_))
    rw [show ops = [] from hops]
    exact List.not_mem_nil
  · have hadvance : (c.replay (handle c) packet₀).Follows os (t.value c) (s.onTheWay c) := by
      rcases hvalue c with hc | hc
      · exact hc ▸ h.follows c
      · exact hc ▸ (h.follows c).advance
    have hfollows := follows_server hadvance fun a ha x hx => hshown a ha c x hx
    rw [← hnew c] at hfollows
    exact hfollows

theorem setValue_mem_publishOps (c : Characteristic) :
    .setValue c ∈ publishOps Characteristic.all :=
  List.mem_flatMap.mpr ⟨c, c.mem_all, by simp⟩

/-- **The loop looks for packets.** -/
theorem Sound.receive (h : s.Sound handle descHandle packet₀ os) {gs : List (List ChipEvent)}
    (hund : Undisturbed R' s.receiver.chip gs) (hstep : s.receive R' gs = some (s', os')) :
    s'.Sound handle descHandle packet₀ (os ++ os') := by
  obtain ⟨htodo, hstep⟩ := Option.ite_none_right_eq_some.mp hstep
  obtain ⟨⟨⟨n, buf⟩, gs', chip⟩, hrun, hstep⟩ := Option.bind_eq_some_iff.mp hstep
  obtain ⟨⟨arrivals, harr⟩, hstep⟩ := Option.ite_none_right_eq_some.mp hstep
  obtain ⟨rfl, rfl⟩ := Prod.mk.inj (Option.some.inj hstep)
  obtain ⟨hlast, hcases⟩ := receiveTurn_reported (by rw [sizeof_packetT]; decide) h.reportsLast
    hund hrun harr
  rw [← harr, List.drop_left, List.append_nil]
  obtain ⟨hsub, hpacket, hway⟩ : (intact (chip.reported ++ arrivals)).Sublist s.packets ∧
      FromPacket packet₀ os (fun c => c.value buf) ∧ ∀ c : Characteristic,
        (c.value buf :: (intact (chip.reported ++ arrivals)).map fun a => c.slice a.data).Sublist
          (s.onTheWay c) := by
    rcases hcases with ⟨rfl, hsub⟩ | ⟨a, m, -, hdel, hsub⟩
    · exact ⟨hsub.filter _, h.packet, fun c => ((hsub.filter _).map _).cons_cons _⟩
    · have hintact := hsub.filter fun a => !a.damaged
      rw [List.filter_cons_of_pos (by simp [hdel.1])] at hintact
      have ha : a ∈ s.packets := hintact.subset List.mem_cons_self
      obtain ⟨v, stack, hv, hdata⟩ := h.packets_sent a ha
      have hlen : a.data.length = packetT.sizeof := by rw [hdata, ByteMemory.length_load]
      have hvalue : ∀ c : Characteristic, c.value buf = c.slice a.data := fun c =>
        hdel.value_eq hlen c
      refine ⟨(List.sublist_cons_self ..).trans hintact, .inr ⟨v, hv, fun c => ?_⟩, fun c => ?_⟩
      · exact (hvalue c).trans (by rw [hdata, c.slice_write])
      · rw [hvalue]
        exact (hintact.map fun a => c.slice a.data).cons _
  refine ⟨h.ready, opMode_receiveTurn hrun, hlast, h.refines,
    fun a ha => h.packets_sent a (hsub.subset ha), hpacket, fun hne c hc => ?_,
    fun _ => h.consistent htodo, fun c => (h.follows c).lose (hway c)⟩
  dsimp only at hne hc
  split_ifs at hne hc
  · exact absurd (setValue_mem_publishOps c) hc
  · exact absurd rfl hne

/-- A value has been copied to the server. -/
theorem exists_setValue {t : GattSpec Characteristic} (h : s.server.Refines handle descHandle t)
    (c : Characteristic) (packet : ByteMemory) :
    ∃ t', (s.server.setValue c (c.value packet)).Refines handle descHandle t' ∧
      t'.links = t.links ∧ t'.pending = t.pending ∧ t'.subscribed = t.subscribed ∧
      ∀ d, t'.value d = if d = c then c.value packet else t.value d :=
  ⟨_, h.step_setValue c (c.fits_value packet), rfl, rfl, rfl, fun _ => Function.update_apply ..⟩

theorem Sound.setValue (h : s.Sound handle descHandle packet₀ os) {c : Characteristic}
    {ops : List PublishOp} (htodo : s.todo = .setValue c :: ops) :
    Sound handle descHandle packet₀ os
      { s with server := s.server.setValue c (c.value s.receiver.buf), todo := ops } := by
  obtain ⟨t, ht, hpending⟩ := h.refines
  obtain ⟨t', ht', -, hpending', -, hvalue⟩ := exists_setValue ht c s.receiver.buf
  have hne : s.todo ≠ [] := by simp [htodo]
  have hsound : Sound handle descHandle packet₀ (os ++ ([] : List ServerAction).map .server)
      { s with server := s.server.setValue c (c.value s.receiver.buf), todo := ops } :=
    h.operate ht' (hpending' ▸ hpending) (fun d hd => ?_) (fun d => ?_) (by simp)
  · simpa using hsound
  · rw [hvalue]
    split_ifs with hdc
    · rw [hdc]
    · rw [← value_eq ht]
      exact h.published hne d (by simp [htodo, hdc, hd])
  · rw [hvalue, value_eq ht]
    split_ifs with hdc
    · exact .inr (by rw [hdc])
    · exact .inl rfl

theorem Sound.notify (h : s.Sound handle descHandle packet₀ os)
    (hhandle : Function.Injective handle) {c : Characteristic} {ops : List PublishOp}
    (htodo : s.todo = .notify c :: ops) {sent : ℕ → Bool} {as : List ServerAction}
    (has : s.server.notify c sent = some as) :
    Sound handle descHandle packet₀ (os ++ as.map .server) { s with todo := ops } := by
  obtain ⟨t, ht, hpending⟩ := h.refines
  have hne : s.todo ≠ [] := by simp [htodo]
  rw [ht.notify_eq, Option.some_inj] at has
  subst has
  refine h.operate ht hpending (fun d hd => ?_) (fun d => .inl (value_eq ht d).symm) ?_
  · rw [← value_eq ht]
    exact h.published hne d (by simp [htodo, hd])
  · intro a ha d x hx
    split_ifs at ha
    · obtain ⟨conn, -, rfl⟩ := List.mem_map.mp ha
      obtain ⟨hcd, rfl⟩ : handle c = handle d ∧ t.value c = x := by
        simpa [ServerAction.shown] using hx
      rw [hhandle hcd]
    · simp at ha

/-- **The loop makes a step of publishing.** -/
theorem Sound.publish (h : s.Sound handle descHandle packet₀ os)
    (hhandle : Function.Injective handle) {sent : ℕ → Bool}
    (hstep : s.publish sent = some (s', os')) : s'.Sound handle descHandle packet₀ (os ++ os') := by
  rcases htodo : s.todo with _ | ⟨c | c, ops⟩
  · simp [Telemetry.publish, htodo] at hstep
  · simp only [Telemetry.publish, htodo] at hstep
    obtain ⟨rfl, rfl⟩ := Prod.mk.inj (Option.some.inj hstep)
    rw [List.append_nil]
    exact h.setValue htodo
  · simp only [Telemetry.publish, htodo] at hstep
    obtain ⟨as, has, hstep⟩ := Option.bind_eq_some_iff.mp hstep
    obtain ⟨rfl, rfl⟩ := Prod.mk.inj (Option.some.inj hstep)
    exact h.notify hhandle htodo has

/-- **One step of the system.** -/
theorem Sound.step (h : s.Sound handle descHandle packet₀ os) (hnodup : order.Nodup)
    (horder : ∀ c, c ∈ order) (hhandle : Function.Injective handle) {e : TelemetryEvent}
    (hund : ∀ gs, e = .receive gs → Undisturbed R' s.receiver.chip gs)
    (hstep : (telemetry R R' order).step s e = some (s', os')) :
    s'.Sound handle descHandle packet₀ (os ++ os') := by
  cases e with
  | send nav stack gs heard => exact h.send hstep
  | noise heard =>
    obtain ⟨hheard, hstep⟩ := Option.ite_none_right_eq_some.mp hstep
    obtain ⟨rfl, rfl⟩ := Prod.mk.inj (Option.some.inj hstep)
    obtain ⟨A, hready⟩ := h.ready
    exact h.hear hready hheard (by simp) (by simp) (by simp)
  | client e => exact h.client hnodup horder hhandle hstep
  | receive gs => exact h.receive (hund gs rfl) hstep
  | publish sent => exact h.publish hhandle hstep

/-- **Any run of the system** whose turns are undisturbed. -/
theorem Started.sound_of_run (hs : s.Started R R' handle descHandle) (hnodup : order.Nodup)
    (horder : ∀ c, c ∈ order) (hhandle : Function.Injective handle) {es : List TelemetryEvent}
    (hund : UndisturbedTurns R R' order s es)
    (hrun : (telemetry R R' order).run s es = some (s', os)) :
    s'.Sound handle descHandle s.receiver.buf os := by
  refine Transducer.run_induction (fun os s' => s'.Sound handle descHandle s.receiver.buf os)
    hs.sound ?_ hrun
  intro pre post t os e u o hes hpre hsound hstep
  refine hsound.step hnodup horder hhandle (fun gs he => ?_) hstep
  exact hund pre gs post t os (by rw [hes, he]) hpre

end Telemetry

end GpsTracker
