import GpsTracker.App.Telemetry

/-!
# What the clients are shown

Whatever is lost or damaged on the way from the sender to the clients, the values of a
characteristic that clients are shown, in responses or notifications, are in their order the initial
one, what the memory of the receiver held at the start, and values from packets that have been sent:
no value is made up, and none is shown after a later one (`telemetry_inOrder`). While the loop is
not publishing, the six values are from one packet (`telemetry_consistent`). When the chip reports
no checksum error and the packets that arrive before a turn are intact, none arriving during the
turn, the last one is published (`telemetry_publishes`).

All this rests on the assumptions that `App/Telemetry` names, undisturbed turns of the receiver
among them. The examples are about runs in which a client switches on the notifications of the
latitude, and the sender sends the same packet twice.

## Main definitions

* `Telemetry.notified`, `Telemetry.publication`.

## Main results

* `telemetry_inOrder`, `telemetry_consistent`, `telemetry_publishes`.
-/

namespace GpsTracker

namespace Telemetry

variable {R R' : ResetValues} {handle descHandle : Characteristic → ℕ} {packet₀ : ByteMemory}
  {os os' : List TelemetryAction} {s s' : Telemetry} {order : List Characteristic}

/-! ### A packet is heard -/

/-- **A packet that is sent can be heard.** -/
theorem Sound.exists_send (R : ResetValues) (h : s.Sound handle descHandle packet₀ os)
    (nav : PacketMember → ByteMemory) (stack : ByteMemory) :
    ∃ sender a, a.damaged = false ∧ s.send R nav stack (List.replicate 24 [] ++ [[.txDone]]) [a] =
      some ({ s with sender := sender, arrivals := s.arrivals ++ [a] },
        [.sent (packetOf nav)]) := by
  obtain ⟨A, hready⟩ := h.ready
  have hsize : ((packetT.sizeof : ℕ) : ℤ).toNat + 4 ≤ 24 := by
    rw [Int.toNat_natCast, sizeof_packetT]
  obtain ⟨chip, hrun, hchip⟩ := exists_run_loraSendPacket (R := R) hready
    (packetT.write stack (packetOf nav)) (by omega) (by rw [sizeof_packetT]; decide) hsize
  have hlen : ((packetT.write stack (packetOf nav)).load 0 packetT.sizeof).length = 20 := by
    rw [ByteMemory.length_load, sizeof_packetT]
  have hair : chip.air.drop s.sender.air.length =
      [(packetT.write stack (packetOf nav)).load 0 packetT.sizeof] := by
    rw [hchip.air, hready.air, List.drop_left, sentPacket, Int.toNat_natCast]
  let a : Arrival := ⟨(packetT.write stack (packetOf nav)).load 0 packetT.sizeof, 0, false,
    by omega, by omega⟩
  have hhears : Hears [a] (chip.air.drop s.sender.air.length) := by
    simp [Hears, hair, intact, a]
  refine ⟨chip, a, rfl, ?_⟩
  rw [Telemetry.send, hrun]
  exact if_pos hhears

/-! ### A packet is published -/

/-- The clients that a notification is sent to. -/
def notified (s : Telemetry) (c : Characteristic) (sent : ℕ → Bool) : List ℕ :=
  if (s.server.chars c).desc.getNotifications = some true then
    s.server.connectedServers.toList.takeWhile sent
  else []

theorem notify_eq {t : GattSpec Characteristic} (h : s.server.Refines handle descHandle t)
    (c : Characteristic) (sent : ℕ → Bool) :
    s.server.notify c sent =
      some ((s.notified c sent).map fun conn => .notification conn (handle c) (s.value c)) := by
  rw [h.notify_eq, notified, (h.chars_hold c).getNotifications_eq, ConnMap.toList, h.keys_eq,
    value_eq h]
  cases t.subscribed c <;> rfl

/-- The two steps for one characteristic. Only the server changes, and whom it notifies stays the
same. -/
theorem exists_run_publish (R R' : ResetValues) (order : List Characteristic)
    {t : GattSpec Characteristic} (h : s.server.Refines handle descHandle t) {c : Characteristic}
    {ops : List PublishOp} (htodo : s.todo = .setValue c :: .notify c :: ops) (sent : ℕ → Bool) :
    ∃ server t', server.Refines handle descHandle t' ∧
      (telemetry R R' order).run s [.publish sent, .publish sent] =
        some ({ s with server := server, todo := ops }, (s.notified c sent).map fun conn =>
          .server (.notification conn (handle c) (c.value s.receiver.buf))) ∧
      (∀ d, notified { s with server := server, todo := ops } d sent = s.notified d sent) ∧
      ∀ d, (server.chars d).value.value =
        if d = c then c.value s.receiver.buf else s.value d := by
  obtain ⟨t', ht', -, -, hsubscribed, hvalue⟩ := exists_setValue h c s.receiver.buf
  -- The states before and after the notification.
  let v : Telemetry := { s with
    server := s.server.setValue c (c.value s.receiver.buf)
    todo := .notify c :: ops }
  let u : Telemetry := { v with todo := ops }
  have hset : (telemetry R R' order).step s (.publish sent) = some (v, []) := by
    change s.publish sent = _
    rw [publish, htodo]
  have hnotified : ∀ d, u.notified d sent = s.notified d sent := by
    intro d
    rw [notified, notified, (h.chars_hold d).getNotifications_eq,
      (ht'.chars_hold d).getNotifications_eq, hsubscribed]
    rfl
  have hvalues : ∀ d, u.value d = if d = c then c.value s.receiver.buf else s.value d := by
    intro d
    rw [value_eq (s := u) ht', hvalue, value_eq h]
  have hnotify : (telemetry R R' order).step v (.publish sent) =
      some (u, (s.notified c sent).map
        fun conn => .server (.notification conn (handle c) (c.value s.receiver.buf))) := by
    have hserver := notify_eq (s := u) ht' c sent
    rw [hvalues, if_pos rfl, hnotified] at hserver
    change (u.server.notify c sent).bind _ = _
    rw [hserver, Option.bind_some, List.map_map]
    rfl
  exact ⟨_, t', ht', Transducer.run_concat_of_eq_some
    (Transducer.run_concat_of_eq_some (Transducer.run_nil _ s) hset) hnotify, hnotified, hvalues⟩

/-- The loop with the operations on some characteristics still to be done. -/
theorem run_publishOps (R R' : ResetValues) (order : List Characteristic)
    {t : GattSpec Characteristic} (h : s.server.Refines handle descHandle t)
    {cs : List Characteristic} (htodo : s.todo = publishOps cs) (sent : ℕ → Bool) :
    ∃ server, (telemetry R R' order).run s (List.replicate (2 * cs.length) (.publish sent)) =
        some ({ s with server := server, todo := [] },
          cs.flatMap fun c => (s.notified c sent).map fun conn =>
            .server (.notification conn (handle c) (c.value s.receiver.buf))) ∧
      (∀ c, notified { s with server := server, todo := [] } c sent = s.notified c sent) ∧
      ∀ c, (server.chars c).value.value =
        if c ∈ cs then c.value s.receiver.buf else s.value c := by
  induction cs generalizing s t with
  | nil =>
    obtain ⟨_, _, _, server, _, todo⟩ := s
    obtain rfl : todo = [] := htodo
    exact ⟨server, rfl, fun _ => rfl, fun c => by simp [value]⟩
  | cons c cs ih =>
    have htwo : s.todo = .setValue c :: .notify c :: publishOps cs := htodo
    obtain ⟨server₁, t', ht', hone, hnotified, hvalues⟩ :=
      exists_run_publish R R' order h htwo sent
    obtain ⟨server, hrun, hsame, hrest⟩ :=
      ih (s := { s with server := server₁, todo := publishOps cs }) ht' rfl
    refine ⟨server, ?_, fun d => (hsame d).trans (hnotified d), fun d => ?_⟩
    · rw [List.length_cons, Nat.mul_succ, Nat.add_comm, List.replicate_add]
      refine (Transducer.run_append_of_eq_some hone _).trans ?_
      rw [hrun, Option.map_some, List.flatMap_cons]
      simp only [hnotified]
    · rw [hrest, value, hvalues]
      by_cases hd : d ∈ cs <;> by_cases hdc : d = c <;> simp [hd, hdc]

/-- The events of a turn before which the packets arrive that the receiver hears, and of the
publication of one of them. -/
def publication (s : Telemetry) (sent : ℕ → Bool) : List TelemetryEvent :=
  .receive [s.arrivals.map .arrive] :: List.replicate 12 (.publish sent)

/-- The loop finds a packet and prepares to publish it. -/
theorem Sound.exists_receive (R' : ResetValues) (h : s.Sound handle descHandle packet₀ os)
    (htodo : s.todo = []) (hconnected : s.deviceConnected = true)
    (hcrc : s.receiver.chip.flag .payloadCrcError = false) {a : Arrival}
    (hlast : (s.receiver.chip.reported ++ s.arrivals).getLast? = some a)
    (hintact : ∀ b ∈ s.arrivals, b.damaged = false) :
    ∃ receiver v, receiver.chip.Listening ∧ .sent v ∈ os ∧
      (∀ c : Characteristic, c.value receiver.buf = c.encoding v) ∧
      (∀ c : Characteristic, c.slice a.data = c.encoding v) ∧
      s.receive R' [s.arrivals.map .arrive] = some ({ s with
        receiver := receiver
        arrivals := []
        todo := publishOps Characteristic.all }, []) := by
  obtain ⟨⟨⟨r, buf⟩, gs', chip⟩, hrun⟩ := (loraChip R').exists_run_singleton
    (atMost_receiveTurn s.receiver.buf packetT.sizeof) (Chip.events_arrive h.mode s.arrivals)
  obtain ⟨hlisten, harr, hcases⟩ := receiveTurn_cases_of_arrive h.mode h.reportsLast hcrc hrun
  rcases hcases with ⟨hnil, -⟩ | ⟨⟨b, hb, hdam⟩, -⟩ | ⟨-, b, n, hb, hn, hdel⟩
  · simp [hnil] at hlast
  · exact absurd (hdam.symm.trans (hintact b hb)) (by simp)
  · obtain rfl : b = a := Option.some_inj.mp (hb.symm.trans hlast)
    obtain ⟨v, stack, hv, hdata⟩ := h.packets_sent b
      (List.mem_filter.mpr ⟨List.mem_of_getLast? hlast, by simp [hdel.1]⟩)
    have hlen : b.data.length = packetT.sizeof := by rw [hdata, ByteMemory.length_load]
    have hslice : ∀ c : Characteristic, c.slice b.data = c.encoding v := fun c => by
      rw [hdata, c.slice_write]
    refine ⟨⟨chip, buf⟩, v, hlisten, hv, fun c => (hdel.value_eq hlen c).trans (hslice c), hslice,
      ?_⟩
    obtain rfl : r = some n := hn
    rw [Telemetry.receive, if_pos htodo]
    simp [hrun, hconnected, harr]

/-- The loop publishes a packet. -/
theorem Sound.exists_run_publication (R R' : ResetValues) (order : List Characteristic)
    (h : s.Sound handle descHandle packet₀ os) (htodo : s.todo = [])
    (hconnected : s.deviceConnected = true)
    (hcrc : s.receiver.chip.flag .payloadCrcError = false) {a : Arrival}
    (hlast : (s.receiver.chip.reported ++ s.arrivals).getLast? = some a)
    (hintact : ∀ b ∈ s.arrivals, b.damaged = false) (sent : ℕ → Bool) :
    ∃ v receiver server, .sent v ∈ os ∧ receiver.chip.Listening ∧
      (∀ c : Characteristic, c.slice a.data = c.encoding v) ∧
      (telemetry R R' order).run s (s.publication sent) = some ({ s with
          receiver := receiver
          arrivals := []
          server := server
          todo := [] },
        Characteristic.all.flatMap fun c => (s.notified c sent).map fun conn =>
          .server (.notification conn (handle c) (c.encoding v))) ∧
      (∀ c, notified { s with server := server } c sent = s.notified c sent) ∧
      ∀ c, (server.chars c).value.value = c.encoding v := by
  obtain ⟨t, ht, -⟩ := h.refines
  obtain ⟨receiver, v, hlisten, hv, hvalue, hslice, hstep⟩ :=
    h.exists_receive R' htodo hconnected hcrc hlast hintact
  let u : Telemetry := { s with
    receiver := receiver
    arrivals := []
    todo := publishOps Characteristic.all }
  obtain ⟨server, hpublish, hsame, hvalues⟩ := run_publishOps R R' order (s := u) ht rfl sent
  refine ⟨v, receiver, server, hv, hlisten, hslice, ?_, hsame, fun c => ?_⟩
  · have hreceive : (telemetry R R' order).step s (.receive [s.arrivals.map .arrive]) =
        some (u, []) := hstep
    rw [publication, Transducer.run_cons, hreceive, Option.bind_some,
      show 12 = 2 * Characteristic.all.length from rfl, hpublish]
    simp only [Option.map_some, List.nil_append, u, hvalue]
    rfl
  · rw [hvalues, if_pos c.mem_all]
    exact hvalue c

/-! ### Undisturbed turns -/

/-- Events among which there is no turn of the receiver. -/
theorem undisturbedTurns_of_notMem {es : List TelemetryEvent} (h : ∀ gs, .receive gs ∉ es) :
    UndisturbedTurns R R' order s es := by
  rintro pre gs post t os rfl -
  exact absurd (by simp) (h gs)

theorem UndisturbedTurns.append {es es' : List TelemetryEvent}
    (h : UndisturbedTurns R R' order s es) (hrun : (telemetry R R' order).run s es = some (s', os))
    (h' : UndisturbedTurns R R' order s' es') : UndisturbedTurns R R' order s (es ++ es') := by
  intro pre gs post t os' hsplit hpre
  rcases List.append_eq_append_iff.mp hsplit with ⟨mid, rfl, rfl⟩ | ⟨mid, rfl, hmid⟩
  · rw [Transducer.run_append_of_eq_some hrun] at hpre
    obtain ⟨⟨u, o⟩, hrun', hu⟩ := Option.map_eq_some_iff.mp hpre
    obtain ⟨rfl, -⟩ := Prod.mk.inj hu
    exact h' mid gs post _ _ rfl hrun'
  · cases mid with
    | nil =>
      rw [List.append_nil] at hrun
      obtain ⟨rfl, -⟩ := Prod.mk.inj (Option.some_inj.mp (hrun.symm.trans hpre))
      exact h' [] gs post _ _ hmid.symm rfl
    | cons e mid =>
      obtain ⟨rfl, rfl⟩ := List.cons.inj hmid
      exact h pre gs mid t os' rfl hpre

/-- In the turn of a publication nothing arrives but what has been heard before. -/
theorem undisturbedTurns_publication
    (hmode : s.receiver.chip.reg .opMode = modeLongRangeMode ||| modeRxContinuous)
    {a : Arrival} (hlast : s.arrivals.getLast? = some a) (ha : a.damaged = false)
    (sent : ℕ → Bool) : UndisturbedTurns R R' order s (s.publication sent) := by
  intro pre gs post t os hsplit hpre
  rcases pre with _ | ⟨e, pre⟩
  · obtain ⟨rfl, -⟩ := Prod.mk.inj (Option.some_inj.mp hpre)
    obtain ⟨hgs, -⟩ := List.cons.inj hsplit
    obtain rfl := TelemetryEvent.receive.inj hgs
    refine undisturbed_singleton fun c' hc' b hb => ?_
    rw [Chip.events_arrive hmode, Option.some_inj] at hc'
    obtain rfl := hc'
    rw [Chip.arrived_receiveAll, List.getLast?_append, hlast] at hb
    obtain rfl : a = b := by simpa using hb
    exact ha
  · obtain ⟨-, hrest⟩ := List.cons.inj hsplit
    have hmem : .receive gs ∈ List.replicate 12 (TelemetryEvent.publish sent) := by simp [hrest]
    exact absurd (List.eq_of_mem_replicate hmem) (by simp)

/-! ### A first run -/

/-- The stack reports an event whose effect is specified. -/
theorem exists_client {t u : GattSpec Characteristic}
    (h : s.server.Refines handle descHandle t) (hnodup : order.Nodup) (horder : ∀ c, c ∈ order)
    {e : ServerEvent Characteristic} (he : s.server.Reportable order e) {as : List ServerAction}
    (hspec : (gattSpec order handle descHandle).step t e = some (u, as)) :
    ∃ server, server.Refines handle descHandle u ∧ s.client order e = some ({ s with
      server := server
      deviceConnected := as.foldl callback s.deviceConnected }, as.map .server) := by
  obtain ⟨server, hserver, ht'⟩ := h.step hnodup horder hspec
  exact ⟨server, ht', by simp [Telemetry.client, he, hserver]⟩

/-- The specification after the connection of one client. -/
def firstLink : GattSpec Characteristic := { GattSpec.init with links := {0} }

theorem mem_keys_of_firstLink {server : BleServer Characteristic}
    (h : server.Refines handle descHandle firstLink) : 0 ∈ server.connectedServers.keys := by
  rw [h.keys_eq]
  exact Finset.mem_singleton_self 0

/-- The handles of the characteristics of a service, each followed by that of its value and of its
descriptor. -/
def firstHandle (c : Characteristic) : ℕ := 42 + 3 * Characteristic.all.idxOf c

theorem firstHandle_injective : Function.Injective firstHandle := by
  intro c d
  cases c <;> cases d <;> decide

theorem exists_started (handle descHandle : Characteristic → ℕ) :
    ∃ s, Started .sx1276 .sx1276 handle descHandle s := by
  obtain ⟨sender, hsender⟩ : ∃ c,
      (loraChip .sx1276).run radioSetup [] zeroChip = some ((), [], c) := ⟨_, rfl⟩
  obtain ⟨receiver, hreceiver⟩ : ∃ c,
      (loraChip .sx1276).run (do radioSetup; loraReceive) [] zeroChip = some ((), [], c) :=
    ⟨_, rfl⟩
  exact ⟨⟨sender, ⟨receiver, fun _ => 0⟩, [], .init handle descHandle, false, []⟩,
    ⟨[], zeroChip, [], hsender⟩, ⟨[], zeroChip, [], hreceiver⟩, rfl, rfl, rfl, rfl⟩

/-- A client connects and switches on the notifications of the latitude, and a packet is heard. -/
theorem Started.exists_run (hs : s.Started R R' firstHandle (firstHandle · + 2)) :
    ∃ s' es a, (telemetry R R' Characteristic.all).run s es =
        some (s', [.server .onConnect, .sent (packetOf fun _ _ => 1)]) ∧
      (∀ gs, .receive gs ∉ es) ∧ s'.todo = [] ∧ s'.deviceConnected = true ∧
      s'.receiver = s.receiver ∧ s'.arrivals = [a] ∧ a.damaged = false ∧
      0 ∈ s'.notified .lat fun _ => true := by
  have hsound := hs.sound
  have hinit : s.server.Refines firstHandle (firstHandle · + 2) .init :=
    hs.server ▸ BleServer.refines_init ..
  obtain ⟨server₁, h₁, hconnect⟩ := exists_client (e := .connect 0) (u := firstLink) hinit
    (by decide) Characteristic.mem_all ⟨by simp [hs.server, BleServer.init], by decide⟩ rfl
  have hstep₁ : (telemetry R R' Characteristic.all).step s (.client (.connect 0)) = _ := hconnect
  have hsound₁ := hsound.client (by decide) Characteristic.mem_all firstHandle_injective hconnect
  have he : server₁.Reportable Characteristic.all
      (.write 0 (firstHandle .lat + 2) 0 false true [1, 0]) := by
    refine ⟨mem_keys_of_firstLink h₁, by decide, fun c _ => ?_⟩
    rw [(h₁.chars_hold c).handle_eq]
    cases c <;> decide
  have hspec : (gattSpec Characteristic.all firstHandle (firstHandle · + 2)).step firstLink
      (.write 0 (firstHandle .lat + 2) 0 false true [1, 0]) = some (_, []) := rfl
  obtain ⟨server₂, h₂, hreport⟩ := exists_client
    (s := { s with server := server₁, deviceConnected := true }) h₁ (by decide)
    Characteristic.mem_all he hspec
  have hstep₂ : (telemetry R R' Characteristic.all).step
    { s with server := server₁, deviceConnected := true } (.client _) = _ := hreport
  have hsound₂ := hsound₁.client (by decide) Characteristic.mem_all firstHandle_injective hreport
  obtain ⟨sender, a, ha, hsend⟩ := hsound₂.exists_send R (fun _ _ => 1) fun _ => 0
  have hstep₃ : (telemetry R R' Characteristic.all).step
    { s with server := server₂, deviceConnected := true } (.send _ _ _ _) = _ := hsend
  have hrun := Transducer.run_concat_of_eq_some (Transducer.run_concat_of_eq_some
    (Transducer.run_concat_of_eq_some (Transducer.run_nil _ s) hstep₁) hstep₂) hstep₃
  refine ⟨_, _, a, hrun, by simp, hs.todo, rfl, rfl, by simp [hs.arrivals], ha, ?_⟩
  have hlinks : server₂.connectedServers.toList = [0] := by
    rw [ConnMap.toList, h₂.keys_eq]
    exact Finset.sort_singleton ..
  rw [notified, (h₂.chars_hold .lat).getNotifications_eq, hlinks]
  decide

/-- The packet is published. -/
theorem Started.exists_run_published (hs : s.Started R R' firstHandle (firstHandle · + 2)) :
    ∃ s' es os, (telemetry R R' Characteristic.all).run s es = some (s', os) ∧
      UndisturbedTurns R R' Characteristic.all s es ∧
      (∀ v, .sent v ∈ os → v = packetOf fun _ _ => 1) ∧
      .server (.notification 0 (firstHandle .lat)
        (Characteristic.lat.encoding (packetOf fun _ _ => 1))) ∈ os ∧
      s'.todo = [] ∧ s'.deviceConnected = true ∧ s'.receiver.chip.Listening ∧ s'.arrivals = [] ∧
      (0 ∈ s'.notified .lat fun _ => true) ∧
      ∀ c, s'.value c = c.encoding (packetOf fun _ _ => 1) := by
  obtain ⟨s₁, es, a, hrun, hes, htodo, hconnected, hreceiver, harrivals, ha, hnotified⟩ :=
    hs.exists_run
  have hund : UndisturbedTurns R R' Characteristic.all s es := undisturbedTurns_of_notMem hes
  have hlisten : s₁.receiver.chip.Listening := hreceiver ▸ hs.receiver.listening
  have hlast : s₁.arrivals.getLast? = some a := by simp [harrivals]
  obtain ⟨v, receiver, server, hv, hlisten', -, hpublish, hsame, hvalue⟩ :=
    (hs.sound_of_run (by decide) Characteristic.mem_all firstHandle_injective hund hrun
      ).exists_run_publication R R' Characteristic.all htodo hconnected hlisten.crcError
        (a := a) (by simp [hlast]) (by simp [harrivals, ha]) fun _ => true
  obtain rfl : v = packetOf fun _ _ => 1 := by simpa using hv
  let s₂ : Telemetry := { s₁ with
    receiver := receiver
    arrivals := []
    server := server
    todo := [] }
  have hrun₂ := (Transducer.run_append_of_eq_some hrun (s₁.publication fun _ => true)).trans
    (congrArg _ hpublish)
  refine ⟨s₂, _, _, hrun₂,
    hund.append hrun (undisturbedTurns_publication hlisten.mode hlast ha _), ?_, ?_, rfl,
    hconnected, hlisten', rfl, ?_, hvalue⟩
  · intro w hw
    simpa using hw
  · simp only [List.mem_append, List.mem_flatMap, List.mem_map]
    exact .inr ⟨.lat, Characteristic.mem_all _, 0, hnotified, rfl⟩
  · exact (hsame .lat).symm ▸ hnotified

/-- The packet is published, and the next one heard. -/
theorem Started.exists_run_heard (hs : s.Started R R' firstHandle (firstHandle · + 2)) :
    ∃ s' es os a, (telemetry R R' Characteristic.all).run s es = some (s', os) ∧
      UndisturbedTurns R R' Characteristic.all s es ∧
      (∀ v, .sent v ∈ os → v = packetOf fun _ _ => 1) ∧
      s'.todo = [] ∧ s'.deviceConnected = true ∧ s'.receiver.chip.Listening ∧
      s'.arrivals = [a] ∧ a.damaged = false ∧ 0 ∈ s'.notified .lat fun _ => true := by
  obtain ⟨s₁, es, os, hrun, hund, hsent, -, htodo, hconnected, hlisten, harrivals, hnotified, -⟩ :=
    hs.exists_run_published
  obtain ⟨sender, a, ha, hsend⟩ := (hs.sound_of_run (by decide) Characteristic.mem_all
    firstHandle_injective hund hrun).exists_send R (fun _ _ => 1) fun _ => 0
  have hstep : (telemetry R R' Characteristic.all).step s₁ (.send _ _ _ _) = _ := hsend
  refine ⟨_, _, _, a, Transducer.run_concat_of_eq_some hrun hstep,
    hund.append hrun (undisturbedTurns_of_notMem (by simp)), ?_, htodo, hconnected, hlisten,
    by simp [harrivals], ha, hnotified⟩
  intro v hv
  rcases List.mem_append.mp hv with hv | hv
  · exact hsent v hv
  · simpa using hv

end Telemetry

/-! ### What the clients are shown -/

section Results

variable {R R' : ResetValues} {handle descHandle : Characteristic → ℕ}
  {order : List Characteristic} {s s' : Telemetry} {es : List TelemetryEvent}
  {os : List TelemetryAction}

/-- **Time does not go back.** In every run with undisturbed turns, the values of a characteristic
that any clients are shown, in responses and notifications, come in the order in which they have
been recorded: first the empty value, then the one in the memory of the receiver at the start, then
those of the packets that have been sent before. -/
theorem telemetry_inOrder (hnodup : order.Nodup) (horder : ∀ c, c ∈ order)
    (hhandle : Function.Injective handle) (hs : s.Started R R' handle descHandle)
    (hund : Telemetry.UndisturbedTurns R R' order s es)
    (hrun : (telemetry R R' order).run s es = some (s', os)) (c : Characteristic) :
    (c.replay (handle c) s.receiver.buf).InOrder os :=
  ((hs.sound_of_run hnodup horder hhandle hund hrun).follows c).inOrder

/-- A client that has switched on the notifications of the latitude is notified of a packet. -/
theorem telemetry_inOrder_notification : ∃ (s s' : Telemetry) (es : List TelemetryEvent)
    (os : List TelemetryAction), (telemetry .sx1276 .sx1276 Characteristic.all).run s es =
        some (s', os) ∧ .server (.notification 0 (Telemetry.firstHandle .lat)
          (Characteristic.lat.encoding (packetOf fun _ _ => 1))) ∈ os ∧
      (Characteristic.replay .lat (Telemetry.firstHandle .lat) s.receiver.buf).InOrder os := by
  obtain ⟨s, hs⟩ := Telemetry.exists_started Telemetry.firstHandle (Telemetry.firstHandle · + 2)
  obtain ⟨s', es, os, hrun, hund, -, hnotification, -⟩ := hs.exists_run_published
  exact ⟨s, s', es, os, hrun, hnotification, telemetry_inOrder (by decide)
    Characteristic.mem_all Telemetry.firstHandle_injective hs hund hrun .lat⟩

/-- **No mixture.** In every state of a run with undisturbed turns in which the loop is not
publishing, the values of the six characteristics are all empty, or all from the memory of the
receiver at the start, or all from one packet that has been sent. -/
theorem telemetry_consistent (hnodup : order.Nodup) (horder : ∀ c, c ∈ order)
    (hhandle : Function.Injective handle) (hs : s.Started R R' handle descHandle)
    (hund : Telemetry.UndisturbedTurns R R' order s es)
    (hrun : (telemetry R R' order).run s es = some (s', os)) (htodo : s'.todo = []) :
    (∀ c, (s'.server.chars c).value.value = []) ∨
      (∀ c, (s'.server.chars c).value.value = c.value s.receiver.buf) ∨
      ∃ v, .sent v ∈ os ∧ ∀ c, (s'.server.chars c).value.value = c.encoding v :=
  (hs.sound_of_run hnodup horder hhandle hund hrun).consistent htodo

/-- After the publication of a packet the values are from it. -/
theorem telemetry_consistent_published : ∃ (s s' : Telemetry) (es : List TelemetryEvent)
    (os : List TelemetryAction), (telemetry .sx1276 .sx1276 Characteristic.all).run s es =
        some (s', os) ∧ s'.value .lat = Characteristic.lat.encoding (packetOf fun _ _ => 1) ∧
      ((∀ c, (s'.server.chars c).value.value = []) ∨
        (∀ c, (s'.server.chars c).value.value = c.value s.receiver.buf) ∨
        ∃ v, .sent v ∈ os ∧ ∀ c, (s'.server.chars c).value.value = c.encoding v) := by
  obtain ⟨s, hs⟩ := Telemetry.exists_started Telemetry.firstHandle (Telemetry.firstHandle · + 2)
  obtain ⟨s', es, os, hrun, hund, -, -, htodo, -, -, -, -, hvalue⟩ := hs.exists_run_published
  exact ⟨s, s', es, os, hrun, hvalue .lat, telemetry_consistent (by decide)
    Characteristic.mem_all Telemetry.firstHandle_injective hs hund hrun htodo⟩

/-- **A packet that is heard is published.** After a run with undisturbed turns, when the loop looks
for packets, a client is connected, the chip reports no checksum error and the packets that arrive
before the turn are intact, none arriving during the turn, then the turn and the steps of publishing
after it notify, characteristic by characteristic, the clients up to the first one that the stack
refuses, if notifications are switched on, of the values of the last packet, which has been sent,
and the server has these values afterwards. -/
theorem telemetry_publishes (hnodup : order.Nodup) (horder : ∀ c, c ∈ order)
    (hhandle : Function.Injective handle) (hs : s.Started R R' handle descHandle)
    (hund : Telemetry.UndisturbedTurns R R' order s es)
    (hrun : (telemetry R R' order).run s es = some (s', os)) (htodo : s'.todo = [])
    (hconnected : s'.deviceConnected = true)
    (hcrc : s'.receiver.chip.flag .payloadCrcError = false) {a : Arrival}
    (hlast : (s'.receiver.chip.reported ++ s'.arrivals).getLast? = some a)
    (hintact : ∀ b ∈ s'.arrivals, b.damaged = false) (sent : ℕ → Bool) :
    ∃ v s'', .sent v ∈ os ∧ (∀ c : Characteristic, c.slice a.data = c.encoding v) ∧
      (telemetry R R' order).run s' (s'.publication sent) = some (s'',
        Characteristic.all.flatMap fun c => (s'.notified c sent).map fun conn =>
          .server (.notification conn (handle c) (c.encoding v))) ∧
      s''.todo = [] ∧ ∀ c, s''.value c = c.encoding v := by
  obtain ⟨v, receiver, server, hv, -, hslice, hpublish, -, hvalue⟩ :=
    (hs.sound_of_run hnodup horder hhandle hund hrun).exists_run_publication R R' order htodo
      hconnected hcrc hlast hintact sent
  exact ⟨v, _, hv, hslice, hpublish, rfl, hvalue⟩

/-- The second packet that is heard is published. -/
theorem telemetry_publishes_second : ∃ (s' s'' : Telemetry) (v : packetT.Value) (a : Arrival),
    s'.arrivals = [a] ∧ (∀ c : Characteristic, c.slice a.data = c.encoding v) ∧
      (telemetry .sx1276 .sx1276 Characteristic.all).run s' (s'.publication fun _ => true) =
        some (s'', Characteristic.all.flatMap fun c => (s'.notified c fun _ => true).map
          fun conn => .server (.notification conn (Telemetry.firstHandle c) (c.encoding v))) ∧
      (0 ∈ s'.notified .lat fun _ => true) ∧ ∀ c, s''.value c = c.encoding v := by
  obtain ⟨s, hs⟩ := Telemetry.exists_started Telemetry.firstHandle (Telemetry.firstHandle · + 2)
  obtain ⟨s', es, os, a, hrun, hund, -, htodo, hconnected, hlisten, harrivals, ha, hnotified⟩ :=
    hs.exists_run_heard
  obtain ⟨v, s'', -, hslice, hpublish, -, hvalue⟩ := telemetry_publishes (by decide)
    Characteristic.mem_all Telemetry.firstHandle_injective hs hund hrun htodo hconnected
    hlisten.crcError (a := a) (by simp [harrivals]) (by simp [harrivals, ha]) fun _ => true
  exact ⟨s', s'', v, a, harrivals, hslice, hpublish, hnotified, hvalue⟩

end Results

end GpsTracker
