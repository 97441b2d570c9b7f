import GpsTracker.App.Publishing

/-!
# What the applications display

The two applications at the end of the chain, when they handle the notifications for their
connection. The Ionic application keeps what its handlers assign. The Flutter application keeps the
coordinates of its marker. A handler that throws changes nothing.

When the loop of the receiver publishes a packet, an application that is notified of a
characteristic of four bytes displays the member that the sender has stored in its packet
afterwards, the Flutter application without the sign of a coordinate, whatever it has displayed
before (`telemetry_displays`). The assumptions are those of the file on the way from the sender to
the clients.

## Main definitions

* `HomePage`, `HomePage.handle`.
* `MapPosition.handle`.

## Main results

* `telemetry_displays`.
-/

namespace GpsTracker

/-! ### The handlers -/

/-- The members of `HomePage` to which its handlers assign, before the division of a coordinate.
They may be `undefined`. -/
abbrev HomePage := Characteristic → Option ℤ

/-- The constructor of `HomePage`. -/
def HomePage.init : HomePage
  | .lat | .lon | .numSat | .speed => some 0
  | .fix | .height => none

/-- The handlers of the Ionic application, for the connection `conn`. -/
def HomePage.handle (conn : ℕ) (handle : Characteristic → ℕ) (p : HomePage) :
    TelemetryAction → HomePage
  | .server (.notification k h value) => fun c =>
    if k = conn ∧ h = handle c then
      match onConnected c value with
      | .ok x => x
      | .error _ => p c
    else p c
  | _ => p

/-- The handlers of the Flutter application, for the connection `conn`. -/
def MapPosition.handle (conn : ℕ) (handle : Characteristic → ℕ) (m : MapPosition) :
    TelemetryAction → MapPosition
  | .server (.notification k h value) =>
    if k = conn then
      Characteristic.all.foldl (fun m c =>
        if h = handle c then (onValueChanged c.uuid value m).getD m else m) m
    else m
  | _ => m

/-! ### One notification -/

section Handlers

variable {conn : ℕ} {handle : Characteristic → ℕ} {c : Characteristic}

/-- The handlers of the Ionic application decode a member of four bytes. -/
theorem onConnected_encoding (hc : c.numBytes = 4) (v : packetT.Value) :
    onConnected c (c.encoding v) = .ok (some (v.val c.member)) := by
  have hdecodes : IonicDecodes (fun _ => 0) (fun _ => 0) v c :=
    (ionicDecodes_iff _ _ v c).mpr (by cases c <;> simp [Characteristic.numBytes] at hc ⊢)
  rwa [IonicDecodes, Characteristic.value_receivedPacket] at hdecodes

/-- A notification of one characteristic, handled by the Ionic application. -/
theorem HomePage.handle_notification (hhandle : Function.Injective handle) (hc : c.numBytes = 4)
    (p : HomePage) (k : ℕ) (d : Characteristic) (v : packetT.Value) :
    p.handle conn handle (.server (.notification k (handle d) (d.encoding v))) c =
      if k = conn ∧ d = c then some (v.val c.member) else p c := by
  simp only [HomePage.handle, hhandle.eq_iff]
  split_ifs with h
  · rw [h.2, onConnected_encoding hc]
  · rfl

/-- The handler of the Flutter application, for the value of one characteristic. -/
theorem onValueChanged_encoding (m : MapPosition) (d : Characteristic) (v : packetT.Value) :
    onValueChanged d.uuid (d.encoding v) m =
      some ⟨if d = .lat then v.val .lat % 2 ^ 32 else m.lat,
        if d = .lon then v.val .lon % 2 ^ 32 else m.lon⟩ := by
  cases d with
  | lat =>
    obtain ⟨x, hx, hval⟩ := Option.map_eq_some_iff.mp (assemble_encode (v.val .lat))
    have hencoding : assemble (Characteristic.lat.encoding v) = some x := hx
    simp [onValueChanged, Characteristic.uuid, hencoding, hval]
  | lon =>
    obtain ⟨x, hx, hval⟩ := Option.map_eq_some_iff.mp (assemble_encode (v.val .lon))
    have hencoding : assemble (Characteristic.lon.encoding v) = some x := hx
    simp [onValueChanged, Characteristic.uuid, hencoding, hval]
  | fix | numSat | speed | height => simp [onValueChanged, Characteristic.uuid]

/-- A notification of one characteristic, handled by the Flutter application. -/
theorem MapPosition.handle_notification (hhandle : Function.Injective handle) (m : MapPosition)
    (k : ℕ) (d : Characteristic) (v : packetT.Value) :
    m.handle conn handle (.server (.notification k (handle d) (d.encoding v))) =
      ⟨if k = conn ∧ d = .lat then v.val .lat % 2 ^ 32 else m.lat,
        if k = conn ∧ d = .lon then v.val .lon % 2 ^ 32 else m.lon⟩ := by
  have hone : Characteristic.all.foldl (fun m c =>
      if handle d = handle c then (onValueChanged c.uuid (d.encoding v) m).getD m else m) m =
        (onValueChanged d.uuid (d.encoding v) m).getD m := by
    simp only [hhandle.eq_iff]
    cases d <;> rfl
  rw [MapPosition.handle, hone, onValueChanged_encoding, Option.getD_some]
  by_cases hk : k = conn
  · simp only [hk, if_true, true_and]
  · simp only [hk, if_false, false_and]

end Handlers

/-! ### A publication -/

section Publication

/-- A list of updates, of which one sets what is looked at and the others set it in the same way or
leave it as it is. -/
theorem foldl_eq_of_mem {α β σ : Type*} {f : σ → α → σ} {g : σ → β} {x : β} {as : List α} {a : α}
    (ha : a ∈ as) (hset : ∀ p, g (f p a) = x)
    (hkeep : ∀ b ∈ as, ∀ p, g (f p b) = x ∨ g (f p b) = g p) (p : σ) :
    g (as.foldl f p) = x := by
  induction as using List.reverseRecOn with
  | nil => cases ha
  | append_singleton as b ih =>
    rw [List.foldl_append, List.foldl_cons, List.foldl_nil]
    rcases List.mem_append.mp ha with ha | ha
    · have hpre := ih ha fun b hb => hkeep b (List.mem_append_left _ hb)
      rcases hkeep b (by simp) (as.foldl f p) with h | h
      · exact h
      · exact h.trans hpre
    · rw [← List.mem_singleton.mp ha]
      exact hset _

variable {conn : ℕ} {handle : Characteristic → ℕ} {notified : Characteristic → List ℕ}

/-- The notifications of a packet. -/
def notifications (handle : Characteristic → ℕ) (notified : Characteristic → List ℕ)
    (v : packetT.Value) : List TelemetryAction :=
  Characteristic.all.flatMap fun c => (notified c).map fun conn =>
    .server (.notification conn (handle c) (c.encoding v))

theorem mem_notifications {v : packetT.Value} {a : TelemetryAction} :
    a ∈ notifications handle notified v ↔ ∃ c k, k ∈ notified c ∧
      .server (.notification k (handle c) (c.encoding v)) = a := by
  simp [notifications, Characteristic.mem_all]

/-- **What the Ionic application displays** when it has been notified of a packet. -/
theorem HomePage.foldl_notifications (hhandle : Function.Injective handle) (p : HomePage)
    (v : packetT.Value) {c : Characteristic} (hc : c.numBytes = 4) (hconn : conn ∈ notified c) :
    (notifications handle notified v).foldl (HomePage.handle conn handle) p c =
      some (v.val c.member) := by
  refine foldl_eq_of_mem (g := fun p : HomePage => p c)
    (mem_notifications.mpr ⟨c, conn, hconn, rfl⟩) (fun p => ?_) (fun b hb p => ?_) p
  · rw [HomePage.handle_notification hhandle hc, if_pos ⟨rfl, rfl⟩]
  · obtain ⟨d, k, -, rfl⟩ := mem_notifications.mp hb
    rw [HomePage.handle_notification hhandle hc]
    exact ite_eq_or_eq ..

/-- **What the Flutter application displays** when it has been notified of a packet. -/
theorem MapPosition.lat_foldl_notifications (hhandle : Function.Injective handle) (m : MapPosition)
    (v : packetT.Value) (hconn : conn ∈ notified .lat) :
    ((notifications handle notified v).foldl (MapPosition.handle conn handle) m).lat =
      v.val .lat % 2 ^ 32 := by
  refine foldl_eq_of_mem (g := MapPosition.lat) (mem_notifications.mpr ⟨.lat, conn, hconn, rfl⟩)
    (fun m => ?_) (fun b hb m => ?_) m
  · rw [MapPosition.handle_notification hhandle]
    exact if_pos ⟨rfl, rfl⟩
  · obtain ⟨d, k, -, rfl⟩ := mem_notifications.mp hb
    rw [MapPosition.handle_notification hhandle]
    exact ite_eq_or_eq ..

theorem MapPosition.lon_foldl_notifications (hhandle : Function.Injective handle) (m : MapPosition)
    (v : packetT.Value) (hconn : conn ∈ notified .lon) :
    ((notifications handle notified v).foldl (MapPosition.handle conn handle) m).lon =
      v.val .lon % 2 ^ 32 := by
  refine foldl_eq_of_mem (g := MapPosition.lon) (mem_notifications.mpr ⟨.lon, conn, hconn, rfl⟩)
    (fun m => ?_) (fun b hb m => ?_) m
  · rw [MapPosition.handle_notification hhandle]
    exact if_pos ⟨rfl, rfl⟩
  · obtain ⟨d, k, -, rfl⟩ := mem_notifications.mp hb
    rw [MapPosition.handle_notification hhandle]
    exact ite_eq_or_eq ..

end Publication

/-! ### From the sender to the display -/

section Results

variable {R R' : ResetValues} {handle descHandle : Characteristic → ℕ}
  {order : List Characteristic} {s s' : Telemetry} {es : List TelemetryEvent}
  {os : List TelemetryAction}

/-- **What is displayed when a packet has been heard.** After a run with undisturbed turns, when the
loop of the receiver looks for packets, a client is connected, the chip reports no checksum error
and the packets that arrive before the turn are intact, none arriving during the turn, then the
applications that are notified of a characteristic display what the sender has stored in the last
packet, when the loop has published it: the Ionic application each member of four bytes, and the
Flutter application the coordinates without their sign. -/
theorem telemetry_displays (hnodup : order.Nodup) (horder : ∀ c, c ∈ order)
    (hhandle : Function.Injective handle) (hs : s.Started R R' handle descHandle)
    (hund : Telemetry.UndisturbedTurns R R' order s es)
    (hrun : (telemetry R R' order).run s es = some (s', os)) (htodo : s'.todo = [])
    (hconnected : s'.deviceConnected = true)
    (hcrc : s'.receiver.chip.flag .payloadCrcError = false) {a : Arrival}
    (hlast : (s'.receiver.chip.reported ++ s'.arrivals).getLast? = some a)
    (hintact : ∀ b ∈ s'.arrivals, b.damaged = false) (sent : ℕ → Bool) (conn : ℕ) (p : HomePage)
    (m : MapPosition) :
    ∃ v s'' os', .sent v ∈ os ∧ (∀ c : Characteristic, c.slice a.data = c.encoding v) ∧
      (telemetry R R' order).run s' (s'.publication sent) = some (s'', os') ∧
      (∀ c : Characteristic, c.numBytes = 4 → conn ∈ s'.notified c sent →
        os'.foldl (HomePage.handle conn handle) p c = some (v.val c.member)) ∧
      (conn ∈ s'.notified .lat sent →
        (os'.foldl (MapPosition.handle conn handle) m).lat = v.val .lat % 2 ^ 32) ∧
      (conn ∈ s'.notified .lon sent →
        (os'.foldl (MapPosition.handle conn handle) m).lon = v.val .lon % 2 ^ 32) := by
  obtain ⟨v, receiver, server, hv, -, hslice, hpublish, -, -⟩ :=
    (hs.sound_of_run hnodup horder hhandle hund hrun).exists_run_publication R R' order htodo
      hconnected hcrc hlast hintact sent
  exact ⟨v, _, notifications handle (s'.notified · sent) v, hv, hslice, hpublish,
    fun c hc hconn => HomePage.foldl_notifications hhandle p v hc hconn,
    fun hconn => MapPosition.lat_foldl_notifications hhandle m v hconn,
    fun hconn => MapPosition.lon_foldl_notifications hhandle m v hconn⟩

/-- A client that has switched on the notifications of one coordinate displays it, in either of the
applications. -/
theorem telemetry_displays_latitude : ∃ (s' s'' : Telemetry) (os' : List TelemetryAction),
    (telemetry .sx1276 .sx1276 Characteristic.all).run s' (s'.publication fun _ => true) =
        some (s'', os') ∧
      os'.foldl (HomePage.handle 0 Telemetry.firstHandle) .init .lat = some 16843009 ∧
      (os'.foldl (MapPosition.handle 0 Telemetry.firstHandle) ⟨0, 0⟩).lat = 16843009 := by
  obtain ⟨s, hs⟩ := Telemetry.exists_started Telemetry.firstHandle (Telemetry.firstHandle · + 2)
  obtain ⟨s', es, os, a, hrun, hund, hsent, htodo, hconnected, hlisten, harrivals, ha, hnotified⟩ :=
    hs.exists_run_heard
  obtain ⟨v, s'', os', hv, -, hpublish, hpage, hlat, -⟩ := telemetry_displays (by decide)
    Characteristic.mem_all Telemetry.firstHandle_injective hs hund hrun htodo hconnected
    hlisten.crcError (a := a) (by simp [harrivals]) (by simp [harrivals, ha]) (fun _ => true) 0
    .init ⟨0, 0⟩
  obtain rfl := hsent v hv
  exact ⟨s', s'', os', hpublish, hpage .lat rfl hnotified, hlat hnotified⟩

end Results

end GpsTracker
