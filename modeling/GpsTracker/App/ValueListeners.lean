import GpsTracker.Resource.Registry
import GpsTracker.Stream.Transducer

/-!
# The value listeners of the Flutter application

The application listens to the values of characteristics and keeps its subscriptions in the map
`valueChangedSubscriptions`, to cancel them when it disconnects. Its handlers suspend at every
`await`, and everything else may happen until they resume. An asynchronous function that calls a
method of a `device` that is `null` ends with an error.

No value listener is leaked in a run exactly when no subscription is made for a characteristic
while another one is stored under its UUID (`noLeakedListeners_iff`). Two events of a connected
device are enough to make two of them (`not_noLeakedListeners`): each discovers the services again,
and the characteristics discovered by both are not notifying yet.

The tiles by which the user switches single notifications are not modelled, nor is what the
application only displays.

## Main definitions

* `BluetoothCharacteristic`, `BluetoothService`, `Pending`.
* `FlutterBlueAppState`, `flutterBlueApp`.
* `NoLeakedListeners`, `SubscribesOnce`.

## Main results

* `FlutterBlueAppState.tracked_step_iff`.
* `noLeakedListeners_iff`, `not_noLeakedListeners`.
-/

namespace GpsTracker

/-! ### The application -/

/-- A characteristic that has been discovered. -/
structure BluetoothCharacteristic where
  uuid : String
  isNotifying : Bool
  deriving DecidableEq, Repr

/-- A service that has been discovered. -/
structure BluetoothService where
  uuid : String
  characteristics : List BluetoothCharacteristic
  deriving DecidableEq, Repr

inductive BluetoothDeviceState where
  | disconnected | connecting | connected | disconnecting
  deriving DecidableEq, Repr

/-- An asynchronous operation that is pending: the discovery of the services; the call of
`setNotifyValue` that `_setNotification` awaits, with the characteristics that follow in the loop;
or the call of `_setNotification` that the loop awaits, after it has completed. -/
inductive Pending where
  | discoverServices
  | setNotifyValue (c : BluetoothCharacteristic) (value : Bool)
      (rest : List BluetoothCharacteristic)
  | setNotification (rest : List BluetoothCharacteristic)
  deriving DecidableEq, Repr

/-- The state of the application. Besides its members there are the subscriptions that are live,
by their numbers, and the operations that are pending. -/
structure FlutterBlueAppState where
  device : Option String
  deviceConnection : Option ℕ
  deviceStateSubscription : Option ℕ
  /-- `valueChangedSubscriptions`, and the value listeners that are live. -/
  valueListeners : Registry String
  connections : Finset ℕ
  stateListeners : Finset ℕ
  next : ℕ
  pending : List Pending

namespace FlutterBlueAppState

/-- The application when it starts. -/
def init : FlutterBlueAppState := ⟨none, none, none, .empty, ∅, ∅, 0, []⟩

variable (s : FlutterBlueAppState)

/-- `_connect`. The subscriptions that were stored before are not cancelled. -/
def connect (d : String) : FlutterBlueAppState :=
  { s with
    device := some d
    deviceConnection := some s.next
    deviceStateSubscription := some (s.next + 1)
    connections := insert s.next s.connections
    stateListeners := insert (s.next + 1) s.stateListeners
    next := s.next + 2 }

/-- `_disconnect`. -/
def disconnect : FlutterBlueAppState :=
  { s with
    device := none
    deviceConnection := none
    deviceStateSubscription := none
    valueListeners := s.valueListeners.releaseAll
    connections := s.deviceConnection.elim s.connections s.connections.erase
    stateListeners := s.deviceStateSubscription.elim s.stateListeners s.stateListeners.erase }

/-- The handler of a scan result. -/
def onScanResult (d name : String) : FlutterBlueAppState :=
  if name = "UART Service" then s.connect d else s

/-- The listener of the state of the device. -/
def onStateChanged (st : BluetoothDeviceState) : FlutterBlueAppState :=
  if st = .connected ∧ s.device ≠ none then { s with pending := s.pending ++ [.discoverServices] }
  else s

/-- The loop over the characteristics of a service up to its next `await`: the call of
`_setNotification` for the first one. -/
def setNotifications : List BluetoothCharacteristic → List Pending
  | [] => []
  | c :: rest => if s.device = none then [] else [.setNotifyValue c (!c.isNotifying) rest]

/-- What follows the discovery of the services. -/
def onServices (services : List BluetoothService) : FlutterBlueAppState :=
  { s with pending := s.pending ++ services.flatMap fun service =>
      if service.uuid = "6e400001-b5a3-f393-e0a9-e50e24dcca9e" then
        s.setNotifications service.characteristics
      else [] }

/-- The rest of `_setNotification`. -/
def onNotifyValueSet (c : BluetoothCharacteristic) (value : Bool)
    (rest : List BluetoothCharacteristic) : FlutterBlueAppState :=
  if value then
    if s.device = none then s
    else
      { s with
        valueListeners := s.valueListeners.acquire c.uuid
        pending := s.pending ++ [.setNotification rest] }
  else
    { s with
      valueListeners := s.valueListeners.release c.uuid
      pending := s.pending ++ [.setNotification rest] }

/-- The state without the operation at a position. -/
def drop (n : ℕ) : FlutterBlueAppState := { s with pending := s.pending.eraseIdx n }

end FlutterBlueAppState

/-- What happens: a scan result, a state of the device, the end of a connection, a tap on the button
to disconnect, or the completion of a pending operation. -/
inductive FlutterEvent where
  | scanResult (d name : String)
  | stateChanged (listener : ℕ) (st : BluetoothDeviceState)
  | connectionDone (connection : ℕ)
  | disconnect
  | servicesDiscovered (n : ℕ) (services : List BluetoothService)
  | completed (n : ℕ)
  | failed (n : ℕ)

/-- The application. Only live subscriptions and pending operations have events. -/
def flutterBlueApp : Transducer FlutterBlueAppState FlutterEvent Empty where
  step s
    | .scanResult d name => some (s.onScanResult d name, [])
    | .stateChanged n st =>
      if n ∈ s.stateListeners then some (s.onStateChanged st, []) else none
    | .connectionDone n =>
      if n ∈ s.connections then
        some ({ s with connections := s.connections.erase n }.disconnect, [])
      else none
    | .disconnect => some (s.disconnect, [])
    | .servicesDiscovered n services =>
      match s.pending[n]? with
      | some .discoverServices => some ((s.drop n).onServices services, [])
      | _ => none
    | .completed n =>
      match s.pending[n]? with
      | some (.setNotifyValue c value rest) => some ((s.drop n).onNotifyValueSet c value rest, [])
      | some (.setNotification rest) =>
        some ({ s with pending := (s.drop n).pending ++ s.setNotifications rest }, [])
      | _ => none
    | .failed n =>
      match s.pending[n]? with
      | some .discoverServices | some (.setNotifyValue _ _ _) => some (s.drop n, [])
      | _ => none

namespace FlutterBlueAppState

/-! ### Steps -/

/-- The event is the completion of a `setNotifyValue` after which `_setNotification` subscribes to a
characteristic with the given UUID. -/
def Subscribes (s : FlutterBlueAppState) (e : FlutterEvent) (uuid : String) : Prop :=
  s.device ≠ none ∧ ∃ n c rest, e = .completed n ∧
    s.pending[n]? = some (.setNotifyValue c true rest) ∧ c.uuid = uuid

/-- A subscription is made although one is stored under the same UUID. -/
def Resubscribes (s : FlutterBlueAppState) (e : FlutterEvent) : Prop :=
  ∃ uuid, s.Subscribes e uuid ∧ s.valueListeners.stored.lookup uuid ≠ none

section Steps

variable {s t : FlutterBlueAppState} {e : FlutterEvent} {os : List Empty}

theorem Subscribes.eq {uuid uuid' : String} (h : s.Subscribes e uuid) (h' : s.Subscribes e uuid') :
    uuid = uuid' := by
  obtain ⟨-, n, c, rest, rfl, hn, rfl⟩ := h
  obtain ⟨-, n', c', rest', hn', hc', rfl⟩ := h'
  obtain rfl := FlutterEvent.completed.inj hn'
  rw [hn] at hc'
  simp_all

/-- The effect of a step that makes no subscription. -/
inductive Effect (s t : FlutterBlueAppState) : Prop
  | keep (hlisteners : t.valueListeners = s.valueListeners)
      (hdevice : t.device = none → s.device = none)
  | release (uuid : String) (hlisteners : t.valueListeners = s.valueListeners.release uuid)
      (hdevice : t.device = s.device)
  | releaseAll (hlisteners : t.valueListeners = s.valueListeners.releaseAll)

/-- A step that completes no pending call makes no subscription. -/
theorem effect_of_ne_completed (hne : ∀ n, e ≠ .completed n)
    (h : flutterBlueApp.step s e = some (t, os)) : s.Effect t := by
  cases e with
  | scanResult d name =>
    obtain ⟨rfl, -⟩ := Prod.mk.inj (Option.some_inj.mp h)
    unfold onScanResult
    split
    · exact .keep rfl fun hd => nomatch hd
    · exact .keep rfl id
  | stateChanged n st =>
    obtain ⟨-, h⟩ := Option.ite_none_right_eq_some.mp h
    obtain ⟨rfl, -⟩ := Prod.mk.inj (Option.some_inj.mp h)
    unfold onStateChanged
    split <;> exact .keep rfl id
  | connectionDone n =>
    obtain ⟨-, h⟩ := Option.ite_none_right_eq_some.mp h
    obtain ⟨rfl, -⟩ := Prod.mk.inj (Option.some_inj.mp h)
    exact .releaseAll rfl
  | disconnect =>
    obtain ⟨rfl, -⟩ := Prod.mk.inj (Option.some_inj.mp h)
    exact .releaseAll rfl
  | servicesDiscovered n services =>
    dsimp only [flutterBlueApp] at h
    split at h
    · obtain ⟨rfl, -⟩ := Prod.mk.inj (Option.some_inj.mp h)
      exact .keep rfl id
    · cases h
  | failed n =>
    dsimp only [flutterBlueApp] at h
    split at h
    · obtain ⟨rfl, -⟩ := Prod.mk.inj (Option.some_inj.mp h)
      exact .keep rfl id
    · obtain ⟨rfl, -⟩ := Prod.mk.inj (Option.some_inj.mp h)
      exact .keep rfl id
    · cases h
  | completed n => exact absurd rfl (hne n)

/-- What subscribes when a call of `setNotifyValue` has completed. -/
theorem subscribes_completed_iff {n : ℕ} {c : BluetoothCharacteristic} {value : Bool}
    {rest : List BluetoothCharacteristic} {uuid : String}
    (hn : s.pending[n]? = some (.setNotifyValue c value rest)) :
    s.Subscribes (.completed n) uuid ↔ s.device ≠ none ∧ value = true ∧ c.uuid = uuid := by
  constructor
  · rintro ⟨hdevice, n', c', rest', heq, hn', rfl⟩
    obtain rfl := FlutterEvent.completed.inj heq
    rw [hn, Option.some_inj, Pending.setNotifyValue.injEq] at hn'
    exact ⟨hdevice, hn'.2.1, congrArg _ hn'.1⟩
  · rintro ⟨hdevice, rfl, rfl⟩
    exact ⟨hdevice, n, c, rest, rfl, hn, rfl⟩

/-- **What a step does to the value listeners.** -/
theorem step_cases (h : flutterBlueApp.step s e = some (t, os)) :
    (∃ uuid, s.Subscribes e uuid ∧ t.valueListeners = s.valueListeners.acquire uuid ∧
      t.device = s.device) ∨ (∀ uuid, ¬ s.Subscribes e uuid) ∧ s.Effect t := by
  by_cases hcompleted : ∃ n, e = .completed n
  · obtain ⟨n, rfl⟩ := hcompleted
    dsimp only [flutterBlueApp] at h
    split at h
    case h_1 c value rest hn =>
      obtain ⟨rfl, -⟩ := Prod.mk.inj (Option.some_inj.mp h)
      simp only [subscribes_completed_iff hn]
      unfold onNotifyValueSet
      cases value with
      | false => exact .inr ⟨by simp, .release c.uuid rfl rfl⟩
      | true =>
        by_cases hdevice : (s.drop n).device = none
        · rw [if_pos rfl, if_pos hdevice]
          exact .inr ⟨fun uuid hsub => hsub.1 hdevice, .keep rfl id⟩
        · rw [if_pos rfl, if_neg hdevice]
          exact .inl ⟨c.uuid, ⟨hdevice, rfl, rfl⟩, rfl, rfl⟩
    case h_2 rest hn =>
      obtain ⟨rfl, -⟩ := Prod.mk.inj (Option.some_inj.mp h)
      refine .inr ⟨?_, .keep rfl id⟩
      rintro uuid ⟨-, n', c, rest', heq, hn', -⟩
      obtain rfl := FlutterEvent.completed.inj heq
      rw [hn] at hn'
      cases hn'
    case h_3 => cases h
  · refine .inr ⟨?_, effect_of_ne_completed (fun n hn => hcompleted ⟨n, hn⟩) h⟩
    rintro uuid ⟨-, n, c, rest, hn, -⟩
    exact hcompleted ⟨n, hn⟩

/-- **A step leaks a listener exactly if it subscribes again.** -/
theorem tracked_step_iff (h : flutterBlueApp.step s e = some (t, os)) :
    t.valueListeners.Tracked ↔ s.valueListeners.Tracked ∧ ¬ s.Resubscribes e := by
  rcases step_cases h with ⟨uuid, hsub, hlisteners, -⟩ | ⟨hno, heffect⟩
  · rw [hlisteners, Registry.tracked_acquire_iff]
    refine and_congr_right fun _ => ⟨?_, fun hre => ?_⟩
    · rintro hfree ⟨uuid', hsub', hne⟩
      exact hne (hsub.eq hsub' ▸ hfree)
    · by_contra hne
      exact hre ⟨uuid, hsub, hne⟩
  · have hre : ¬ s.Resubscribes e := fun ⟨uuid, hsub, _⟩ => hno uuid hsub
    rw [and_iff_left hre]
    cases heffect with
    | keep hlisteners hdevice => rw [hlisteners]
    | release uuid hlisteners hdevice => rw [hlisteners, Registry.tracked_release_iff]
    | releaseAll hlisteners => rw [hlisteners, Registry.tracked_releaseAll_iff]

/-- Nothing is stored while there is no device. -/
def Unset (s : FlutterBlueAppState) : Prop :=
  s.device = none → ∀ uuid, s.valueListeners.stored.lookup uuid = none

theorem unset_step (h : flutterBlueApp.step s e = some (t, os)) (hs : s.Unset) : t.Unset := by
  intro hdevice uuid
  rcases step_cases h with ⟨uuid', hsub, hlisteners, heq⟩ | ⟨hno, heffect⟩
  · exact absurd (heq ▸ hdevice) hsub.1
  · cases heffect with
    | keep hlisteners hkeep => rw [hlisteners, hs (hkeep hdevice)]
    | release uuid' hlisteners heq =>
      rw [hlisteners]
      by_cases hne : uuid = uuid'
      · rw [hne]
        exact AList.lookup_erase uuid' _
      · exact (AList.lookup_erase_ne hne).trans (hs (heq ▸ hdevice) uuid)
    | releaseAll hlisteners =>
      rw [hlisteners]
      rfl

end Steps

end FlutterBlueAppState

/-! ### Runs -/

/-- In every state of the run each live value listener is the one that is stored under its UUID, and
none is live while there is no device and nothing is pending. The device is `null` from a call of
`_disconnect` to the next one of `_connect`, and no operation is started then. -/
def NoLeakedListeners (events : List FlutterEvent) : Prop :=
  ∀ pre post s os, events = pre ++ post → flutterBlueApp.run .init pre = some (s, os) →
    s.valueListeners.Tracked ∧
      (s.device = none → s.pending = [] → s.valueListeners.live = ∅)

/-- Whenever `_setNotification` subscribes to a characteristic none is stored under its UUID. -/
def SubscribesOnce (events : List FlutterEvent) : Prop :=
  ∀ pre e post s os, events = pre ++ e :: post → flutterBlueApp.run .init pre = some (s, os) →
    ¬ s.Resubscribes e

section Runs

variable {events : List FlutterEvent} {s : FlutterBlueAppState} {os : List Empty}

theorem unset_of_run (hrun : flutterBlueApp.run .init events = some (s, os)) : s.Unset :=
  Transducer.run_induction (fun _ s => s.Unset) (fun _ _ => rfl)
    (fun _ _ _ _ _ _ _ _ _ hs hstep => FlutterBlueAppState.unset_step hstep hs) hrun

/-- **When a run leaks no listener.** -/
theorem tracked_run_iff (hrun : flutterBlueApp.run .init events = some (s, os)) :
    s.valueListeners.Tracked ↔ SubscribesOnce events := by
  rw [Transducer.run_iff (P := fun s => s.valueListeners.Tracked)
    (fun _ _ _ _ hstep => FlutterBlueAppState.tracked_step_iff hstep) hrun]
  exact and_iff_right Registry.tracked_empty

theorem SubscribesOnce.of_append {pre post : List FlutterEvent}
    (h : SubscribesOnce (pre ++ post)) : SubscribesOnce pre := by
  rintro as e bs s os rfl
  exact h as e (bs ++ post) s os (by simp)

/-- **When no value listener is leaked.** In a run of the application each live value listener is
always the one stored under its UUID, and none is left after `_disconnect`, if and only if no
subscription is made while another one is stored under the same UUID. -/
theorem noLeakedListeners_iff (hrun : flutterBlueApp.run .init events = some (s, os)) :
    NoLeakedListeners events ↔ SubscribesOnce events := by
  constructor
  · intro h
    exact (tracked_run_iff hrun).mp (h events [] s os (List.append_nil _).symm hrun).1
  · rintro h pre post t os' rfl hpre
    have htracked := (tracked_run_iff hpre).mpr h.of_append
    exact ⟨htracked, fun hdevice _ => htracked.live_eq_empty (unset_of_run hpre hdevice)⟩

/-- There is at most one live listener for each UUID. -/
theorem NoLeakedListeners.eq_of_key_eq (h : NoLeakedListeners events)
    (hrun : flutterBlueApp.run .init events = some (s, os)) {l l' : Handle String}
    (hl : l ∈ s.valueListeners.live) (hl' : l' ∈ s.valueListeners.live) (hkey : l.key = l'.key) :
    l = l' :=
  (h events [] s os (List.append_nil _).symm hrun).1.eq_of_key_eq hl hl' hkey

end Runs

/-- The service of the receiver with one of its characteristics, which is not notifying. -/
def uartService : BluetoothService :=
  ⟨"6e400001-b5a3-f393-e0a9-e50e24dcca9e", [⟨"6e400004-b5a3-f393-e0a9-e50e24dcca9e", false⟩]⟩

/-- The device is connected once, and the application subscribes to its characteristic. -/
def connectedOnce : List FlutterEvent :=
  [.scanResult "d" "UART Service", .stateChanged 1 .connected,
    .servicesDiscovered 0 [uartService], .completed 0, .completed 0, .disconnect]

/-- No listener is leaked. -/
theorem noLeakedListeners_iff_connected : ∃ s os,
    flutterBlueApp.run .init connectedOnce = some (s, os) ∧ s.device = none ∧ s.pending = [] ∧
      NoLeakedListeners connectedOnce := by
  obtain ⟨s, os, hrun, hdevice, hpending⟩ : ∃ s os,
      flutterBlueApp.run .init connectedOnce = some (s, os) ∧ s.device = none ∧ s.pending = [] :=
    ⟨_, _, rfl, rfl, rfl⟩
  refine ⟨s, os, hrun, hdevice, hpending, (noLeakedListeners_iff hrun).mpr ?_⟩
  rintro pre e post t os' hsplit hpre ⟨uuid, ⟨-, n, c, rest, rfl, hn, rfl⟩, hstored⟩
  obtain ⟨as, rfl, ⟨rfl, rfl, -⟩ | ⟨rfl, rfl, -⟩⟩ := by
    simpa [connectedOnce, List.cons_eq_append_iff] using hsplit
  · obtain ⟨rfl, -⟩ := Prod.mk.inj (Option.some.inj hpre)
    exact hstored rfl
  · -- The second completion is that of `_setNotification`.
    obtain ⟨rfl, -⟩ := Prod.mk.inj (Option.some.inj hpre)
    cases hn

/-- The device reports twice that it is connected, and the services are discovered twice before the
first `setNotifyValue` completes. -/
def connectedTwice : List FlutterEvent :=
  [.scanResult "d" "UART Service", .stateChanged 1 .connected, .stateChanged 1 .connected,
    .servicesDiscovered 0 [uartService], .servicesDiscovered 0 [uartService], .completed 0,
    .completed 0, .completed 0, .completed 0, .disconnect]

/-- After `_disconnect` the first of the two subscriptions is still live, and nothing is pending. -/
theorem not_noLeakedListeners : ∃ s os,
    flutterBlueApp.run .init connectedTwice = some (s, os) ∧ s.device = none ∧ s.pending = [] ∧
      s.valueListeners.live ≠ ∅ ∧ ¬ NoLeakedListeners connectedTwice := by
  obtain ⟨s, os, hrun, hdevice, hpending, hlive⟩ : ∃ s os,
      flutterBlueApp.run .init connectedTwice = some (s, os) ∧ s.device = none ∧ s.pending = [] ∧
        ⟨"6e400004-b5a3-f393-e0a9-e50e24dcca9e", 0⟩ ∈ s.valueListeners.live :=
    ⟨_, _, rfl, rfl, rfl, by decide⟩
  have hne : s.valueListeners.live ≠ ∅ := Finset.ne_empty_of_mem hlive
  refine ⟨s, os, hrun, hdevice, hpending, hne, fun h => ?_⟩
  exact hne ((h _ [] s os (List.append_nil _).symm hrun).2 hdevice hpending)

end GpsTracker
