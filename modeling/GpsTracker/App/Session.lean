import GpsTracker.App.ValueListeners
import Mathlib.Data.Finset.Option

/-!
# Scans and connections of the Flutter application

The application scans for devices when the user taps the button to search, connects to the first one
with the name of the receiver and stops to scan. It keeps one subscription for the scan, one for the
connection and one for the state of the device, and overwrites what is stored when it makes a new
one. The buttons are those of the last frame that has been built, which may be out of date when the
user taps them.

A state is safe if what is live is exactly what is stored, and the application does not scan while
it has a device. All states of a run are safe if and only if the user never starts to search from a
frame that is out of date, while a scan goes on or there is a device (`alwaysSafe_iff`). The other
buttons do no harm (`searchesIdle_of_upToDate`).

The subscriptions to values are those of `flutterBlueApp`, of which each run of a session is a run
(`exists_run_app`). The results of the scan are only displayed, and not modelled.

## Main definitions

* `Session`, `flutterSession`.
* `Session.Safe`, `AlwaysSafe`, `SearchesIdle`.

## Main results

* `exists_run_app`, `SearchesIdle.eq_empty`.
* `alwaysSafe_iff`, `searchesIdle_of_upToDate`.
-/

namespace GpsTracker

/-! ### The application -/

inductive BluetoothState where
  | unknown | unavailable | unauthorized | turningOn | on | turningOff | off
  deriving DecidableEq, Repr

inductive ScanningButton where
  | stop | search
  deriving DecidableEq, Repr

/-- The buttons that the user sees. -/
structure Frame where
  scanningButton : Option ScanningButton
  actionButton : Bool
  deriving DecidableEq, Repr

/-- The application with its scans, the state of the adapter and the last frame. -/
structure Session where
  app : FlutterBlueAppState
  state : BluetoothState
  isScanning : Bool
  scanSubscription : Option ℕ
  scans : Finset ℕ
  nextScan : ℕ
  frame : Frame

namespace Session

variable (s : Session)

/-- `_startScan`. -/
def startScan : Session :=
  { s with
    scanSubscription := some s.nextScan
    scans := insert s.nextScan s.scans
    nextScan := s.nextScan + 1
    isScanning := true }

/-- `_stopScan`. -/
def stopScan : Session :=
  { s with
    scanSubscription := none
    scans := s.scanSubscription.elim s.scans s.scans.erase
    isScanning := false }

/-- The handler of a scan result. -/
def onScanResult (d name : String) : Session :=
  let s := { s with app := s.app.onScanResult d name }
  if name = "UART Service" then s.stopScan else s

/-- `_buildScanningButton`. -/
def buildScanningButton : Option ScanningButton :=
  if s.app.device ≠ none ∨ s.state ≠ .on then none
  else if s.isScanning then some .stop else some .search

/-- `_buildActionButtons`. -/
def buildActionButton : Bool := s.app.device.isSome

/-- `build`. -/
def build : Frame := ⟨s.buildScanningButton, s.buildActionButton⟩

/-- The application when it starts. -/
def init : Session := ⟨.init, .unknown, false, none, ∅, 0, ⟨none, false⟩⟩

end Session

/-- What happens: a frame is built, a button is tapped, the state of the adapter changes, a scan
has a result or ends, or something of the connected device. -/
inductive SessionEvent where
  | frame
  | tapScanningButton
  | tapActionButton
  | adapterChanged (st : BluetoothState)
  | scanResult (scan : ℕ) (d name : String)
  | scanDone (scan : ℕ)
  | device (e : FlutterEvent)

/-- The event belongs to the connected device. -/
def FlutterEvent.IsOfDevice : FlutterEvent → Bool
  | .scanResult _ _ | .disconnect => false
  | _ => true

/-- The application. Only buttons that are shown can be tapped, and only live scans have results. -/
def flutterSession : Transducer Session SessionEvent Empty where
  step s
    | .frame => some ({ s with frame := s.build }, [])
    | .tapScanningButton =>
      s.frame.scanningButton.map fun
        | .stop => (s.stopScan, [])
        | .search => (s.startScan, [])
    | .tapActionButton =>
      if s.frame.actionButton then some ({ s with app := s.app.disconnect }, []) else none
    | .adapterChanged st => some ({ s with state := st }, [])
    | .scanResult n d name => if n ∈ s.scans then some (s.onScanResult d name, []) else none
    | .scanDone n =>
      if n ∈ s.scans then some ({ s with scans := s.scans.erase n }.stopScan, []) else none
    | .device e =>
      if e.IsOfDevice then
        (flutterBlueApp.step s.app e).map fun p => ({ s with app := p.1 }, [])
      else none

/-! ### What is live -/

/-- The subscriptions to the connection and to the state of the device that are live are those that
are stored, which is the case as long as there is a device. -/
structure FlutterBlueAppState.Stored (s : FlutterBlueAppState) : Prop where
  connections_eq : s.connections = s.deviceConnection.toFinset
  stateListeners_eq : s.stateListeners = s.deviceStateSubscription.toFinset
  isSome_connection : s.deviceConnection.isSome = s.device.isSome
  isSome_listener : s.deviceStateSubscription.isSome = s.device.isSome

/-- What is live is what is stored, and there is no scan while there is a device. -/
structure Session.Safe (s : Session) : Prop where
  stored : s.app.Stored
  scans_eq : s.scans = s.scanSubscription.toFinset
  scans_lt : ∀ n ∈ s.scans, n < s.nextScan
  isSome_scan : s.scanSubscription.isSome = s.isScanning
  idle : s.isScanning = true → s.app.device = none

/-- All states of the run are safe. -/
def AlwaysSafe (es : List SessionEvent) : Prop :=
  ∀ pre post s os, es = pre ++ post → flutterSession.run .init pre = some (s, os) → s.Safe

/-- The user never starts to search while a scan goes on or there is a device. -/
def SearchesIdle (es : List SessionEvent) : Prop :=
  ∀ pre post s os, es = pre ++ .tapScanningButton :: post →
    flutterSession.run .init pre = some (s, os) → s.frame.scanningButton = some .search →
    s.isScanning = false ∧ s.app.device = none

section Steps

namespace FlutterBlueAppState

variable {s t : FlutterBlueAppState} {os : List Empty}

theorem Stored.eq_none (h : s.Stored) (hdevice : s.device = none) :
    s.deviceConnection = none ∧ s.deviceStateSubscription = none ∧ s.connections = ∅ ∧
      s.stateListeners = ∅ := by
  have hconnection : s.deviceConnection = none := by
    simpa [hdevice] using h.isSome_connection
  have hlistener : s.deviceStateSubscription = none := by
    simpa [hdevice] using h.isSome_listener
  refine ⟨hconnection, hlistener, ?_, ?_⟩
  · rw [h.connections_eq, hconnection, Option.toFinset_none]
  · rw [h.stateListeners_eq, hlistener, Option.toFinset_none]

theorem Stored.connect (h : s.Stored) (hdevice : s.device = none) (d : String) :
    (s.connect d).Stored := by
  obtain ⟨-, -, hconnections, hlisteners⟩ := h.eq_none hdevice
  refine ⟨?_, ?_, rfl, rfl⟩
  · simp [FlutterBlueAppState.connect, hconnections]
  · simp [FlutterBlueAppState.connect, hlisteners]

/-- The release of the only element of a set of subscriptions, of which one may have ended. -/
theorem elim_erase_eq_empty {o : Option ℕ} {live : Finset ℕ} (h : live ⊆ o.toFinset) :
    o.elim live live.erase = ∅ := by
  cases o with
  | none => simpa using h
  | some n =>
    rw [Option.elim_some, Finset.erase_eq_empty_iff]
    exact Finset.subset_singleton_iff.mp (by simpa using h)

theorem Stored.disconnect (h : s.Stored) (live : Finset ℕ) (hlive : live ⊆ s.connections) :
    ({ s with connections := live }.disconnect).Stored := by
  refine ⟨?_, ?_, rfl, rfl⟩
  · exact elim_erase_eq_empty (hlive.trans h.connections_eq.subset)
  · exact elim_erase_eq_empty h.stateListeners_eq.subset

/-- An event of the device other than the end of the connection leaves its subscriptions as they
are. -/
theorem Stored.step {e : FlutterEvent} (he : e.IsOfDevice = true)
    (h : flutterBlueApp.step s e = some (t, os)) (hs : s.Stored) :
    t.Stored ∧ (s.device = none → t.device = none) := by
  cases e with
  | scanResult d name => cases he
  | disconnect => cases he
  | connectionDone n =>
    obtain ⟨-, h⟩ := Option.ite_none_right_eq_some.mp h
    obtain ⟨rfl, -⟩ := Prod.mk.inj (Option.some_inj.mp h)
    exact ⟨hs.disconnect _ (Finset.erase_subset n _), fun _ => rfl⟩
  | stateChanged n st =>
    obtain ⟨-, h⟩ := Option.ite_none_right_eq_some.mp h
    obtain ⟨rfl, -⟩ := Prod.mk.inj (Option.some_inj.mp h)
    unfold onStateChanged
    split <;> exact ⟨⟨hs.1, hs.2, hs.3, hs.4⟩, id⟩
  | servicesDiscovered n services =>
    dsimp only [flutterBlueApp] at h
    split at h
    · obtain ⟨rfl, -⟩ := Prod.mk.inj (Option.some_inj.mp h)
      exact ⟨⟨hs.1, hs.2, hs.3, hs.4⟩, id⟩
    · cases h
  | completed n =>
    dsimp only [flutterBlueApp] at h
    split at h
    · obtain ⟨rfl, -⟩ := Prod.mk.inj (Option.some_inj.mp h)
      unfold onNotifyValueSet
      split_ifs <;> exact ⟨⟨hs.1, hs.2, hs.3, hs.4⟩, id⟩
    · obtain ⟨rfl, -⟩ := Prod.mk.inj (Option.some_inj.mp h)
      exact ⟨⟨hs.1, hs.2, hs.3, hs.4⟩, id⟩
    · cases h
  | failed n =>
    dsimp only [flutterBlueApp] at h
    split at h
    · obtain ⟨rfl, -⟩ := Prod.mk.inj (Option.some_inj.mp h)
      exact ⟨⟨hs.1, hs.2, hs.3, hs.4⟩, id⟩
    · obtain ⟨rfl, -⟩ := Prod.mk.inj (Option.some_inj.mp h)
      exact ⟨⟨hs.1, hs.2, hs.3, hs.4⟩, id⟩
    · cases h

end FlutterBlueAppState

namespace Session

variable {s t : Session} {e : SessionEvent} {os : List Empty}

theorem Safe.startScan (h : s.Safe) (hscan : s.isScanning = false) (hdevice : s.app.device = none) :
    s.startScan.Safe := by
  have hnone : s.scanSubscription = none := by
    simpa [hscan] using h.isSome_scan
  have hscans : s.scans = ∅ := by rw [h.scans_eq, hnone, Option.toFinset_none]
  refine ⟨h.stored, ?_, ?_, rfl, fun _ => hdevice⟩
  · simp [Session.startScan, hscans]
  · simp [Session.startScan, hscans]

/-- A scan can be stopped when what is live is stored, also if it has just ended. -/
theorem stopScan_safe (hstored : s.app.Stored) (hscans : s.scans ⊆ s.scanSubscription.toFinset) :
    s.stopScan.Safe := by
  have hempty : s.stopScan.scans = ∅ := FlutterBlueAppState.elim_erase_eq_empty hscans
  refine ⟨hstored, hempty, fun n hn => ?_, rfl, fun h => nomatch h⟩
  rw [hempty] at hn
  cases hn

theorem Safe.onScanResult (h : s.Safe) {n : ℕ} (hn : n ∈ s.scans) (d name : String) :
    (s.onScanResult d name).Safe := by
  have hscanning : s.isScanning = true := by
    rw [h.scans_eq, Option.mem_toFinset] at hn
    rw [← h.isSome_scan, Option.isSome_of_mem hn]
  rw [Session.onScanResult]
  split_ifs with hname
  · refine stopScan_safe ?_ h.scans_eq.subset
    rw [FlutterBlueAppState.onScanResult, if_pos hname]
    exact h.stored.connect (h.idle hscanning) d
  · rw [FlutterBlueAppState.onScanResult, if_neg hname]
    exact h

/-- Starting to search at the wrong time spoils the state. -/
theorem Safe.startScan_iff (h : s.Safe) :
    s.startScan.Safe ↔ s.isScanning = false ∧ s.app.device = none := by
  constructor
  · intro hstart
    refine ⟨?_, hstart.idle rfl⟩
    by_contra hscan
    have hscanning : s.scanSubscription.isSome = true := by
      rw [h.isSome_scan]
      exact eq_true_of_ne_false hscan
    obtain ⟨n, hn⟩ := Option.isSome_iff_exists.mp hscanning
    have hlive : n ∈ s.scans := by
      rw [h.scans_eq, hn, Option.toFinset_some, Finset.mem_singleton]
    have hstored : n ∈ s.startScan.scans := Finset.mem_insert_of_mem hlive
    rw [hstart.scans_eq] at hstored
    have heq : n = s.nextScan := by simpa [Session.startScan, eq_comm] using hstored
    exact absurd heq (h.scans_lt n hlive).ne
  · rintro ⟨hscan, hdevice⟩
    exact h.startScan hscan hdevice

/-- **One step** from a safe state leads to a safe one, unless a search begins at the wrong time. -/
theorem Safe.step (h : s.Safe) (hstep : flutterSession.step s e = some (t, os))
    (he : e = .tapScanningButton → s.frame.scanningButton = some .search →
      s.isScanning = false ∧ s.app.device = none) : t.Safe := by
  cases e with
  | frame =>
    obtain ⟨rfl, -⟩ := Prod.mk.inj (Option.some_inj.mp hstep)
    exact ⟨h.1, h.2, h.3, h.4, h.5⟩
  | tapScanningButton =>
    obtain ⟨b, hb, heq⟩ := Option.map_eq_some_iff.mp hstep
    cases b with
    | stop =>
      obtain ⟨rfl, -⟩ := Prod.mk.inj heq
      exact stopScan_safe h.stored h.scans_eq.subset
    | search =>
      obtain ⟨rfl, -⟩ := Prod.mk.inj heq
      exact h.startScan_iff.mpr (he rfl hb)
  | tapActionButton =>
    obtain ⟨-, hstep⟩ := Option.ite_none_right_eq_some.mp hstep
    obtain ⟨rfl, -⟩ := Prod.mk.inj (Option.some_inj.mp hstep)
    exact ⟨h.stored.disconnect _ subset_rfl, h.2, h.3, h.4, fun _ => rfl⟩
  | adapterChanged st =>
    obtain ⟨rfl, -⟩ := Prod.mk.inj (Option.some_inj.mp hstep)
    exact ⟨h.1, h.2, h.3, h.4, h.5⟩
  | scanResult n d name =>
    obtain ⟨hn, hstep⟩ := Option.ite_none_right_eq_some.mp hstep
    obtain ⟨rfl, -⟩ := Prod.mk.inj (Option.some_inj.mp hstep)
    exact h.onScanResult hn d name
  | scanDone n =>
    obtain ⟨-, hstep⟩ := Option.ite_none_right_eq_some.mp hstep
    obtain ⟨rfl, -⟩ := Prod.mk.inj (Option.some_inj.mp hstep)
    exact stopScan_safe h.stored ((Finset.erase_subset n _).trans h.scans_eq.subset)
  | device e =>
    obtain ⟨hof, hstep⟩ := Option.ite_none_right_eq_some.mp hstep
    obtain ⟨⟨a, os'⟩, hdevice, heq⟩ := Option.map_eq_some_iff.mp hstep
    obtain ⟨rfl, -⟩ := Prod.mk.inj heq
    obtain ⟨hstored, hnone⟩ := h.stored.step hof hdevice
    exact ⟨hstored, h.2, h.3, h.4, fun hscan => hnone (h.idle hscan)⟩

end Session

end Steps

/-! ### Runs -/

section Runs

variable {es : List SessionEvent} {s : Session} {os : List Empty}

/-- **A run of a session is a run of the application**, whose events are the results of scans, the
taps on the button to disconnect and what happens to the device. -/
theorem exists_run_app (hrun : flutterSession.run .init es = some (s, os)) :
    ∃ es' os', flutterBlueApp.run .init es' = some (s.app, os') := by
  refine Transducer.run_induction
    (fun _ s => ∃ es' os', flutterBlueApp.run .init es' = some (s.app, os')) ⟨[], [], rfl⟩ ?_ hrun
  rintro _ _ t _ e u o - - ⟨es', os', happ⟩ hstep
  cases e with
  | frame =>
    obtain ⟨rfl, -⟩ := Prod.mk.inj (Option.some_inj.mp hstep)
    exact ⟨es', os', happ⟩
  | tapScanningButton =>
    obtain ⟨b, -, heq⟩ := Option.map_eq_some_iff.mp hstep
    cases b <;> obtain ⟨rfl, -⟩ := Prod.mk.inj heq <;> exact ⟨es', os', happ⟩
  | tapActionButton =>
    obtain ⟨-, hstep⟩ := Option.ite_none_right_eq_some.mp hstep
    obtain ⟨rfl, -⟩ := Prod.mk.inj (Option.some_inj.mp hstep)
    exact ⟨_, _, Transducer.run_concat_of_eq_some (x := .disconnect) happ rfl⟩
  | adapterChanged st =>
    obtain ⟨rfl, -⟩ := Prod.mk.inj (Option.some_inj.mp hstep)
    exact ⟨es', os', happ⟩
  | scanResult n d name =>
    obtain ⟨-, hstep⟩ := Option.ite_none_right_eq_some.mp hstep
    obtain ⟨rfl, -⟩ := Prod.mk.inj (Option.some_inj.mp hstep)
    have hresult := Transducer.run_concat_of_eq_some (x := .scanResult d name) happ rfl
    rw [Session.onScanResult]
    split_ifs <;> exact ⟨_, _, hresult⟩
  | scanDone n =>
    obtain ⟨-, hstep⟩ := Option.ite_none_right_eq_some.mp hstep
    obtain ⟨rfl, -⟩ := Prod.mk.inj (Option.some_inj.mp hstep)
    exact ⟨es', os', happ⟩
  | device e =>
    obtain ⟨-, hstep⟩ := Option.ite_none_right_eq_some.mp hstep
    obtain ⟨⟨a, os''⟩, hdevice, heq⟩ := Option.map_eq_some_iff.mp hstep
    obtain ⟨rfl, -⟩ := Prod.mk.inj heq
    exact ⟨_, _, Transducer.run_concat_of_eq_some happ hdevice⟩

theorem Session.init_safe : Session.init.Safe :=
  ⟨⟨rfl, rfl, rfl, rfl⟩, rfl, by simp [Session.init], rfl, fun _ => rfl⟩

theorem SearchesIdle.of_append {pre post : List SessionEvent} (h : SearchesIdle (pre ++ post)) :
    SearchesIdle pre := by
  rintro as bs s os rfl
  exact h as (bs ++ post) s os (by simp)

theorem SearchesIdle.safe (h : SearchesIdle es)
    (hrun : flutterSession.run .init es = some (s, os)) : s.Safe := by
  refine Transducer.run_induction (fun _ s => s.Safe) Session.init_safe ?_ hrun
  rintro as bs t os' e u o rfl has hsafe hstep
  refine hsafe.step hstep fun he hsearch => ?_
  exact h as bs t os' (by rw [he]) has hsearch

/-- **When all states of a run are safe.** -/
theorem alwaysSafe_iff (es : List SessionEvent) : AlwaysSafe es ↔ SearchesIdle es := by
  constructor
  · rintro h pre post s os rfl hpre hsearch
    have htap : flutterSession.step s .tapScanningButton = some (s.startScan, []) := by
      simp only [flutterSession, hsearch, Option.map_some]
    have hsafe := h pre (.tapScanningButton :: post) s os rfl hpre
    have hstart := h (pre ++ [.tapScanningButton]) post s.startScan _ (by simp)
      (Transducer.run_concat_of_eq_some hpre htap)
    exact hsafe.startScan_iff.mp hstart
  · rintro h pre post s os rfl hpre
    exact h.of_append.safe hpre

/-- The button to scan is tapped only on a frame that is up to date. -/
def UpToDate (es : List SessionEvent) : Prop :=
  ∀ pre post s os, es = pre ++ .tapScanningButton :: post →
    flutterSession.run .init pre = some (s, os) → s.frame = s.build

theorem searchesIdle_of_upToDate (h : UpToDate es) : SearchesIdle es := by
  rintro pre post s os heq hpre hsearch
  rw [h pre post s os heq hpre, Session.build, Session.buildScanningButton] at hsearch
  split_ifs at hsearch with hdevice hscan
  · cases hsearch
  · rw [not_or, not_not] at hdevice
    exact ⟨eq_false_of_ne_true hscan, hdevice.1⟩

/-- **When there is no device, nothing of one is left**: no connection and no listener of its state
is live, and no subscription to a value is stored. -/
theorem SearchesIdle.eq_empty (h : SearchesIdle es)
    (hrun : flutterSession.run .init es = some (s, os)) (hdevice : s.app.device = none) :
    s.app.connections = ∅ ∧ s.app.stateListeners = ∅ ∧
      ∀ uuid, s.app.valueListeners.stored.lookup uuid = none := by
  obtain ⟨-, -, hconnections, hlisteners⟩ := (h.safe hrun).stored.eq_none hdevice
  obtain ⟨es', os', happ⟩ := exists_run_app hrun
  exact ⟨hconnections, hlisteners, unset_of_run happ hdevice⟩

end Runs

end GpsTracker
