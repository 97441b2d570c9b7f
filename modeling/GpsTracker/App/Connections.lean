import GpsTracker.Stream.Transducer
import Mathlib.Data.Finset.Card

/-!
# The connection flag

The receiver counts its clients with one boolean. The callbacks of `main.cpp` set
`deviceConnected` when a client connects and clear it when a client disconnects, while the loop of
`app_main` polls the radio, waits, and starts advertising 500 ms after it has seen a disconnection.
Clients come and go between any two steps of the loop.

An accepted connection ends the advertising, so that one client at a time is the rule. It fails
when a client reconnects before the loop starts advertising: a second client may then connect, and
when one of the two leaves the flag is cleared while the other is still there. The flag says in
every state of a run whether a client is connected exactly when every client that disconnects is
the only one (`connectionFlagTracks_iff`, `not_connectionFlagTracks`), which is so if the loop
never starts advertising while a client is connected (`lastClientLeaves_of_advertisesAlone`).

## Main definitions

* `Server`, `LoopPoint`, `AppState`, `appMain`.
* `ConnectionFlagTracks`, `LastClientLeaves`.

## Main results

* `connectedCount_eq`.
* `connectionFlagTracks_iff`, `not_connectionFlagTracks`.
* `notified_iff_of_lastClientLeaves`, `lastClientLeaves_of_advertisesAlone`.
-/

namespace GpsTracker

variable {ι : Type} [DecidableEq ι]

/-! ### The server -/

/-- `CONFIG_BTDM_CONTROLLER_BLE_MAX_CONN`. -/
def maxConnections : ℕ := 3

/-- The server: the clients connected to it, whether it advertises, the flag of `main.cpp` and the
count of the library. -/
structure Server (ι : Type) where
  conns : Finset ι
  advertising : Bool
  deviceConnected : Bool
  connectedCount : ℕ
  card_le : conns.card ≤ maxConnections

namespace Server

variable (s : Server ι)

/-- The server after `init_ble`. -/
def init : Server ι := ⟨∅, true, false, 0, Nat.zero_le _⟩

/-- The event of a client that connects. It happens only while the server advertises, and ends the
advertising. -/
def connect? (i : ι) : Option (Server ι) :=
  if h : s.advertising = true ∧ i ∉ s.conns ∧ s.conns.card < maxConnections then
    some ⟨insert i s.conns, false, true, s.connectedCount + 1,
      (Finset.card_insert_of_notMem h.2.1).trans_le h.2.2⟩
  else none

/-- The event of a client that disconnects. -/
def disconnect? (i : ι) : Option (Server ι) :=
  if i ∈ s.conns then
    some ⟨s.conns.erase i, true, false, s.connectedCount - 1,
      Finset.card_erase_le.trans s.card_le⟩
  else none

/-- `BLEServer::startAdvertising`. -/
def startAdvertising : Server ι := { s with advertising := true }

/-- The flag says whether a client is connected. -/
def FlagTracks : Prop := s.deviceConnected = true ↔ s.conns.Nonempty

variable {s} {t : Server ι} {i : ι}

theorem connect?_eq_some : s.connect? i = some t ↔
    (s.advertising = true ∧ i ∉ s.conns ∧ s.conns.card < maxConnections) ∧
      t.conns = insert i s.conns ∧ t.advertising = false ∧ t.deviceConnected = true ∧
        t.connectedCount = s.connectedCount + 1 := by
  rcases t with ⟨conns, advertising, deviceConnected, connectedCount, hcard⟩
  simp only [connect?, Option.dite_none_right_eq_some, Option.some_inj, mk.injEq, exists_prop]
  grind

theorem disconnect?_eq_some : s.disconnect? i = some t ↔ i ∈ s.conns ∧
    t.conns = s.conns.erase i ∧ t.advertising = true ∧ t.deviceConnected = false ∧
      t.connectedCount = s.connectedCount - 1 := by
  rcases t with ⟨conns, advertising, deviceConnected, connectedCount, hcard⟩
  simp only [disconnect?, Option.ite_none_right_eq_some, Option.some_inj, mk.injEq]
  grind

/-- A client that connects sets the flag. -/
theorem flagTracks_of_connect? (h : s.connect? i = some t) : t.FlagTracks := by
  obtain ⟨-, hconns, -, hflag, -⟩ := connect?_eq_some.mp h
  exact iff_of_true hflag (hconns ▸ Finset.insert_nonempty i s.conns)

/-- **A client that disconnects clears the flag**, which is right if it was the only one. -/
theorem flagTracks_of_disconnect?_iff (h : s.disconnect? i = some t) :
    t.FlagTracks ↔ s.conns = {i} := by
  obtain ⟨hmem, hconns, -, hflag, -⟩ := disconnect?_eq_some.mp h
  rw [FlagTracks, hflag, hconns]
  simp only [Bool.false_eq_true, false_iff, Finset.not_nonempty_iff_eq_empty,
    Finset.erase_eq_empty_iff]
  exact ⟨fun h => h.resolve_left (Finset.ne_empty_of_mem hmem), Or.inr⟩

end Server

/-! ### The loop -/

/-- Where the loop of `app_main` is: before a call of `lora_received`, in one of its three delays,
or before a test or an assignment after them. -/
inductive LoopPoint where
  | received
  | delayCongestion
  | delayPoll
  | testDisconnecting
  | delayReady
  | startAdvertising
  | assignDisconnecting
  | testConnecting
  | assignConnecting
  deriving DecidableEq, Repr

/-- The server and the loop. -/
structure AppState (ι : Type) where
  server : Server ι
  loop : LoopPoint
  oldDeviceConnected : Bool

/-- A packet that the loop has received: whether its values were notified, and the clients that
were connected. -/
structure Handled (ι : Type) where
  notified : Bool
  clients : Finset ι

/-- What happens: a client connects or disconnects, or the loop makes a step. If the step is a call
of `lora_received`, its result is given. -/
inductive AppEvent (ι : Type) where
  | connect (i : ι)
  | disconnect (i : ι)
  | loop (received : Bool)

/-- A step of the loop. It reads or writes the variables of the server once at most. -/
def loopStep (received : Bool) (s : AppState ι) : AppState ι × List (Handled ι) :=
  match s.loop with
  | .received =>
    if received then
      ({ s with loop := if s.server.deviceConnected then .delayCongestion else .received },
        [⟨s.server.deviceConnected, s.server.conns⟩])
    else ({ s with loop := .delayPoll }, [])
  | .delayCongestion => ({ s with loop := .received }, [])
  | .delayPoll => ({ s with loop := .testDisconnecting }, [])
  | .testDisconnecting =>
    if !s.server.deviceConnected && s.oldDeviceConnected then ({ s with loop := .delayReady }, [])
    else ({ s with loop := .testConnecting }, [])
  | .delayReady => ({ s with loop := .startAdvertising }, [])
  | .startAdvertising =>
    ({ s with server := s.server.startAdvertising, loop := .assignDisconnecting }, [])
  | .assignDisconnecting =>
    ({ s with oldDeviceConnected := s.server.deviceConnected, loop := .testConnecting }, [])
  | .testConnecting =>
    if s.server.deviceConnected && !s.oldDeviceConnected then
      ({ s with loop := .assignConnecting }, [])
    else ({ s with loop := .received }, [])
  | .assignConnecting =>
    ({ s with oldDeviceConnected := s.server.deviceConnected, loop := .received }, [])

/-- The two tasks. -/
def appMain (ι : Type) [DecidableEq ι] : Transducer (AppState ι) (AppEvent ι) (Handled ι) where
  step s
    | .connect i => (s.server.connect? i).map fun server => ({ s with server := server }, [])
    | .disconnect i => (s.server.disconnect? i).map fun server => ({ s with server := server }, [])
    | .loop received => some (loopStep received s)

/-- The state in which the loop starts. -/
def AppState.init : AppState ι := ⟨.init, .received, false⟩

section Steps

variable {s t : AppState ι} {os : List (Handled ι)} {i : ι}

theorem appMain_connect : (appMain ι).step s (.connect i) = some (t, os) ↔
    ∃ server, s.server.connect? i = some server ∧ t = { s with server := server } ∧ os = [] := by
  refine Option.map_eq_some_iff.trans (exists_congr fun server => and_congr_right fun _ => ?_)
  rw [Prod.mk.injEq, eq_comm, eq_comm (a := [])]

theorem appMain_disconnect : (appMain ι).step s (.disconnect i) = some (t, os) ↔
    ∃ server, s.server.disconnect? i = some server ∧ t = { s with server := server } ∧
      os = [] := by
  refine Option.map_eq_some_iff.trans (exists_congr fun server => and_congr_right fun _ => ?_)
  rw [Prod.mk.injEq, eq_comm, eq_comm (a := [])]

omit [DecidableEq ι] in
/-- **What a step of the loop does.** It may start to advertise, and does nothing else to the
server. A packet that it handles is notified if the flag is set. -/
theorem loopStep_cases {received : Bool} (h : loopStep received s = (t, os)) :
    (t.server = s.server ∨
      s.loop = .startAdvertising ∧ t.server = s.server.startAdvertising) ∧
    ∀ o ∈ os, o = ⟨s.server.deviceConnected, s.server.conns⟩ := by
  unfold loopStep at h
  split at h <;> (try split at h) <;> obtain ⟨rfl, rfl⟩ := Prod.mk.inj h <;> simp_all

omit [DecidableEq ι] in
theorem flagTracks_loopStep {received : Bool} (h : loopStep received s = (t, os)) :
    t.server.FlagTracks ↔ s.server.FlagTracks := by
  obtain ⟨hserver | ⟨-, hserver⟩, -⟩ := loopStep_cases h
  · rw [hserver]
  · rw [hserver]
    rfl

end Steps

/-! ### Runs -/

section Runs

/-- In every state of the run the flag says whether a client is connected. -/
def ConnectionFlagTracks (events : List (AppEvent ι)) : Prop :=
  ∀ pre post s os, events = pre ++ post → (appMain ι).run .init pre = some (s, os) →
    s.server.FlagTracks

/-- Every client that disconnects is the only one that is connected. -/
def LastClientLeaves (events : List (AppEvent ι)) : Prop :=
  ∀ pre i post s os, events = pre ++ .disconnect i :: post →
    (appMain ι).run .init pre = some (s, os) → s.server.conns = {i}

/-- Whenever the loop starts to advertise no client is connected. -/
def AdvertisesAlone (events : List (AppEvent ι)) : Prop :=
  ∀ pre received post s os, events = pre ++ .loop received :: post →
    (appMain ι).run .init pre = some (s, os) → s.loop = .startAdvertising → s.server.conns = ∅

variable {events : List (AppEvent ι)} {s : AppState ι} {os : List (Handled ι)}

/-- In the last state of a run whose disconnections leave no client the flag is right. -/
theorem flagTracks_of_lastClientLeaves (h : LastClientLeaves events)
    (hrun : (appMain ι).run .init events = some (s, os)) : s.server.FlagTracks := by
  refine Transducer.run_induction (fun _ s => s.server.FlagTracks) ?_ ?_ hrun
  · exact iff_of_false Bool.false_ne_true Finset.not_nonempty_empty
  · intro pre post s os e t o heq hpre htracks hstep
    cases e with
    | connect i =>
      obtain ⟨server, hconnect, rfl, -⟩ := appMain_connect.mp hstep
      exact Server.flagTracks_of_connect? hconnect
    | disconnect i =>
      obtain ⟨server, hdisconnect, rfl, -⟩ := appMain_disconnect.mp hstep
      exact (Server.flagTracks_of_disconnect?_iff hdisconnect).mpr (h pre i post s os heq hpre)
    | loop received =>
      exact (flagTracks_loopStep (Option.some_inj.mp hstep)).mpr htracks

theorem LastClientLeaves.of_append {pre post : List (AppEvent ι)}
    (h : LastClientLeaves (pre ++ post)) : LastClientLeaves pre := by
  rintro as i bs s os rfl
  exact h as i (bs ++ post) s os (by simp)

/-- The library counts its clients right. -/
theorem connectedCount_eq (hrun : (appMain ι).run .init events = some (s, os)) :
    s.server.connectedCount = s.server.conns.card := by
  refine Transducer.run_induction (fun _ s => s.server.connectedCount = s.server.conns.card)
    rfl ?_ hrun
  intro pre post s os e t o heq hpre hcount hstep
  cases e with
  | connect i =>
    obtain ⟨server, hconnect, rfl, -⟩ := appMain_connect.mp hstep
    obtain ⟨⟨-, hnot, -⟩, hconns, -, -, hsucc⟩ := Server.connect?_eq_some.mp hconnect
    rw [hsucc, hconns, Finset.card_insert_of_notMem hnot, hcount]
  | disconnect i =>
    obtain ⟨server, hdisconnect, rfl, -⟩ := appMain_disconnect.mp hstep
    obtain ⟨hmem, hconns, -, -, hpred⟩ := Server.disconnect?_eq_some.mp hdisconnect
    rw [hpred, hconns, Finset.card_erase_of_mem hmem, hcount]
  | loop received =>
    obtain ⟨hserver | ⟨-, hserver⟩, -⟩ := loopStep_cases (Option.some_inj.mp hstep)
    · rw [hserver, hcount]
    · rw [hserver]
      exact hcount

/-- A disconnection in a run happens. -/
theorem exists_disconnect {pre post : List (AppEvent ι)} {i : ι} {t : AppState ι}
    {os' : List (Handled ι)}
    (hrun : (appMain ι).run .init (pre ++ .disconnect i :: post) = some (s, os))
    (hpre : (appMain ι).run .init pre = some (t, os')) :
    ∃ server, t.server.disconnect? i = some server ∧
      (appMain ι).run .init (pre ++ [.disconnect i]) = some ({ t with server := server }, os') := by
  rw [Transducer.run_append_of_eq_some hpre, Transducer.run_cons] at hrun
  obtain ⟨⟨q, os''⟩, hq, -⟩ := Option.map_eq_some_iff.mp hrun
  obtain ⟨⟨u, o⟩, hstep, -⟩ := Option.bind_eq_some_iff.mp hq
  obtain ⟨server, hdisconnect, rfl, rfl⟩ := appMain_disconnect.mp hstep
  have hconcat := Transducer.run_concat_of_eq_some hpre hstep
  rw [List.append_nil] at hconcat
  exact ⟨server, hdisconnect, hconcat⟩

/-- The clients in the case of at most one: none while the server advertises. -/
def Server.Single (s : Server ι) : Prop :=
  s.conns.card ≤ 1 ∧ (s.advertising = true → s.conns = ∅)

/-- **A second client can connect only after the loop has started to advertise while a client was
connected.** -/
theorem single_of_advertisesAlone (h : AdvertisesAlone events)
    (hrun : (appMain ι).run .init events = some (s, os)) : s.server.Single := by
  refine Transducer.run_induction (fun _ s => s.server.Single) ?_ ?_ hrun
  · exact ⟨Nat.zero_le _, fun _ => rfl⟩
  · intro pre post s os e t o heq hpre hsingle hstep
    cases e with
    | connect i =>
      obtain ⟨server, hconnect, rfl, -⟩ := appMain_connect.mp hstep
      obtain ⟨⟨hadvertising, -, -⟩, hconns, hoff, -⟩ := Server.connect?_eq_some.mp hconnect
      refine ⟨?_, fun hon => absurd hon (by simp [hoff])⟩
      rw [hconns, hsingle.2 hadvertising, insert_empty_eq, Finset.card_singleton]
    | disconnect i =>
      obtain ⟨server, hdisconnect, rfl, -⟩ := appMain_disconnect.mp hstep
      obtain ⟨hmem, hconns, -⟩ := Server.disconnect?_eq_some.mp hdisconnect
      have hcard := Finset.card_erase_of_mem hmem
      have hnone : server.conns = ∅ := by
        rw [← Finset.card_eq_zero, hconns, hcard]
        exact Nat.sub_eq_zero_of_le hsingle.1
      exact ⟨by simp [hnone], fun _ => hnone⟩
    | loop received =>
      obtain ⟨hserver | ⟨hpoint, hserver⟩, -⟩ := loopStep_cases (Option.some_inj.mp hstep)
      · exact hserver ▸ hsingle
      · have hnone := h pre received post s os heq hpre hpoint
        rw [hserver]
        exact ⟨hsingle.1, fun _ => hnone⟩

theorem AdvertisesAlone.of_append {pre post : List (AppEvent ι)}
    (h : AdvertisesAlone (pre ++ post)) : AdvertisesAlone pre := by
  rintro as r bs s os rfl
  exact h as r (bs ++ post) s os (by simp)

/-- The clients leave alone if the loop starts to advertise only when no client is connected. -/
theorem lastClientLeaves_of_advertisesAlone (h : AdvertisesAlone events)
    (hrun : (appMain ι).run .init events = some (s, os)) : LastClientLeaves events := by
  rintro pre i post t os' rfl hpre
  obtain ⟨server, hdisconnect, -⟩ := exists_disconnect hrun hpre
  obtain ⟨hmem, -⟩ := Server.disconnect?_eq_some.mp hdisconnect
  obtain ⟨hcard, -⟩ := single_of_advertisesAlone h.of_append hpre
  exact Finset.eq_singleton_iff_unique_mem.mpr
    ⟨hmem, fun j hj => Finset.card_le_one.mp hcard j hj i hmem⟩

/-- **No client is left without notifications** if every client that disconnects is the only one:
a packet is then notified exactly if a client is connected when it is handled. -/
theorem notified_iff_of_lastClientLeaves (h : LastClientLeaves events)
    (hrun : (appMain ι).run .init events = some (s, os)) :
    ∀ o ∈ os, o.notified = true ↔ o.clients.Nonempty := by
  refine Transducer.run_induction
    (fun os _ => ∀ o ∈ os, o.notified = true ↔ o.clients.Nonempty) (by simp) ?_ hrun
  rintro pre post s os e t os' rfl hpre hos hstep o ho
  rcases List.mem_append.mp ho with ho | ho
  · exact hos o ho
  cases e with
  | connect i =>
    obtain ⟨-, -, -, rfl⟩ := appMain_connect.mp hstep
    cases ho
  | disconnect i =>
    obtain ⟨-, -, -, rfl⟩ := appMain_disconnect.mp hstep
    cases ho
  | loop received =>
    rw [(loopStep_cases (Option.some_inj.mp hstep)).2 o ho]
    exact flagTracks_of_lastClientLeaves h.of_append hpre

/-- **When the flag tracks the connections.** In a run of the receiver the flag says in every state
whether a client is connected if and only if every client that disconnects is the only one. -/
theorem connectionFlagTracks_iff (hrun : (appMain ι).run .init events = some (s, os)) :
    ConnectionFlagTracks events ↔ LastClientLeaves events := by
  constructor
  · rintro h pre i post t os' rfl hpre
    obtain ⟨server, hdisconnect, hconcat⟩ := exists_disconnect hrun hpre
    exact (Server.flagTracks_of_disconnect?_iff hdisconnect).mp
      (h (pre ++ [.disconnect i]) post _ _ (by simp) hconcat)
  · rintro h pre post t os' rfl hpre
    exact flagTracks_of_lastClientLeaves h.of_append hpre

/-- The flag follows one client that comes and goes. -/
theorem connectionFlagTracks_iff_single : ∃ s os,
    (appMain ℕ).run .init [.connect 0, .disconnect 0] = some (s, os) ∧
      ConnectionFlagTracks [.connect 0, .disconnect 0] := by
  obtain ⟨s, os, hrun⟩ : ∃ s os,
      (appMain ℕ).run .init [.connect 0, .disconnect 0] = some (s, os) := ⟨_, _, rfl⟩
  refine ⟨s, os, hrun, (connectionFlagTracks_iff hrun).mpr ?_⟩
  intro pre i post t os' hsplit hpre
  obtain ⟨rfl, rfl, rfl⟩ : pre = [.connect 0] ∧ i = 0 ∧ post = [] := by
    simpa [List.cons_eq_append_iff] using hsplit
  obtain ⟨rfl, -⟩ := Prod.mk.inj (Option.some.inj hpre)
  rfl

/-- The clients of a run with a quick reconnection: the client 0 disconnects, the loop sees it, and
the client 0 reconnects before the loop advertises, so that the client 1 can connect too. -/
def quickReconnect : List (AppEvent ℕ) :=
  [.connect 0, .loop false, .loop false, .loop false, .loop false, .loop false, .disconnect 0,
    .loop false, .loop false, .loop false, .connect 0, .loop false, .loop false, .connect 1]

/-- After a quick reconnection the client 0 disconnects again, and the flag is cleared while the
client 1 is connected. -/
theorem not_connectionFlagTracks : ∃ s os,
    (appMain ℕ).run .init (quickReconnect ++ [.disconnect 0]) = some (s, os) ∧
      s.server.conns = {1} ∧ s.server.deviceConnected = false ∧
      ¬ ConnectionFlagTracks (quickReconnect ++ [.disconnect 0]) := by
  obtain ⟨s, os, hrun, hconns, hflag⟩ : ∃ s os,
      (appMain ℕ).run .init (quickReconnect ++ [.disconnect 0]) = some (s, os) ∧
        s.server.conns = {1} ∧ s.server.deviceConnected = false := ⟨_, _, rfl, rfl, rfl⟩
  refine ⟨s, os, hrun, hconns, hflag, fun h => ?_⟩
  have htracks := h _ [] s os (List.append_nil _).symm hrun
  rw [Server.FlagTracks, hflag, hconns] at htracks
  exact Bool.false_ne_true (htracks.mpr (Finset.singleton_nonempty 1))

end Runs

end GpsTracker
