import GpsTracker.Stream.Framer

/-!
# The receiver of NAV-PVT packets

The GPS task of `main/gps.c` calls `gps_stateMachine` forever. Each call reads what the UART
delivers into `UartRcvBuffer` and feeds it, one byte at a time, to a machine that looks for the
header of a NAV-PVT packet and then stores the 94 bytes after it in `NavPvt.pktBuffer`.

This file models the functions and variables of that task, with every array access checked: an
access outside an array makes the result `none`. A call over a block of bytes is a run of the
machine `gpsMachine` of single bytes (`gpsStateMachine_eq_run`), and so is the part of a call that
has processed only some of its bytes (`gpsPoint_eq_run`); the way the UART cuts the stream into
reads therefore plays no role. The machine of bytes is the framer of the NAV-PVT header with the
captured bytes laid over the buffer (`gpsMachine_run_eq`).

## Main definitions

* `GpsVars`, `gpsConfigReset`, `gpsStateMachineByte`, `gpsStateMachine`.
* `gpsRun`, `gpsPoint` : the task after some reads, and after some bytes of some reads.
* `ubxFramer` : the framer of the NAV-PVT header.

## Main results

* `gpsStateMachine_eq_run`, `gpsPoint_eq_run`, `gpsPoint_length_received`.
* `gpsMachine_run_eq`.
-/

namespace GpsTracker

/-! ### Variables -/

/-- The bytes by which a NAV-PVT packet begins. -/
def gpsUbxNavPvtHdr : List UInt8 := [0xB5, 0x62, 0x01, 0x07, 0x5C, 0x00]

/-- `NAV_PVT_PKT_NUM_BYTES`. -/
def navPvtPktNumBytes : ℕ := 94

/-- `UART_RX_BUFFER_SIZE`. -/
def uartRxBufferSize : ℕ := 256

/-- The values of `GpsState`: `GPS_STATE_IDLE`, whose branch is also the default one and hence the
branch taken for the value before the configuration, and `GPS_STATE_PKTRCV`. -/
inductive GpsState where
  | idle
  | pktRcv
  deriving DecidableEq, Repr

/-- The variables of the state machine. `pktBuffer` are the bytes of `NavPvt.pktBuffer`. -/
structure GpsVars where
  numValidHdrBytes : ℤ
  gpsState : GpsState
  pktReceivedBytes : ℤ
  pktBuffer : List UInt8
  isGpsNavUpdated : Bool
  deriving DecidableEq, Repr

/-- The variables as the program loader leaves them. -/
def GpsVars.static : GpsVars where
  numValidHdrBytes := 0
  gpsState := .idle
  pktReceivedBytes := 0
  pktBuffer := List.replicate navPvtPktNumBytes 0
  isGpsNavUpdated := false

/-- The assignments by which a successful `gps_config` ends. -/
def gpsConfigReset (s : GpsVars) : GpsVars :=
  { s with
    numValidHdrBytes := 0
    pktReceivedBytes := 0
    isGpsNavUpdated := false
    gpsState := .idle }

/-- What a step does besides assigning variables: it reports an update of the navigation solution,
by setting `IsGpsNavUpdated` while the packet stands in `NavPvt.pktBuffer`, or logs an error. -/
inductive GpsReport where
  | navUpdated (pktBuffer : List UInt8)
  | logError (tag text : String)
  deriving DecidableEq, Repr

/-- The packets reported as updates. -/
def GpsReport.packet? : GpsReport → Option (List UInt8)
  | .navUpdated p => some p
  | .logError _ _ => none

/-- A read of an array at a C index. -/
def readAt {α : Type*} (xs : List α) (i : ℤ) : Option α :=
  if 0 ≤ i then xs[i.toNat]? else none

/-- A write to an array at a C index. -/
def writeAt {α : Type*} (xs : List α) (i : ℤ) (x : α) : Option (List α) :=
  if 0 ≤ i ∧ i.toNat < xs.length then some (xs.set i.toNat x) else none

theorem readAt_natCast {α : Type*} (xs : List α) (n : ℕ) : readAt xs n = xs[n]? := by
  simp [readAt]

theorem writeAt_natCast {α : Type*} {xs : List α} {n : ℕ} (h : n < xs.length) (x : α) :
    writeAt xs n x = some (xs.set n x) := by
  simp [writeAt, h]

/-! ### Functions -/

/-- `gps_packetChecksum`. -/
def gpsPacketChecksum (_pBuf : List UInt8) (_numBytes : ℕ) : ℤ := 1

/-- `ubx_checksum`, which the source compiles out: the pair `(cka, ckb)`. -/
def ubxChecksum (buffer : List UInt8) : UInt8 × UInt8 :=
  buffer.foldl (fun ck b => (ck.1 + b, ck.2 + (ck.1 + b))) (0, 0)

/-- The body of the loop of `gps_stateMachine`: one received byte. -/
def gpsStateMachineByte (s : GpsVars) (rcvb : UInt8) : Option (GpsVars × List GpsReport) :=
  match s.gpsState with
  | .idle => do
    let h ← readAt gpsUbxNavPvtHdr s.numValidHdrBytes
    let n := if rcvb = h then s.numValidHdrBytes + 1 else 0
    if n = 6 then
      some ({ s with numValidHdrBytes := 0, pktReceivedBytes := 0, gpsState := .pktRcv }, [])
    else
      some ({ s with numValidHdrBytes := n }, [])
  | .pktRcv => do
    let buf ← writeAt s.pktBuffer s.pktReceivedBytes rcvb
    let k := s.pktReceivedBytes + 1
    if k = navPvtPktNumBytes then
      if gpsPacketChecksum buf navPvtPktNumBytes = 0 then
        some ({ s with pktBuffer := buf, pktReceivedBytes := 0, gpsState := .idle },
          [.logError "gps" "packet checksum error"])
      else
        some ({ s with
          pktBuffer := buf
          isGpsNavUpdated := true
          pktReceivedBytes := 0
          gpsState := .idle }, [.navUpdated buf])
    else
      some ({ s with pktBuffer := buf, pktReceivedBytes := k }, [])

/-- A result of `uart_read_bytes` for a buffer of `UART_RX_BUFFER_SIZE` bytes: some bytes, possibly
none, or a negative value. -/
inductive UartRead where
  | bytes (data : List UInt8) (h : data.length ≤ uartRxBufferSize)
  | error (code : ℕ)

namespace UartRead

/-- The value returned. -/
def len : UartRead → ℤ
  | bytes data _ => data.length
  | error code => -(code + 1 : ℤ)

/-- The bytes written at the beginning of the buffer. -/
def data : UartRead → List UInt8
  | bytes data _ => data
  | error _ => []

/-- The buffer after the read. -/
def fill (r : UartRead) (buf : List UInt8) : List UInt8 :=
  r.data ++ buf.drop r.data.length

theorem toNat_len (r : UartRead) : r.len.toNat = r.data.length := by
  cases r with
  | bytes data _ => simp [len, UartRead.data]
  | error code => simp only [len, UartRead.data, List.length_nil]; omega

end UartRead

/-- The variables of the task: those of the state machine and `UartRcvBuffer`. -/
structure GpsTask where
  vars : GpsVars
  uartRcvBuffer : List UInt8

/-- The loop of `gps_stateMachine` over `n` bytes of the buffer from the index `inx`. -/
def gpsStateMachineLoop (buf : List UInt8) : ℕ → ℕ → GpsVars → Option (GpsVars × List GpsReport)
  | 0, _, s => some (s, [])
  | n + 1, inx, s => do
    let rcvb ← buf[inx]?
    let (s, o) ← gpsStateMachineByte s rcvb
    let (s, os) ← gpsStateMachineLoop buf n (inx + 1) s
    return (s, o ++ os)

/-- `gps_stateMachine`, with the result of its call of `uart_read_bytes`. -/
def gpsStateMachine (r : UartRead) (t : GpsTask) : Option (GpsTask × List GpsReport) :=
  let buf := r.fill t.uartRcvBuffer
  if r.len ≠ 0 then do
    let (s, os) ← gpsStateMachineLoop buf r.len.toNat 0 t.vars
    return (⟨s, buf⟩, os)
  else
    some (⟨t.vars, buf⟩, [])

/-- The calls of `gps_stateMachine` made by `gps_task`, one for each read. -/
def gpsRun : List UartRead → GpsTask → Option (GpsTask × List GpsReport)
  | [], t => some (t, [])
  | r :: rs, t => do
    let (t, os) ← gpsStateMachine r t
    let (t, os') ← gpsRun rs t
    return (t, os ++ os')

/-- The variables at the point of the run where `n` of the bytes that the reads deliver have been
processed, and what has been reported until then. The point may lie inside a call. -/
def gpsPoint : List UartRead → ℕ → GpsTask → Option (GpsVars × List GpsReport)
  | [], _, t => some (t.vars, [])
  | r :: rs, n, t =>
    if n ≤ r.data.length then
      gpsStateMachineLoop (r.fill t.uartRcvBuffer) n 0 t.vars
    else do
      let (t, os) ← gpsStateMachine r t
      let (s, os') ← gpsPoint rs (n - r.data.length) t
      return (s, os ++ os')

/-- The bytes that the reads deliver. -/
def received (rs : List UartRead) : List UInt8 := rs.flatMap UartRead.data

/-- The task as `gps_config` leaves it, for any content of `UartRcvBuffer`. -/
def gpsConfigured (uartRcvBuffer : List UInt8) : GpsTask :=
  ⟨gpsConfigReset .static, uartRcvBuffer⟩

/-! ### Calls are runs of the machine of bytes -/

/-- The machine of single bytes. -/
def gpsMachine : Transducer GpsVars UInt8 GpsReport where
  step := gpsStateMachineByte

theorem gpsStateMachineLoop_eq_run (pre data post : List UInt8) (s : GpsVars) :
    gpsStateMachineLoop (pre ++ (data ++ post)) data.length pre.length s =
      gpsMachine.run s data := by
  induction data generalizing pre s with
  | nil => rfl
  | cons b data ih =>
    have hget : (pre ++ (b :: data ++ post))[pre.length]? = some b := by simp
    have htail (s' : GpsVars) : gpsStateMachineLoop (pre ++ (b :: data ++ post)) data.length
        (pre.length + 1) s' = gpsMachine.run s' data := by
      simpa using ih (pre ++ [b]) s'
    rw [List.length_cons, gpsStateMachineLoop, hget, Transducer.run_cons]
    simp only [Option.bind_eq_bind, Option.bind_some, htail, Option.pure_def]
    change (gpsStateMachineByte s b).bind _ = (gpsStateMachineByte s b).bind _
    congr 1
    funext p
    cases gpsMachine.run p.1 data <;> rfl

/-- Part of a call is a run over the bytes it has processed. -/
theorem gpsStateMachineLoop_take (r : UartRead) (buf : List UInt8) {n : ℕ}
    (hn : n ≤ r.data.length) (s : GpsVars) :
    gpsStateMachineLoop (r.fill buf) n 0 s = gpsMachine.run s (r.data.take n) := by
  have hsplit : r.fill buf =
      [] ++ (r.data.take n ++ (r.data.drop n ++ buf.drop r.data.length)) := by
    rw [List.nil_append, ← List.append_assoc, List.take_append_drop, UartRead.fill]
  have h := gpsStateMachineLoop_eq_run [] (r.data.take n)
    (r.data.drop n ++ buf.drop r.data.length) s
  rw [hsplit]
  rwa [List.length_take_of_le hn, List.length_nil] at h

/-- **A call of `gps_stateMachine` is a run over the bytes it reads.** -/
theorem gpsStateMachine_eq_run (r : UartRead) (t : GpsTask) :
    gpsStateMachine r t = (gpsMachine.run t.vars r.data).map fun p =>
      (⟨p.1, r.fill t.uartRcvBuffer⟩, p.2) := by
  have hloop := gpsStateMachineLoop_take r t.uartRcvBuffer le_rfl t.vars
  rw [List.take_length] at hloop
  by_cases hlen : r.len = 0
  · have hnil : r.data = [] := by
      rw [← List.length_eq_zero_iff, ← r.toNat_len, hlen, Int.toNat_zero]
    simp only [gpsStateMachine, hlen, ne_eq, not_true_eq_false, if_false, hnil,
      Transducer.run_nil, Option.map_some]
  · simp only [gpsStateMachine, hlen, ne_eq, not_false_eq_true, if_true, r.toNat_len, hloop]
    cases gpsMachine.run t.vars r.data <;> rfl

/-- **A point of the run is reached by the bytes processed**, however they were cut into reads. -/
theorem gpsPoint_eq_run (rs : List UartRead) (n : ℕ) (t : GpsTask) :
    gpsPoint rs n t = gpsMachine.run t.vars ((received rs).take n) := by
  induction rs generalizing n t with
  | nil => simp [gpsPoint, received]
  | cons r rs ih =>
    have hrec : received (r :: rs) = r.data ++ received rs := List.flatMap_cons
    by_cases hn : n ≤ r.data.length
    · rw [gpsPoint, if_pos hn, gpsStateMachineLoop_take r _ hn, hrec,
        List.take_append_of_le_length hn]
    · rw [gpsPoint, if_neg hn, gpsStateMachine_eq_run, hrec, List.take_append,
        List.take_of_length_le (by omega), Transducer.run_append]
      cases gpsMachine.run t.vars r.data with
      | none => rfl
      | some p =>
        simp only [Option.map_some, Option.bind_eq_bind, Option.bind_some, ih, Option.pure_def]
        cases gpsMachine.run p.1 ((received rs).take (n - r.data.length)) <;> rfl

/-- The calls for some reads are a run over the bytes that the reads deliver. -/
theorem gpsRun_eq_run (rs : List UartRead) (t : GpsTask) :
    (gpsRun rs t).map (fun p => (p.1.vars, p.2)) = gpsMachine.run t.vars (received rs) := by
  induction rs generalizing t with
  | nil => rfl
  | cons r rs ih =>
    have hrec : received (r :: rs) = r.data ++ received rs := List.flatMap_cons
    rw [gpsRun, gpsStateMachine_eq_run, hrec, Transducer.run_append]
    cases gpsMachine.run t.vars r.data with
    | none => rfl
    | some p =>
      have ih' := ih ⟨p.1, r.fill t.uartRcvBuffer⟩
      simp only [Option.map_some, Option.bind_eq_bind, Option.bind_some, Option.pure_def]
      rw [← ih']
      cases gpsRun rs ⟨p.1, r.fill t.uartRcvBuffer⟩ <;> rfl

/-- After all the bytes the point is the end of the run. -/
theorem gpsPoint_length_received (rs : List UartRead) (t : GpsTask) :
    gpsPoint rs (received rs).length t = (gpsRun rs t).map fun p => (p.1.vars, p.2) := by
  rw [gpsPoint_eq_run, List.take_length, gpsRun_eq_run]

/-! ### The machine of bytes is a framer -/

/-- The framer of the NAV-PVT header. -/
def ubxFramer : Framer UInt8 where
  header := gpsUbxNavPvtHdr
  payload := navPvtPktNumBytes
  header_ne_nil := List.cons_ne_nil _ _
  payload_pos := Nat.succ_pos _

@[simp] theorem ubxFramer_header : ubxFramer.header = gpsUbxNavPvtHdr := rfl

/-- The variables represent the state `f` of the framer, with the captured bytes laid over the
content `base` that the buffer had when the capture began. -/
structure GpsVars.Represents (s : GpsVars) (f : Framer.State UInt8) (base : List UInt8) : Prop where
  length_base : base.length = navPvtPktNumBytes
  pktBuffer_eq : s.pktBuffer = f.captured ++ base.drop f.captured.length
  vars_eq : match f with
    | .seek m => m < 6 ∧ s.gpsState = .idle ∧ s.numValidHdrBytes = m ∧ s.pktReceivedBytes = 0
    | .capture c => c.length < navPvtPktNumBytes ∧ s.gpsState = .pktRcv ∧
        s.numValidHdrBytes = 0 ∧ s.pktReceivedBytes = c.length

namespace GpsVars.Represents

variable {s : GpsVars} {base : List UInt8}

/-- Storing a byte after the captured ones captures it. -/
private theorem set_captured {c base : List UInt8} (b : UInt8) (h : c.length < base.length) :
    (c ++ base.drop c.length).set c.length b =
      (c ++ [b]) ++ base.drop (c ++ [b]).length := by
  rw [List.set_append_right _ _ le_rfl, Nat.sub_self, List.drop_eq_getElem_cons h,
    List.set_cons_zero, List.length_append, List.length_singleton, List.append_assoc,
    List.singleton_append]

/-- A byte received while the header is sought. -/
theorem step_seek {m : ℕ} (h : s.Represents (.seek m) base) (b : UInt8) :
    ∃ s', gpsStateMachineByte s b = some (s', []) ∧ (ubxFramer.step (.seek m) b).2 = [] ∧
      s'.Represents (ubxFramer.step (.seek m) b).1 base := by
  obtain ⟨hbase, hbuf, hm, hst, hn, hk⟩ := h
  have hget : gpsUbxNavPvtHdr[m]? = some gpsUbxNavPvtHdr[m] := List.getElem?_eq_getElem hm
  have hcount : (if b = gpsUbxNavPvtHdr[m] then (m : ℤ) + 1 else 0) =
      (nextMatch gpsUbxNavPvtHdr m b : ℤ) := by
    simp only [nextMatch, hget, Option.some.injEq, eq_comm (a := b)]
    split <;> simp
  have hlength : gpsUbxNavPvtHdr.length = 6 := rfl
  by_cases h6 : nextMatch gpsUbxNavPvtHdr m b = 6
  · refine ⟨{ s with numValidHdrBytes := 0, pktReceivedBytes := 0, gpsState := .pktRcv }, ?_, ?_⟩
    · simp [gpsStateMachineByte, hst, hn, readAt_natCast, hget, hcount, h6]
    · simp only [Framer.step, ubxFramer_header, hlength, h6, if_true]
      exact ⟨trivial, hbase, by simpa using hbuf, by simp [navPvtPktNumBytes]⟩
  · have h6' : (nextMatch gpsUbxNavPvtHdr m b : ℤ) ≠ 6 := by exact_mod_cast h6
    refine ⟨{ s with numValidHdrBytes := nextMatch gpsUbxNavPvtHdr m b }, ?_, ?_⟩
    · simp [gpsStateMachineByte, hst, hn, readAt_natCast, hget, hcount, h6']
    · simp only [Framer.step, ubxFramer_header, hlength, h6, if_false]
      have hle : nextMatch gpsUbxNavPvtHdr m b ≤ 6 := nextMatch_le_length b
      exact ⟨trivial, hbase, by simpa using hbuf, by omega, hst, rfl, hk⟩

/-- A byte received while a packet is captured. -/
theorem step_capture {c : List UInt8} (h : s.Represents (.capture c) base) (b : UInt8) :
    ∃ s', gpsStateMachineByte s b =
        some (s', (ubxFramer.step (.capture c) b).2.map .navUpdated) ∧
      s'.Represents (ubxFramer.step (.capture c) b).1
        ((ubxFramer.step (.capture c) b).2.getLast?.getD base) := by
  obtain ⟨hbase, hbuf, hc, hst, hn, hk⟩ := h
  have hwrite : writeAt s.pktBuffer s.pktReceivedBytes b =
      some ((c ++ [b]) ++ base.drop (c ++ [b]).length) := by
    have hlt : c.length < s.pktBuffer.length := by
      rw [hbuf, List.length_append, List.length_drop, hbase, Framer.State.captured_capture]
      omega
    rw [hk, writeAt_natCast hlt, hbuf, Framer.State.captured_capture,
      set_captured b (hbase ▸ hc)]
  by_cases hlast : c.length + 1 = navPvtPktNumBytes
  · have hlast' : s.pktReceivedBytes + 1 = (navPvtPktNumBytes : ℤ) := by omega
    have hdrop : base.drop (c ++ [b]).length = [] := by
      rw [List.drop_eq_nil_iff, hbase, List.length_append, List.length_singleton, hlast]
    rw [hdrop, List.append_nil] at hwrite
    refine ⟨{ s with
      pktBuffer := c ++ [b]
      isGpsNavUpdated := true
      pktReceivedBytes := 0
      gpsState := .idle }, ?_, ?_⟩
    · rw [ubxFramer.step_capture_of_eq hlast]
      simp [gpsStateMachineByte, hst, hwrite, hlast', gpsPacketChecksum]
    · rw [ubxFramer.step_capture_of_eq hlast]
      exact ⟨by simpa using hlast, by simp, by simp, rfl, hn, rfl⟩
  · have hlast' : s.pktReceivedBytes + 1 ≠ (navPvtPktNumBytes : ℤ) := by omega
    refine ⟨{ s with
      pktBuffer := (c ++ [b]) ++ base.drop (c ++ [b]).length
      pktReceivedBytes := s.pktReceivedBytes + 1 }, ?_, ?_⟩
    · rw [ubxFramer.step_capture_of_ne hlast]
      simp [gpsStateMachineByte, hst, hwrite, hlast']
    · rw [ubxFramer.step_capture_of_ne hlast]
      refine ⟨hbase, rfl, ?_, hst, hn, ?_⟩
      · rw [List.length_append, List.length_singleton]
        omega
      · simp [hk]

/-- **A byte takes the variables where the framer goes**, and is reported as an update exactly when
the framer emits a packet, which then stands in the buffer. -/
theorem step {f : Framer.State UInt8} (h : s.Represents f base) (b : UInt8) :
    ∃ s', gpsStateMachineByte s b = some (s', (ubxFramer.step f b).2.map .navUpdated) ∧
      s'.Represents (ubxFramer.step f b).1 ((ubxFramer.step f b).2.getLast?.getD base) := by
  cases f with
  | seek m =>
    obtain ⟨s', hs, ho, hr⟩ := h.step_seek b
    rw [ho]
    exact ⟨s', hs, hr⟩
  | capture c => exact h.step_capture b

/-- **What one byte does.** It leaves the buffer alone while the header is sought, is stored in it
while a packet is captured, and if it is the last byte of a packet the packet is reported. -/
theorem step_cases {f : Framer.State UInt8} (h : s.Represents f base) {b : UInt8} {s' : GpsVars}
    {o : List GpsReport} (hs : gpsStateMachineByte s b = some (s', o)) :
    s.gpsState ≠ .pktRcv ∧ o = [] ∧ s'.pktBuffer = s.pktBuffer ∨
      s.gpsState = .pktRcv ∧ s.pktReceivedBytes ≠ 93 ∧ o = [] ∧
        s'.pktBuffer = s.pktBuffer.set s.pktReceivedBytes.toNat b ∨
      s.gpsState = .pktRcv ∧ s.pktReceivedBytes = 93 ∧ o = [.navUpdated s'.pktBuffer] ∧
        s'.pktBuffer = s.pktBuffer.take 93 ++ [b] := by
  obtain ⟨t, ht, hr⟩ := h.step b
  obtain ⟨rfl, rfl⟩ : t = s' ∧ _ = o := by simpa [ht] using hs
  cases f with
  | seek m =>
    obtain ⟨-, -, ho, -⟩ := h.step_seek b
    rw [ho] at hr ⊢
    refine .inl ⟨by simp [h.vars_eq.2.1], rfl, ?_⟩
    rw [hr.pktBuffer_eq, h.pktBuffer_eq]
    simp only [Framer.step]
    split <;> rfl
  | capture c =>
    obtain ⟨hbase, hbuf, hc, hst, -, hk⟩ := h
    rw [Framer.State.captured_capture] at hbuf
    by_cases hlast : c.length + 1 = navPvtPktNumBytes
    · have hc93 : c.length = 93 := by rw [navPvtPktNumBytes] at hlast; omega
      rw [ubxFramer.step_capture_of_eq hlast] at hr ⊢
      have hbuf' : t.pktBuffer = c ++ [b] := by simpa using hr.pktBuffer_eq
      refine .inr (.inr ⟨hst, by omega, by simp [hbuf'], ?_⟩)
      rw [hbuf', hbuf, ← hc93, List.take_left]
    · have hc93 : c.length ≠ 93 := by rw [navPvtPktNumBytes] at hlast; omega
      rw [ubxFramer.step_capture_of_ne hlast] at hr ⊢
      refine .inr (.inl ⟨hst, by omega, rfl, ?_⟩)
      rw [hr.pktBuffer_eq, hbuf, hk, Int.toNat_natCast]
      exact (set_captured b (hbase ▸ hc)).symm

end GpsVars.Represents

/-- The buffer before any packet has been received. -/
def zeroPkt : List UInt8 := List.replicate navPvtPktNumBytes 0

/-- **The machine of bytes is the framer of the NAV-PVT header.** After every input it has reported
the packets of the framer as updates, and nothing else, and its buffer holds the bytes captured so
far followed by those of the last packet reported, or by zeros. -/
theorem gpsMachine_run_eq (xs : List UInt8) :
    ∃ s f ps, gpsMachine.run (gpsConfigReset .static) xs = some (s, ps.map .navUpdated) ∧
      ubxFramer.machine.run (.seek 0) xs = some (f, ps) ∧
      s.Represents f (ps.getLast?.getD zeroPkt) := by
  refine Transducer.run_simulation
    (fun ps (s : GpsVars) f => s.Represents f (ps.getLast?.getD zeroPkt))
    GpsReport.navUpdated ?_ ?_ xs
  · intro ps s f b h
    obtain ⟨s', hs, hr⟩ := h.step b
    refine ⟨s', _, (ubxFramer.step f b).2, hs, rfl, ?_⟩
    rwa [List.getLast?_append, Option.getD_or]
  · exact ⟨by simp [zeroPkt], rfl, by simp, rfl, rfl, rfl⟩

end GpsTracker
