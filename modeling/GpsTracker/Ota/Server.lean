import GpsTracker.Ota.Upload
import GpsTracker.Stream.Transducer

/-!
# The update server

The function `ota_server_start` of `components/ota_server/ota_server.c`: it accepts a connection,
receives a firmware image, finishes the update, makes the new partition the one to boot from,
answers and restarts.

A request is carried out exactly when the first piece in which it arrives contains its whole head
(`otaServerStart_restarts_iff`). When the connection ends before the first piece, the update is
finished with a handle that has not been initialised. If `esp_ota_end` accepts only handles that
`esp_ota_begin` has issued, the partition to boot from is changed only after an update that has been
begun and accepted (`setBootPartition_mem`). But the program does not compare what has been received
with what has been announced: a request that is cut short is answered like a whole one
(`otaServerStart_closed`).

## Main definitions

* `otaResponse`, `otaServerStart`.
* `OtaReplies.OnlyIssued` : what `esp_ota_end` accepts.

## Main results

* `otaServerStart_restarts_iff`, `otaServerStart_closed`, `setBootPartition_mem`.
-/

namespace GpsTracker

/-! ### The server -/

/-- The size of `res_buff`. -/
def resBuffSize : ℕ := 50

/-- What `sprintf` writes to `res_buff`, where a null byte has to follow it. -/
def sprintfResBuff (text : List UInt8) : Option (List UInt8) :=
  if text.length + 1 ≤ resBuffSize then some text else none

/-- The hexadecimal notation that `%x` stands for. -/
def hexBytes (n : ℕ) : List UInt8 := (Nat.toDigits 16 n).map Char.toUInt8

/-- The answer, if it fits into `res_buff`. -/
def otaResponse (r : OtaReplies) : Option (List UInt8) :=
  sprintfResBuff <|
    if r.setBootPartition = 0 then
      ascii "200 OK\n\nSuccess. Next boot partition is " ++ r.label ++ ascii "\n"
    else
      ascii "400 Bad Request\n\nFailure. Error code: 0x" ++
        hexBytes r.setBootPartition.toNat ++ ascii "\n"

/-- How the server stands: it waits for `recv`, the program has stopped, or the chip restarts. -/
inductive OtaOutcome where
  | waiting
  | stopped (e : OtaStop)
  | restarted
  deriving DecidableEq, Repr

/-- The handle that `esp_ota_begin` has issued when the loop is left. It has been called if the body
has started. -/
def OtaLoop.issued (r : OtaReplies) (s : OtaLoop) : Option UInt32 :=
  if s.isReqBodyStarted then some r.otaHandle else none

/-- `ota_server_start`, with the content of `ota_handle` before it is assigned. -/
def otaServerStart (r : OtaReplies) (otaHandle : UInt32) (xs : List RecvResult) :
    List OtaEffect × OtaOutcome :=
  if r.tcpServer then
    match otaReceive r (.init otaHandle) xs with
    | (os, .waiting _) => (os, .waiting)
    | (os, .stopped e) => (os, .stopped e)
    | (os, .left s _) =>
      if r.otaEnd (s.issued r) s.otaHandle ≠ 0 then (os ++ [.otaEnd], .stopped .aborted)
      else
        match otaResponse r with
        | none => (os ++ [.otaEnd, .setBootPartition], .stopped .undefined)
        | some text =>
          (os ++ [.otaEnd, .setBootPartition] ++ [.send text, .closeSocket, .restart], .restarted)
  else ([], .stopped .aborted)

/-! ### The answer -/

/-- **The answer fits into `res_buff`** if the label of the partition has at most eight bytes, or if
it reports an error. -/
theorem isSome_otaResponse_iff {r : OtaReplies} :
    (otaResponse r).isSome ↔ (r.setBootPartition = 0 → r.label.length ≤ 8) := by
  have hdigits : (hexBytes r.setBootPartition.toNat).length ≤ 8 := by
    rw [hexBytes, List.length_map, Nat.length_toDigits_le_iff (by decide) (by decide)]
    exact r.setBootPartition.toNat_lt
  have h200 : (ascii "200 OK\n\nSuccess. Next boot partition is ").length = 40 := by decide
  have h400 : (ascii "400 Bad Request\n\nFailure. Error code: 0x").length = 40 := by decide
  have hnl : (ascii "\n").length = 1 := by decide
  rw [otaResponse, sprintfResBuff, Option.isSome_ite]
  split <;> simp only [List.length_append, resBuffSize] <;> grind

/-- The calls of the server succeed, and the label of the partition fits into the answer. -/
structure OtaReplies.Succeed (r : OtaReplies) : Prop where
  tcpServer : r.tcpServer = true
  otaBegin : r.otaBegin = 0
  otaEnd : r.otaEnd (some r.otaHandle) r.otaHandle = 0
  label : r.label.length ≤ 8

/-! ### Requests -/

/-- The effects by which the server ends. -/
def finalEffects (text : List UInt8) : List OtaEffect :=
  [.otaEnd, .setBootPartition, .send text, .closeSocket, .restart]

/-- After a loop in which the body has started, the update is finished. -/
theorem otaServerStart_of_left {r : OtaReplies} (hr : r.Succeed) {handle : UInt32}
    {xs rest : List RecvResult} {os : List OtaEffect} {n k : ℤ}
    (h : otaReceive r (.init handle) xs = (os, .left ⟨true, n, k, r.otaHandle⟩ rest)) :
    ∃ text, otaServerStart r handle xs = (os ++ finalEffects text, .restarted) := by
  obtain ⟨text, htext⟩ := Option.isSome_iff_exists.mp
    (isSome_otaResponse_iff.mpr fun _ => hr.label)
  refine ⟨text, ?_⟩
  simp [otaServerStart, hr.tcpServer, OtaLoop.issued, hr.otaEnd, h, htext, finalEffects]

section Requests

variable (q : UploadRequest) {r : OtaReplies} (hr : r.Succeed) (handle : UInt32) {c : Piece}
  {cs : List Piece}
include hr

/-- **A request is carried out exactly when its first piece contains its head.** The server then
writes the body, in whatever pieces it arrives, and restarts. -/
theorem otaServerStart_restarts_iff (h : joined (c :: cs) = q.head ++ q.body)
    (rest : List RecvResult) :
    (∃ os, otaServerStart r handle ((c :: cs).map Piece.recv ++ rest) = (os, .restarted) ∧
      os.flatMap OtaEffect.written = q.body) ↔ q.head.length ≤ c.1.length := by
  constructor
  · rintro ⟨os, hos, -⟩
    by_contra hlen
    have hstop : (otaReceive r (.init handle) ((c :: cs).map Piece.recv ++ rest)).2 =
        .stopped .undefined := q.otaReceive_eq_stopped hr.otaBegin (Nat.not_le.mp hlen) h rest
    rw [otaServerStart, if_pos hr.tcpServer] at hos
    generalize otaReceive r (.init handle) ((c :: cs).map Piece.recv ++ rest) = x at hstop hos
    obtain ⟨os', _⟩ := x
    obtain rfl := hstop
    simp at hos
  · intro hlen
    obtain ⟨text, hrun⟩ := otaServerStart_of_left hr (q.otaReceive_eq hr.otaBegin hlen h rest)
    refine ⟨_, hrun, ?_⟩
    have hbody := q.written_writes hlen ((List.append_nil _).trans h)
    rw [List.append_nil] at hbody
    simp [OtaEffect.written, finalEffects, hbody]

/-- **A request that is cut short is answered like a whole one.** The server finishes the update
with the part of the body that has arrived. -/
theorem otaServerStart_closed (hlen : q.head.length ≤ c.1.length) {missing : List UInt8}
    (h : joined (c :: cs) ++ missing = q.head ++ q.body) (hmissing : missing ≠ [])
    (rest : List RecvResult) :
    ∃ os text, otaServerStart r handle ((c :: cs).map Piece.recv ++ .closed :: rest) =
        (os ++ finalEffects text, .restarted) ∧
      os.flatMap OtaEffect.written ++ missing = q.body := by
  obtain ⟨text, hrun⟩ := otaServerStart_of_left hr
    (q.otaReceive_closed hr.otaBegin hlen h hmissing rest)
  refine ⟨_, text, hrun, ?_⟩
  simpa [OtaEffect.written] using q.written_writes hlen h

end Requests

/-- The code for a handle that has not been found. -/
def espErrNotFound : UInt32 := 0x105

/-- The replies when everything succeeds, for the partition `ota_0`. -/
def succeedingReplies : OtaReplies where
  tcpServer := true
  otaBegin := 0
  otaHandle := 1
  otaEnd issued handle := if issued = some handle then 0 else espErrNotFound
  setBootPartition := 0
  label := ascii "ota_0"

theorem succeed_succeedingReplies : succeedingReplies.Succeed :=
  ⟨rfl, rfl, rfl, by decide⟩

/-- The piece of the request that posts the body, up to some of its bytes. -/
def postPiece : Piece :=
  ⟨(UploadRequest.post [0xE9, 0x02] (by decide)).head ++ [0xE9], by decide⟩

/-- A request in two pieces. -/
theorem otaServerStart_restarts_iff_two_pieces :
    ∃ os, otaServerStart succeedingReplies 0xA5A5A5A5
        ([postPiece, ⟨[0x02], by decide⟩].map Piece.recv ++ []) = (os, .restarted) ∧
      os.flatMap OtaEffect.written = [0xE9, 0x02] :=
  (otaServerStart_restarts_iff (.post [0xE9, 0x02] (by decide)) succeed_succeedingReplies
    0xA5A5A5A5 rfl []).mpr (by decide)

/-- A request whose second piece does not arrive. -/
theorem otaServerStart_closed_one_piece :
    ∃ os text, otaServerStart succeedingReplies 0xA5A5A5A5
        ([postPiece].map Piece.recv ++ .closed :: []) = (os ++ finalEffects text, .restarted) ∧
      os.flatMap OtaEffect.written ++ [0x02] = [0xE9, 0x02] :=
  otaServerStart_closed (.post [0xE9, 0x02] (by decide)) succeed_succeedingReplies 0xA5A5A5A5
    (by decide) rfl (by decide) []

/-! ### The order of the calls -/

/-- A write to the partition or a message about an error. -/
def OtaEffect.IsTransfer : OtaEffect → Prop
  | .otaWrite _ | .logError _ _ => True
  | _ => False

/-- The variables after a sum that fits. -/
theorem exists_of_addInt_bind {m n : ℤ} {f : ℤ → OtaLoop} {s : OtaLoop}
    (h : (do let k ← addInt m n; return f k) = Except.ok s) : ∃ k, s = f k := by
  cases hadd : addInt m n with
  | error e =>
    rw [hadd] at h
    cases h
  | ok k =>
    rw [hadd] at h
    exact ⟨k, (Except.ok.inj h).symm⟩

/-- What a turn of the loop does. It begins the update for the first piece, before it writes, and
stops if that fails. -/
theorem otaRecv_cases {r : OtaReplies} {s : OtaLoop} {x : RecvResult} {os : List OtaEffect}
    {res : Except OtaStop OtaLoop} (h : otaRecv r s x = (os, res)) :
    (∀ o ∈ os, o.IsTransfer) ∧
        (∀ s', res = .ok s' → s'.isReqBodyStarted = s.isReqBodyStarted ∧
          (x.isData = true → s.isReqBodyStarted = true)) ∨
      s.isReqBodyStarted = false ∧ ∃ ws, os = .otaBegin :: ws ∧ (∀ o ∈ ws, o.IsTransfer) ∧
        ∀ s', res = .ok s' → r.otaBegin = 0 ∧ s'.isReqBodyStarted = true := by
  rcases x with ⟨bytes, hbytes⟩ | _ | errno
  · rw [otaRecv] at h
    split at h
    next hs =>
      obtain ⟨rfl, rfl⟩ := Prod.mk.inj h
      refine .inl ⟨by simp [OtaEffect.IsTransfer], fun s' hs' => ?_⟩
      obtain ⟨k, rfl⟩ := exists_of_addInt_bind hs'
      exact ⟨rfl, fun _ => hs⟩
    next hs =>
      rw [otaRecvFirst] at h
      split at h
      next =>
        obtain ⟨rfl, rfl⟩ := Prod.mk.inj h
        exact .inl ⟨by simp, by simp⟩
      next n _ =>
        refine .inr ⟨by simpa using hs, ?_⟩
        split at h
        next =>
          obtain ⟨rfl, rfl⟩ := Prod.mk.inj h
          exact ⟨[], rfl, by simp, by simp⟩
        next hbegin =>
          split at h
          next =>
            obtain ⟨rfl, rfl⟩ := Prod.mk.inj h
            exact ⟨[], rfl, by simp, by simp⟩
          next q _ =>
            obtain ⟨rfl, rfl⟩ := Prod.mk.inj h
            refine ⟨_, rfl, by simp [OtaEffect.IsTransfer], fun s' hs' => ⟨not_not.mp hbegin, ?_⟩⟩
            obtain ⟨k, rfl⟩ := exists_of_addInt_bind hs'
            rfl
  · obtain ⟨rfl, rfl⟩ := Prod.mk.inj h
    exact .inl ⟨by simp, fun s' hs' => ⟨(Except.ok.inj hs') ▸ rfl, by simp [RecvResult.isData]⟩⟩
  · obtain ⟨rfl, rfl⟩ := Prod.mk.inj h
    exact .inl ⟨by simp [OtaEffect.IsTransfer],
      fun s' hs' => ⟨(Except.ok.inj hs') ▸ rfl, by simp [RecvResult.isData]⟩⟩

/-- Once the body has started, the loop only writes and reports errors. -/
theorem otaReceive_of_started (r : OtaReplies) (xs : List RecvResult) {s : OtaLoop}
    (hs : s.isReqBodyStarted = true) :
    (∀ o ∈ (otaReceive r s xs).1, o.IsTransfer) ∧
      ∀ s' rest, (otaReceive r s xs).2 = .left s' rest → s'.isReqBodyStarted = true := by
  induction xs generalizing s with
  | nil => simp [otaReceive]
  | cons x xs ih =>
    rw [otaReceive]
    rcases hrecv : otaRecv r s x with ⟨os, e | s'⟩
    all_goals
      obtain ⟨hos, hstarted⟩ | ⟨hno, -⟩ := otaRecv_cases hrecv
      case inr => exact absurd (hs.symm.trans hno) (by simp)
    · exact ⟨hos, by simp⟩
    · have hs' : s'.isReqBodyStarted = true := (hstarted s' rfl).1.trans hs
      dsimp only
      split
      · refine ⟨fun o ho => ?_, (ih hs').2⟩
        rcases List.mem_append.mp ho with ho | ho
        · exact hos o ho
        · exact (ih hs').1 o ho
      · refine ⟨hos, ?_⟩
        rintro t rest ⟨⟩
        exact hs'

/-- The loop begins the update before it writes, and not twice. -/
theorem otaReceive_init_cases (r : OtaReplies) (handle : UInt32) (xs : List RecvResult) :
    (∀ o ∈ (otaReceive r (.init handle) xs).1, o.IsTransfer) ∧
        (∀ s rest, (otaReceive r (.init handle) xs).2 = .left s rest →
          s.isReqBodyStarted = false) ∨
      ∃ ws, (otaReceive r (.init handle) xs).1 = .otaBegin :: ws ∧ (∀ o ∈ ws, o.IsTransfer) ∧
        ∀ s rest, (otaReceive r (.init handle) xs).2 = .left s rest → r.otaBegin = 0 := by
  cases xs with
  | nil => exact .inl ⟨by simp [otaReceive], by simp [otaReceive]⟩
  | cons x xs =>
    rw [otaReceive]
    rcases hrecv : otaRecv r (.init handle) x with ⟨os, e | s'⟩
    · obtain ⟨hos, -⟩ | ⟨-, ws, rfl, hws, -⟩ := otaRecv_cases hrecv
      · exact .inl ⟨hos, by simp⟩
      · exact .inr ⟨ws, rfl, hws, by simp⟩
    · dsimp only
      obtain ⟨hos, hstarted⟩ | ⟨-, ws, rfl, hws, hbegun⟩ := otaRecv_cases hrecv
      · obtain ⟨hs', hdata⟩ := hstarted s' rfl
        rw [if_neg fun hx => Bool.false_ne_true (hdata hx.1)]
        refine .inl ⟨hos, ?_⟩
        rintro s rest ⟨⟩
        exact hs'
      · obtain ⟨hbegin, hs'⟩ := hbegun s' rfl
        have hrest := otaReceive_of_started r xs hs'
        right
        split
        · refine ⟨ws ++ (otaReceive r s' xs).1, rfl, fun o ho => ?_, fun _ _ _ => hbegin⟩
          rcases List.mem_append.mp ho with ho | ho
          · exact hws o ho
          · exact hrest.1 o ho
        · exact ⟨ws, rfl, hws, fun _ _ _ => hbegin⟩

/-- `esp_ota_end` accepts only a handle that `esp_ota_begin` has issued. -/
def OtaReplies.OnlyIssued (r : OtaReplies) : Prop :=
  ∀ issued handle, r.otaEnd issued handle = 0 → issued = some handle

theorem OtaLoop.started_of_issued {r : OtaReplies} {s : OtaLoop} {handle : UInt32}
    (h : s.issued r = some handle) : s.isReqBodyStarted = true ∧ r.otaHandle = handle := by
  rw [OtaLoop.issued] at h
  split at h
  next hs => exact ⟨hs, Option.some_inj.mp h⟩
  next => cases h

/-- **The partition to boot from is changed only after an update that has been accepted**, if
`esp_ota_end` accepts only handles that have been issued: the update has begun, data has been
written, and `esp_ota_end` has succeeded. -/
theorem setBootPartition_mem {r : OtaReplies} (hr : r.OnlyIssued) {handle : UInt32}
    {xs : List RecvResult} (h : .setBootPartition ∈ (otaServerStart r handle xs).1) :
    r.tcpServer = true ∧ r.otaBegin = 0 ∧ r.otaEnd (some r.otaHandle) r.otaHandle = 0 ∧
      ∃ ws tail, (∀ o ∈ ws, o.IsTransfer) ∧
        (otaServerStart r handle xs).1 =
          .otaBegin :: ws ++ [.otaEnd, .setBootPartition] ++ tail ∧
        (tail = [] ∨ ∃ text, tail = [.send text, .closeSocket, .restart]) := by
  have hno : ∀ ws : List OtaEffect, (∀ o ∈ ws, o.IsTransfer) → .setBootPartition ∉ ws :=
    fun ws hws hmem => hws _ hmem
  have hcases := otaReceive_init_cases r handle xs
  have hrecv : .setBootPartition ∉ (otaReceive r (.init handle) xs).1 := by
    rcases hcases with ⟨hos, -⟩ | ⟨ws, hos, hws, -⟩
    · exact hno _ hos
    · rw [hos]
      simpa using hno ws hws
  rw [otaServerStart] at h ⊢
  split at h
  next htcp =>
    generalize otaReceive r (.init handle) xs = res at *
    obtain ⟨os, _ | _ | ⟨s, rest⟩⟩ := res
    · exact absurd h hrecv
    · exact absurd h hrecv
    · dsimp only at h hrecv hcases ⊢
      split at h
      next => simp [hrecv] at h
      next hend =>
        have hissued := hr _ _ (not_not.mp hend)
        obtain ⟨hstarted, hhandle⟩ := OtaLoop.started_of_issued hissued
        have hstart : r.otaBegin = 0 ∧ ∃ ws, os = .otaBegin :: ws ∧ ∀ o ∈ ws, o.IsTransfer := by
          rcases hcases with ⟨-, hs⟩ | ⟨ws, hos, hws, hbegin⟩
          · exact absurd (hstarted.symm.trans (hs s rest rfl)) (by simp)
          · exact ⟨hbegin s rest rfl, ws, hos, hws⟩
        obtain ⟨hbegin, ws, rfl, hws⟩ := hstart
        refine ⟨htcp, hbegin, ?_, ws, ?_⟩
        · rw [hissued, ← hhandle] at hend
          exact not_not.mp hend
        · rw [if_pos htcp, if_neg hend]
          cases otaResponse r with
          | none => exact ⟨[], hws, by simp, .inl rfl⟩
          | some text => exact ⟨[.send text, .closeSocket, .restart], hws, by simp, .inr ⟨_, rfl⟩⟩
  next => simp at h

/-- The two pieces are written before the partition to boot from is changed. -/
theorem setBootPartition_mem_two_pieces :
    succeedingReplies.tcpServer = true ∧ succeedingReplies.otaBegin = 0 ∧
      succeedingReplies.otaEnd (some succeedingReplies.otaHandle) succeedingReplies.otaHandle = 0 ∧
      ∃ ws tail, (∀ o ∈ ws, o.IsTransfer) ∧
        (otaServerStart succeedingReplies 0xA5A5A5A5
          ([postPiece, ⟨[0x02], by decide⟩].map Piece.recv ++ [])).1 =
            .otaBegin :: ws ++ [.otaEnd, .setBootPartition] ++ tail ∧
        (tail = [] ∨ ∃ text, tail = [.send text, .closeSocket, .restart]) :=
  setBootPartition_mem
    (fun issued handle h => by
      by_contra hne
      exact absurd ((if_neg hne).symm.trans h) (by decide))
    (by
      have hpieces : joined [postPiece, ⟨[0x02], by decide⟩] =
        (UploadRequest.post [0xE9, 0x02] (by decide)).head ++ [0xE9, 0x02] := rfl
      have hleft : otaReceive succeedingReplies (.init 0xA5A5A5A5)
          ([postPiece, ⟨[0x02], by decide⟩].map Piece.recv ++ []) = _ :=
        UploadRequest.otaReceive_eq (.post [0xE9, 0x02] (by decide)) rfl (by decide) hpieces []
      obtain ⟨text, hrun⟩ := otaServerStart_of_left succeed_succeedingReplies hleft
      rw [hrun]
      simp [finalEffects])

end GpsTracker
