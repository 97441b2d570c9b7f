import GpsTracker.Text.DecimalScan
import GpsTracker.Text.Occurrence

/-!
# The upload of a firmware image

The loop of `ota_server_start` in `components/ota_server/ota_server.c` receives an HTTP request in
the pieces that `recv` returns, and writes its body to the update partition. It looks for the length
of the body and for the end of the header in the first piece only.

If the first piece contains the whole header, what is written is the body, however the rest of the
request is cut into pieces, and no piece after the last one is asked for
(`UploadRequest.otaReceive_eq`). If it does not, the result of `strstr` is a null pointer, which is
used as an address (`UploadRequest.otaReceive_eq_stopped`).

## Main definitions

* `RecvResult`, `OtaEffect`, `OtaReplies`, `OtaLoop`.
* `otaRecv`, `otaReceive` : a turn of the loop and the loop.
* `UploadRequest`.

## Main results

* `UploadRequest.otaReceive_eq`, `UploadRequest.otaReceive_eq_stopped`.
* `UploadRequest.otaReceive_closed`.
-/

namespace GpsTracker

/-! ### The loop -/

/-- `OTA_BUFF_SIZE`. -/
def otaBuffSize : ℕ := 1024

/-- `content_length_start`. -/
def contentLengthStart : List UInt8 := ascii "Content-Length: "

/-- `header_end`. -/
def headerEnd : List UInt8 := ascii "\r\n\r\n"

/-- A result of `recv` for a buffer of `OTA_BUFF_SIZE` bytes: some bytes, the end of the connection
or an error. -/
inductive RecvResult where
  | data (bytes : List UInt8) (h : bytes ≠ [] ∧ bytes.length ≤ otaBuffSize)
  | closed
  | error (errno : ℕ)
  deriving DecidableEq, Repr

/-- What `ota_server_start` does besides assigning variables. -/
inductive OtaEffect where
  | logError (tag text : String)
  | otaBegin
  | otaWrite (data : List UInt8)
  | otaEnd
  | setBootPartition
  | send (data : List UInt8)
  | closeSocket
  | restart
  deriving DecidableEq, Repr

/-- The bytes written to the partition. -/
def OtaEffect.written : OtaEffect → List UInt8
  | .otaWrite data => data
  | _ => []

/-- What the functions that `ota_server_start` calls return: whether `create_tcp_server` succeeds,
the error code of `esp_ota_begin` and the handle that it issues, the error code of `esp_ota_end` for
the handle that has been issued, if any, and the one that it is given, the error code of
`esp_ota_set_boot_partition`, and the label of the update partition. -/
structure OtaReplies where
  tcpServer : Bool
  otaBegin : UInt32
  otaHandle : UInt32
  otaEnd : Option UInt32 → UInt32 → UInt32
  setBootPartition : UInt32
  label : List UInt8

/-- The variables of the loop. -/
structure OtaLoop where
  isReqBodyStarted : Bool
  contentLength : ℤ
  contentReceived : ℤ
  otaHandle : UInt32
  deriving DecidableEq, Repr

/-- The variables before the loop. `ota_handle` is not initialised. -/
def OtaLoop.init (otaHandle : UInt32) : OtaLoop := ⟨false, -1, 0, otaHandle⟩

/-- The ways in which the program stops: `ESP_ERROR_CHECK` has failed, or its behaviour is not
defined. -/
inductive OtaStop where
  | aborted
  | undefined
  deriving DecidableEq, Repr

/-- The position of `pat` in the string in the buffer. If there is none, `strstr` returns a null
pointer or reads beyond the buffer. -/
def strstr (buffer pat : List UInt8) : Option ℕ :=
  firstOccurrence pat (buffer.takeWhile fun b => b ≠ 0)

/-- A sum of two numbers of the type `int`, which is undefined if it does not fit. -/
def addInt (m n : ℤ) : Except OtaStop ℤ :=
  if -2 ^ 31 ≤ m + n ∧ m + n < 2 ^ 31 then .ok (m + n) else .error .undefined

/-- `ota_buff`, which is filled with null bytes, after the first call of `recv`. -/
def otaBuff (bytes : List UInt8) : List UInt8 :=
  bytes ++ List.replicate (otaBuffSize - bytes.length) 0

/-- The number after the announcement of the length of the body, if `sscanf` finds one. -/
def scanContentLength (buffer : List UInt8) : Option (Option ℤ) := do
  let p ← strstr buffer contentLengthStart
  scanInt (buffer.drop (p + contentLengthStart.length))

/-- The body of the loop for the first piece. -/
def otaRecvFirst (r : OtaReplies) (s : OtaLoop) (bytes : List UInt8) :
    List OtaEffect × Except OtaStop OtaLoop :=
  match scanContentLength (otaBuff bytes) with
  | none => ([], .error .undefined)
  | some n =>
    if r.otaBegin ≠ 0 then ([.otaBegin], .error .aborted)
    else
      match strstr (otaBuff bytes) headerEnd with
      | none => ([.otaBegin], .error .undefined)
      | some q =>
        let bodyPart := bytes.drop (q + headerEnd.length)
        ([.otaBegin, .otaWrite bodyPart], do
          let received ← addInt s.contentReceived bodyPart.length
          return {
            isReqBodyStarted := true
            contentLength := n.getD s.contentLength
            contentReceived := received
            otaHandle := r.otaHandle })

/-- The body of the loop: what it does, and the variables then. -/
def otaRecv (r : OtaReplies) (s : OtaLoop) : RecvResult → List OtaEffect × Except OtaStop OtaLoop
  | .data bytes _ =>
    if s.isReqBodyStarted then
      ([.otaWrite bytes], do
        let received ← addInt s.contentReceived bytes.length
        return { s with contentReceived := received })
    else otaRecvFirst r s bytes
  | .closed => ([], .ok s)
  | .error errno => ([.logError "OTA" s!"Error: recv data error! errno={errno}"], .ok s)

/-- `recv_len > 0`. -/
def RecvResult.isData : RecvResult → Bool
  | .data _ _ => true
  | _ => false

/-- How the loop stands: it waits for `recv`, the program has stopped in it, or it has been left and
some results of `recv` have not been asked for. -/
inductive OtaReceive where
  | waiting (s : OtaLoop)
  | stopped (e : OtaStop)
  | left (s : OtaLoop) (rest : List RecvResult)
  deriving DecidableEq, Repr

/-- The loop. -/
def otaReceive (r : OtaReplies) : OtaLoop → List RecvResult → List OtaEffect × OtaReceive
  | s, [] => ([], .waiting s)
  | s, x :: xs =>
    match otaRecv r s x with
    | (os, .error e) => (os, .stopped e)
    | (os, .ok s') =>
      if x.isData ∧ s'.contentReceived < s'.contentLength then
        (os ++ (otaReceive r s' xs).1, (otaReceive r s' xs).2)
      else (os, .left s' xs)

theorem addInt_of_lt {m n : ℤ} (hm : 0 ≤ m) (hn : 0 ≤ n) (h : m + n < 2 ^ 31) :
    addInt m n = .ok (m + n) := if_pos ⟨by omega, h⟩

section FirstPiece

variable {r : OtaReplies} {handle : UInt32} {bytes : List UInt8}
  {h : bytes ≠ [] ∧ bytes.length ≤ otaBuffSize}

/-- The first piece, when what is looked for is found in it. -/
theorem otaRecv_init_data (hbegin : r.otaBegin = 0) {q : ℕ} {n : Option ℤ}
    (hn : scanContentLength (otaBuff bytes) = some n)
    (hq : strstr (otaBuff bytes) headerEnd = some q) :
    otaRecv r (.init handle) (.data bytes h) =
      ([.otaBegin, .otaWrite (bytes.drop (q + headerEnd.length))],
        .ok ⟨true, n.getD (-1), (bytes.drop (q + headerEnd.length)).length, r.otaHandle⟩) := by
  have hlen : (bytes.drop (q + headerEnd.length)).length ≤ 1024 := by
    rw [List.length_drop]
    exact (Nat.sub_le ..).trans h.2
  have hadd : addInt 0 ((bytes.drop (q + headerEnd.length)).length : ℤ) = .ok _ :=
    addInt_of_lt (by omega) (by omega) (by omega)
  rw [Int.zero_add] at hadd
  simp only [otaRecv, OtaLoop.init, otaRecvFirst, hn, hq, hbegin, hadd]
  rfl

/-- The first piece, when the end of the header is not found in it. -/
theorem otaRecv_init_data_of_eq_none (hbegin : r.otaBegin = 0)
    (hq : strstr (otaBuff bytes) headerEnd = none) :
    (otaRecv r (.init handle) (.data bytes h)).2 = .error .undefined := by
  cases hn : scanContentLength (otaBuff bytes) with
  | none => simp [otaRecv, OtaLoop.init, otaRecvFirst, hn]
  | some n => simp [otaRecv, OtaLoop.init, otaRecvFirst, hn, hq, hbegin]

end FirstPiece

/-! ### Requests -/

/-- A request whose head contains no null byte, ends where the first end of a header in it does, and
announces the length of the body. -/
structure UploadRequest where
  head : List UInt8
  body : List UInt8
  nul_notMem : 0 ∉ head
  headerEnd_eq : firstOccurrence headerEnd head = some (head.length - headerEnd.length)
  lengthAt : ℕ
  lengthAt_eq : firstOccurrence contentLengthStart head = some lengthAt
  scanInt_eq : scanInt (head.drop (lengthAt + contentLengthStart.length)) =
    some (some (body.length : ℤ))

/-- The first end of a header in a request line, a field with a number and an end of a header. -/
theorem firstOccurrence_headerEnd_post (n : ℕ) :
    firstOccurrence headerEnd
        (ascii "POST / HTTP/1.1\r\nContent-Length: " ++ (decimalBytes n ++ headerEnd)) =
      some (33 + (decimalBytes n).length) := by
  have hsplit : ascii "POST / HTTP/1.1\r\nContent-Length: " =
      ascii "POST / HTTP/1.1" ++ 0x0D :: ascii "\nContent-Length: " := by decide
  have hdigits : firstOccurrence headerEnd (decimalBytes n ++ headerEnd) =
      some ((decimalBytes n).length + 0) := by
    refine firstOccurrence_append_of_head_notMem (by decide) _ (fun hmem => ?_) (by decide)
    exact absurd (isDigitByte_of_mem_decimalBytes hmem) (by decide)
  have hfield := firstOccurrence_append_of_head_notMem (by decide) (ascii "\nContent-Length: ")
    (by decide) hdigits
  have hcr : ¬ headerEnd <+: 0x0D :: (ascii "\nContent-Length: " ++
      (decimalBytes n ++ headerEnd)) := by
    change ¬ [0x0D, 0x0A, 0x0D, 0x0A] <+: 0x0D :: 0x0A :: 0x43 :: _
    simp [List.cons_prefix_cons]
  have hline := firstOccurrence_append_of_head_notMem (by decide) (ascii "POST / HTTP/1.1")
    (by decide) (firstOccurrence_cons hcr hfield)
  rw [hsplit, List.append_assoc, List.cons_append, hline]
  have hlengths : (ascii "POST / HTTP/1.1").length = 15 ∧
    (ascii "\nContent-Length: ").length = 17 := by decide
  rw [hlengths.1, hlengths.2]
  exact congrArg some (by omega)

/-- The request that posts the body, with the field of its length only. -/
def UploadRequest.post (body : List UInt8) (h : body.length < 2 ^ 31) : UploadRequest where
  head := ascii "POST / HTTP/1.1\r\nContent-Length: " ++ (decimalBytes body.length ++ headerEnd)
  body := body
  nul_notMem := by
    have hdigits : 0 ∉ decimalBytes body.length := fun hmem =>
      absurd (isDigitByte_of_mem_decimalBytes hmem) (by decide)
    simp only [List.mem_append, not_or]
    exact ⟨by decide, hdigits, by decide⟩
  headerEnd_eq := by
    rw [firstOccurrence_headerEnd_post]
    have hlengths : (ascii "POST / HTTP/1.1\r\nContent-Length: ").length = 33 ∧
      headerEnd.length = 4 := by decide
    simp only [List.length_append, hlengths]
    exact congrArg some (by omega)
  lengthAt := 17
  lengthAt_eq := firstOccurrence_append (by decide) _
  scanInt_eq := by
    have hdrop : 17 + contentLengthStart.length =
        (ascii "POST / HTTP/1.1\r\nContent-Length: ").length := by decide
    rw [hdrop, List.drop_left]
    exact scanInt_decimalBytes h (by decide) _

/-- A piece of a request, as `recv` returns it. -/
abbrev Piece := {bytes : List UInt8 // bytes ≠ [] ∧ bytes.length ≤ otaBuffSize}

/-- The result of `recv` that returns the piece. -/
def Piece.recv (c : Piece) : RecvResult := .data c.1 c.2

/-- The bytes of some pieces. -/
def joined (cs : List Piece) : List UInt8 := (cs.map Subtype.val).flatten

@[simp] theorem joined_nil : joined [] = [] := rfl

@[simp] theorem joined_cons (c : Piece) (cs : List Piece) :
    joined (c :: cs) = c.1 ++ joined cs := rfl

theorem length_joined_pos {cs : List Piece} (h : cs ≠ []) : 0 < (joined cs).length := by
  obtain ⟨c, cs, rfl⟩ := List.exists_cons_of_ne_nil h
  rw [joined_cons, List.length_append]
  exact Nat.add_pos_left (List.length_pos_of_ne_nil c.2.1) _

namespace UploadRequest

variable (q : UploadRequest) {c : List UInt8} {pat : List UInt8} {n : ℕ}

/-- The null bytes after a part of the head end the string in the buffer. -/
theorem takeWhile_of_prefix (hc : c <+: q.head) (m : ℕ) :
    (c ++ List.replicate m 0).takeWhile (fun b => b ≠ 0) = c := by
  have hne : ∀ b ∈ c, decide (b ≠ 0) = true := fun b hb => decide_eq_true (by
    rintro rfl
    exact q.nul_notMem (hc.subset hb))
  rw [List.takeWhile_append_of_pos hne]
  cases m <;> simp [List.replicate_succ]

/-- What occurs in the head is found in a piece that contains the head. -/
theorem strstr_of_head_prefix (h : firstOccurrence pat q.head = some n) {rest : List UInt8} :
    strstr (q.head ++ rest) pat = some n := by
  have hne : ∀ b ∈ q.head, decide (b ≠ 0) = true := fun b hb => decide_eq_true (by
    rintro rfl
    exact q.nul_notMem hb)
  rw [strstr, List.takeWhile_append_of_pos hne, firstOccurrence_append h]

theorem headerEnd_length_le : headerEnd.length ≤ q.head.length := by
  have hle := add_length_le_of_firstOccurrence q.headerEnd_eq
  omega

/-- The end of the header is not found in a piece that ends before it. -/
theorem strstr_headerEnd_of_prefix (hc : c <+: q.head) (hlt : c.length < q.head.length) (m : ℕ) :
    strstr (c ++ List.replicate m 0) headerEnd = none := by
  have hle := q.headerEnd_length_le
  rw [strstr, q.takeWhile_of_prefix hc, List.prefix_iff_eq_take.mp hc,
    firstOccurrence_take q.headerEnd_eq, if_neg]
  omega

/-- What stands after the announcement of the length is the number that is scanned. -/
theorem scanContentLength_head_append (rest : List UInt8) :
    scanContentLength (q.head ++ rest) = some (some (q.body.length : ℤ)) := by
  have hle := add_length_le_of_firstOccurrence q.lengthAt_eq
  rw [scanContentLength, q.strstr_of_head_prefix q.lengthAt_eq, Option.bind_eq_bind,
    Option.bind_some, List.drop_append_of_le_length hle, scanInt_append q.scanInt_eq]

/-- The length of the body fits into an `int`. -/
theorem length_body_lt : (q.body.length : ℤ) < 2 ^ 31 := lt_of_scanInt q.scanInt_eq

variable {r : OtaReplies} {handle : UInt32}

/-- **A first piece that contains the head.** The part of the body in it is written. -/
theorem otaRecv_head (hbegin : r.otaBegin = 0) {part : List UInt8}
    (h : q.head ++ part ≠ [] ∧ (q.head ++ part).length ≤ otaBuffSize) :
    otaRecv r (.init handle) (.data (q.head ++ part) h) =
      ([.otaBegin, .otaWrite part], .ok ⟨true, q.body.length, part.length, r.otaHandle⟩) := by
  have hbuff : otaBuff (q.head ++ part) = q.head ++ (part ++ List.replicate
      (otaBuffSize - (q.head ++ part).length) 0) := List.append_assoc ..
  have hend : (q.head ++ part).drop (q.head.length - headerEnd.length + headerEnd.length) =
      part := by
    rw [Nat.sub_add_cancel q.headerEnd_length_le, List.drop_left]
  rw [otaRecv_init_data hbegin (hbuff ▸ q.scanContentLength_head_append _)
    (hbuff ▸ q.strstr_of_head_prefix q.headerEnd_eq), hend]
  rfl

/-- **A first piece that ends inside the head** makes the program use a null pointer. -/
theorem otaRecv_of_prefix (hbegin : r.otaBegin = 0) (hc : c <+: q.head)
    (hlt : c.length < q.head.length) (h : c ≠ [] ∧ c.length ≤ otaBuffSize) :
    (otaRecv r (.init handle) (.data c h)).2 = .error .undefined :=
  otaRecv_init_data_of_eq_none hbegin (q.strstr_headerEnd_of_prefix hc hlt _)

end UploadRequest

/-! ### The body -/

/-- The pieces that follow the first one are written as they are. When as much as announced has been
received, the loop is left. -/
theorem otaReceive_pieces (r : OtaReplies) (handle : UInt32) {n k : ℤ} (hk0 : 0 ≤ k) (hk : k < n)
    (hn : n < 2 ^ 31) {cs : List Piece} (hle : k + (joined cs).length ≤ n)
    (rest : List RecvResult) :
    otaReceive r ⟨true, n, k, handle⟩ (cs.map Piece.recv ++ rest) =
      if k + (joined cs).length < n then
        (cs.map (fun c => .otaWrite c.1) ++
            (otaReceive r ⟨true, n, k + (joined cs).length, handle⟩ rest).1,
          (otaReceive r ⟨true, n, k + (joined cs).length, handle⟩ rest).2)
      else (cs.map fun c => .otaWrite c.1, .left ⟨true, n, n, handle⟩ rest) := by
  induction cs generalizing k with
  | nil => simp [hk]
  | cons c cs ih =>
    rw [joined_cons, List.length_append, Int.natCast_add, ← Int.add_assoc] at hle ⊢
    have hrecv : otaRecv r ⟨true, n, k, handle⟩ (.data c.1 c.2) =
        ([.otaWrite c.1], .ok ⟨true, n, k + c.1.length, handle⟩) := by
      rw [otaRecv, if_pos rfl, addInt_of_lt hk0 (by omega) (by omega)]
      rfl
    simp only [List.map_cons, List.cons_append, otaReceive, Piece.recv, hrecv, RecvResult.isData,
      true_and]
    by_cases hlt : k + c.1.length < n
    · rw [if_pos hlt, ih (by omega) hlt hle]
      split <;> simp
    · obtain rfl : cs = [] := by
        by_contra hne
        have := length_joined_pos hne
        omega
      have heq : k + c.1.length = n := by
        simp only [joined_nil, List.length_nil] at hle
        omega
      simp [heq]

namespace UploadRequest

variable (q : UploadRequest) {r : OtaReplies} {handle : UInt32} {c : Piece} {cs : List Piece}

/-- The writes of a request that is received in the pieces `c :: cs`. -/
def writes (c : Piece) (cs : List Piece) : List OtaEffect :=
  (c.1.drop q.head.length :: cs.map Subtype.val).map .otaWrite

/-- The loop up to the first result that is not a piece of the request. -/
theorem otaReceive_append (hbegin : r.otaBegin = 0) (hlen : q.head.length ≤ c.1.length)
    {missing : List UInt8} (h : joined (c :: cs) ++ missing = q.head ++ q.body)
    (rest : List RecvResult) :
    otaReceive r (.init handle) ((c :: cs).map Piece.recv ++ rest) =
      if missing = [] then (.otaBegin :: q.writes c cs,
        .left ⟨true, q.body.length, q.body.length, r.otaHandle⟩ rest)
      else (.otaBegin :: q.writes c cs ++
        (otaReceive r ⟨true, q.body.length, q.body.length - missing.length, r.otaHandle⟩ rest).1,
        (otaReceive r ⟨true, q.body.length, q.body.length - missing.length, r.otaHandle⟩
          rest).2) := by
  obtain ⟨c, hc⟩ := c
  obtain ⟨part, rfl⟩ : q.head <+: c := by
    have hpre : c <+: q.head ++ q.body := ⟨joined cs ++ missing, by rw [← h]; simp⟩
    exact List.prefix_of_prefix_length_le (List.prefix_append _ _) hpre hlen
  have hbody : q.body = part ++ (joined cs ++ missing) := by
    simpa using h.symm
  have hcount : (q.body.length : ℤ) = part.length + (joined cs).length + missing.length := by
    rw [hbody, List.length_append, List.length_append]
    omega
  have hmissing : missing = [] ↔ (missing.length : ℤ) = 0 := by
    rw [← List.length_eq_zero_iff]
    omega
  simp only [List.map_cons, List.cons_append, otaReceive, Piece.recv, q.otaRecv_head hbegin,
    RecvResult.isData, true_and, writes, List.drop_left]
  by_cases hlt : (part.length : ℤ) < q.body.length
  · have hsum : (part.length : ℤ) + (joined cs).length = q.body.length - missing.length := by
      omega
    rw [if_pos hlt, otaReceive_pieces r _ (by omega) hlt q.length_body_lt (by omega), hsum]
    by_cases hm : missing = []
    · have hno : ¬ (q.body.length : ℤ) - missing.length < q.body.length := by
        rw [hmissing.mp hm]
        omega
      rw [if_neg hno, if_pos hm]
      simp
    · have hyes : (q.body.length : ℤ) - missing.length < q.body.length := by
        rw [hmissing] at hm
        omega
      rw [if_pos hyes, if_neg hm]
      simp
  · have hcs : cs = [] := by
      by_contra hne
      have hpos := length_joined_pos hne
      omega
    have hm : missing = [] := hmissing.mpr (by omega)
    have hpart : (part.length : ℤ) = q.body.length := by
      rw [hcount, hcs, hm]
      simp
    rw [if_neg hlt, if_pos hm, hpart, hcs]
    rfl

/-- **The body is written however it is cut into pieces**, if the first piece contains the head. The
loop is then left, without another call of `recv`. -/
theorem otaReceive_eq (hbegin : r.otaBegin = 0) (hlen : q.head.length ≤ c.1.length)
    (h : joined (c :: cs) = q.head ++ q.body) (rest : List RecvResult) :
    otaReceive r (.init handle) ((c :: cs).map Piece.recv ++ rest) = (.otaBegin :: q.writes c cs,
      .left ⟨true, q.body.length, q.body.length, r.otaHandle⟩ rest) := by
  rw [q.otaReceive_append hbegin hlen ((List.append_nil _).trans h), if_pos rfl]

/-- **A request that is cut short.** When the connection ends before the whole body has arrived, the
loop is left as well. -/
theorem otaReceive_closed (hbegin : r.otaBegin = 0) (hlen : q.head.length ≤ c.1.length)
    {missing : List UInt8} (h : joined (c :: cs) ++ missing = q.head ++ q.body)
    (hmissing : missing ≠ []) (rest : List RecvResult) :
    otaReceive r (.init handle) ((c :: cs).map Piece.recv ++ .closed :: rest) =
      (.otaBegin :: q.writes c cs,
        .left ⟨true, q.body.length, q.body.length - missing.length, r.otaHandle⟩ rest) := by
  rw [q.otaReceive_append hbegin hlen h, if_neg hmissing]
  simp [otaReceive, otaRecv, RecvResult.isData]

/-- What is written is the part of the body that has been received. -/
theorem written_writes (hlen : q.head.length ≤ c.1.length) {missing : List UInt8}
    (h : joined (c :: cs) ++ missing = q.head ++ q.body) :
    (q.writes c cs).flatMap OtaEffect.written ++ missing = q.body := by
  have hdrop := congrArg (List.drop q.head.length) h
  rw [List.drop_left, joined_cons, List.append_assoc, List.drop_append_of_le_length hlen] at hdrop
  rw [← hdrop, writes, List.flatMap_map]
  simp [OtaEffect.written, joined, List.flatMap_def]

/-- **If the first piece ends inside the head** the program stops. -/
theorem otaReceive_eq_stopped (hbegin : r.otaBegin = 0) (hlen : c.1.length < q.head.length)
    (h : joined (c :: cs) = q.head ++ q.body) (rest : List RecvResult) :
    (otaReceive r (.init handle) ((c :: cs).map Piece.recv ++ rest)).2 = .stopped .undefined := by
  have hpre : c.1 <+: q.head :=
    List.prefix_of_prefix_length_le ⟨joined cs, h⟩ (List.prefix_append _ _) hlen.le
  have hrecv : (otaRecv r (.init handle) c.recv).2 = .error .undefined :=
    q.otaRecv_of_prefix hbegin hpre hlen c.2
  rw [List.map_cons, List.cons_append, otaReceive]
  generalize otaRecv r (.init handle) c.recv = x at hrecv
  obtain ⟨os, _⟩ := x
  obtain rfl := hrecv
  rfl

end UploadRequest

end GpsTracker
