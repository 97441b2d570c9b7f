import GpsTracker.Lora.Link
import GpsTracker.Lora.Settings

/-!
# The header mode

The driver keeps the header mode twice, in a bit of the chip and in the variable `__implicit`, and
uses the register of the payload length both for the predefined length of implicit headers and for
the packets that it sends. What the calls of the driver do to these three is computed from the
calls alone, whatever happens at the chip (`triple_driverSession`).

A reset clears the bit of the chip but not the variable, and a packet that is sent overwrites the
predefined length. After some calls the length of a received packet is the one that the header mode
prescribes exactly when the last call for the header mode, if it was for implicit headers, has been
followed by no reset and by no packet of another length (`lengthFollowsMode_iff`).

## Main definitions

* `DriverCall`, `driverSession`.
* `HeaderState`, `DriverCall.header` : the header mode as it is kept.
* `LengthFollowsMode`, `HeaderUndisturbed`.

## Main results

* `triple_driverSession`.
* `lengthFollowsMode_iff`, `not_lengthFollowsMode`.
-/

namespace GpsTracker

/-! ### The calls of the driver -/

/-- A call of a public function of the driver. -/
inductive DriverCall where
  | reset
  | init
  | setter (s : SetterCall)
  | idle
  | sleep
  | receive
  | sendPacket (buf : ByteMemory) (size : ℤ)
  | receivePacket (buf : ByteMemory) (size : ℤ)
  | received
  | packetRssi
  | packetSnr
  | close
  | dumpRegisters

namespace DriverCall

/-- The program of a call, without its result, and the variables after it. -/
def prog : DriverCall → LoraVars → LoraProg LoraVars
  | reset, v => do
    loraReset
    return v
  | init, v => do
    let _ ← loraInit
    return v
  | setter s, v => s.prog v
  | idle, v => do
    loraIdle
    return v
  | sleep, v => do
    loraSleep
    return v
  | receive, v => do
    loraReceive
    return v
  | sendPacket buf size, v => do
    loraSendPacket buf size
    return v
  | receivePacket buf size, v => do
    let _ ← loraReceivePacket v.implicit buf size
    return v
  | received, v => do
    let _ ← loraReceived
    return v
  | packetRssi, v => do
    let _ ← loraPacketRssi v.frequency
    return v
  | packetSnr, v => do
    let _ ← loraPacketSnr
    return v
  | close, v => do
    loraClose
    return v
  | dumpRegisters, v => do
    let _ ← loraDumpRegisters
    return v

/-- The size of a packet that a call sends. -/
def sentSize : DriverCall → Option ℤ
  | sendPacket _ size => some size
  | _ => none

/-- The size that a call predefines for packets with an implicit header. -/
def implicitSize : DriverCall → Option ℤ
  | setter (.implicitHeaderMode size) => some size
  | _ => none

/-- The call is for the header mode. -/
def SetsHeaderMode : DriverCall → Prop
  | setter .explicitHeaderMode | setter (.implicitHeaderMode _) => True
  | _ => False

/-- The call resets the chip. -/
def Resets : DriverCall → Prop
  | reset | init => True
  | _ => False

/-- The call only listens. -/
def Listens : DriverCall → Prop
  | receive | received | receivePacket _ _ => True
  | _ => False

/-- The sizes of packets that the call is given are 1 to 255. -/
def SizesValid (d : DriverCall) : Prop :=
  (∀ n, d.sentSize = some n → 1 ≤ n ∧ n ≤ 255) ∧ ∀ n, d.implicitSize = some n → 1 ≤ n ∧ n ≤ 255

end DriverCall

/-- Some calls, one after the other. -/
def driverSession : LoraVars → List DriverCall → LoraProg LoraVars
  | v, [] => pure v
  | v, d :: ds => do
    let v ← d.prog v
    driverSession v ds

/-! ### The header mode as it is kept -/

/-- The variable `__implicit`, the bit of the chip and the register of the payload length. -/
structure HeaderState where
  implicit : ℤ
  bit : BitVec 8
  payloadLength : BitVec 8
  deriving DecidableEq, Repr

/-- What a call does to the header mode. -/
def DriverCall.header (R : ResetValues) (h : HeaderState) : DriverCall → HeaderState
  | reset | init => { h with bit := 0, payloadLength := (R.val .payloadLength).toBitVec }
  | setter .explicitHeaderMode => { h with implicit := 0, bit := 0 }
  | setter (.implicitHeaderMode size) => ⟨1, 1, (UInt8.ofInt size).toBitVec⟩
  | sendPacket _ size => { h with payloadLength := (UInt8.ofInt size).toBitVec }
  | _ => h

/-- The variable and the chip hold the header mode. -/
structure HeaderState.At (h : HeaderState) (v : LoraVars) (c : Chip) : Prop where
  implicit : v.implicit = h.implicit
  bit : c.bits .modemConfig1 &&& 1 = h.bit
  payloadLength : c.bits .payloadLength = h.payloadLength

section Calls

variable (R : ResetValues) {h : HeaderState} {v : LoraVars}

theorem stable_at (h : HeaderState) (v : LoraVars) : (loraChip R).Stable (h.At v) := by
  refine stable_of_events R (fun c a _ hc => ?_) fun c _ hc => ?_
  · exact ⟨hc.implicit, by simpa [Chip.bits, Chip.receive] using hc.bit,
      by simpa [Chip.bits, Chip.receive] using hc.payloadLength⟩
  · exact ⟨hc.implicit, by simpa [Chip.bits, Chip.transmit] using hc.bit,
      by simpa [Chip.bits, Chip.transmit] using hc.payloadLength⟩

variable {R} {c : Chip}

theorem HeaderState.At.read (hc : h.At v c) (r : Reg) : h.At v (c.read r).2 where
  implicit := hc.implicit
  bit := by rw [Chip.bits, c.read_reg_of_ne r (by simp), ← Chip.bits, hc.bit]
  payloadLength := by rw [Chip.bits, c.read_reg_of_ne r (by simp), ← Chip.bits, hc.payloadLength]

theorem HeaderState.At.write (hc : h.At v c) {r : Reg} (hconfig : r ≠ .modemConfig1)
    (hlen : r ≠ .payloadLength) (x : UInt8) : h.At v (c.write r x) where
  implicit := hc.implicit
  bit := by rw [Chip.bits, c.write_reg_of_ne hconfig.symm (by simp), ← Chip.bits, hc.bit]
  payloadLength := by
    rw [Chip.bits, c.write_reg_of_ne hlen.symm (by simp), ← Chip.bits, hc.payloadLength]

/-- A write of the payload length. -/
theorem HeaderState.At.write_payloadLength (hc : h.At v c) (x : UInt8) :
    HeaderState.At { h with payloadLength := x.toBitVec } v (c.write .payloadLength x) where
  implicit := hc.implicit
  bit := by rw [Chip.bits, c.write_reg_of_ne (by simp) (by simp), ← Chip.bits, hc.bit]
  payloadLength := by simp [Chip.bits, Chip.write]

theorem HeaderState.At.config_eq_zero (hc : h.At v c) :
    c.reg .modemConfig1 &&& 1 = 0 ↔ h.bit = 0 := by
  rw [← UInt8.toBitVec_inj, ← hc.bit]
  rfl

theorem HeaderState.At.toNat_payloadLength (hc : h.At v c) :
    (c.reg .payloadLength).toNat = h.payloadLength.toNat :=
  congrArg BitVec.toNat hc.payloadLength

/-! ### What the calls do to it -/

/-- A write of another register. -/
theorem keeps_write_at {r : Reg} (hconfig : r ≠ .modemConfig1) (hlen : r ≠ .payloadLength)
    (x : UInt8) : (loraChip R).Keeps (h.At v) (loraWriteReg r x) :=
  keeps_loraWriteReg fun _ hc => hc.write hconfig hlen x

/-- A program that reads registers, and writes others than these two. -/
theorem triple_of_keeps {α : Type} {p : LoraProg α} (hp : (loraChip R).Keeps (h.At v) p) :
    (loraChip R).Triple (h.At v) (p >>= fun _ => pure v) fun v' => h.At v' :=
  (hp.triple (stable_at R h v)).bind fun _ => .pure fun _ hc => hc

theorem keeps_loraDump {as : List UInt8} (has : ∀ a ∈ as, a &&& 0x80 = 0) :
    (loraChip R).Keeps (h.At v) (loraDump as) := by
  induction as with
  | nil => trivial
  | cons a as ih =>
    simp only [List.mem_cons, forall_eq_or_imp] at has
    refine ⟨fun c hc => ?_, fun val => (ih has.2).bind fun _ => trivial⟩
    change h.At v (c.spi a 0xff).2
    unfold Chip.spi
    split
    · exact hc
    · rw [if_pos has.1]
      exact hc.read _

/-- A reset of the chip. -/
theorem triple_loraReset :
    (loraChip R).Triple (h.At v) loraReset fun _ => (DriverCall.reset.header R h).At v := by
  refine .access (fun _ => (DriverCall.reset.header R h).At v) (stable_at R h v) (fun c hc => ?_)
    fun _ => .access (fun _ => (DriverCall.reset.header R h).At v) (stable_at R _ v)
      (fun c hc => hc) fun _ => .pure fun _ hc => hc
  exact ⟨hc.implicit, UInt8.toBitVec_inj.2 R.modemConfig1_and, rfl⟩

/-- The initialisation of the chip. -/
theorem triple_loraInit_at :
    (loraChip R).Triple (h.At v) loraInit fun _ => (DriverCall.init.header R h).At v := by
  refine triple_loraReset.bind fun _ => Bus.Device.Keeps.triple ?_ (stable_at R _ v)
  exact (keeps_loraCheckVersion R (fun c hc => hc.read _) _).bind fun _ =>
    (keeps_write_at (by simp) (by simp) _).bind fun _ =>
      (keeps_write_at (by simp) (by simp) _).bind fun _ =>
        (keeps_write_at (by simp) (by simp) _).bind fun _ =>
          (keeps_loraReadReg fun c hc => hc.read _).bind fun lna =>
            (keeps_write_at (by simp) (by simp) _).bind fun _ =>
              (keeps_write_at (by simp) (by simp) _).bind fun _ =>
                (keeps_write_at (by simp) (by simp) _).bind fun _ =>
                  (keeps_write_at (by simp) (by simp) _).bind fun _ => trivial

/-- A packet that is sent leaves its length behind. -/
theorem triple_loraSendPacket_at (buf : ByteMemory) (size : ℤ) :
    (loraChip R).Triple (h.At v) (loraSendPacket buf size)
      fun _ => ((DriverCall.sendPacket buf size).header R h).At v := by
  have hfifo : (loraChip R).Keeps (h.At v) (loraWriteFifo (buf.load 0 size.toNat)) :=
    keeps_loraWriteFifo (fun c x hc => hc.write (by simp) (by simp) x) _
  refine .bind (Q := fun _ => ((DriverCall.sendPacket buf size).header R h).At v) ?_ fun _ => ?_
  · refine (Bus.Device.Keeps.triple (keeps_write_at (by simp) (by simp) _) (stable_at R h v)).bind
      fun _ => ?_
    refine (Bus.Device.Keeps.triple (keeps_write_at (by simp) (by simp) _) (stable_at R h v)).bind
      fun _ => ?_
    refine (hfifo.triple (stable_at R h v)).bind fun _ => ?_
    refine (triple_loraWriteReg (stable_at R h v) fun c hc => hc.write_payloadLength _).bind
      fun _ => ?_
    exact Bus.Device.Keeps.triple (keeps_write_at (by simp) (by simp) _) (stable_at R _ v)
  · refine Bus.Device.Keeps.triple ⟨fun c hc => ?_, fun _ => ?_⟩ (stable_at R _ v)
    · rw [loraChip_access_read]
      exact hc.read _
    · exact keeps_write_at (by simp) (by simp) _

/-- A call that sets the modem. -/
theorem triple_setter_at (s : SetterCall) :
    (loraChip R).Triple (h.At v) (s.prog v) ((DriverCall.setter s).header R h).At := by
  intro gs c v' gs' c' hc hrun
  obtain ⟨rfl, hstores⟩ := s.triple_prog v gs c v' gs' c' (fun r _ => rfl) hrun
  have hfield := congrArg UInt8.toBitVec (Field.headerMode.value_applyAll_writes c.bits s)
  have hbit : c'.bits .modemConfig1 &&& 1 =
      ((Field.headerMode.encoding s).getD (Field.headerMode.value c.bits)).toBitVec := by
    rw [hstores .modemConfig1 (by decide), ← hfield]
    rfl
  have hlen := hstores .payloadLength (by decide)
  cases s with
  | explicitHeaderMode => exact ⟨rfl, hbit, hlen.trans hc.payloadLength⟩
  | implicitHeaderMode size =>
    refine ⟨rfl, hbit, hlen.trans ?_⟩
    exact wholeReg_apply_self .payloadLength (.ofInt size) _
  | _ => exact ⟨hc.implicit, hbit.trans hc.bit, hlen.trans hc.payloadLength⟩

/-- **What a call does to the header mode**, under any schedule. -/
theorem DriverCall.triple_prog (d : DriverCall) :
    (loraChip R).Triple (h.At v) (d.prog v) (d.header R h).At := by
  have hread : ∀ c r, h.At v c → h.At v (c.read r).2 := fun c r hc => hc.read r
  cases d with
  | reset => exact triple_loraReset.bind fun _ => .pure fun _ hc => hc
  | init => exact triple_loraInit_at.bind fun _ => .pure fun _ hc => hc
  | setter s => exact triple_setter_at s
  | idle | sleep | receive | close =>
    exact triple_of_keeps (keeps_write_at (by simp) (by simp) _)
  | sendPacket buf size =>
    exact (triple_loraSendPacket_at buf size).bind fun _ => .pure fun _ hc => hc
  | receivePacket buf size =>
    exact triple_of_keeps (keeps_loraReceivePacket hread
      (fun c x hc => hc.write (by simp) (by simp) x) (fun c hc => hc.write (by simp) (by simp) _)
      (fun c x hc => hc.write (by simp) (by simp) x) v.implicit buf size)
  | received => exact triple_of_keeps (keeps_loraReceived hread)
  | packetRssi | packetSnr =>
    exact triple_of_keeps ((keeps_loraReadReg fun c hc => hc.read _).bind fun _ => trivial)
  | dumpRegisters => exact triple_of_keeps (keeps_loraDump (by decide +kernel))

/-- **What some calls do to the header mode**, under any schedule. -/
theorem triple_driverSession (calls : List DriverCall) (h : HeaderState) (v : LoraVars) :
    (loraChip R).Triple (h.At v) (driverSession v calls)
      (calls.foldl (DriverCall.header R) h).At := by
  induction calls generalizing h v with
  | nil => exact .pure fun _ hc => hc
  | cons d ds ih => exact d.triple_prog.bind fun v' => ih (d.header R h) v'

end Calls

/-! ### The header mode after some calls -/

section Fold

variable {R : ResetValues} {h : HeaderState} {d : DriverCall} {ds : List DriverCall}

theorem DriverCall.header_of_resets (hd : d.Resets) :
    d.header R h = ⟨h.implicit, 0, (R.val .payloadLength).toBitVec⟩ := by
  cases d <;> first | rfl | exact hd.elim

/-- A call that is neither for the header mode nor a reset. -/
theorem DriverCall.header_of_not (hset : ¬ d.SetsHeaderMode) (hreset : ¬ d.Resets) :
    d.header R h = ⟨h.implicit, h.bit,
      (d.sentSize.map fun n => (UInt8.ofInt n).toBitVec).getD h.payloadLength⟩ := by
  cases d with
  | reset | init => exact absurd trivial hreset
  | setter s => cases s <;> first | rfl | exact absurd trivial hset
  | _ => rfl

/-- Calls that are not for the header mode leave the variable as it is, and the bit is cleared if
one of them resets the chip. -/
theorem foldl_header (hset : ∀ d ∈ ds, ¬ d.SetsHeaderMode) :
    (ds.foldl (DriverCall.header R) h).implicit = h.implicit ∧
      (h.bit = 0 ∨ (∃ d ∈ ds, d.Resets) → (ds.foldl (DriverCall.header R) h).bit = 0) := by
  induction ds generalizing h with
  | nil => exact ⟨rfl, by simp⟩
  | cons d ds ih =>
    simp only [List.mem_cons, forall_eq_or_imp] at hset
    obtain ⟨himplicit, hbit⟩ := ih (h := d.header R h) hset.2
    simp only [List.foldl_cons, List.mem_cons, exists_eq_or_imp]
    by_cases hd : d.Resets
    · rw [d.header_of_resets hd] at himplicit hbit ⊢
      exact ⟨himplicit, fun _ => hbit (.inl rfl)⟩
    · rw [d.header_of_not hset.1 hd] at himplicit hbit ⊢
      exact ⟨himplicit, fun hc => hbit (hc.imp_right fun hc => hc.resolve_left hd)⟩

/-- Calls that are neither for the header mode nor resets leave the length of the last packet that
they send. -/
theorem foldl_header_of_not (hset : ∀ d ∈ ds, ¬ d.SetsHeaderMode) (hreset : ∀ d ∈ ds, ¬ d.Resets) :
    ds.foldl (DriverCall.header R) h = ⟨h.implicit, h.bit,
      ((ds.filterMap DriverCall.sentSize).getLast?.map fun n => (UInt8.ofInt n).toBitVec).getD
        h.payloadLength⟩ := by
  induction ds using List.reverseRecOn with
  | nil => rfl
  | append_singleton ds d ih =>
    simp only [List.mem_append, List.mem_singleton, or_imp, forall_and, forall_eq] at hset hreset
    rw [List.foldl_append, ih hset.1 hreset.1, List.foldl_cons, List.foldl_nil,
      d.header_of_not hset.2 hreset.2, List.filterMap_append]
    rcases hsize : d.sentSize with _ | n <;> simp [hsize]

end Fold

/-- There is a last call for the header mode, unless there is none. -/
theorem exists_last_setsHeaderMode (calls : List DriverCall) :
    (∀ d ∈ calls, ¬ d.SetsHeaderMode) ∨ ∃ pre d post, calls = pre ++ d :: post ∧
      d.SetsHeaderMode ∧ ∀ d ∈ post, ¬ d.SetsHeaderMode := by
  induction calls with
  | nil => exact .inl (by simp)
  | cons d ds ih =>
    rcases ih with hnone | ⟨pre, d', post, rfl, hd', hpost⟩
    · by_cases hd : d.SetsHeaderMode
      · exact .inr ⟨[], d, ds, rfl, hd, hnone⟩
      · exact .inl (by simpa [hd] using hnone)
    · exact .inr ⟨d :: pre, d', post, rfl, hd', hpost⟩

/-- The last call for the header mode and the calls after it are determined. -/
theorem last_setsHeaderMode_unique {pre pre' post post' : List DriverCall} {d d' : DriverCall}
    (h : pre ++ d :: post = pre' ++ d' :: post') (hd : d.SetsHeaderMode) (hd' : d'.SetsHeaderMode)
    (hpost : ∀ d ∈ post, ¬ d.SetsHeaderMode) (hpost' : ∀ d ∈ post', ¬ d.SetsHeaderMode) :
    d = d' ∧ post = post' := by
  rcases List.append_eq_append_iff.mp h with ⟨as, -, has⟩ | ⟨as, -, has⟩
  · rcases List.cons_eq_append_iff.mp has with ⟨rfl, heq⟩ | ⟨bs, rfl, rfl⟩
    · exact (List.cons.inj heq).imp Eq.symm Eq.symm
    · exact absurd hd' (hpost d' (by simp))
  · rcases List.cons_eq_append_iff.mp has with ⟨rfl, heq⟩ | ⟨bs, rfl, rfl⟩
    · exact List.cons.inj heq
    · exact absurd hd (hpost' d (by simp))

/-! ### Lengths of received packets -/

/-- The length that the last call of `lora_implicit_header_mode` predefines. -/
def implicitLength (calls : List DriverCall) : ℤ :=
  (calls.filterMap DriverCall.implicitSize).getLast?.getD 0

/-- Whenever the chip has been made to listen and a packet has arrived without a checksum error,
`lora_receive_packet` returns, up to the size of the buffer, the number of bytes that the chip
reports if the chip expects explicit headers, and `n` if it expects implicit ones. Nothing else
happens at the chip until the call has read the length, which is its third access. -/
def LengthFollowsMode (R : ResetValues) (v : LoraVars) (c : Chip) (n : ℤ) : Prop :=
  ∀ (listen : List DriverCall) (gs gs₁ : List (List ChipEvent)) (v₁ : LoraVars) (c₁ c₂ : Chip)
    (a : Arrival), (∀ d ∈ listen, d.Listens) →
    (loraChip R).run (driverSession v listen) gs c = some (v₁, gs₁, c₁) →
    (loraChip R).event c₁ (.arrive a) = some c₂ → c₂.HasPacket →
    ∀ (buf : ByteMemory) (size : ℤ) (x : ℤ × ByteMemory) (gs₂ gs₃ : List (List ChipEvent))
      (c₃ : Chip), (∀ k < 3, gs₂.getD k [] = []) →
      (loraChip R).run (loraReceivePacket v₁.implicit buf size) gs₂ c₂ = some (x, gs₃, c₃) →
      x.1 = min (if c₂.reg .modemConfig1 &&& 1 = 0 then ((c₂.reg .rxNbBytes).toNat : ℤ) else n) size

/-- If the last call for the header mode was for implicit headers, no reset has followed it, and
the last packet sent after it, if any, had the predefined length. -/
def HeaderUndisturbed (calls : List DriverCall) : Prop :=
  ∀ pre n post, calls = pre ++ .setter (.implicitHeaderMode n) :: post →
    (∀ d ∈ post, ¬ d.SetsHeaderMode) → (∀ d ∈ post, ¬ d.Resets) ∧
      ∀ m, (post.filterMap DriverCall.sentSize).getLast? = some m → m = n

/-- If the driver assumes implicit headers, so does the chip, and the length is `n`. -/
def HeaderState.Sound (h : HeaderState) (n : ℤ) : Prop :=
  h.implicit ≠ 0 → h.bit ≠ 0 ∧ (h.payloadLength.toNat : ℤ) = n

section Sound

variable {R : ResetValues} {h : HeaderState} {v : LoraVars} {c : Chip} {n : ℤ}

theorem toNat_ofInt {n : ℤ} (hn : 1 ≤ n ∧ n ≤ 255) :
    ((UInt8.ofInt n).toBitVec.toNat : ℤ) = n := by
  obtain ⟨m, rfl⟩ := Int.eq_ofNat_of_zero_le (show 0 ≤ n by omega)
  have hm : m < 256 := by omega
  have hcast : UInt8.ofInt m = .ofNat m := by simp [UInt8.ofInt, Int.emod_eq_of_lt, hm]
  rw [hcast]
  simp [Nat.mod_eq_of_lt hm]

/-- The value that a call returns for a packet when nothing happens until the length is read. -/
theorem run_loraReceivePacket_fst {implicit : ℤ} {buf : ByteMemory} {size : ℤ}
    {x : ℤ × ByteMemory} {gs gs' : List (List ChipEvent)} {c' : Chip} (hc : c.HasPacket)
    (hgs : ∀ k < 3, gs.getD k [] = [])
    (hrun : (loraChip R).run (loraReceivePacket implicit buf size) gs c = some (x, gs', c')) :
    x.1 = min ((c.reg (lengthReg implicit)).toNat : ℤ) size := by
  obtain ⟨c₁, c₂, h₁, h₂, hcases⟩ := loraReceivePacket_cases hrun
  rw [hgs 0 (by omega), Bus.Device.events_nil, Option.some_inj] at h₁
  subst h₁
  rw [hgs 1 (by omega), Bus.Device.events_nil, Option.some_inj] at h₂
  subst h₂
  obtain ⟨hno, -⟩ | ⟨-, hfetch⟩ := hcases
  · exact absurd hc hno
  obtain ⟨c₃, c₄, h₃, -, hlen, -⟩ := loraFetchPacket_spec hfetch
  have hdrop : (gs.drop 2).getD 0 [] = gs.getD 2 [] := by simp
  rw [hdrop, hgs 2 (by omega), Bus.Device.events_nil, Option.some_inj] at h₃
  subst h₃
  rw [hlen, c.write_irqFlags_lengthReg]

/-- Listening keeps the header mode. -/
theorem foldl_header_of_listens {listen : List DriverCall} (hlisten : ∀ d ∈ listen, d.Listens) :
    listen.foldl (DriverCall.header R) h = h := by
  induction listen with
  | nil => rfl
  | cons d ds ih =>
    simp only [List.mem_cons, forall_eq_or_imp] at hlisten
    have hd : d.header R h = h := by
      cases d <;> first | rfl | exact hlisten.1.elim
    rw [List.foldl_cons, hd, ih hlisten.2]

/-- Two calls that make the chip listen with its interrupt flags cleared. -/
theorem exists_run_listen (hc : h.At v c) : ∃ c₁, h.At v c₁ ∧
    (loraChip R).run (driverSession v [.receivePacket (fun _ => 0) 0, .receive]) [] c =
      some (v, [], c₁) ∧
    c₁.reg .opMode = modeLongRangeMode ||| modeRxContinuous ∧ c₁.flag .payloadCrcError = false := by
  obtain ⟨x, c', hrun⟩ :=
    (loraChip R).exists_run_nil (atMost_loraReceivePacket v.implicit (fun _ => 0) 0) c
  have hflag : c'.flag .payloadCrcError = false := by
    obtain ⟨-, -, rfl⟩ | ⟨-, -, -, q, rfl⟩ := loraReceivePacket_cases_nil hrun
    · simp [Chip.flag]
    · simp [Chip.flag]
  have hsession : (loraChip R).run
      (driverSession v [.receivePacket (fun _ => 0) 0, .receive]) [] c =
      some (v, [], c'.write .opMode (modeLongRangeMode ||| modeRxContinuous)) := by
    simp only [driverSession, DriverCall.prog, Bus.Device.run_bind, hrun, Option.bind_some]
    rfl
  exact ⟨_, triple_driverSession _ h v _ _ _ _ _ hc hsession, hsession, by simp,
    by simpa [Chip.flag, Chip.write] using hflag⟩

/-- The length follows the header mode if that is kept right. -/
theorem lengthFollowsMode_of_sound (hc : h.At v c) (hbit : h.implicit = 0 → h.bit = 0)
    (hsound : h.Sound n) : LengthFollowsMode R v c n := by
  intro listen gs gs₁ v₁ c₁ c₂ a hlisten hrun harrive hpacket buf size x gs₂ gs₃ c₃ hgs hreceive
  have hc₁ : h.At v₁ c₁ := by
    have hfold := triple_driverSession listen h v _ _ _ _ _ hc hrun
    rwa [foldl_header_of_listens hlisten] at hfold
  have hc₂ : h.At v₁ c₂ := stable_at R h v₁ _ _ _ hc₁ harrive
  rw [run_loraReceivePacket_fst hpacket hgs hreceive, lengthReg]
  simp only [hc₂.config_eq_zero, hc₂.implicit]
  by_cases himplicit : h.implicit = 0
  · rw [if_neg (not_not.mpr himplicit), if_pos (hbit himplicit)]
  · obtain ⟨hne, hlen⟩ := hsound himplicit
    rw [if_pos himplicit, if_neg hne, hc₂.toNat_payloadLength, hlen]

/-- What the driver returns for a packet that arrives when it assumes implicit headers. -/
theorem payloadLength_eq_of_lengthFollowsMode (hc : h.At v c) (himplicit : h.implicit ≠ 0)
    (hlength : LengthFollowsMode R v c n) {a : Arrival} (ha : a.damaged = false) :
    (h.payloadLength.toNat : ℤ) = min (if h.bit = 0 then (a.data.length : ℤ) else n) 255 := by
  obtain ⟨c₁, hc₁, hlisten, hmode, hflag⟩ := exists_run_listen (R := R) hc
  have harrive : (loraChip R).event c₁ (.arrive a) = some (c₁.receive a) := if_pos hmode
  have hpacket := (Chip.hasPacket_receive_iff c₁ ha).mpr hflag
  have hc₂ : h.At v (c₁.receive a) := stable_at R h v _ _ _ hc₁ harrive
  obtain ⟨x, c₃, hreceive⟩ := (loraChip R).exists_run_nil
    (atMost_loraReceivePacket v.implicit (fun _ => 0) 255) (c₁.receive a)
  have hexpected := hlength _ _ _ _ _ _ _ (by simp [DriverCall.Listens]) hlisten harrive
    hpacket _ _ _ _ _ _ (fun _ _ => rfl) hreceive
  have hreg : lengthReg v.implicit = .payloadLength := by
    rw [lengthReg, if_pos (hc.implicit ▸ himplicit)]
  have hlt : h.payloadLength.toNat < 256 := h.payloadLength.isLt
  rw [run_loraReceivePacket_fst hpacket (fun _ _ => rfl) hreceive, hreg, hc₂.toNat_payloadLength,
    (c₁.holds_receive a).toNat_rxNbBytes, min_eq_left (by omega)] at hexpected
  simpa only [hc₂.config_eq_zero] using hexpected

/-- **What the lengths of packets depend on.** -/
theorem lengthFollowsMode_iff_sound (hc : h.At v c) (hbit : h.implicit = 0 → h.bit = 0)
    (hn : n ≤ 255) : LengthFollowsMode R v c n ↔ h.Sound n := by
  refine ⟨fun hlength himplicit => ?_, lengthFollowsMode_of_sound hc hbit⟩
  have hone := payloadLength_eq_of_lengthFollowsMode hc himplicit hlength
    (a := ⟨[0], 0, false, Nat.one_pos, by simp⟩) rfl
  by_cases hzero : h.bit = 0
  · -- two packets of different lengths would have the same length
    have htwo := payloadLength_eq_of_lengthFollowsMode hc himplicit hlength
      (a := ⟨[0, 0], 0, false, Nat.two_pos, by simp⟩) rfl
    rw [if_pos hzero] at hone htwo
    simp only [List.length_cons, List.length_nil] at hone htwo
    omega
  · rw [if_neg hzero, min_eq_left hn] at hone
    exact ⟨hzero, hone⟩

end Sound

section Disturbed

variable {R : ResetValues} {calls : List DriverCall}

/-- The header mode after a reset of the chip and the given calls. -/
def headerAfter (R : ResetValues) (calls : List DriverCall) : HeaderState :=
  calls.foldl (DriverCall.header R) ⟨0, 0, (R.val .payloadLength).toBitVec⟩

/-- Calls that end with one for explicit headers, and calls that are not for the header mode. -/
theorem headerAfter_explicit {pre post : List DriverCall}
    (hpost : ∀ d ∈ post, ¬ d.SetsHeaderMode) :
    (headerAfter R (pre ++ .setter .explicitHeaderMode :: post)).implicit = 0 ∧
      (headerAfter R (pre ++ .setter .explicitHeaderMode :: post)).bit = 0 := by
  rw [headerAfter, List.foldl_append, List.foldl_cons]
  have hfold := foldl_header (R := R) (h := DriverCall.header R (pre.foldl (DriverCall.header R)
    ⟨0, 0, (R.val .payloadLength).toBitVec⟩) (.setter .explicitHeaderMode)) hpost
  exact ⟨hfold.1, hfold.2 (.inl rfl)⟩

/-- Calls that end with one for implicit headers, and calls that are not for the header mode. -/
theorem headerAfter_implicit {pre post : List DriverCall} (n : ℤ) :
    headerAfter R (pre ++ .setter (.implicitHeaderMode n) :: post) =
      post.foldl (DriverCall.header R) ⟨1, 1, (UInt8.ofInt n).toBitVec⟩ := by
  rw [headerAfter, List.foldl_append, List.foldl_cons]
  rfl

theorem implicitLength_append {pre post : List DriverCall} {n : ℤ}
    (hpost : ∀ d ∈ post, ¬ d.SetsHeaderMode) :
    implicitLength (pre ++ .setter (.implicitHeaderMode n) :: post) = n := by
  have hnil : post.filterMap DriverCall.implicitSize = [] := by
    refine List.filterMap_eq_nil_iff.mpr fun d hd => ?_
    have hset := hpost d hd
    unfold DriverCall.implicitSize
    split
    · exact absurd trivial hset
    · rfl
  simp [implicitLength, hnil, DriverCall.implicitSize]

theorem implicitLength_le (hsizes : ∀ d ∈ calls, d.SizesValid) : implicitLength calls ≤ 255 := by
  rcases hlast : (calls.filterMap DriverCall.implicitSize).getLast? with _ | n
  · simp [implicitLength, hlast]
  · obtain ⟨d, hd, hn⟩ := List.mem_filterMap.mp (List.mem_of_getLast? hlast)
    simpa [implicitLength, hlast] using ((hsizes d hd).2 n hn).2

/-- The driver assumes explicit headers only if the chip does. -/
theorem headerAfter_bit (h : (headerAfter R calls).implicit = 0) :
    (headerAfter R calls).bit = 0 := by
  rcases exists_last_setsHeaderMode calls with hnone | ⟨pre, d, post, rfl, hd, hpost⟩
  · exact (foldl_header hnone).2 (.inl rfl)
  · cases d with
    | setter s =>
      cases s with
      | explicitHeaderMode => exact (headerAfter_explicit hpost).2
      | implicitHeaderMode n =>
        rw [headerAfter_implicit, (foldl_header hpost).1] at h
        exact absurd h one_ne_zero
      | _ => exact hd.elim
    | _ => exact hd.elim

/-- When implicit headers of the length `n` are kept right by calls that are not for the header
mode. -/
theorem sound_foldl_implicit_iff {post : List DriverCall} {n : ℤ} (hn : 1 ≤ n ∧ n ≤ 255)
    (hsizes : ∀ d ∈ post, d.SizesValid) (hpost : ∀ d ∈ post, ¬ d.SetsHeaderMode) :
    (post.foldl (DriverCall.header R) ⟨1, 1, (UInt8.ofInt n).toBitVec⟩).Sound n ↔
      (∀ d ∈ post, ¬ d.Resets) ∧
        ∀ m, (post.filterMap DriverCall.sentSize).getLast? = some m → m = n := by
  by_cases hreset : ∀ d ∈ post, ¬ d.Resets
  · have hone : (1 : BitVec 8) ≠ 0 := by decide
    have hsound : ∀ l : BitVec 8, HeaderState.Sound ⟨1, 1, l⟩ n ↔ (l.toNat : ℤ) = n :=
      fun l => ⟨fun h => (h one_ne_zero).2, fun h _ => ⟨hone, h⟩⟩
    rw [foldl_header_of_not hpost hreset, hsound, and_iff_right hreset]
    rcases hsent : (post.filterMap DriverCall.sentSize).getLast? with _ | m
    · exact iff_of_true (toNat_ofInt hn) (by simp)
    · obtain ⟨d, hmem, hm⟩ := List.mem_filterMap.mp (List.mem_of_getLast? hsent)
      rw [Option.map_some, Option.getD_some, toNat_ofInt ((hsizes d hmem).1 m hm)]
      simp
  · refine iff_of_false (fun h => ?_) fun h => hreset h.1
    obtain ⟨himplicit, hbit⟩ := foldl_header (R := R)
      (h := ⟨1, 1, (UInt8.ofInt n).toBitVec⟩) hpost
    push Not at hreset
    exact (h (himplicit ▸ one_ne_zero)).1 (hbit (.inr hreset))

/-- **When the header mode is kept right.** -/
theorem sound_iff_headerUndisturbed (hsizes : ∀ d ∈ calls, d.SizesValid) :
    (headerAfter R calls).Sound (implicitLength calls) ↔ HeaderUndisturbed calls := by
  rcases exists_last_setsHeaderMode calls with hnone | ⟨pre, d, post, rfl, hd, hpost⟩
  · refine iff_of_true (fun h => absurd (foldl_header hnone).1 h) ?_
    rintro pre n post rfl
    exact absurd trivial (hnone (.setter (.implicitHeaderMode n)) (by simp))
  have hlast : ∀ pre' n post', pre ++ d :: post = pre' ++ .setter (.implicitHeaderMode n) :: post' →
      (∀ d ∈ post', ¬ d.SetsHeaderMode) → d = .setter (.implicitHeaderMode n) ∧ post = post' :=
    fun pre' n post' h hpost' => last_setsHeaderMode_unique h hd trivial hpost hpost'
  by_cases hd' : ∃ n, d = .setter (.implicitHeaderMode n)
  · obtain ⟨n, rfl⟩ := hd'
    have hn := (hsizes (.setter (.implicitHeaderMode n)) (by simp)).2 n rfl
    rw [implicitLength_append hpost, headerAfter_implicit,
      sound_foldl_implicit_iff hn (fun d hmem => hsizes d (by simp [hmem])) hpost]
    refine ⟨fun h pre' n' post' heq hpost' => ?_, fun h => h pre n post rfl hpost⟩
    obtain ⟨hn', rfl⟩ := hlast pre' n' post' heq hpost'
    obtain rfl : n = n' := by simpa using hn'
    exact h
  · refine iff_of_true (fun h => absurd ?_ h) fun pre' n' post' heq hpost' =>
      absurd ⟨n', (hlast pre' n' post' heq hpost').1⟩ hd'
    cases d with
    | setter s =>
      cases s with
      | explicitHeaderMode => exact (headerAfter_explicit hpost).1
      | implicitHeaderMode n => exact absurd ⟨n, rfl⟩ hd'
      | _ => exact hd.elim
    | _ => exact hd.elim

end Disturbed

/-- After a reset of the chip the header mode is as the calls determine it. -/
theorem at_headerAfter {R : ResetValues} {calls : List DriverCall} {f : ℤ} {c₀ c : Chip}
    {v : LoraVars} {gs gs' : List (List ChipEvent)}
    (hrun : (loraChip R).run (driverSession ⟨0, f⟩ calls) gs (c₀.reset R) = some (v, gs', c)) :
    (headerAfter R calls).At v c := by
  have hreset : HeaderState.At ⟨0, 0, (R.val .payloadLength).toBitVec⟩ ⟨0, f⟩ (c₀.reset R) :=
    ⟨rfl, congrArg UInt8.toBitVec R.modemConfig1_and, rfl⟩
  exact triple_driverSession calls _ _ _ _ _ _ _ hreset hrun

/-- **When the length of a packet follows the header mode.** After any calls of the driver, from a
reset of the chip on and under any schedule, the length of every packet that is then received is
the one that the header mode of the chip prescribes if and only if the last call for the header
mode was for explicit headers, or has been followed by no reset and by no packet that leaves another
length behind. -/
theorem lengthFollowsMode_iff {R : ResetValues} {calls : List DriverCall} {f : ℤ} {c₀ c : Chip}
    {v : LoraVars} {gs gs' : List (List ChipEvent)} (hsizes : ∀ d ∈ calls, d.SizesValid)
    (hrun : (loraChip R).run (driverSession ⟨0, f⟩ calls) gs (c₀.reset R) = some (v, gs', c)) :
    LengthFollowsMode R v c (implicitLength calls) ↔ HeaderUndisturbed calls :=
  (lengthFollowsMode_iff_sound (at_headerAfter hrun) headerAfter_bit
    (implicitLength_le hsizes)).trans (sound_iff_headerUndisturbed hsizes)

/-- Implicit headers that are set once prescribe the length. -/
theorem lengthFollowsMode_iff_implicit : ∃ v c,
    (loraChip .sx1276).run (driverSession ⟨0, 0⟩ [.setter (.implicitHeaderMode 10)]) []
      (zeroChip.reset .sx1276) = some (v, [], c) ∧
    LengthFollowsMode .sx1276 v c (implicitLength [.setter (.implicitHeaderMode 10)]) := by
  obtain ⟨v, c, hrun⟩ : ∃ v c, (loraChip .sx1276).run
      (driverSession ⟨0, 0⟩ [.setter (.implicitHeaderMode 10)]) [] (zeroChip.reset .sx1276) =
      some (v, [], c) := ⟨_, _, rfl⟩
  refine ⟨v, c, hrun, (lengthFollowsMode_iff
    (by simp [DriverCall.SizesValid, DriverCall.sentSize, DriverCall.implicitSize]) hrun).mpr ?_⟩
  intro pre n post hsplit _
  obtain ⟨-, -, rfl⟩ : pre = [] ∧ n = 10 ∧ post = [] := by
    simpa [List.singleton_eq_append_iff] using hsplit
  simp

/-- After `lora_implicit_header_mode(10)` and `lora_reset` the chip expects explicit headers, and
the driver takes the reset value of the payload length for the length of a packet. -/
theorem not_lengthFollowsMode : ∃ v c,
    (loraChip .sx1276).run (driverSession ⟨0, 0⟩ [.setter (.implicitHeaderMode 10), .reset]) []
      (zeroChip.reset .sx1276) = some (v, [], c) ∧
    ¬ LengthFollowsMode .sx1276 v c
      (implicitLength [.setter (.implicitHeaderMode 10), .reset]) := by
  obtain ⟨v, c, hrun⟩ : ∃ v c, (loraChip .sx1276).run
      (driverSession ⟨0, 0⟩ [.setter (.implicitHeaderMode 10), .reset]) []
      (zeroChip.reset .sx1276) = some (v, [], c) := ⟨_, _, rfl⟩
  refine ⟨v, c, hrun, fun h => ?_⟩
  have hsound := (lengthFollowsMode_iff_sound (at_headerAfter hrun) headerAfter_bit
    (by decide)).mp h
  exact (hsound (by decide)).1 rfl

end GpsTracker
