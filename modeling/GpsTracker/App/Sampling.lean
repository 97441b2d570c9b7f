import GpsTracker.App.Clients
import GpsTracker.Gps.Publication

/-!
# The packet of the sender

The loop of `app_main` in its role as a sender copies six members of `NavPvt.nav` into a `packet_t`,
one after the other, while the GPS task goes on storing bytes in the same memory. The members that
it reads are all at their places in the NAV-PVT message (`offset_source`), so that a member is read
as a field of a message, unless some but not all of its bytes have been stored: then its first
bytes are those of the message that is being received, and the others those of the message before
(`bytes_source`). The two members of one byte are never read in this way.

A client of the Ionic application, which decodes the members of four bytes, is shown the field of
a message that has been received or is being received, whatever the GPS task does between the reads
(`onConnected_sampled`).

## Main definitions

* `PacketMember.source`, `GpsVars.nav`, `packetOf`.
* `GpsVars.Storing`, `lastMessage`.

## Main results

* `bytes_source`.
* `onConnected_sampled`.
-/

namespace GpsTracker

/-! ### The members that are read -/

/-- The member of `NavPvt.nav` that is copied into a member of the packet. -/
def PacketMember.source : PacketMember → NavMember
  | fixType => .fixType
  | numSats => .numSV
  | lon => .lonDeg7
  | lat => .latDeg7
  | groundSpeed => .groundSpeedmmps
  | height => .heightMSLmm

/-- The memory of `NavPvt`, which is zero when the program starts. -/
def GpsVars.nav (s : GpsVars) : ByteMemory := ByteMemory.store (fun _ => 0) 0 s.pktBuffer

theorem PacketMember.type_source (i : PacketMember) : packetT.type i = navPvtPkt.type i.source := by
  cases i <;> rfl

/-- The packet of the sender, when a member is read from the memory `nav i`. -/
def packetOf (nav : PacketMember → ByteMemory) : packetT.Value where
  val i := navPvtPkt.read (nav i) i.source
  inRange i := by
    rw [i.type_source]
    exact IntType.inRange_decode _ (ByteMemory.length_load ..)

/-- The members that are read are at their places in the message. -/
theorem offset_source (i : PacketMember) : navPvtPkt.offset i.source = wireOffset i.source := by
  cases i <;> decide +kernel

theorem wireOffset_source_add_size_le (i : PacketMember) :
    wireOffset i.source + i.source.type.size ≤ navPvtPktNumBytes := by
  cases i <;> decide

/-! ### What is read while a message is received -/

namespace GpsVars

/-- Some but not all bytes of a member have been stored. -/
def Storing (s : GpsVars) (i : PacketMember) : Prop :=
  s.gpsState = .pktRcv ∧ wireOffset i.source < s.pktReceivedBytes ∧
    s.pktReceivedBytes < wireOffset i.source + i.source.type.size

/-- A member of one byte has been stored or not. -/
theorem not_storing_of_size_eq_one (s : GpsVars) {i : PacketMember}
    (hi : i.source.type.size = 1) : ¬ s.Storing i := by
  rintro ⟨-, hlt, hlt'⟩
  omega

variable {s : GpsVars} {f : Framer.State UInt8} {base : List UInt8}

/-- The bytes of a member are those of the array. -/
theorem bytes_nav (h : s.Represents f base) (i : PacketMember) :
    navPvtPkt.bytes s.nav i.source =
      (s.pktBuffer.drop (wireOffset i.source)).take i.source.type.size := by
  have hle := wireOffset_source_add_size_le i
  have hload := ByteMemory.load_store (fun _ => 0) 0 s.pktBuffer
  rw [h.length_pktBuffer] at hload
  rw [StructType.bytes, offset_source]
  exact (ByteMemory.take_drop_load _ hle).symm.trans (by rw [nav, hload])

/-- **The bytes of a member.** Of the message that is being received as many as have been stored,
then those of the message before. -/
theorem bytes_source (h : s.Represents f base) (i : PacketMember) :
    navPvtPkt.bytes s.nav i.source =
      (f.captured.drop (wireOffset i.source)).take i.source.type.size ++
        ((base.drop (wireOffset i.source)).take i.source.type.size).drop
          (f.captured.length - wireOffset i.source) := by
  rw [bytes_nav h, h.pktBuffer_eq, List.drop_append, List.take_append, List.length_drop,
    List.drop_drop, List.drop_take, List.drop_drop]
  rcases le_total f.captured.length (wireOffset i.source) with hle | hle
  · simp [hle, Nat.sub_eq_zero_of_le hle]
  · simp [hle, Nat.sub_eq_zero_of_le hle]

end GpsVars

/-! ### The fields that are read -/

/-- The message reported last, or the zeros at the start of the program. -/
def lastMessage (os : List GpsReport) : List UInt8 :=
  (os.filterMap GpsReport.packet?).getLast?.getD zeroPkt

/-- The value is the field of the message reported last, or of the message that is being received,
whatever its other bytes will be. -/
def Sampled (s : GpsVars) (os : List GpsReport) (i : PacketMember) (v : ℤ) : Prop :=
  (∃ msg : NavPvtMessage, msg.val = lastMessage os ∧ v = msg.field i.source) ∨
    s.gpsState = .pktRcv ∧ ∀ msg : NavPvtMessage,
      s.pktBuffer.take s.pktReceivedBytes.toNat <+: msg.val → v = msg.field i.source

variable {buf : List UInt8} {rs : List UartRead} {n : ℕ} {s : GpsVars} {os : List GpsReport}

/-- **A member whose bytes are not just being stored is read as a field.** -/
theorem sampled_read (h : gpsPoint rs n (gpsConfigured buf) = some (s, os)) {i : PacketMember}
    (hi : ¬ s.Storing i) : Sampled s os i (navPvtPkt.read s.nav i.source) := by
  obtain ⟨f, ps, rfl, -, hrep⟩ := gpsPoint_eq_some h
  have hlast : lastMessage (ps.map .navUpdated) = ps.getLast?.getD zeroPkt := by
    rw [lastMessage, List.filterMap_map]
    exact congrArg (fun ps => (List.getLast? ps).getD zeroPkt) List.filterMap_some
  have hbytes := GpsVars.bytes_source hrep i
  -- The bytes captured end before the member, or they contain it.
  rcases le_or_gt f.captured.length (wireOffset i.source) with hle | hlt
  · refine .inl ⟨⟨_, hrep.length_base⟩, hlast.symm, ?_⟩
    rw [List.drop_eq_nil_of_le hle, List.take_nil, List.nil_append, Nat.sub_eq_zero_of_le hle,
      List.drop_zero] at hbytes
    exact congrArg i.source.type.decode hbytes
  · obtain ⟨hrcv, hk⟩ : s.gpsState = .pktRcv ∧ s.pktReceivedBytes = f.captured.length := by
      rcases f with m | c
      · exact absurd hlt (Nat.not_lt_zero _)
      · exact ⟨hrep.vars_eq.2.1, hrep.vars_eq.2.2.2⟩
    have hend : wireOffset i.source + i.source.type.size ≤ f.captured.length := by
      by_contra hnot
      exact hi ⟨hrcv, by omega, by omega⟩
    refine .inr ⟨hrcv, fun msg hmsg => ?_⟩
    have hcaptured : s.pktBuffer.take s.pktReceivedBytes.toNat = f.captured := by
      rw [hk, Int.toNat_natCast, hrep.pktBuffer_eq, List.take_left]
    obtain ⟨rest, hrest⟩ := hcaptured ▸ hmsg
    have hdrop : ((ps.getLast?.getD zeroPkt |>.drop (wireOffset i.source)).take
        i.source.type.size).drop (f.captured.length - wireOffset i.source) = [] := by
      refine List.drop_eq_nil_of_le ((List.length_take_le _ _).trans ?_)
      omega
    have hfield : (msg.val.drop (wireOffset i.source)).take i.source.type.size =
        (f.captured.drop (wireOffset i.source)).take i.source.type.size := by
      rw [← hrest, List.drop_append_of_le_length hlt.le, List.take_append_of_le_length]
      rw [List.length_drop]
      omega
    rw [hdrop, List.append_nil, ← hfield] at hbytes
    exact congrArg i.source.type.decode hbytes

/-! ### What a client is shown -/

/-- **The Ionic application shows a field of a message**, in every run of the GPS task and for any
points of it at which the sender reads the members, unless the bytes of the member are just being
stored. -/
theorem onConnected_sampled {n : PacketMember → ℕ} {s : PacketMember → GpsVars}
    {os : PacketMember → List GpsReport}
    (h : ∀ i, gpsPoint rs (n i) (gpsConfigured buf) = some (s i, os i))
    (sender receiver : ByteMemory) {c : Characteristic} (hc : c.numBytes = 4)
    (hi : ¬ (s c.member).Storing c.member) :
    ∃ v, onConnected c (c.value (receivedPacket sender receiver (packetOf fun i => (s i).nav))) =
        .ok (some v) ∧ Sampled (s c.member) (os c.member) c.member v := by
  have htype : packetT.type c.member = int32T := by
    revert hc
    cases c <;> decide
  have hlen : ((packetT.type c.member).encode
      ((packetOf fun i => (s i).nav).val c.member)).length = 4 := by
    rw [IntType.length_encode, htype]
    rfl
  refine ⟨(packetOf fun i => (s i).nav).val c.member, ?_, sampled_read (h c.member) hi⟩
  have hrange := (packetOf fun i => (s i).nav).inRange c.member
  rw [onConnected_eq, Characteristic.value_receivedPacket, firstInt32_of_length_eq hlen]
  rw [htype] at hrange ⊢
  rw [int32T.decode_encode hrange]

/-- The latitude of the example stream is shown before the message is complete. -/
theorem onConnected_sampled_latitude :
    ∃ s os, gpsPoint [.bytes (gpsUbxNavPvtHdr ++ exampleMessage.val.take 32) (by decide)] 38
        (gpsConfigured []) = some (s, os) ∧ Sampled s os .lat 129906679 ∧
      onConnected .lat (Characteristic.lat.value (receivedPacket (fun _ => 0) (fun _ => 0)
        (packetOf fun _ => s.nav))) = .ok (some 129906679) := by
  have hpoint : gpsPoint [.bytes (gpsUbxNavPvtHdr ++ exampleMessage.val.take 32) (by decide)] 38
      (gpsConfigured []) = some ({ gpsConfigReset .static with
        gpsState := .pktRcv
        pktReceivedBytes := 32
        pktBuffer := exampleMessage.val.take 32 ++ List.replicate 62 0 }, []) := by
    decide +kernel
  obtain ⟨v, hshown, hsampled⟩ := onConnected_sampled (n := fun _ => 38) (fun _ => hpoint)
    (fun _ => 0) (fun _ => 0) (c := .lat) rfl (fun h => absurd h.2.2 (by decide))
  have hvalue := hshown.symm.trans (b := Except.ok (some 129906679)) rfl
  obtain rfl : v = 129906679 := by simpa using hvalue
  exact ⟨_, _, hpoint, hsampled, hshown⟩

end GpsTracker
