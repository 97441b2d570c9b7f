import GpsTracker.Gps.Publication
import GpsTracker.Memory.LittleEndian
import GpsTracker.Wire.Fletcher
import GpsTracker.Wire.PrefixCode
import Mathlib.Data.UInt

/-!
# Frames of the UBX protocol

The messages that `main/gps.c` sends to the receiver and gets from it are frames of the UBX
protocol: two fixed bytes, class and identifier of the message, the length of its payload, the
payload and the checksum that `ubx_checksum` computes. The checksum notices every change of one
byte (`not_intact_of_change`) and most exchanges of two (`intact_of_exchange_iff`). The state
machine reports the frames that it finds whether or not they are damaged (`gpsPoint_damaged`).

## Main definitions

* `UbxMessage`, `ubxCode`.
* `navPvtMessage`, `navPvtPacket`.

## Main results

* `encode_navPvtMessage`, `intact_iff`.
* `not_intact_of_change`, `intact_of_exchange_iff`.
* `gpsPoint_frames`, `gpsPoint_damaged`.
-/

namespace GpsTracker

/-! ### Messages -/

/-- A message of the UBX protocol. -/
structure UbxMessage where
  msgClass : UInt8
  msgId : UInt8
  payload : List UInt8
  length_lt : payload.length < 256 ^ 2
  deriving DecidableEq, Repr

namespace UbxMessage

/-- The bytes of a frame that the checksum covers. -/
def covered (m : UbxMessage) : List UInt8 :=
  m.msgClass :: m.msgId :: (LittleEndian.ofNat 2 m.payload.length ++ m.payload)

/-- The two bytes of a checksum. -/
def checksumBytes (bs : List UInt8) : List UInt8 := [(ubxChecksum bs).1, (ubxChecksum bs).2]

/-- The frame of a message. -/
def encode (m : UbxMessage) : List UInt8 :=
  0xB5 :: 0x62 :: (m.covered ++ checksumBytes m.covered)

/-- The message of the frame by which some bytes begin. -/
def decode : List UInt8 → Option (UbxMessage × List UInt8)
  | sync₁ :: sync₂ :: msgClass :: msgId :: len₀ :: len₁ :: xs =>
    let n := LittleEndian.toNat [len₀, len₁]
    let m : UbxMessage := ⟨msgClass, msgId, xs.take n,
      (List.length_take_le n xs).trans_lt (LittleEndian.toNat_lt [len₀, len₁])⟩
    if sync₁ = 0xB5 ∧ sync₂ = 0x62 ∧ n ≤ xs.length ∧
        checksumBytes m.covered <+: xs.drop n then
      some (m, xs.drop (n + 2))
    else none
  | _ => none

@[simp] theorem length_checksumBytes (bs : List UInt8) : (checksumBytes bs).length = 2 := rfl

/-- A number is stored in two bytes in one way. -/
theorem ofNat_eq_iff {n : ℕ} (hn : n < 256 ^ 2) {len₀ len₁ : UInt8} :
    LittleEndian.ofNat 2 n = [len₀, len₁] ↔ LittleEndian.toNat [len₀, len₁] = n := by
  have hread : LittleEndian.toNat (LittleEndian.ofNat 2 n) = n := by
    rw [LittleEndian.toNat_ofNat, Nat.mod_eq_of_lt hn]
  constructor
  · rintro h
    rw [← h, hread]
  · rintro h
    rw [← LittleEndian.toNat_inj (by simp), hread, h]

theorem decode_encode_append (m : UbxMessage) (rest : List UInt8) :
    decode (m.encode ++ rest) = some (m, rest) := by
  obtain ⟨len₀, len₁, hlen⟩ : ∃ len₀ len₁,
    LittleEndian.ofNat 2 m.payload.length = [len₀, len₁] := ⟨_, _, rfl⟩
  have hn := (ofNat_eq_iff m.length_lt).mp hlen
  have hdrop : (m.payload ++ (checksumBytes m.covered ++ rest)).drop (m.payload.length + 2) =
      rest := by
    rw [← List.drop_drop, List.drop_left, List.drop_left' (length_checksumBytes _)]
  have hframe : m.encode ++ rest = 0xB5 :: 0x62 :: m.msgClass :: m.msgId :: len₀ :: len₁ ::
      (m.payload ++ (checksumBytes m.covered ++ rest)) := by
    simp [encode, covered, hlen]
  simp [hframe, decode, hn, hdrop]

theorem eq_encode_of_decode {xs rest : List UInt8} {m : UbxMessage}
    (h : decode xs = some (m, rest)) : xs = m.encode ++ rest := by
  unfold decode at h
  split at h
  next sync₁ sync₂ msgClass msgId len₀ len₁ xs =>
    dsimp only at h
    split at h
    next hframe =>
      obtain ⟨rfl, rfl, hle, hck⟩ := hframe
      obtain ⟨hm, hrest⟩ := Prod.mk.inj (Option.some.inj h)
      rw [hm] at hck
      have hpayload : m.payload = xs.take (LittleEndian.toNat [len₀, len₁]) := by rw [← hm]
      have hlen : LittleEndian.ofNat 2 m.payload.length = [len₀, len₁] := by
        rw [ofNat_eq_iff m.length_lt, hpayload, List.length_take_of_le hle]
      obtain ⟨ys, hys⟩ := hck
      obtain rfl : ys = rest := by
        rw [← hrest, ← List.drop_drop, ← hys, List.drop_left' (length_checksumBytes _)]
      calc 0xB5 :: 0x62 :: msgClass :: msgId :: len₀ :: len₁ :: xs
          = 0xB5 :: 0x62 :: m.msgClass :: m.msgId :: ([len₀, len₁] ++
              (m.payload ++ (checksumBytes m.covered ++ ys))) := by
            rw [hpayload, hys, List.take_append_drop, ← hm]
            rfl
        _ = m.encode ++ ys := by simp [encode, covered, hlen]
    next => cases h
  next => cases h

end UbxMessage

/-- The frames of the protocol. -/
def ubxCode : PrefixCode UbxMessage UInt8 where
  encode := UbxMessage.encode
  decode := UbxMessage.decode
  encode_ne_nil _ := List.cons_ne_nil _ _
  decode_eq_some_iff :=
    ⟨UbxMessage.eq_encode_of_decode, by rintro rfl; exact UbxMessage.decode_encode_append _ _⟩

/-! ### NAV-PVT messages -/

/-- The NAV-PVT message with a payload of 92 bytes. -/
def navPvtMessage (payload : List UInt8) (h : payload.length = 92) : UbxMessage :=
  ⟨0x01, 0x07, payload, by omega⟩

/-- The bytes of a NAV-PVT frame after the header. -/
def navPvtPacket (payload : List UInt8) : List UInt8 :=
  payload ++ UbxMessage.checksumBytes (gpsUbxNavPvtHdr.drop 2 ++ payload)

theorem encode_navPvtMessage {payload : List UInt8} (h : payload.length = 92) :
    (navPvtMessage payload h).encode = gpsUbxNavPvtHdr ++ navPvtPacket payload := by
  have hlen : LittleEndian.ofNat 2 payload.length = [0x5C, 0x00] := by
    rw [h]
    rfl
  simp [UbxMessage.encode, UbxMessage.covered, navPvtMessage, navPvtPacket, gpsUbxNavPvtHdr, hlen]

theorem length_navPvtPacket {payload : List UInt8} (h : payload.length = 92) :
    (navPvtPacket payload).length = navPvtPktNumBytes := by
  rw [navPvtPacket, List.length_append, h]
  rfl

/-- **The intact packets are those of NAV-PVT messages.** -/
theorem intact_iff {p : List UInt8} (hp : p.length = navPvtPktNumBytes) :
    Intact p ↔ ∃ payload, payload.length = 92 ∧ p = navPvtPacket payload := by
  rw [navPvtPktNumBytes] at hp
  constructor
  · intro h
    refine ⟨p.take 92, List.length_take_of_le (by omega), ?_⟩
    rw [Intact] at h
    rw [navPvtPacket, UbxMessage.checksumBytes, ← h, List.take_append_drop]
  · rintro ⟨payload, hlen, rfl⟩
    rw [Intact, navPvtPacket, ← hlen, List.drop_left, List.take_left]
    rfl

/-! ### Damaged packets -/

theorem ubxChecksum_eq_fletcher (bs : List UInt8) : ubxChecksum bs = fletcher bs := rfl

theorem checksumBytes_inj {bs cs : List UInt8} :
    UbxMessage.checksumBytes bs = UbxMessage.checksumBytes cs ↔ fletcher bs = fletcher cs := by
  simp [UbxMessage.checksumBytes, ubxChecksum_eq_fletcher, Prod.ext_iff]

/-- Intact packets with the same checksum. -/
theorem Intact.fletcher_eq {p p' : List UInt8} (h : Intact p) (hck : p'.drop 92 = p.drop 92) :
    Intact p' ↔ fletcher (gpsUbxNavPvtHdr.drop 2 ++ p'.take 92) =
      fletcher (gpsUbxNavPvtHdr.drop 2 ++ p.take 92) := by
  rw [← checksumBytes_inj, ← show p.drop 92 = UbxMessage.checksumBytes _ from h, ← hck, eq_comm]
  rfl

/-- **The checksum notices a change of one byte**, of the payload or of the checksum itself. -/
theorem not_intact_of_change {pre post : List UInt8} {x y : UInt8} (hxy : x ≠ y)
    (h : Intact (pre ++ x :: post)) : ¬ Intact (pre ++ y :: post) := by
  intro h'
  rcases Nat.lt_or_ge pre.length 92 with hlt | hge
  · obtain ⟨k, hk⟩ : ∃ k, 92 - pre.length = k + 1 := ⟨91 - pre.length, by omega⟩
    have htake : ∀ z, (pre ++ z :: post).take 92 = pre ++ z :: post.take k := fun z => by
      rw [List.take_append, List.take_of_length_le hlt.le, hk, List.take_succ_cons]
    have hdrop : ∀ z, (pre ++ z :: post).drop 92 = post.drop k := fun z => by
      rw [List.drop_append, List.drop_eq_nil_of_le hlt.le, hk, List.drop_succ_cons, List.nil_append]
    have hck := (h.fletcher_eq ((hdrop y).trans (hdrop x).symm)).mp h'
    rw [htake, htake, ← List.append_assoc, ← List.append_assoc, fletcher_symbol_inj] at hck
    exact hxy hck.symm
  · have htake : ∀ z, (pre ++ z :: post).take 92 = pre.take 92 := fun z =>
      List.take_append_of_le_length hge
    rw [Intact, htake, List.drop_append_of_le_length hge] at h h'
    have heq := List.append_cancel_left (h.trans h'.symm)
    exact hxy (List.cons.inj heq).1

/-- **The checksum notices an exchange of two bytes of the payload** unless their distance times
their difference is zero. -/
theorem intact_of_exchange_iff {pre mid post : List UInt8} {x y : UInt8}
    (h : Intact (pre ++ x :: (mid ++ y :: post)))
    (hlen : pre.length + mid.length + 2 ≤ 92) :
    Intact (pre ++ y :: (mid ++ x :: post)) ↔ (mid.length + 1) • (x - y) = 0 := by
  obtain ⟨k, hk⟩ : ∃ k, 92 = pre.length + (mid.length + (k + 1) + 1) :=
    ⟨90 - pre.length - mid.length, by omega⟩
  have htake : ∀ z w, (pre ++ z :: (mid ++ w :: post)).take 92 =
      pre ++ z :: (mid ++ w :: post.take k) := fun z w => by
    rw [hk, List.take_length_add_append, List.take_succ_cons, List.take_length_add_append,
      List.take_succ_cons]
  have hdrop : ∀ z w, (pre ++ z :: (mid ++ w :: post)).drop 92 = post.drop k := fun z w => by
    rw [hk, List.drop_length_add_append, List.drop_succ_cons, List.drop_length_add_append,
      List.drop_succ_cons]
  rw [h.fletcher_eq ((hdrop y x).trans (hdrop x y).symm), htake, htake, ← List.append_assoc,
    ← List.append_assoc, eq_comm, fletcher_exchange_iff]

theorem intact_navPvtPacket {payload : List UInt8} (h : payload.length = 92) :
    Intact (navPvtPacket payload) :=
  (intact_iff (length_navPvtPacket h)).mpr ⟨payload, h, rfl⟩

/-- Two bytes at distance two whose difference is 128 can be exchanged. -/
theorem intact_of_exchange_iff_distance_two :
    Intact (0x80 :: ([0] ++ 0x00 :: (List.replicate 89 0 ++
      UbxMessage.checksumBytes (gpsUbxNavPvtHdr.drop 2 ++ 0x00 :: 0 :: 0x80 ::
        List.replicate 89 0)))) := by
  have h : Intact ([] ++ 0x00 :: ([0] ++ 0x80 :: (List.replicate 89 0 ++
      UbxMessage.checksumBytes (gpsUbxNavPvtHdr.drop 2 ++ 0x00 :: 0 :: 0x80 ::
        List.replicate 89 0)))) :=
    @intact_navPvtPacket (0x00 :: 0 :: 0x80 :: List.replicate 89 0) rfl
  exact (intact_of_exchange_iff h (by decide)).mpr (by decide)

/-! ### The stream of the receiver -/

/-- **Every NAV-PVT packet is reported**, damaged or not, if the bytes between the frames do not
contain the first byte of the header. When the last byte of a frame has been processed, `NavPvt`
holds its packet. -/
theorem gpsPoint_frames (buf : List UInt8) {fs : List (List UInt8 × List UInt8)}
    (hfs : ∀ f ∈ fs, 0xB5 ∉ f.1 ∧ f.2.length = navPvtPktNumBytes) {rs : List UartRead}
    {rest : List UInt8}
    (hrs : received rs = (fs.flatMap fun f => f.1 ++ gpsUbxNavPvtHdr ++ f.2) ++ rest) :
    ∃ s, gpsPoint rs (fs.flatMap fun f => f.1 ++ gpsUbxNavPvtHdr ++ f.2).length
        (gpsConfigured buf) = some (s, fs.map fun f => .navUpdated f.2) ∧
      s.gpsState = .idle ∧ s.numValidHdrBytes = 0 ∧
      s.pktBuffer = (fs.map Prod.snd).getLast?.getD zeroPkt := by
  have hframes := ubxFramer.run_frames hfs
  rw [ubxFramer_header] at hframes
  have htake : (received rs).take (fs.flatMap fun f => f.1 ++ gpsUbxNavPvtHdr ++ f.2).length =
      fs.flatMap fun f => f.1 ++ gpsUbxNavPvtHdr ++ f.2 := by
    rw [hrs, List.take_left]
  obtain ⟨s, hpoint, hrep⟩ := gpsPoint_of_run buf (htake ▸ hframes)
  refine ⟨s, ?_, hrep.vars_eq.2.1, ?_, ?_⟩
  · rw [hpoint, List.map_map]
    rfl
  · exact_mod_cast hrep.vars_eq.2.2.1
  · simpa using hrep.pktBuffer_eq

/-- **Damaged packets are reported like the others.** Each packet of `fs` was sent intact after a
gap without the first byte of the header, and at most one byte of it was changed on the way. All
that arrived is reported, while the checksum tells the packets that were changed from the others. -/
theorem gpsPoint_damaged (buf : List UInt8) {fs : List (List UInt8 × List UInt8 × List UInt8)}
    (hgap : ∀ f ∈ fs, 0xB5 ∉ f.1)
    (hsent : ∀ f ∈ fs, f.2.1.length = navPvtPktNumBytes ∧ Intact f.2.1)
    (harrived : ∀ f ∈ fs, ∃ pre x y post, f.2.1 = pre ++ x :: post ∧ f.2.2 = pre ++ y :: post)
    {rs : List UartRead} {rest : List UInt8}
    (hrs : received rs = (fs.flatMap fun f => f.1 ++ gpsUbxNavPvtHdr ++ f.2.2) ++ rest) :
    (∃ s, gpsPoint rs (fs.flatMap fun f => f.1 ++ gpsUbxNavPvtHdr ++ f.2.2).length
        (gpsConfigured buf) = some (s, fs.map fun f => .navUpdated f.2.2) ∧
      s.pktBuffer = (fs.map fun f => f.2.2).getLast?.getD zeroPkt) ∧
    ∀ f ∈ fs, Intact f.2.2 ↔ f.2.2 = f.2.1 := by
  constructor
  · have hfs : ∀ f ∈ fs.map fun f => (f.1, f.2.2), 0xB5 ∉ f.1 ∧ f.2.length = navPvtPktNumBytes := by
      rintro _ hmem
      obtain ⟨f, hf, rfl⟩ := List.mem_map.mp hmem
      obtain ⟨pre, x, y, post, hx, hy⟩ := harrived f hf
      refine ⟨hgap f hf, ?_⟩
      have hlen := (hsent f hf).1
      rw [hx, List.length_append, List.length_cons] at hlen
      rwa [hy, List.length_append, List.length_cons]
    obtain ⟨s, hpoint, -, -, hbuf⟩ := gpsPoint_frames buf hfs (hrs.trans (by rw [List.flatMap_map]))
    rw [List.flatMap_map, List.map_map] at hpoint
    rw [List.map_map] at hbuf
    exact ⟨s, hpoint, hbuf⟩
  · intro f hf
    obtain ⟨pre, x, y, post, hx, hy⟩ := harrived f hf
    have hintact := (hsent f hf).2
    rw [hx] at hintact
    rw [hx, hy]
    constructor
    · intro h
      by_contra hne
      exact not_intact_of_change (fun hxy => hne (by rw [hxy])) hintact h
    · intro h
      rwa [h]

/-- A packet of zeros with its checksum. -/
def zeroPacket : List UInt8 := navPvtPacket (List.replicate 92 0)

/-- Two gaps, packets sent and packets that arrive: the same packet is sent twice, and the first
time it arrives with its first byte changed. -/
def zeroPacketTwice : List (List UInt8 × List UInt8 × List UInt8) :=
  [([0x0A], zeroPacket, zeroPacket.set 0 1), ([], zeroPacket, zeroPacket)]

/-- Both packets are reported, and only the second one is intact. -/
theorem gpsPoint_damaged_first_byte : ∃ s,
    gpsPoint [.bytes ([0x0A] ++ gpsUbxNavPvtHdr ++ zeroPacket.set 0 1) (by decide),
        .bytes (gpsUbxNavPvtHdr ++ zeroPacket) (by decide)] 201 (gpsConfigured []) =
      some (s, [.navUpdated (zeroPacket.set 0 1), .navUpdated zeroPacket]) ∧
    s.pktBuffer = zeroPacket ∧ ¬ Intact (zeroPacket.set 0 1) ∧ Intact zeroPacket := by
  have hmem : ∀ f ∈ zeroPacketTwice, (0xB5 : UInt8) ∉ f.1 ∧
      (f.2.1.length = navPvtPktNumBytes ∧ Intact f.2.1) ∧
        ∃ pre x y post, f.2.1 = pre ++ x :: post ∧ f.2.2 = pre ++ y :: post := by
    intro f hf
    rcases List.mem_pair.mp hf with rfl | rfl
    · exact ⟨by decide, ⟨rfl, intact_navPvtPacket rfl⟩, [], 0x00, 0x01, _, rfl, rfl⟩
    · exact ⟨by decide, ⟨rfl, intact_navPvtPacket rfl⟩, [], 0x00, 0x00, _, rfl, rfl⟩
  have hrs : received [.bytes ([0x0A] ++ gpsUbxNavPvtHdr ++ zeroPacket.set 0 1) (by decide),
      .bytes (gpsUbxNavPvtHdr ++ zeroPacket) (by decide)] =
        (zeroPacketTwice.flatMap fun f => f.1 ++ gpsUbxNavPvtHdr ++ f.2.2) ++ [] := rfl
  obtain ⟨⟨s, hpoint, hbuf⟩, hintact⟩ := gpsPoint_damaged [] (fun f hf => (hmem f hf).1)
    (fun f hf => (hmem f hf).2.1) (fun f hf => (hmem f hf).2.2) hrs
  refine ⟨s, hpoint, hbuf, ?_, intact_navPvtPacket rfl⟩
  rw [hintact ([0x0A], zeroPacket, zeroPacket.set 0 1) (by simp [zeroPacketTwice])]
  decide

end GpsTracker
