import GpsTracker.Gps.StateMachine
import GpsTracker.Memory.StructLayout

/-!
# The overlay of the NAV-PVT message

`NavPvt` is a union of the bytes of a NAV-PVT message and of the structure `NAV_PVT_PKT` of
`main/gps.h`, by which the program reads them. Between the position DOP and the heading of the
vehicle the message has six bytes; the structure has one reserved byte there and, since it is not
packed, one byte of padding. From `headingDeg5` on, every member is therefore read four bytes before
its place in the message, and the overlay gives back the message exactly when the bytes there repeat
themselves after four bytes (`overlayDecodes_iff`). The example stream in `gps.h` is not such a
message (`not_overlayDecodes`).

## Main definitions

* `NavMember`, `navPvtPkt` : the structure `NAV_PVT_PKT`.
* `wireOffset` : the place of a member in the message.
* `OverlayDecodes`.

## Main results

* `overlayDecodes_iff`, `not_overlayDecodes`.
-/

namespace GpsTracker

/-! ### The structure -/

def uint8T : IntType := ⟨1, false, by decide⟩

def uint16T : IntType := ⟨2, false, by decide⟩

def uint32T : IntType := ⟨4, false, by decide⟩

def int16T : IntType := ⟨2, true, by decide⟩

def int32T : IntType := ⟨4, true, by decide⟩

/-- The members of `NAV_PVT_PKT`. -/
inductive NavMember where
  | timeOfWeekmS | utcYear | utcMonth | utcDay | utcHour | utcMinute | utcSecond | validity
  | timeAccuracyNs | nanoSeconds | fixType | flags1 | flags2 | numSV | lonDeg7 | latDeg7
  | heightEllipsoidmm | heightMSLmm | horzAccuracymm | vertAccuracymm | velNorthmmps
  | velEastmmps | velDownmmps | groundSpeedmmps | headingMotionDeg5 | speedAccuracymmps
  | headingAccuracyDeg5 | posDOP | reserved | headingDeg5 | magneticDeclinationDeg2
  | declinationAccuracyDeg2 | ckA | ckB
  deriving DecidableEq, Repr

namespace NavMember

/-- The members in the order of the declaration. -/
def all : List NavMember :=
  [timeOfWeekmS, utcYear, utcMonth, utcDay, utcHour, utcMinute, utcSecond, validity,
    timeAccuracyNs, nanoSeconds, fixType, flags1, flags2, numSV, lonDeg7, latDeg7,
    heightEllipsoidmm, heightMSLmm, horzAccuracymm, vertAccuracymm, velNorthmmps,
    velEastmmps, velDownmmps, groundSpeedmmps, headingMotionDeg5, speedAccuracymmps,
    headingAccuracyDeg5, posDOP, reserved, headingDeg5, magneticDeclinationDeg2,
    declinationAccuracyDeg2, ckA, ckB]

/-- The declared type of a member. -/
def type : NavMember → IntType
  | timeOfWeekmS => uint32T
  | utcYear => uint16T
  | utcMonth | utcDay | utcHour | utcMinute | utcSecond | validity => uint8T
  | timeAccuracyNs => uint32T
  | nanoSeconds => int32T
  | fixType | flags1 | flags2 | numSV => uint8T
  | lonDeg7 | latDeg7 | heightEllipsoidmm | heightMSLmm => int32T
  | horzAccuracymm | vertAccuracymm => uint32T
  | velNorthmmps | velEastmmps | velDownmmps | groundSpeedmmps | headingMotionDeg5 => int32T
  | speedAccuracymmps | headingAccuracyDeg5 => uint32T
  | posDOP => uint16T
  | reserved => uint8T
  | headingDeg5 => int32T
  | magneticDeclinationDeg2 => int16T
  | declinationAccuracyDeg2 => uint16T
  | ckA | ckB => uint8T

end NavMember

/-- `NAV_PVT_PKT`. -/
def navPvtPkt : StructType NavMember where
  members := NavMember.all
  type := NavMember.type
  nodup := by decide
  mem_members i := by cases i <;> decide

/-! ### The message -/

/-- The place of a member in the message of the receiver. The member `reserved` stands for the
first of the six bytes of flags and reserved bytes after the position DOP. -/
def wireOffset : NavMember → ℕ
  | .timeOfWeekmS => 0
  | .utcYear => 4
  | .utcMonth => 6
  | .utcDay => 7
  | .utcHour => 8
  | .utcMinute => 9
  | .utcSecond => 10
  | .validity => 11
  | .timeAccuracyNs => 12
  | .nanoSeconds => 16
  | .fixType => 20
  | .flags1 => 21
  | .flags2 => 22
  | .numSV => 23
  | .lonDeg7 => 24
  | .latDeg7 => 28
  | .heightEllipsoidmm => 32
  | .heightMSLmm => 36
  | .horzAccuracymm => 40
  | .vertAccuracymm => 44
  | .velNorthmmps => 48
  | .velEastmmps => 52
  | .velDownmmps => 56
  | .groundSpeedmmps => 60
  | .headingMotionDeg5 => 64
  | .speedAccuracymmps => 68
  | .headingAccuracyDeg5 => 72
  | .posDOP => 76
  | .reserved => 78
  | .headingDeg5 => 84
  | .magneticDeclinationDeg2 => 88
  | .declinationAccuracyDeg2 => 90
  | .ckA => 92
  | .ckB => 93

/-- The payload of a NAV-PVT message and its two checksum bytes. -/
abbrev NavPvtMessage := { bs : List UInt8 // bs.length = navPvtPktNumBytes }

/-- The value of a field of the message. -/
def NavPvtMessage.field (msg : NavPvtMessage) (i : NavMember) : ℤ :=
  i.type.decode ((msg.val.drop (wireOffset i)).take i.type.size)

/-- The bytes of the union after the message has been stored in `NavPvt.pktBuffer`. -/
def storeMessage (union : ByteMemory) (msg : NavPvtMessage) : ByteMemory := union.store 0 msg.val

/-- Every member but `reserved` reads the field of the message. -/
def OverlayDecodes (union : ByteMemory) (msg : NavPvtMessage) : Prop :=
  ∀ i, i ≠ .reserved → navPvtPkt.read (storeMessage union msg) i = msg.field i

/-! ### Where the members are read -/

/-- The offsets of the members from the heading on. -/
private theorem offset_tail :
    [NavMember.headingDeg5, .magneticDeclinationDeg2, .declinationAccuracyDeg2, .ckA, .ckB].map
      navPvtPkt.offset = [80, 84, 86, 88, 89] := by
  decide +kernel

/-- A member is read at its place in the message, or four bytes before it. -/
private theorem offset_navPvtPkt (i : NavMember) (hi : i ≠ .reserved) :
    navPvtPkt.offset i = wireOffset i ∨
      80 ≤ navPvtPkt.offset i ∧ navPvtPkt.offset i + i.type.size ≤ 90 ∧
        wireOffset i = navPvtPkt.offset i + 4 := by
  revert hi
  cases i <;> decide +kernel

/-- Every byte from 80 to 89 is read by a member that belongs four bytes later. -/
private theorem exists_offset_navPvtPkt {a : ℕ} (h80 : 80 ≤ a) (h90 : a < 90) :
    ∃ i k, i ≠ .reserved ∧ k < i.type.size ∧ navPvtPkt.offset i + k = a ∧
      wireOffset i + k = a + 4 := by
  have htail := offset_tail
  simp only [List.map_cons, List.map_nil, List.cons.injEq, and_true] at htail
  obtain ⟨hheading, hdec, hacc, hckA, hckB⟩ := htail
  rcases (by omega : a < 84 ∨ 84 ≤ a ∧ a < 86 ∨ 86 ≤ a ∧ a < 88 ∨ a = 88 ∨ a = 89) with
    h | ⟨h, h'⟩ | ⟨h, h'⟩ | rfl | rfl
  · exact ⟨.headingDeg5, a - 80, by decide, show a - 80 < 4 by omega, by omega,
      show 84 + (a - 80) = a + 4 by omega⟩
  · exact ⟨.magneticDeclinationDeg2, a - 84, by decide, show a - 84 < 2 by omega, by omega,
      show 88 + (a - 84) = a + 4 by omega⟩
  · exact ⟨.declinationAccuracyDeg2, a - 86, by decide, show a - 86 < 2 by omega, by omega,
      show 90 + (a - 86) = a + 4 by omega⟩
  · exact ⟨.ckA, 0, by decide, by decide, by rw [hckA], rfl⟩
  · exact ⟨.ckB, 0, by decide, by decide, by rw [hckB], rfl⟩

private theorem wireOffset_add_size_le (i : NavMember) :
    wireOffset i + i.type.size ≤ navPvtPktNumBytes := by
  cases i <;> decide

theorem storeMessage_apply (union : ByteMemory) (msg : NavPvtMessage) {a : ℕ}
    (ha : a < navPvtPktNumBytes) : msg.val[a]? = some (storeMessage union msg a) := by
  have hlen : a < msg.val.length := by rw [msg.property]; exact ha
  have hstore := union.store_of_mem (o := 0) hlen
  rw [Nat.zero_add] at hstore
  rw [storeMessage, hstore, List.getElem?_eq_getElem hlen]

/-- The bytes of a field are in the union at the place of the field in the message. -/
private theorem load_wireOffset (union : ByteMemory) (msg : NavPvtMessage) (i : NavMember) :
    (msg.val.drop (wireOffset i)).take i.type.size =
      (storeMessage union msg).load (wireOffset i) i.type.size := by
  have hle := wireOffset_add_size_le i
  refine List.ext_getElem? fun k => ?_
  by_cases hk : k < i.type.size
  · rw [List.getElem?_take_of_lt hk, List.getElem?_drop, storeMessage_apply union msg (by omega)]
    simp [ByteMemory.load, hk]
  · rw [List.getElem?_eq_none (by simp; omega), List.getElem?_eq_none (by simp; omega)]

/-- A member reads the field of the message exactly when its bytes are those of the field. -/
private theorem read_eq_field_iff (union : ByteMemory) (msg : NavPvtMessage) (i : NavMember) :
    navPvtPkt.read (storeMessage union msg) i = msg.field i ↔
      ∀ k < i.type.size, storeMessage union msg (navPvtPkt.offset i + k) =
        storeMessage union msg (wireOffset i + k) := by
  have hload := load_wireOffset union msg i
  rw [← ByteMemory.load_eq_load_iff, ← i.type.decode_inj (by simp) (by simp), ← hload]
  rfl

/-- **The overlay gives back the message exactly when the bytes 80 to 89 of the message are repeated
four bytes later.** -/
theorem overlayDecodes_iff (union : ByteMemory) (msg : NavPvtMessage) :
    OverlayDecodes union msg ↔ ∀ a, 80 ≤ a → a < 90 → msg.val[a]? = msg.val[a + 4]? := by
  have hnum : navPvtPktNumBytes = 94 := rfl
  constructor
  · intro h a h80 h90
    obtain ⟨i, k, hi, hk, hoff, hwire⟩ := exists_offset_navPvtPkt h80 h90
    have heq := (read_eq_field_iff union msg i).mp (h i hi) k hk
    rw [hoff, hwire] at heq
    rw [storeMessage_apply union msg (by omega), storeMessage_apply union msg (by omega), heq]
  · intro h i hi
    refine (read_eq_field_iff union msg i).mpr fun k hk => ?_
    rcases offset_navPvtPkt i hi with hoff | ⟨h80, h90, hwire⟩
    · rw [hoff]
    · have heq := h (navPvtPkt.offset i + k) (by omega) (by omega)
      rw [storeMessage_apply union msg (by omega), storeMessage_apply union msg (by omega)] at heq
      rw [hwire, Nat.add_right_comm]
      exact Option.some_inj.mp heq

/-! ### The example stream -/

/-- The message of the example stream in `gps.h`. -/
def exampleMessage : NavPvtMessage :=
  ⟨[0x7C, 0xFB, 0x9E, 0x1B, 0xE1, 0x07, 0x0B, 0x03, 0x08, 0x2B, 0x05, 0x37, 0x0B, 0x00, 0x00, 0x00,
    0x76, 0x1F, 0x0A, 0xFA, 0x03, 0x01, 0x00, 0x0D, 0x95, 0x25, 0x4A, 0x2E, 0xF7, 0x37, 0xBE, 0x07,
    0x36, 0x99, 0x0C, 0x00, 0x36, 0x99, 0x0C, 0x00, 0x8D, 0x09, 0x00, 0x00, 0xCD, 0x0D, 0x00, 0x00,
    0x64, 0x00, 0x00, 0x00, 0xFE, 0xFF, 0xFF, 0xFF, 0x00, 0x00, 0x00, 0x00, 0x64, 0x00, 0x00, 0x00,
    0x00, 0x00, 0x00, 0x00, 0x8B, 0x00, 0x00, 0x00, 0xB0, 0xCC, 0x00, 0x00, 0xA4, 0x00, 0x00, 0x00,
    0x00, 0x00, 0x00, 0x00, 0x00, 0x00, 0x00, 0x00, 0x00, 0x00, 0x00, 0x00, 0x67, 0x03], rfl⟩

/-- The overlay does not give back the example stream: `ckA` is read from a reserved byte. -/
theorem not_overlayDecodes : ¬ ∀ union msg, OverlayDecodes union msg := by
  intro h
  have hbytes := (overlayDecodes_iff (fun _ => 0) exampleMessage).mp (h _ _) 88 (by decide)
    (by decide)
  exact absurd hbytes (by decide)

end GpsTracker
