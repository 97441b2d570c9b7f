import GpsTracker.Gps.NavPvt

/-!
# The packet of the tracker

The structure `packet_t` of `main.cpp`, whose bytes the sender puts on the air and the receiver
stores in its own copy, and the values of the six characteristics, which are bytes of that copy.

## Main definitions

* `packetT`, `receivedPacket`.
* `Characteristic`, `Characteristic.value`.

## Main results

* `Characteristic.value_receivedPacket`.
-/

namespace GpsTracker

/-! ### The structure -/

/-- The members of `packet_t`. -/
inductive PacketMember where
  | fixType | numSats | lon | lat | groundSpeed | height
  deriving DecidableEq, Repr

namespace PacketMember

/-- The declared type of a member. -/
def type : PacketMember → IntType
  | fixType | numSats => uint8T
  | lon | lat | groundSpeed | height => int32T

end PacketMember

/-- `packet_t`. -/
def packetT : StructType PacketMember where
  members := [.fixType, .numSats, .lon, .lat, .groundSpeed, .height]
  type := PacketMember.type
  nodup := by decide
  mem_members i := by cases i <;> decide

theorem sizeof_packetT : packetT.sizeof = 20 := by decide

/-- The copy of the receiver after the bytes of a packet of the sender have been stored in it. The
memory `sender` has the bytes between the members of the sender's packet. -/
def receivedPacket (sender receiver : ByteMemory) (v : packetT.Value) : ByteMemory :=
  receiver.store 0 ((packetT.write sender v).load 0 packetT.sizeof)

/-! ### The characteristics -/

/-- The characteristics of the receiver. -/
inductive Characteristic where
  | fix | numSat | lat | lon | speed | height
  deriving DecidableEq, Repr

namespace Characteristic

/-- The UUID of a characteristic, as the clients write it. -/
def uuid : Characteristic → String
  | fix => "6e400002-b5a3-f393-e0a9-e50e24dcca9e"
  | numSat => "6e400003-b5a3-f393-e0a9-e50e24dcca9e"
  | lat => "6e400004-b5a3-f393-e0a9-e50e24dcca9e"
  | lon => "6e400005-b5a3-f393-e0a9-e50e24dcca9e"
  | speed => "6e400006-b5a3-f393-e0a9-e50e24dcca9e"
  | height => "6e400007-b5a3-f393-e0a9-e50e24dcca9e"

/-- The member of the packet whose address is passed to `setValue`. -/
def member : Characteristic → PacketMember
  | fix => .fixType
  | numSat => .numSats
  | lat => .lat
  | lon => .lon
  | speed => .groundSpeed
  | height => .height

/-- The number of bytes passed to `setValue`. -/
def numBytes : Characteristic → ℕ
  | fix | numSat => 1
  | lat | lon | speed | height => 4

/-- The value of a characteristic that is set from a packet. -/
def value (packet : ByteMemory) (c : Characteristic) : List UInt8 :=
  packet.load (packetT.offset c.member) c.numBytes

/-- The bytes of a characteristic are those of a whole member. -/
theorem numBytes_eq (c : Characteristic) : c.numBytes = (packetT.type c.member).size := by
  cases c <;> rfl

theorem value_eq_bytes (packet : ByteMemory) (c : Characteristic) :
    c.value packet = packetT.bytes packet c.member := by
  rw [value, numBytes_eq, StructType.bytes]

/-- **The value of a characteristic is the encoding of the member that the sender has stored.** -/
theorem value_receivedPacket (sender receiver : ByteMemory) (v : packetT.Value)
    (c : Characteristic) : c.value (receivedPacket sender receiver v) =
      (packetT.type c.member).encode (v.val c.member) := by
  rw [value_eq_bytes, receivedPacket, packetT.bytes_store_load, packetT.bytes_write]

end Characteristic

end GpsTracker
