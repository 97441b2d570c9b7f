import GpsTracker.App.Packet

/-!
# The clients

The two applications that decode the values of the characteristics.

The handler of the Flutter application assembles the four bytes of a coordinate with shifts of
64-bit integers and never extends the sign, so that it decodes the coordinates of a packet exactly
when neither is negative (`decodesCoordinates_iff`, `not_decodesCoordinates`).

The handlers of the Ionic application view the bytes as an `Int32Array`. The constructor throws a
`RangeError` when the number of bytes is not a multiple of four, so that the values of one byte are
never decoded, while the others always are (`ionicDecodes_iff`, `not_forall_ionicDecodes`).

## Main definitions

* `onValueChanged`, `DecodesCoordinates`.
* `int32Array`, `onConnected`, `IonicDecodes`.

## Main results

* `decodesCoordinates_iff`, `not_decodesCoordinates`.
* `ionicDecodes_iff`, `not_forall_ionicDecodes`, `not_ionicDecodes_southWest`.
-/

namespace GpsTracker

/-! ### The Flutter application -/

/-- The integer assembled from the bytes of a coordinate. An index outside the data throws. -/
def assemble (data : List UInt8) : Option (BitVec 64) := do
  let byte := fun b : UInt8 => BitVec.ofNat 64 b.toNat
  return (byte (← data[3]?) <<< 24) + (byte (← data[2]?) <<< 16) + (byte (← data[1]?) <<< 8) +
    (byte (← data[0]?) <<< 0)

/-- The coordinates of the application, before their division by 10000000. -/
structure MapPosition where
  lat : ℤ
  lon : ℤ

/-- The handler that `_setNotification` registers. -/
def onValueChanged (uuid : String) (d : List UInt8) (s : MapPosition) : Option MapPosition := do
  let s ← if uuid = "6e400004-b5a3-f393-e0a9-e50e24dcca9e" then
      (assemble d).map fun x => { s with lat := x.toInt }
    else some s
  if uuid = "6e400005-b5a3-f393-e0a9-e50e24dcca9e" then
    (assemble d).map fun x => { s with lon := x.toInt }
  else some s

/-- The application decodes the coordinates that the sender has stored in its packet. -/
def DecodesCoordinates (sender receiver : ByteMemory) (v : packetT.Value) (s : MapPosition) :
    Prop :=
  let packet := receivedPacket sender receiver v
  (onValueChanged Characteristic.lat.uuid (Characteristic.lat.value packet) s).map MapPosition.lat =
      some (v.val .lat) ∧
    (onValueChanged Characteristic.lon.uuid (Characteristic.lon.value packet) s).map
      MapPosition.lon = some (v.val .lon)

/-- Four bytes are assembled without their sign. -/
theorem assemble_eq {bs : List UInt8} (h : bs.length = 4) :
    (assemble bs).map BitVec.toInt = some (LittleEndian.toNat bs : ℤ) := by
  match bs, h with
  | [b₀, b₁, b₂, b₃], _ =>
    have h₀ := b₀.toNat_lt
    have h₁ := b₁.toNat_lt
    have h₂ := b₂.toNat_lt
    have h₃ := b₃.toNat_lt
    have hnat : ((BitVec.ofNat 64 b₃.toNat <<< 24) + (BitVec.ofNat 64 b₂.toNat <<< 16) +
        (BitVec.ofNat 64 b₁.toNat <<< 8) + (BitVec.ofNat 64 b₀.toNat <<< 0)).toNat =
          LittleEndian.toNat [b₀, b₁, b₂, b₃] := by
      simp only [BitVec.toNat_add, BitVec.toNat_shiftLeft, BitVec.toNat_ofNat, Nat.shiftLeft_eq,
        LittleEndian.toNat_cons, LittleEndian.toNat_nil]
      omega
    have hlt : LittleEndian.toNat [b₀, b₁, b₂, b₃] < 256 ^ 4 := LittleEndian.toNat_lt _
    rw [← hnat]
    refine congrArg some (BitVec.toInt_eq_toNat_of_lt ?_)
    exact lt_of_eq_of_lt (congrArg (2 * ·) hnat) (by omega)

/-- The decoding of a coordinate is its residue. -/
theorem assemble_encode (v : ℤ) :
    (assemble (int32T.encode v)).map BitVec.toInt = some (v % 2 ^ 32) := by
  rw [assemble_eq (int32T.length_encode v), IntType.toNat_encode]
  rfl

/-- The decoding of a coordinate is right exactly when it is not negative. -/
theorem emod_eq_self_iff {v : ℤ} (h : int32T.InRange v) : v % 2 ^ 32 = v ↔ 0 ≤ v := by
  have hrange : -(2 ^ 32) ≤ v * 2 ∧ v * 2 < 2 ^ 32 := h
  omega

theorem onValueChanged_lat (d : List UInt8) (s : MapPosition) :
    (onValueChanged Characteristic.lat.uuid d s).map MapPosition.lat =
      (assemble d).map BitVec.toInt := by
  simp only [onValueChanged, Characteristic.uuid]
  cases assemble d <;> rfl

theorem onValueChanged_lon (d : List UInt8) (s : MapPosition) :
    (onValueChanged Characteristic.lon.uuid d s).map MapPosition.lon =
      (assemble d).map BitVec.toInt := by
  simp only [onValueChanged, Characteristic.uuid]
  cases assemble d <;> rfl

/-- **The coordinates are decoded exactly when neither is negative.** -/
theorem decodesCoordinates_iff (sender receiver : ByteMemory) (v : packetT.Value)
    (s : MapPosition) :
    DecodesCoordinates sender receiver v s ↔ 0 ≤ v.val .lat ∧ 0 ≤ v.val .lon := by
  have hlat := assemble_encode (v.val .lat)
  have hlon := assemble_encode (v.val .lon)
  rw [DecodesCoordinates, onValueChanged_lat, onValueChanged_lon,
    Characteristic.value_receivedPacket, Characteristic.value_receivedPacket]
  change (assemble (int32T.encode (v.val .lat))).map BitVec.toInt = some (v.val .lat) ∧
    (assemble (int32T.encode (v.val .lon))).map BitVec.toInt = some (v.val .lon) ↔ _
  rw [hlat, hlon, Option.some_inj, Option.some_inj, emod_eq_self_iff (v.inRange .lat),
    emod_eq_self_iff (v.inRange .lon)]

/-- A packet with the coordinates of a place in the south-west. -/
def southWest : packetT.Value where
  val
    | .fixType => 3
    | .numSats => 8
    | .lon => -435000000
    | .lat => -229000000
    | _ => 0
  inRange i := by cases i <;> decide

/-- **A place in the south-west is decoded as a place in the north-east.** -/
theorem not_decodesCoordinates :
    ¬ DecodesCoordinates (fun _ => 0) (fun _ => 0) southWest ⟨0, 0⟩ := by
  rintro ⟨hlat, -⟩
  rw [onValueChanged_lat, Characteristic.value_receivedPacket] at hlat
  have hdecoded := (assemble_encode (southWest.val .lat)).symm.trans hlat
  exact absurd hdecoded (by decide)

/-! ### The Ionic application -/

/-- The error that the constructor of `Int32Array` throws. -/
inductive JsError where
  | rangeError
  deriving DecidableEq, Repr

/-- `new Int32Array(buffer)`, on a little-endian host. -/
def int32Array (buffer : List UInt8) : Except JsError (List ℤ) :=
  if buffer.length % 4 ≠ 0 then .error .rangeError
  else .ok ((List.range (buffer.length / 4)).map fun i =>
    int32T.decode ((buffer.drop (4 * i)).take 4))

/-- The value that a handler assigns, before the division of a coordinate by 10000000. It is
`undefined` if the array has no elements. -/
def firstInt32 (buffer : List UInt8) : Except JsError (Option ℤ) := do
  let data ← int32Array buffer
  return data[0]?

/-- The handlers that `HomePage.onConnected` registers for the notifications. -/
def onConnected : Characteristic → List UInt8 → Except JsError (Option ℤ)
  | .fix, buffer => firstInt32 buffer
  | .numSat, buffer => firstInt32 buffer
  | .lat, buffer => firstInt32 buffer
  | .lon, buffer => firstInt32 buffer
  | .speed, buffer => firstInt32 buffer
  | .height, buffer => firstInt32 buffer

/-- The application decodes the value of a characteristic that is set from the packet. -/
def IonicDecodes (sender receiver : ByteMemory) (v : packetT.Value) (c : Characteristic) : Prop :=
  onConnected c (c.value (receivedPacket sender receiver v)) = .ok (some (v.val c.member))

/-- A buffer of four bytes has one element. -/
theorem firstInt32_of_length_eq {bs : List UInt8} (h : bs.length = 4) :
    firstInt32 bs = .ok (some (int32T.decode bs)) := by
  have htake : bs.take 4 = bs := List.take_of_length_le h.le
  simp [firstInt32, int32Array, h, htake, bind, Except.bind, pure, Except.pure]

/-- A buffer of one byte is refused. -/
theorem firstInt32_of_length_eq_one {bs : List UInt8} (h : bs.length = 1) :
    firstInt32 bs = .error .rangeError := by
  simp [firstInt32, int32Array, h, bind, Except.bind]

theorem onConnected_eq (c : Characteristic) : onConnected c = firstInt32 := by
  cases c <;> rfl

/-- The handlers of the values of one byte throw. -/
theorem onConnected_of_numBytes_eq_one (packet : ByteMemory) {c : Characteristic}
    (h : c.numBytes = 1) : onConnected c (c.value packet) = .error .rangeError := by
  rw [onConnected_eq]
  exact firstInt32_of_length_eq_one (by rw [Characteristic.value, ByteMemory.length_load, h])

/-- **The values of four bytes are decoded, and those of one byte are not.** -/
theorem ionicDecodes_iff (sender receiver : ByteMemory) (v : packetT.Value) (c : Characteristic) :
    IonicDecodes sender receiver v c ↔ c ≠ .fix ∧ c ≠ .numSat := by
  by_cases hc : c.numBytes = 1
  · rw [IonicDecodes, onConnected_of_numBytes_eq_one _ hc]
    cases c <;> simp [Characteristic.numBytes] at hc ⊢
  · have htype : packetT.type c.member = int32T := by
      cases c <;> first | exact absurd rfl hc | rfl
    have hrange := v.inRange c.member
    have hlen := (packetT.type c.member).length_encode (v.val c.member)
    rw [IonicDecodes, onConnected_eq, Characteristic.value_receivedPacket]
    rw [htype] at hrange hlen ⊢
    rw [firstInt32_of_length_eq hlen, int32T.decode_encode hrange]
    cases c <;> simp [Characteristic.numBytes] at hc ⊢

/-- **No packet is decoded by all six handlers.** -/
theorem not_forall_ionicDecodes (sender receiver : ByteMemory) (v : packetT.Value) :
    ¬ ∀ c, IonicDecodes sender receiver v c := fun h =>
  ((ionicDecodes_iff sender receiver v .fix).mp (h .fix)).1 rfl

/-- The fix type of a packet is refused. -/
theorem not_ionicDecodes_southWest :
    ¬ ∀ c, IonicDecodes (fun _ => 0) (fun _ => 0) southWest c := by
  intro h
  have hfix := h .fix
  rw [IonicDecodes, onConnected_of_numBytes_eq_one _ rfl] at hfix
  cases hfix

end GpsTracker
