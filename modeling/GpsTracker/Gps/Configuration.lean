import GpsTracker.Gps.Detection
import GpsTracker.Gps.UbxFrame

/-!
# Configuration of the receiver

The function `gps_config` of `main/gps.c` installs the UART driver, finds out at which rate and in
which protocol the receiver talks, switches it from 9600 to 115200 baud if necessary, and sends the
messages that make it report NAV-PVT packets only.

The receiver is not part of the repository. `UbxReceiver` lists what its interface description says
of the messages that are sent. If a protocol is detected only at the rate at which the receiver
talks, then after `gps_config` both sides of the link use 115200 baud and the receiver has handled
every message once and in the order of the source (`gpsConfig_configures`). Otherwise nothing has
been written (`gpsConfig_fails_iff`).

## Main definitions

* `gpsConfig`, `UartEffect`, `GpsConfigInputs`.
* `UbxReceiver`, `UartLink`, `GpsConfigInputs.Truthful`.

## Main results

* `gpsConfig_configures`.
* `gpsConfig_fails_iff`.
-/

namespace GpsTracker

/-! ### Messages of the configuration -/

/-- The message by which the port of the UART gets a baud rate. -/
def cfgPrtMessage (baudrate : ℕ) : UbxMessage where
  msgClass := 0x06
  msgId := 0x00
  payload := [0x01, 0x00, 0x00, 0x00, 0xD0, 0x08, 0x00, 0x00] ++ LittleEndian.ofNat 4 baudrate ++
    [0x07, 0x00, 0x03, 0x00, 0x00, 0x00, 0x00, 0x00]
  length_lt := by simp

/-- The message that asks for a report at every `rate`-th solution on the port of the UART. The rate
zero switches the report off. -/
def cfgMsgMessage (msgClass msgId rate : UInt8) : UbxMessage where
  msgClass := 0x06
  msgId := 0x01
  payload := [msgClass, msgId, 0x00, rate, 0x00, 0x00, 0x00, 0x00]
  length_lt := by simp

def cfgGNSSMessage : UbxMessage where
  msgClass := 0x06
  msgId := 0x3E
  payload := [0x00, 0x00, 0x20, 0x07, 0x00, 0x08, 0x20, 0x00, 0x01, 0x00, 0x01, 0x01, 0x01, 0x01,
    0x03, 0x00, 0x00, 0x00, 0x01, 0x01, 0x02, 0x04, 0x08, 0x00, 0x00, 0x00, 0x01, 0x01, 0x03, 0x08,
    0x10, 0x00, 0x00, 0x00, 0x01, 0x01, 0x04, 0x00, 0x08, 0x00, 0x00, 0x00, 0x01, 0x01, 0x05, 0x00,
    0x03, 0x00, 0x00, 0x00, 0x01, 0x01, 0x06, 0x08, 0x0E, 0x00, 0x00, 0x00, 0x01, 0x01]
  length_lt := by simp

def cfgNAV5Message : UbxMessage where
  msgClass := 0x06
  msgId := 0x24
  payload := [0xFF, 0xFF, 0x08, 0x02, 0x00, 0x00, 0x00, 0x00, 0x10, 0x27, 0x00, 0x00, 0x05, 0x00,
    0xFA, 0x00, 0xFA, 0x00, 0x64, 0x00, 0x2C, 0x01, 0x00, 0x00, 0x00, 0x00, 0x10, 0x27, 0x00, 0x00,
    0x03, 0x00, 0x00, 0x00, 0x00, 0x00]
  length_lt := by simp

def cfgRATEMessage : UbxMessage where
  msgClass := 0x06
  msgId := 0x08
  payload := [0x64, 0x00, 0x01, 0x00, 0x01, 0x00]
  length_lt := by simp

def cfgCFGMessage : UbxMessage where
  msgClass := 0x06
  msgId := 0x09
  payload := [0x00, 0x00, 0x00, 0x00, 0xFF, 0xFF, 0x00, 0x00, 0x00, 0x00, 0x00, 0x00, 0x01]
  length_lt := by simp

/-! ### Tables -/

def cfgGNSS : List UInt8 :=
  [0xB5, 0x62, 0x06, 0x3E, 0x3C, 0x00, 0x00, 0x00, 0x20, 0x07, 0x00, 0x08, 0x20, 0x00, 0x01,
    0x00, 0x01, 0x01, 0x01, 0x01, 0x03, 0x00, 0x00, 0x00, 0x01, 0x01, 0x02, 0x04, 0x08, 0x00,
    0x00, 0x00, 0x01, 0x01, 0x03, 0x08, 0x10, 0x00, 0x00, 0x00, 0x01, 0x01, 0x04, 0x00, 0x08,
    0x00, 0x00, 0x00, 0x01, 0x01, 0x05, 0x00, 0x03, 0x00, 0x00, 0x00, 0x01, 0x01, 0x06, 0x08,
    0x0E, 0x00, 0x00, 0x00, 0x01, 0x01, 0x3C, 0xAD]

def cfgNAV5 : List UInt8 :=
  [0xB5, 0x62, 0x06, 0x24, 0x24, 0x00, 0xFF, 0xFF, 0x08, 0x02,
    0x00, 0x00, 0x00, 0x00, 0x10, 0x27, 0x00, 0x00, 0x05, 0x00,
    0xFA, 0x00, 0xFA, 0x00, 0x64, 0x00, 0x2C, 0x01, 0x00, 0x00,
    0x00, 0x00, 0x10, 0x27, 0x00, 0x00, 0x03, 0x00, 0x00, 0x00,
    0x00, 0x00, 0x51, 0x10]

def cfgPRT : List UInt8 :=
  [0xB5, 0x62, 0x06, 0x00, 0x14, 0x00, 0x01, 0x00, 0x00, 0x00, 0xD0, 0x08, 0x00, 0x00, 0x00,
    0xC2, 0x01, 0x00, 0x07, 0x00, 0x03, 0x00, 0x00, 0x00, 0x00, 0x00, 0xC0, 0x7E]

def cfgRATE : List UInt8 :=
  [0xB5, 0x62, 0x06, 0x08, 0x06, 0x00, 0x64, 0x00, 0x01, 0x00, 0x01, 0x00, 0x7A, 0x12]

def cfgCFG : List UInt8 :=
  [0xB5, 0x62, 0x06, 0x09, 0x0D, 0x00, 0x00, 0x00, 0x00, 0x00, 0xFF, 0xFF, 0x00, 0x00, 0x00,
    0x00, 0x00, 0x00, 0x01, 0x1B, 0xA9]

def cfgDisableGGA : List UInt8 :=
  [0xB5, 0x62, 0x06, 0x01, 0x08, 0x00, 0xF0, 0x00, 0x00, 0x00, 0x00, 0x00, 0x00, 0x00, 0xFF, 0x23]

def cfgDisableGLL : List UInt8 :=
  [0xB5, 0x62, 0x06, 0x01, 0x08, 0x00, 0xF0, 0x01, 0x00, 0x00, 0x00, 0x00, 0x00, 0x00, 0x00, 0x2A]

def cfgDisableGSV : List UInt8 :=
  [0xB5, 0x62, 0x06, 0x01, 0x08, 0x00, 0xF0, 0x03, 0x00, 0x00, 0x00, 0x00, 0x00, 0x00, 0x02, 0x38]

def cfgDisableRMC : List UInt8 :=
  [0xB5, 0x62, 0x06, 0x01, 0x08, 0x00, 0xF0, 0x04, 0x00, 0x00, 0x00, 0x00, 0x00, 0x00, 0x03, 0x3F]

def cfgDisableVTG : List UInt8 :=
  [0xB5, 0x62, 0x06, 0x01, 0x08, 0x00, 0xF0, 0x05, 0x00, 0x00, 0x00, 0x00, 0x00, 0x00, 0x04, 0x46]

def cfgDisableGSA : List UInt8 :=
  [0xB5, 0x62, 0x06, 0x01, 0x08, 0x00, 0xF0, 0x02, 0x00, 0x00, 0x00, 0x00, 0x00, 0x00, 0x01, 0x31]

def cfgEnableNAVPVT : List UInt8 :=
  [0xB5, 0x62, 0x06, 0x01, 0x08, 0x00, 0x01, 0x07, 0x00, 0x01, 0x00, 0x00, 0x00, 0x00, 0x18, 0xE1]

/-- The tables that `ubx_config115200` writes. -/
def configTables : List (List UInt8) :=
  [cfgDisableGGA, cfgDisableGLL, cfgDisableGSV, cfgDisableRMC, cfgDisableVTG, cfgDisableGSA,
    cfgEnableNAVPVT, cfgGNSS, cfgNAV5, cfgRATE, cfgCFG]

/-- The identifiers of the NMEA sentences that are switched off, in the order of the tables. -/
def nmeaSentences : List UInt8 := [0x00, 0x01, 0x03, 0x04, 0x05, 0x02]

/-- The messages that `ubx_config115200` sends. -/
def configMessages : List UbxMessage :=
  nmeaSentences.map (cfgMsgMessage 0xF0 · 0) ++
    [cfgMsgMessage 0x01 0x07 1, cfgGNSSMessage, cfgNAV5Message, cfgRATEMessage, cfgCFGMessage]

theorem cfgPRT_eq : cfgPRT = ubxCode.encode (cfgPrtMessage 115200) := by
  decide +kernel

/-- **Each table is the frame of its message**, with the length and the checksum that belong to
it. -/
theorem configTables_eq : configTables = configMessages.map ubxCode.encode := by
  decide +kernel

/-! ### The configuration -/

/-- What `gps_config` does: calls of the UART driver and the operating system, and lines of the
log. -/
inductive UartEffect where
  | paramConfig (baudrate : ℕ)
  | setPin (tx rx rts cts : ℤ)
  | driverInstall (rxBufferSize : ℕ)
  | setBaudrate (baudrate : ℕ)
  | writeBytes (bs : List UInt8)
  | waitTxDone (ms : ℕ)
  | delayMs (ms : ℕ)
  | logInfo (text : String)
  | logError (text : String)
  deriving DecidableEq, Repr

/-- What a call of `ubx_detectNMEA` or `ubx_detectUBX` finds: the counter at the beginning of its
windows, the reads and the samples of the counter. -/
structure Probe where
  marker₁ : UInt32
  marker₂ : UInt32
  input : List (ByteRead × UInt32)

/-- The result of `ubx_detectNMEA`, if its windows have ended. -/
def Probe.nmea (p : Probe) : Option Bool :=
  (ubxDetectNMEA p.marker₁ p.marker₂ p.input).map Prod.fst

/-- The result of `ubx_detectUBX`, if its window has ended. -/
def Probe.ubx (p : Probe) : Option Bool :=
  (ubxDetectUBX p.marker₁ p.input).map Prod.fst

/-- What the driver and the receiver answer to `gps_config`: the error codes of the three functions
that set up the UART, and what its tests of the protocol find. -/
structure GpsConfigInputs where
  paramConfig : ℤ
  setPin : ℤ
  driverInstall : ℤ
  nmea9600 : Probe
  ubx9600 : Probe
  ubx115200 : Probe
  nmea115200 : Probe
  switched : Probe

/-- The protocol detected, and its baud rate: which of the flags of `gps_config` is set. -/
inductive Detected where
  | nmea9600
  | ubx9600
  | ubx115200
  | nmea115200
  deriving DecidableEq, Repr

namespace Detected

def baudrate : Detected → ℕ
  | nmea9600 => 9600
  | ubx9600 => 9600
  | ubx115200 => 115200
  | nmea115200 => 115200

/-- The test of `gps_config` for this protocol. -/
def test (i : GpsConfigInputs) : Detected → Option Bool
  | nmea9600 => i.nmea9600.nmea
  | ubx9600 => i.ubx9600.ubx
  | ubx115200 => i.ubx115200.ubx
  | nmea115200 => i.nmea115200.nmea

end Detected

/-- A test of a protocol: the lines of the log and the baud rate that it sets. -/
def testEffects (protocol : String) (baudrate : ℕ) (found : Bool) : List UartEffect :=
  [.logInfo ("Testing " ++ protocol ++ " " ++ toString baudrate), .setBaudrate baudrate] ++
    if found then
      [.logInfo ("Found " ++ protocol ++ " packet at " ++ toString baudrate ++ " baud")]
    else []

/-- The nested tests of `gps_config`. -/
def gpsConfigDetect (i : GpsConfigInputs) : Option (Option Detected × List UartEffect) := do
  let nmea9600 ← i.nmea9600.nmea
  let es := testEffects "NMEA" 9600 nmea9600
  if nmea9600 then return (some .nmea9600, es)
  let ubx9600 ← i.ubx9600.ubx
  let es := es ++ testEffects "UBX" 9600 ubx9600
  if ubx9600 then return (some .ubx9600, es)
  let ubx115200 ← i.ubx115200.ubx
  let es := es ++ testEffects "UBX" 115200 ubx115200
  if ubx115200 then return (some .ubx115200, es)
  let nmea115200 ← i.nmea115200.nmea
  let es := es ++ testEffects "NMEA" 115200 nmea115200
  if nmea115200 then return (some .nmea115200, es)
  return (none, es ++ [.logError "Could not detect protocol"])

def ubxConfig9600 : List UartEffect :=
  [.setBaudrate 9600, .delayMs 10, .writeBytes cfgPRT, .waitTxDone 100, .setBaudrate 115200,
    .delayMs 10]

def ubxConfig115200 : List UartEffect :=
  [.setBaudrate 115200, .delayMs 10] ++
    configTables.flatMap fun table => [.writeBytes table, .waitTxDone 50]

/-- What is done before the configuration at 115200 baud when the receiver talks at 9600 baud. -/
def gpsConfigSwitch (i : GpsConfigInputs) : Detected → Option (List UartEffect)
  | .nmea9600 | .ubx9600 => do
    let found ← i.switched.nmea
    return [.logInfo "configure ubx port 9600->115200"] ++ ubxConfig9600 ++ [.delayMs 1000] ++
      testEffects "NMEA" 115200 found
  | .ubx115200 | .nmea115200 => some []

/-- `gps_config`: the value returned, the variables of the state machine and the effects. There is
no result if a test has not ended. -/
def gpsConfig (i : GpsConfigInputs) (s : GpsVars) : Option (ℤ × GpsVars × List UartEffect) :=
  if i.paramConfig ≠ 0 then
    some (-1, s, [.paramConfig 115200, .logError "error configuring uart params"])
  else if i.setPin ≠ 0 then
    some (-2, s, [.paramConfig 115200, .setPin 26 25 (-1) (-1),
      .logError "error configuring uart pins"])
  else if i.driverInstall ≠ 0 then
    some (-3, s, [.paramConfig 115200, .setPin 26 25 (-1) (-1),
      .driverInstall (uartRxBufferSize * 2), .logError "error installing uart driver"])
  else do
    let (detected, es) ← gpsConfigDetect i
    let es := [.paramConfig 115200, .setPin 26 25 (-1) (-1),
      .driverInstall (uartRxBufferSize * 2)] ++ es
    match detected with
    | none => return (-5, s, es)
    | some d =>
      let es' ← gpsConfigSwitch i d
      return (0, gpsConfigReset s, es ++ es' ++ [.logInfo "configuring @115200baud"] ++
        ubxConfig115200)

/-! ### The receiver -/

/-- A receiver with states of the type `σ`: what it does with a message, and with bytes that are
sent at another baud rate than its own, the baud rate of its port and the rates of the reports on
it. The other fields are what is relied on. -/
structure UbxReceiver (σ : Type) where
  handle : σ → UbxMessage → σ
  misread : σ → List UInt8 → σ
  baudrate : σ → ℕ
  rate : σ → UInt8 → UInt8 → UInt8
  baudrate_cfgPrt (s : σ) (b : ℕ) : b < 256 ^ 4 → baudrate (handle s (cfgPrtMessage b)) = b
  rate_cfgPrt (s : σ) (b : ℕ) : rate (handle s (cfgPrtMessage b)) = rate s
  baudrate_cfgMsg (s : σ) (c n r : UInt8) : baudrate (handle s (cfgMsgMessage c n r)) = baudrate s
  rate_cfgMsg (s : σ) (c n r c' n' : UInt8) : rate (handle s (cfgMsgMessage c n r)) c' n' =
    if c' = c ∧ n' = n then r else rate s c' n'
  baudrate_other (s : σ) (m : UbxMessage) :
    m ∈ [cfgGNSSMessage, cfgNAV5Message, cfgRATEMessage, cfgCFGMessage] →
      baudrate (handle s m) = baudrate s
  rate_other (s : σ) (m : UbxMessage) :
    m ∈ [cfgGNSSMessage, cfgNAV5Message, cfgRATEMessage, cfgCFGMessage] → rate (handle s m) = rate s

/-- The port of a receiver: its baud rate and the rates of the reports on it. -/
structure UbxPort where
  baudrate : ℕ
  rate : UInt8 → UInt8 → UInt8

/-- The port after a message. -/
def UbxPort.handle (p : UbxPort) (m : UbxMessage) : UbxPort :=
  if m.msgClass = 0x06 ∧ m.msgId = 0x00 then
    { p with baudrate := LittleEndian.toNat ((m.payload.drop 8).take 4) }
  else if m.msgClass = 0x06 ∧ m.msgId = 0x01 then
    { p with rate := fun c n =>
        if m.payload[0]? = some c ∧ m.payload[1]? = some n then m.payload[3]?.getD 0
        else p.rate c n }
  else p

/-- A receiver of which only the port is considered. -/
def portReceiver : UbxReceiver UbxPort where
  handle := UbxPort.handle
  misread p _ := p
  baudrate := UbxPort.baudrate
  rate := UbxPort.rate
  baudrate_cfgPrt p b hb := by
    have htake : ((cfgPrtMessage b).payload.drop 8).take 4 = LittleEndian.ofNat 4 b := rfl
    rw [UbxPort.handle, if_pos ⟨rfl, rfl⟩, htake, LittleEndian.toNat_ofNat, Nat.mod_eq_of_lt hb]
  rate_cfgPrt p b := rfl
  baudrate_cfgMsg p c n r := rfl
  rate_cfgMsg p c n r c' n' := by
    rw [UbxPort.handle, if_neg (by simp [cfgMsgMessage]), if_pos ⟨rfl, rfl⟩]
    simp [cfgMsgMessage, eq_comm]
  baudrate_other p m hm := by
    simp only [List.mem_cons, List.not_mem_nil, or_false] at hm
    rcases hm with rfl | rfl | rfl | rfl <;> rfl
  rate_other p m hm := by
    simp only [List.mem_cons, List.not_mem_nil, or_false] at hm
    rcases hm with rfl | rfl | rfl | rfl <;> rfl

/-- The link: the baud rate of the UART, and the receiver. -/
structure UartLink (σ : Type) where
  baudrate : ℕ
  receiver : σ

namespace UbxReceiver

variable {σ : Type} (R : UbxReceiver σ)

/-- The receiver after some bytes sent at a baud rate. At its own rate it handles the messages of
which they consist. -/
def receive (s : σ) (baudrate : ℕ) (bs : List UInt8) : σ :=
  if baudrate = R.baudrate s then
    match ubxCode.decodeAll bs with
    | some ms => ms.foldl R.handle s
    | none => R.misread s bs
  else R.misread s bs

/-- The link after an effect. -/
def effect (l : UartLink σ) : UartEffect → UartLink σ
  | .paramConfig b => { l with baudrate := b }
  | .setBaudrate b => { l with baudrate := b }
  | .writeBytes bs => { l with receiver := R.receive l.receiver l.baudrate bs }
  | _ => l

/-- The link after some effects. -/
def effects (l : UartLink σ) (es : List UartEffect) : UartLink σ := es.foldl R.effect l

theorem effects_append (l : UartLink σ) (es es' : List UartEffect) :
    R.effects l (es ++ es') = R.effects (R.effects l es) es' :=
  List.foldl_append

/-- A frame sent at the rate of the receiver is handled. -/
theorem receive_encode (s : σ) (m : UbxMessage) :
    R.receive s (R.baudrate s) (ubxCode.encode m) = R.handle s m := by
  have hdecode : ubxCode.decodeAll (ubxCode.encode m) = some [m] :=
    ubxCode.decodeAll_eq_some_iff.mpr (by simp)
  rw [receive, if_pos rfl, hdecode]
  rfl

@[simp] theorem effects_testEffects (l : UartLink σ) (protocol : String) (b : ℕ) (found : Bool) :
    R.effects l (testEffects protocol b found) = { l with baudrate := b } := by
  cases found <;> rfl

/-- **Messages that leave the baud rate alone** are all handled, in their order. -/
theorem effects_flatMap {ms : List UbxMessage}
    (hms : ∀ m ∈ ms, ∀ s, R.baudrate (R.handle s m) = R.baudrate s) {l : UartLink σ}
    (hl : R.baudrate l.receiver = l.baudrate) :
    R.effects l (ms.flatMap fun m => [.writeBytes (ubxCode.encode m), .waitTxDone 50]) =
        ⟨l.baudrate, ms.foldl R.handle l.receiver⟩ ∧
      R.baudrate (ms.foldl R.handle l.receiver) = l.baudrate := by
  induction ms generalizing l with
  | nil => exact ⟨rfl, hl⟩
  | cons m ms ih =>
    obtain ⟨hm, hms⟩ := List.forall_mem_cons.mp hms
    have hhandle : R.effects l [.writeBytes (ubxCode.encode m), .waitTxDone 50] =
        ⟨l.baudrate, R.handle l.receiver m⟩ := by
      rw [← R.receive_encode, hl]
      rfl
    rw [List.flatMap_cons, effects_append, hhandle, List.foldl_cons]
    exact ih hms (l := ⟨l.baudrate, R.handle l.receiver m⟩) ((hm _).trans hl)

theorem baudrate_configMessages :
    ∀ m ∈ configMessages, ∀ s, R.baudrate (R.handle s m) = R.baudrate s := by
  intro m hm s
  rcases List.mem_append.mp hm with hm | hm
  · obtain ⟨n, -, rfl⟩ := List.mem_map.mp hm
    exact R.baudrate_cfgMsg s 0xF0 n 0
  · rcases List.mem_cons.mp hm with rfl | hm
    · exact R.baudrate_cfgMsg s 0x01 0x07 1
    · exact R.baudrate_other s m hm

/-- The rates of the reports after some of them have been switched off. -/
theorem rate_switchedOff (ns : List UInt8) (s : σ) (c n : UInt8) :
    R.rate ((ns.map (cfgMsgMessage 0xF0 · 0)).foldl R.handle s) c n =
      if c = 0xF0 ∧ n ∈ ns then 0 else R.rate s c n := by
  induction ns generalizing s with
  | nil => simp
  | cons k ns ih =>
    rw [List.map_cons, List.foldl_cons, ih, rate_cfgMsg]
    by_cases hc : c = 0xF0 <;> by_cases hk : n = k <;> simp [hc, hk]

theorem rate_configMessages (s : σ) (c n : UInt8) :
    R.rate (configMessages.foldl R.handle s) c n =
      if c = 0x01 ∧ n = 0x07 then 1 else if c = 0xF0 ∧ n ∈ nmeaSentences then 0
        else R.rate s c n := by
  have hother : ∀ m ∈ [cfgGNSSMessage, cfgNAV5Message, cfgRATEMessage, cfgCFGMessage],
      ∀ s, R.rate (R.handle s m) = R.rate s := fun m hm s => R.rate_other s m hm
  simp only [List.forall_mem_cons] at hother
  obtain ⟨hGNSS, hNAV5, hRATE, hCFG, -⟩ := hother
  simp only [configMessages, List.foldl_append, List.foldl_cons, List.foldl_nil]
  rw [hCFG, hRATE, hNAV5, hGNSS, rate_cfgMsg, rate_switchedOff]

/-- What `ubx_config115200` does to a receiver that talks at 115200 baud. -/
theorem effects_ubxConfig115200 {l : UartLink σ} (hl : R.baudrate l.receiver = 115200) :
    R.effects l ubxConfig115200 = ⟨115200, configMessages.foldl R.handle l.receiver⟩ ∧
      R.baudrate (configMessages.foldl R.handle l.receiver) = 115200 := by
  rw [ubxConfig115200, configTables_eq, List.flatMap_map, effects_append]
  exact R.effects_flatMap R.baudrate_configMessages (l := ⟨115200, l.receiver⟩) hl

/-- What `ubx_config9600` does to a receiver that talks at 9600 baud. -/
theorem effects_ubxConfig9600 {l : UartLink σ} (hl : R.baudrate l.receiver = 9600) :
    R.effects l ubxConfig9600 = ⟨115200, R.handle l.receiver (cfgPrtMessage 115200)⟩ := by
  rw [← R.receive_encode, ← cfgPRT_eq, hl]
  rfl

end UbxReceiver

/-! ### Success and failure -/

/-- The protocol is detected only at the baud rate of the receiver. -/
def GpsConfigInputs.Truthful (i : GpsConfigInputs) (baudrate : ℕ) : Prop :=
  ∀ d es, gpsConfigDetect i = some (some d, es) → d.baudrate = baudrate

section Detect

variable {i : GpsConfigInputs} {d : Option Detected} {es : List UartEffect}

/-- The tests are made in the order of the source until one finds its protocol. -/
theorem gpsConfigDetect_cases (h : gpsConfigDetect i = some (d, es)) :
    (i.nmea9600.nmea = some true ∧ d = some .nmea9600 ∧ es = testEffects "NMEA" 9600 true) ∨
    i.nmea9600.nmea = some false ∧
      ((i.ubx9600.ubx = some true ∧ d = some .ubx9600 ∧
          es = testEffects "NMEA" 9600 false ++ testEffects "UBX" 9600 true) ∨
        i.ubx9600.ubx = some false ∧
          ((i.ubx115200.ubx = some true ∧ d = some .ubx115200 ∧
              es = testEffects "NMEA" 9600 false ++ testEffects "UBX" 9600 false ++
                testEffects "UBX" 115200 true) ∨
            i.ubx115200.ubx = some false ∧
              ((i.nmea115200.nmea = some true ∧ d = some .nmea115200 ∧
                  es = testEffects "NMEA" 9600 false ++ testEffects "UBX" 9600 false ++
                    testEffects "UBX" 115200 false ++ testEffects "NMEA" 115200 true) ∨
                i.nmea115200.nmea = some false ∧ d = none ∧
                  es = testEffects "NMEA" 9600 false ++ testEffects "UBX" 9600 false ++
                    testEffects "UBX" 115200 false ++ testEffects "NMEA" 115200 false ++
                    [.logError "Could not detect protocol"]))) := by
  obtain ⟨_ | _, h₁, h⟩ := Option.bind_eq_some_iff.mp h
  case true =>
    obtain ⟨rfl, rfl⟩ := Prod.mk.inj (Option.some.inj h)
    exact .inl ⟨h₁, rfl, rfl⟩
  refine .inr ⟨h₁, ?_⟩
  obtain ⟨_ | _, h₂, h⟩ := Option.bind_eq_some_iff.mp h
  case true =>
    obtain ⟨rfl, rfl⟩ := Prod.mk.inj (Option.some.inj h)
    exact .inl ⟨h₂, rfl, rfl⟩
  refine .inr ⟨h₂, ?_⟩
  obtain ⟨_ | _, h₃, h⟩ := Option.bind_eq_some_iff.mp h
  case true =>
    obtain ⟨rfl, rfl⟩ := Prod.mk.inj (Option.some.inj h)
    exact .inl ⟨h₃, rfl, rfl⟩
  refine .inr ⟨h₃, ?_⟩
  obtain ⟨_ | _, h₄, h⟩ := Option.bind_eq_some_iff.mp h
  case true =>
    obtain ⟨rfl, rfl⟩ := Prod.mk.inj (Option.some.inj h)
    exact .inl ⟨h₄, rfl, rfl⟩
  obtain ⟨rfl, rfl⟩ := Prod.mk.inj (Option.some.inj h)
  exact .inr ⟨h₄, rfl, rfl⟩

theorem gpsConfigDetect_eq_none_iff (h : gpsConfigDetect i = some (d, es)) :
    d = none ↔ ∀ p : Detected, p.test i = some false := by
  constructor
  · rintro rfl p
    rcases gpsConfigDetect_cases h with ⟨-, hd, -⟩ | ⟨h₁, ⟨-, hd, -⟩ | ⟨h₂, ⟨-, hd, -⟩ |
      ⟨h₃, ⟨-, hd, -⟩ | ⟨h₄, -, -⟩⟩⟩⟩
    · cases hd
    · cases hd
    · cases hd
    · cases hd
    · cases p <;> assumption
  · intro hall
    rcases gpsConfigDetect_cases h with ⟨h₁, -, -⟩ | ⟨-, ⟨h₂, -, -⟩ | ⟨-, ⟨h₃, -, -⟩ |
      ⟨-, ⟨h₄, -, -⟩ | ⟨-, hd, -⟩⟩⟩⟩
    · cases h₁.symm.trans (hall .nmea9600)
    · cases h₂.symm.trans (hall .ubx9600)
    · cases h₃.symm.trans (hall .ubx115200)
    · cases h₄.symm.trans (hall .nmea115200)
    · exact hd

theorem writeBytes_notMem_testEffects (protocol : String) (b : ℕ) (found : Bool)
    (bs : List UInt8) : .writeBytes bs ∉ testEffects protocol b found := by
  cases found <;> simp [testEffects]

/-- The tests of the protocol write nothing. -/
theorem writeBytes_notMem_gpsConfigDetect (h : gpsConfigDetect i = some (d, es))
    (bs : List UInt8) : .writeBytes bs ∉ es := by
  rcases gpsConfigDetect_cases h with ⟨-, -, rfl⟩ | ⟨-, ⟨-, -, rfl⟩ | ⟨-, ⟨-, -, rfl⟩ |
    ⟨-, ⟨-, -, rfl⟩ | ⟨-, -, rfl⟩⟩⟩⟩ <;>
  simp [writeBytes_notMem_testEffects]

/-- After the tests the UART has the baud rate of the last one. -/
theorem UbxReceiver.effects_gpsConfigDetect {σ : Type} (R : UbxReceiver σ) (l : UartLink σ)
    (h : gpsConfigDetect i = some (d, es)) :
    R.effects l es = ⟨(d.map Detected.baudrate).getD 115200, l.receiver⟩ := by
  rcases gpsConfigDetect_cases h with ⟨-, rfl, rfl⟩ | ⟨-, ⟨-, rfl, rfl⟩ | ⟨-, ⟨-, rfl, rfl⟩ |
    ⟨-, ⟨-, rfl, rfl⟩ | ⟨-, rfl, rfl⟩⟩⟩⟩ <;>
  simp only [effects_append, effects_testEffects] <;> rfl

end Detect

/-- The calls that set up the UART. -/
def setupEffects : List UartEffect :=
  [.paramConfig 115200, .setPin 26 25 (-1) (-1), .driverInstall (uartRxBufferSize * 2)]

section Config

variable {i : GpsConfigInputs} {s s' : GpsVars} {code : ℤ} {es : List UartEffect}

/-- What `gps_config` has done when it returns. -/
theorem gpsConfig_cases (h : gpsConfig i s = some (code, s', es)) :
    (i.paramConfig ≠ 0 ∧ code = -1 ∧ s' = s ∧ ∀ bs, .writeBytes bs ∉ es) ∨
    i.paramConfig = 0 ∧
      ((i.setPin ≠ 0 ∧ code = -2 ∧ s' = s ∧ ∀ bs, .writeBytes bs ∉ es) ∨
        i.setPin = 0 ∧
          ((i.driverInstall ≠ 0 ∧ code = -3 ∧ s' = s ∧ ∀ bs, .writeBytes bs ∉ es) ∨
            i.driverInstall = 0 ∧
              ((∃ es', gpsConfigDetect i = some (none, es') ∧ code = -5 ∧ s' = s ∧
                  es = setupEffects ++ es') ∨
                ∃ d es₁ es₂, gpsConfigDetect i = some (some d, es₁) ∧
                  gpsConfigSwitch i d = some es₂ ∧ code = 0 ∧ s' = gpsConfigReset s ∧
                  es = setupEffects ++ es₁ ++ es₂ ++ [.logInfo "configuring @115200baud"] ++
                    ubxConfig115200))) := by
  unfold gpsConfig at h
  split_ifs at h with h₁ h₂ h₃
  · obtain ⟨rfl, rfl, rfl⟩ : -1 = code ∧ s = s' ∧ _ = es := by simpa using h
    exact .inl ⟨h₁, rfl, rfl, by simp⟩
  · obtain ⟨rfl, rfl, rfl⟩ : -2 = code ∧ s = s' ∧ _ = es := by simpa using h
    exact .inr ⟨not_not.mp h₁, .inl ⟨h₂, rfl, rfl, by simp⟩⟩
  · obtain ⟨rfl, rfl, rfl⟩ : -3 = code ∧ s = s' ∧ _ = es := by simpa using h
    exact .inr ⟨not_not.mp h₁, .inr ⟨not_not.mp h₂, .inl ⟨h₃, rfl, rfl, by simp⟩⟩⟩
  · refine .inr ⟨not_not.mp h₁, .inr ⟨not_not.mp h₂, .inr ⟨not_not.mp h₃, ?_⟩⟩⟩
    obtain ⟨⟨_ | d, es'⟩, hdetect, h⟩ := Option.bind_eq_some_iff.mp h
    · obtain ⟨rfl, rfl, rfl⟩ : -5 = code ∧ s = s' ∧ _ = es := by simpa using h
      exact .inl ⟨es', hdetect, rfl, rfl, rfl⟩
    · obtain ⟨es₂, hswitch, h⟩ := Option.bind_eq_some_iff.mp h
      obtain ⟨rfl, rfl, rfl⟩ : 0 = code ∧ gpsConfigReset s = s' ∧ _ = es := by simpa using h
      exact .inr ⟨d, es', es₂, hdetect, hswitch, rfl, rfl, by simp [setupEffects]⟩

/-- What is done before the configuration at 115200 baud, for a receiver that talks at the baud rate
detected. -/
theorem UbxReceiver.effects_gpsConfigSwitch {σ : Type} (R : UbxReceiver σ) {l : UartLink σ}
    {d : Detected} (h : gpsConfigSwitch i d = some es) (hd : R.baudrate l.receiver = d.baudrate) :
    ∃ b, R.effects l es = ⟨b, if R.baudrate l.receiver = 9600 then
        R.handle l.receiver (cfgPrtMessage 115200) else l.receiver⟩ ∧
      R.baudrate (R.effects l es).receiver = 115200 := by
  have hswitched : R.baudrate l.receiver = 9600 → (i.switched.nmea.map fun found =>
      [.logInfo "configure ubx port 9600->115200"] ++ ubxConfig9600 ++ [.delayMs 1000] ++
        testEffects "NMEA" 115200 found) = some es →
      R.effects l es = ⟨115200, R.handle l.receiver (cfgPrtMessage 115200)⟩ := by
    intro hbaud h
    obtain ⟨found, -, rfl⟩ := Option.map_eq_some_iff.mp h
    have hlog : R.effects l [.logInfo "configure ubx port 9600->115200"] = l := rfl
    have hdelay (l : UartLink σ) : R.effects l [.delayMs 1000] = l := rfl
    rw [effects_append, effects_append, effects_append, hlog, R.effects_ubxConfig9600 hbaud, hdelay,
      effects_testEffects]
  have hprt := R.baudrate_cfgPrt l.receiver 115200 (by decide)
  cases d with
  | nmea9600 | ubx9600 =>
    have hbaud : R.baudrate l.receiver = 9600 := hd
    rw [hswitched hbaud (Option.map_eq_bind.trans h), if_pos hbaud]
    exact ⟨115200, rfl, hprt⟩
  | ubx115200 | nmea115200 =>
    obtain rfl := Option.some.inj h
    exact ⟨l.baudrate, by rw [if_neg (by rw [hd]; decide)]; rfl, hd⟩

/-- **A successful configuration.** If the protocol is detected only at the baud rate of the
receiver, then both sides of the link use 115200 baud at the end, the receiver has handled each
message once and in the order in which they are sent, the NMEA sentences are off and NAV-PVT is on,
the rates of the other reports are as they were, and the state machine waits for a header. -/
theorem gpsConfig_configures {σ : Type} (R : UbxReceiver σ) (l : UartLink σ)
    (h : gpsConfig i s = some (0, s', es)) (hi : i.Truthful (R.baudrate l.receiver)) :
    R.effects l es = ⟨115200, ((if R.baudrate l.receiver = 9600 then [cfgPrtMessage 115200]
        else []) ++ configMessages).foldl R.handle l.receiver⟩ ∧
      R.baudrate (R.effects l es).receiver = 115200 ∧
      (∀ c n, R.rate (R.effects l es).receiver c n =
        if c = 0x01 ∧ n = 0x07 then 1 else if c = 0xF0 ∧ n ∈ nmeaSentences then 0
          else R.rate l.receiver c n) ∧
      s' = gpsConfigReset s := by
  obtain ⟨-, hcode, -⟩ | ⟨-, ⟨-, hcode, -⟩ | ⟨-, ⟨-, hcode, -⟩ | ⟨-, ⟨-, -, hcode, -⟩ |
    ⟨d, es₁, es₂, hdetect, hswitch, -, hs', hes⟩⟩⟩⟩ := gpsConfig_cases h
  · cases hcode
  · cases hcode
  · cases hcode
  · cases hcode
  have hsetup : R.effects l setupEffects = ⟨115200, l.receiver⟩ := rfl
  have hlog (l : UartLink σ) : R.effects l [.logInfo "configuring @115200baud"] = l := rfl
  have hbaud : R.baudrate l.receiver = d.baudrate := (hi d es₁ hdetect).symm
  obtain ⟨b, hprt, hnow⟩ := R.effects_gpsConfigSwitch (l := ⟨d.baudrate, l.receiver⟩) hswitch hbaud
  obtain ⟨hconfig, hend⟩ := R.effects_ubxConfig115200 hnow
  have hfold : (if R.baudrate l.receiver = 9600 then [cfgPrtMessage 115200] else []).foldl R.handle
      l.receiver = if R.baudrate l.receiver = 9600 then R.handle l.receiver (cfgPrtMessage 115200)
        else l.receiver := by
    split <;> rfl
  have heffects : R.effects l es = ⟨115200, ((if R.baudrate l.receiver = 9600 then
      [cfgPrtMessage 115200] else []) ++ configMessages).foldl R.handle l.receiver⟩ := by
    rw [hes, UbxReceiver.effects_append, UbxReceiver.effects_append, UbxReceiver.effects_append,
      UbxReceiver.effects_append, hsetup, R.effects_gpsConfigDetect _ hdetect, Option.map_some,
      Option.getD_some, hlog, hconfig, hprt, List.foldl_append, hfold]
  refine ⟨heffects, ?_, ?_, hs'⟩
  · rw [heffects, List.foldl_append, hfold]
    rwa [hprt] at hend
  · intro c n
    rw [heffects, List.foldl_append, hfold, R.rate_configMessages]
    split
    next => rfl
    next =>
      split
      next => rfl
      next =>
        split
        next => exact congrFun (congrFun (R.rate_cfgPrt _ _) c) n
        next => rfl

/-- A sentence arrives in the first window and in the one after the switch. -/
def sentenceInputs : GpsConfigInputs where
  paramConfig := 0
  setPin := 0
  driverInstall := 0
  nmea9600 := ⟨0, 0, szNMEA_GNGLL.map fun b => (.byte b, 1)⟩
  ubx9600 := ⟨0, 0, []⟩
  ubx115200 := ⟨0, 0, []⟩
  nmea115200 := ⟨0, 0, []⟩
  switched := ⟨0, 0, szNMEA_GNGLL.map fun b => (.byte b, 1)⟩

/-- A receiver that sends sentences at 9600 baud. -/
theorem gpsConfig_configures_sentence :
    ∃ s es, gpsConfig sentenceInputs .static = some (0, s, es) ∧
      (portReceiver.effects ⟨0, ⟨9600, fun c _ => if c = 0xF0 then 1 else 0⟩⟩
        es).receiver.baudrate = 115200 := by
  have hcode : (gpsConfig sentenceInputs .static).map Prod.fst = some 0 := by decide +kernel
  have hdetect : (gpsConfigDetect sentenceInputs).map Prod.fst = some (some .nmea9600) := by
    decide +kernel
  obtain ⟨⟨code, s, es⟩, h, rfl⟩ := Option.map_eq_some_iff.mp hcode
  refine ⟨s, es, h, (gpsConfig_configures portReceiver _ h ?_).2.1⟩
  intro d es' h'
  rw [h'] at hdetect
  obtain rfl := Option.some.inj (Option.some.inj hdetect)
  rfl

/-- **A failed configuration.** The value returned tells which step has failed, and then nothing has
been written to the receiver and the variables of the state machine are as they were. -/
theorem gpsConfig_fails_iff (h : gpsConfig i s = some (code, s', es)) :
    (code = -1 ↔ i.paramConfig ≠ 0) ∧
    (code = -2 ↔ i.paramConfig = 0 ∧ i.setPin ≠ 0) ∧
    (code = -3 ↔ i.paramConfig = 0 ∧ i.setPin = 0 ∧ i.driverInstall ≠ 0) ∧
    (code = -5 ↔ i.paramConfig = 0 ∧ i.setPin = 0 ∧ i.driverInstall = 0 ∧
      ∀ d : Detected, d.test i = some false) ∧
    (code ≠ 0 ↔ code = -1 ∨ code = -2 ∨ code = -3 ∨ code = -5) ∧
    (code ≠ 0 → s' = s ∧ ∀ bs, .writeBytes bs ∉ es) := by
  rcases gpsConfig_cases h with ⟨h₁, rfl, hs', hes⟩ | ⟨h₁, ⟨h₂, rfl, hs', hes⟩ |
    ⟨h₂, ⟨h₃, rfl, hs', hes⟩ | ⟨h₃, ⟨es', hdetect, rfl, hs', rfl⟩ |
      ⟨d, es₁, es₂, hdetect, -, rfl, -, -⟩⟩⟩⟩
  · simp [h₁, hs', hes]
  · simp [h₁, h₂, hs', hes]
  · simp [h₁, h₂, h₃, hs', hes]
  · have htests := (gpsConfigDetect_eq_none_iff hdetect).mp rfl
    have hwrite := writeBytes_notMem_gpsConfigDetect hdetect
    simp [h₁, h₂, h₃, hs', htests, hwrite, setupEffects]
  · have htests := mt (gpsConfigDetect_eq_none_iff hdetect).mpr (Option.some_ne_none d)
    simp [h₁, h₂, h₃, htests]

/-- Nothing arrives in any of the windows. -/
theorem gpsConfig_fails_iff_silence :
    ∃ s es, gpsConfig ⟨0, 0, 0, ⟨0, 0, List.replicate 2 (.timeout 0, 320000000)⟩,
        ⟨0, 0, [(.timeout 0, 320000000)]⟩, ⟨0, 0, [(.timeout 0, 320000000)]⟩,
        ⟨0, 0, List.replicate 2 (.timeout 0, 320000000)⟩, ⟨0, 0, []⟩⟩ .static = some (-5, s, es) ∧
      ∀ bs, .writeBytes bs ∉ es := by
  have hcode : (gpsConfig ⟨0, 0, 0, ⟨0, 0, List.replicate 2 (.timeout 0, 320000000)⟩,
      ⟨0, 0, [(.timeout 0, 320000000)]⟩, ⟨0, 0, [(.timeout 0, 320000000)]⟩,
      ⟨0, 0, List.replicate 2 (.timeout 0, 320000000)⟩, ⟨0, 0, []⟩⟩ .static).map Prod.fst =
        some (-5) := by
    decide +kernel
  obtain ⟨⟨code, s, es⟩, h, rfl⟩ := Option.map_eq_some_iff.mp hcode
  exact ⟨s, es, h, ((gpsConfig_fails_iff h).2.2.2.2.2 (by simp)).2⟩

end Config

end GpsTracker
