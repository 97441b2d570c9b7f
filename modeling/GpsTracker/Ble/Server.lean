import GpsTracker.Ble.Value
import GpsTracker.Stream.Since
import Mathlib.Data.Finset.Sort
import Mathlib.Data.List.TakeWhile

/-!
# The GATT server

The handlers of `BLEServer`, `BLECharacteristic` and `BLEDescriptor` for the events of the Bluetooth
stack, which may come from any number of clients in any order, and the operations `setValue` and
`notify` of the application.

`GattSpec` says what such a server is for. It knows which clients are connected, the value of each
characteristic, the parts of writes that are still to be executed, and whether notifications are
switched on, but no offset of reads, no count of connections and no packet sizes. The server refines
it as long as the values fit into the smallest packet (`bleServer_refines`). Also in the
specification there is one flag for notifications and one pending write for each characteristic,
whichever clients have written them, since the server does not tell clients apart: a client is
notified when another one has asked for it (`bleServer_notifies`).

## Main definitions

* `BleServer`, `bleServer`.
* `GattSpec`, `gattSpec`.
* `Linked`, `SwitchedOn`.

## Main results

* `bleServer_refines`.
* `bleServer_notifies`.
-/

namespace GpsTracker

/-! ### Events and actions -/

/-- The events of the stack, and the operations of the application. -/
inductive ServerEvent (ι : Type) where
  | connect (conn : ℕ)
  | disconnect (conn : ℕ)
  | mtu (conn mtu : ℕ)
  | read (conn handle : ℕ) (isLong needRsp : Bool)
  | write (conn handle offset : ℕ) (isPrep needRsp : Bool) (value : List UInt8)
  | execWrite (conn : ℕ) (exec : Bool)
  | setValue (i : ι) (data : List UInt8)
  | notify (i : ι) (sent : ℕ → Bool)

/-- What the server does: it calls back the application, starts to advertise, sends a response or a
notification. -/
inductive ServerAction where
  | onConnect
  | onDisconnect
  | startAdvertising
  | readResponse (conn handle : ℕ) (rsp : ReadResponse)
  | writeResponse (conn handle offset : ℕ) (value : List UInt8)
  | execResponse (conn : ℕ)
  | notification (conn handle : ℕ) (value : List UInt8)
  deriving DecidableEq, Repr

/-! ### Descriptors and characteristics -/

/-- A descriptor 0x2902: its handle and the memory of its value. -/
structure BleDescriptor where
  handle : ℕ
  attrLen : ℕ
  attrValue : List UInt8
  deriving DecidableEq, Repr

namespace BleDescriptor

/-- `BLEDescriptor::setValue`. The memory that the constructor allocates may be too small. -/
def setValue (d : BleDescriptor) (data : List UInt8) : Option BleDescriptor :=
  if data.length > espGattMaxAttrLen then some d
  else if data.length ≤ d.attrValue.length then
    some { d with attrLen := data.length, attrValue := data ++ d.attrValue.drop data.length }
  else none

/-- `BLE2902::getNotifications`. -/
def getNotifications (d : BleDescriptor) : Option Bool := do
  return (← d.attrValue[0]?) &&& 1 ≠ 0

/-- `BLEDescriptor::handleGATTServerEvent`. -/
def handleGattServerEvent {ι : Type} (d : BleDescriptor) : ServerEvent ι → Option BleDescriptor
  | .write _ handle _ _ _ value => if handle = d.handle then d.setValue value else some d
  | _ => some d

end BleDescriptor

/-- A `BLECharacteristic` with its descriptor 0x2902. -/
structure BleCharacteristic where
  handle : ℕ
  value : BleValue
  desc : BleDescriptor
  deriving DecidableEq, Repr

namespace BleCharacteristic

/-- The part of `BLECharacteristic::handleGATTServerEvent` before its descriptors. The packet sizes
are those of the connected clients. -/
def handleOwn {ι : Type} (mtu : ℕ → Option ℕ) (c : BleCharacteristic) :
    ServerEvent ι → Option (BleCharacteristic × List ServerAction)
  | .execWrite conn exec =>
    some ({ c with value := if exec then c.value.commit else c.value.cancel },
      [.execResponse conn])
  | .write conn handle offset isPrep needRsp value =>
    if handle = c.handle then
      let v := if isPrep then c.value.addPart value else c.value.setValue value
      if needRsp then
        if value.length ≤ espGattMaxAttrLen then
          some ({ c with value := v }, [.writeResponse conn c.handle offset value])
        else none
      else some ({ c with value := v }, [])
    else some (c, [])
  | .read conn handle isLong needRsp =>
    if handle = c.handle then do
      let m ← mtu conn
      if needRsp then
        let (v, rsp) ← c.value.read m isLong
        return ({ c with value := v }, [.readResponse conn handle rsp])
      else return (c, [])
    else some (c, [])
  | _ => some (c, [])

/-- `BLECharacteristic::handleGATTServerEvent`. -/
def handleGattServerEvent {ι : Type} (mtu : ℕ → Option ℕ) (c : BleCharacteristic)
    (e : ServerEvent ι) : Option (BleCharacteristic × List ServerAction) := do
  let (c, as) ← c.handleOwn mtu e
  let d ← c.desc.handleGattServerEvent e
  return ({ c with desc := d }, as)

end BleCharacteristic

/-! ### The server -/

/-- `m_connectedServersMap`: the connected clients and their packet sizes. -/
structure ConnMap where
  keys : Finset ℕ
  mtu : ℕ → ℕ

namespace ConnMap

def find (m : ConnMap) (conn : ℕ) : Option ℕ := if conn ∈ m.keys then some (m.mtu conn) else none

def insert (m : ConnMap) (conn mtu : ℕ) : ConnMap :=
  if conn ∈ m.keys then m else ⟨m.keys ∪ {conn}, Function.update m.mtu conn mtu⟩

def erase (m : ConnMap) (conn : ℕ) : ConnMap := { m with keys := m.keys.erase conn }

/-- The keys in the order of an iteration. -/
def toList (m : ConnMap) : List ℕ := m.keys.sort (· ≤ ·)

end ConnMap

/-- A `BLEServer` with one service, whose characteristics are indexed by `ι`. -/
structure BleServer (ι : Type) where
  connectedCount : ℕ
  connectedServers : ConnMap
  chars : ι → BleCharacteristic

namespace BleServer

variable {ι : Type} [DecidableEq ι]

def addPeerDevice (s : BleServer ι) (conn : ℕ) : BleServer ι :=
  { s with connectedServers := s.connectedServers.insert conn 23 }

def removePeerDevice (s : BleServer ι) (conn : ℕ) : BleServer ι :=
  { s with connectedServers := s.connectedServers.erase conn }

def updatePeerMTU (s : BleServer ι) (conn mtu : ℕ) : BleServer ι :=
  if conn ∈ s.connectedServers.keys then
    { s with connectedServers :=
        ⟨s.connectedServers.keys, Function.update s.connectedServers.mtu conn mtu⟩ }
  else s

/-- The handling of an event by the server itself. The count has 32 bits. -/
def handleOwn (s : BleServer ι) : ServerEvent ι → BleServer ι × List ServerAction
  | .connect conn =>
    ({ s.addPeerDevice conn with connectedCount := (s.connectedCount + 1) % 2 ^ 32 }, [.onConnect])
  | .disconnect conn =>
    ({ s.removePeerDevice conn with
        connectedCount := (s.connectedCount + (2 ^ 32 - 1)) % 2 ^ 32 },
      [.onDisconnect, .startAdvertising])
  | .mtu conn mtu => (s.updatePeerMTU conn mtu, [])
  | _ => (s, [])

/-- The characteristics handle an event in the order of the map. -/
def dispatch (f : BleCharacteristic → Option (BleCharacteristic × List ServerAction)) :
    List ι → (ι → BleCharacteristic) → Option ((ι → BleCharacteristic) × List ServerAction)
  | [], cs => some (cs, [])
  | i :: is, cs => do
    let (c, as) ← f (cs i)
    let (cs, as') ← dispatch f is (Function.update cs i c)
    return (cs, as ++ as')

/-- `BLEServer::handleGATTServerEvent`, for the order of the characteristics in their map. -/
def handleGattServerEvent (order : List ι) (s : BleServer ι) (e : ServerEvent ι) :
    Option (BleServer ι × List ServerAction) := do
  let (s, as) := s.handleOwn e
  let (cs, as') ← dispatch (·.handleGattServerEvent s.connectedServers.find e) order s.chars
  return ({ s with chars := cs }, as ++ as')

/-- `BLECharacteristic::notify`. It ends at the first client to which nothing can be sent. -/
def notify (s : BleServer ι) (i : ι) (sent : ℕ → Bool) : Option (List ServerAction) :=
  if s.connectedCount = 0 then some []
  else do
    if (← (s.chars i).desc.getNotifications) then
      return (s.connectedServers.toList.takeWhile sent).map fun conn =>
        .notification conn (s.chars i).handle (s.chars i).value.value
    else return []

/-- `BLECharacteristic::setValue` for a characteristic of the server. -/
def setValue (s : BleServer ι) (i : ι) (data : List UInt8) : BleServer ι :=
  let c := { s.chars i with value := (s.chars i).value.setValue data }
  { s with chars := Function.update s.chars i c }

end BleServer

/-- The server: the events of the stack are handled, and the operations of the application
called. -/
def bleServer {ι : Type} [DecidableEq ι] (order : List ι) :
    Transducer (BleServer ι) (ServerEvent ι) ServerAction where
  step s e :=
    match e with
    | .setValue i data => some (s.setValue i data, [])
    | .notify i sent => (s.notify i sent).map fun as => (s, as)
    | e => s.handleGattServerEvent order e

/-! ### What the server is for -/

/-- What a server is for: the connected clients, the value of each characteristic, the parts of a
write of it, and whether its notifications are switched on. -/
structure GattSpec (ι : Type) where
  links : Finset ℕ
  value : ι → List UInt8
  pending : ι → List UInt8
  subscribed : ι → Bool

/-- A value that fits into a packet of the smallest size. -/
def Fits (value : List UInt8) : Prop := value.length < 22

instance : DecidablePred Fits := fun value => inferInstanceAs (Decidable (value.length < 22))

/-- The specification, for given handles of the characteristics and of their descriptors. It is not
defined what happens when the stack reports something of a client that is not connected, or a second
connection of one, or a packet size that is not possible, nor when a value becomes too long. -/
def gattSpec {ι : Type} [DecidableEq ι] (order : List ι) (handle descHandle : ι → ℕ) :
    Transducer (GattSpec ι) (ServerEvent ι) ServerAction where
  step t e :=
    match e with
    | .connect conn =>
      if conn ∉ t.links ∧ conn < 2 ^ 16 then
        some ({ t with links := t.links ∪ {conn} }, [.onConnect])
      else none
    | .disconnect conn =>
      if conn ∈ t.links then
        some ({ t with links := t.links.erase conn }, [.onDisconnect, .startAdvertising])
      else none
    | .mtu conn mtu =>
      if conn ∈ t.links ∧ 23 ≤ mtu ∧ mtu ≤ espGattMaxAttrLen + 1 then some (t, []) else none
    | .read conn h _ needRsp =>
      if conn ∈ t.links then
        some (t, order.flatMap fun i =>
          if h = handle i ∧ needRsp then [.readResponse conn h ⟨0, t.value i⟩] else [])
      else none
    | .write conn h offset isPrep needRsp value =>
      if conn ∈ t.links ∧ value.length ≤ 100 ∧ (isPrep = false → Fits value) then
        some ({ t with
            value := fun i => if h = handle i ∧ isPrep = false then value else t.value i
            pending := fun i => if h = handle i ∧ isPrep then t.pending i ++ value else t.pending i
            subscribed := fun i => if h = descHandle i then
              (value.head?.map fun b => decide (b &&& 1 ≠ 0)).getD (t.subscribed i)
              else t.subscribed i },
          order.flatMap fun i =>
            if h = handle i ∧ needRsp then [.writeResponse conn h offset value] else [])
      else none
    | .execWrite conn exec =>
      if conn ∈ t.links ∧ ∀ i ∈ order, exec = true → Fits (t.pending i) then
        some ({ t with
            value := fun i => if exec ∧ t.pending i ≠ [] then t.pending i else t.value i
            pending := fun _ => [] },
          order.map fun _ => .execResponse conn)
      else none
    | .setValue i data =>
      if Fits data then some ({ t with value := Function.update t.value i data }, []) else none
    | .notify i sent =>
      some (t, if t.subscribed i then ((t.links.sort (· ≤ ·)).takeWhile sent).map fun conn =>
        .notification conn (handle i) (t.value i) else [])

/-! ### The refinement -/

/-- A characteristic holds what the specification says of it, and no read of it has begun. -/
structure BleCharacteristic.Holds (c : BleCharacteristic) (handle descHandle : ℕ)
    (value pending : List UInt8) (subscribed : Bool) : Prop where
  handle_eq : c.handle = handle
  value_eq : c.value = ⟨pending, 0, value⟩
  fits : Fits value
  descHandle_eq : c.desc.handle = descHandle
  length_attrValue : c.desc.attrValue.length = 100
  getNotifications_eq : c.desc.getNotifications = some subscribed

/-- A state of the server that the specification describes. -/
structure BleServer.Refines {ι : Type} (handle descHandle : ι → ℕ) (s : BleServer ι)
    (t : GattSpec ι) : Prop where
  keys_eq : s.connectedServers.keys = t.links
  connectedCount_eq : s.connectedCount = t.links.card
  conn_lt : ∀ conn ∈ t.links, conn < 2 ^ 16
  mtu_bounds : ∀ conn ∈ t.links, 23 ≤ s.connectedServers.mtu conn ∧
    s.connectedServers.mtu conn ≤ espGattMaxAttrLen + 1
  chars_hold : ∀ i, (s.chars i).Holds (handle i) (descHandle i) (t.value i) (t.pending i)
    (t.subscribed i)

section Descriptor

variable {d : BleDescriptor} {b : Bool}

theorem BleDescriptor.exists_setValue (hd : d.attrValue.length = 100)
    (hb : d.getNotifications = some b) {data : List UInt8} (hdata : data.length ≤ 100) :
    ∃ d', d.setValue data = some d' ∧ d'.handle = d.handle ∧ d'.attrValue.length = 100 ∧
      d'.getNotifications = some ((data.head?.map fun x => decide (x &&& 1 ≠ 0)).getD b) := by
  have hset : d.setValue data = some { d with
      attrLen := data.length, attrValue := data ++ d.attrValue.drop data.length } := by
    rw [setValue, if_neg (by rw [espGattMaxAttrLen]; omega), if_pos (by omega)]
  refine ⟨_, hset, rfl, ?_, ?_⟩
  · rw [List.length_append, List.length_drop]
    omega
  · cases data with
    | nil => simpa [getNotifications] using hb
    | cons x data => simp [getNotifications]

end Descriptor

namespace BleCharacteristic

variable {ι : Type} {c : BleCharacteristic} {handle descHandle : ℕ} {value pending : List UInt8}
  {subscribed : Bool}

theorem Fits.setValue {value : List UInt8} (h : Fits value) (v : BleValue) :
    v.setValue value = { v with value := value } :=
  if_neg (by rw [Fits] at h; rw [espGattMaxAttrLen]; omega)

/-- **A read** of either kind is answered by the whole value. -/
theorem Holds.read (h : c.Holds handle descHandle value pending subscribed) {m : ℕ} (hm : 23 ≤ m)
    (hmax : m ≤ espGattMaxAttrLen + 1) (isLong : Bool) :
    c.value.read m isLong = some (c.value, ⟨0, value⟩) := by
  have hfits : value.length < 22 := h.fits
  rw [h.value_eq]
  cases isLong with
  | false => exact BleValue.read_whole (by omega) hmax (by dsimp only; omega)
  | true =>
    exact BleValue.read_last (by omega) hmax (Nat.zero_le _) (by dsimp only; omega)
      (by dsimp only; omega)

/-- The characteristic after the handling of an event that does not concern its descriptor. -/
theorem handleGattServerEvent_eq {mtu : ℕ → Option ℕ} {e : ServerEvent ι} {c' : BleCharacteristic}
    {as : List ServerAction} (h : c.handleOwn mtu e = some (c', as))
    (hd : c'.desc.handleGattServerEvent e = some c'.desc) :
    c.handleGattServerEvent mtu e = some (c', as) := by
  simp [handleGattServerEvent, h, hd]

theorem Holds.handle_read (h : c.Holds handle descHandle value pending subscribed)
    {mtu : ℕ → Option ℕ} {conn m : ℕ} (hconn : mtu conn = some m) (hm : 23 ≤ m)
    (hmax : m ≤ espGattMaxAttrLen + 1) (a : ℕ) (isLong needRsp : Bool) :
    c.handleGattServerEvent (ι := ι) mtu (.read conn a isLong needRsp) =
      some (c, if a = handle ∧ needRsp then [.readResponse conn a ⟨0, value⟩] else []) := by
  refine handleGattServerEvent_eq ?_ rfl
  have hread := h.read hm hmax isLong
  obtain rfl := h.handle_eq
  by_cases ha : a = c.handle <;> cases needRsp <;> simp [handleOwn, ha, hconn, hread]

theorem Holds.handle_execWrite (h : c.Holds handle descHandle value pending subscribed)
    (mtu : ℕ → Option ℕ) (conn : ℕ) {exec : Bool} (hfits : exec = true → Fits pending) :
    ∃ c', c.handleGattServerEvent (ι := ι) mtu (.execWrite conn exec) =
        some (c', [.execResponse conn]) ∧
      c'.Holds handle descHandle (if exec ∧ pending ≠ [] then pending else value) []
        subscribed := by
  refine ⟨_, handleGattServerEvent_eq rfl rfl, h.handle_eq, ?_, ?_, h.descHandle_eq,
    h.length_attrValue, h.getNotifications_eq⟩
  · rw [h.value_eq]
    cases exec with
    | false => simp [BleValue.cancel]
    | true => by_cases hp : pending = [] <;> simp [BleValue.commit, hp]
  · cases exec with
    | false => simpa using h.fits
    | true => by_cases hp : pending = [] <;> simp [hp, h.fits, hfits rfl]

theorem Holds.handle_write (h : c.Holds handle descHandle value pending subscribed)
    (mtu : ℕ → Option ℕ) (conn a offset : ℕ) {isPrep : Bool} (needRsp : Bool) {data : List UInt8}
    (hdata : data.length ≤ 100) (hfits : isPrep = false → Fits data) :
    ∃ c', c.handleGattServerEvent (ι := ι) mtu (.write conn a offset isPrep needRsp data) =
        some (c', if a = handle ∧ needRsp then [.writeResponse conn a offset data] else []) ∧
      c'.Holds handle descHandle (if a = handle ∧ isPrep = false then data else value)
        (if a = handle ∧ isPrep then pending ++ data else pending)
        (if a = descHandle then
          (data.head?.map fun b => decide (b &&& 1 ≠ 0)).getD subscribed else subscribed) := by
  have hmax : data.length ≤ espGattMaxAttrLen := hdata.trans (by decide)
  obtain ⟨v, hown, hv, hvfits⟩ : ∃ v, c.handleOwn mtu
      (ServerEvent.write (ι := ι) conn a offset isPrep needRsp data) = some ({ c with value := v },
        if a = handle ∧ needRsp then [.writeResponse conn a offset data] else []) ∧
      v = ⟨if a = handle ∧ isPrep then pending ++ data else pending, 0,
        if a = handle ∧ isPrep = false then data else value⟩ ∧ Fits v.value := by
    obtain rfl := h.handle_eq
    by_cases ha : a = c.handle
    · cases isPrep with
      | true =>
        refine ⟨c.value.addPart data, ?_, by simp [ha, h.value_eq, BleValue.addPart], ?_⟩
        · cases needRsp <;> simp [handleOwn, ha, hmax]
        · simpa [BleValue.addPart, h.value_eq] using h.fits
      | false =>
        have hset := Fits.setValue (hfits rfl) c.value
        refine ⟨c.value.setValue data, ?_, by rw [hset, h.value_eq]; simp [ha], ?_⟩
        · cases needRsp <;> simp [handleOwn, ha, hmax]
        · simpa [hset] using hfits rfl
    · exact ⟨c.value, by simp [handleOwn, ha], by simp [ha, h.value_eq],
        by simpa [h.value_eq] using h.fits⟩
  obtain ⟨d, hdesc, hdhandle, hdlength, hdnotify⟩ : ∃ d,
      c.desc.handleGattServerEvent (ServerEvent.write (ι := ι) conn a offset isPrep needRsp data) =
        some d ∧ d.handle = descHandle ∧ d.attrValue.length = 100 ∧
      d.getNotifications = some (if a = descHandle then
        (data.head?.map fun b => decide (b &&& 1 ≠ 0)).getD subscribed else subscribed) := by
    obtain rfl := h.descHandle_eq
    by_cases ha : a = c.desc.handle
    · obtain ⟨d, hset, hd⟩ :=
        BleDescriptor.exists_setValue h.length_attrValue h.getNotifications_eq hdata
      exact ⟨d, by simpa [BleDescriptor.handleGattServerEvent, ha] using hset,
        by simpa [ha] using hd⟩
    · exact ⟨c.desc, by simp [BleDescriptor.handleGattServerEvent, ha], rfl, h.length_attrValue,
        by simpa [ha] using h.getNotifications_eq⟩
  refine ⟨{ c with value := v, desc := d }, ?_, h.handle_eq, hv, ?_, hdhandle, hdlength, hdnotify⟩
  · simp [handleGattServerEvent, hown, hdesc]
  · simpa [hv] using hvfits

end BleCharacteristic

namespace BleServer

variable {ι : Type} [DecidableEq ι]

/-- **What the characteristics do together.** -/
theorem dispatch_eq {f : BleCharacteristic → Option (BleCharacteristic × List ServerAction)}
    {cs cs' : ι → BleCharacteristic} {as : ι → List ServerAction} {order : List ι}
    (hf : ∀ i ∈ order, f (cs i) = some (cs' i, as i)) (hnodup : order.Nodup) :
    dispatch f order cs = some (fun i => if i ∈ order then cs' i else cs i, order.flatMap as) := by
  induction order generalizing cs with
  | nil => simp [dispatch]
  | cons j order ih =>
    obtain ⟨hj, hnodup⟩ := List.nodup_cons.mp hnodup
    have hupdate : ∀ i ∈ order, f (Function.update cs j (cs' j) i) = some (cs' i, as i) := by
      intro i hi
      rw [Function.update_of_ne (ne_of_mem_of_not_mem hi hj)]
      exact hf i (List.mem_cons_of_mem j hi)
    have hchars : (fun i => if i ∈ order then cs' i else Function.update cs j (cs' j) i) =
        fun i => if i ∈ j :: order then cs' i else cs i := by
      funext i
      by_cases hij : i = j
      · subst hij
        simp
      · simp [hij]
    simp [dispatch, hf j (List.mem_cons_self ..), ih hupdate hnodup, hchars]

variable {order : List ι} {handle descHandle : ι → ℕ} {s : BleServer ι} {t : GattSpec ι}

/-- The server after an event, from what it does itself and what each characteristic does. -/
theorem handleGattServerEvent_eq {e : ServerEvent ι} {s' : BleServer ι} {as : List ServerAction}
    {cs : ι → BleCharacteristic} {as' : ι → List ServerAction} (hown : s.handleOwn e = (s', as))
    (hf : ∀ i, (s'.chars i).handleGattServerEvent s'.connectedServers.find e = some (cs i, as' i))
    (hnodup : order.Nodup) (horder : ∀ i, i ∈ order) :
    s.handleGattServerEvent order e = some ({ s' with chars := cs }, as ++ order.flatMap as') := by
  have hdispatch := dispatch_eq (f := (·.handleGattServerEvent s'.connectedServers.find e))
    (fun i _ => hf i) hnodup
  simp only [horder, if_true] at hdispatch
  simp [handleGattServerEvent, hown, hdispatch]

theorem dispatch_of_forall {f : BleCharacteristic → Option (BleCharacteristic × List ServerAction)}
    (hf : ∀ c, f c = some (c, [])) (order : List ι) (cs : ι → BleCharacteristic) :
    dispatch f order cs = some (cs, []) := by
  induction order with
  | nil => rfl
  | cons i order ih => simp [dispatch, hf, ih]

/-- The server after an event that does not concern the characteristics. -/
theorem handleGattServerEvent_own {e : ServerEvent ι} {s' : BleServer ι} {as : List ServerAction}
    (hown : s.handleOwn e = (s', as))
    (hf : ∀ c : BleCharacteristic,
      c.handleGattServerEvent s'.connectedServers.find e = some (c, [])) :
    s.handleGattServerEvent order e = some (s', as) := by
  have hdispatch := dispatch_of_forall
    (f := (·.handleGattServerEvent s'.connectedServers.find e)) hf order s'.chars
  simp [handleGattServerEvent, hown, hdispatch]

end BleServer

namespace BleServer.Refines

variable {ι : Type} {handle descHandle : ι → ℕ} {s : BleServer ι} {t : GattSpec ι}

theorem find_eq (h : s.Refines handle descHandle t) {conn : ℕ} (hconn : conn ∈ t.links) :
    ∃ m, s.connectedServers.find conn = some m ∧ 23 ≤ m ∧ m ≤ espGattMaxAttrLen + 1 := by
  refine ⟨_, if_pos (h.keys_eq ▸ hconn), ?_⟩
  exact h.mtu_bounds conn hconn

theorem card_links_lt (h : s.Refines handle descHandle t) : t.links.card < 2 ^ 16 + 1 := by
  have hsubset : t.links ⊆ Finset.range (2 ^ 16) := fun conn hconn =>
    Finset.mem_range.mpr (h.conn_lt conn hconn)
  have hcard := Finset.card_le_card hsubset
  rw [Finset.card_range] at hcard
  omega

/-- Only the characteristics have changed. -/
theorem with_chars (h : s.Refines handle descHandle t) {cs : ι → BleCharacteristic}
    {value pending : ι → List UInt8} {subscribed : ι → Bool}
    (hcs : ∀ i, (cs i).Holds (handle i) (descHandle i) (value i) (pending i) (subscribed i)) :
    BleServer.Refines handle descHandle { s with chars := cs }
      ⟨t.links, value, pending, subscribed⟩ :=
  ⟨h.keys_eq, h.connectedCount_eq, h.conn_lt, h.mtu_bounds, hcs⟩

theorem notify_eq (h : s.Refines handle descHandle t) (i : ι) (sent : ℕ → Bool) :
    s.notify i sent = some (if t.subscribed i then ((t.links.sort (· ≤ ·)).takeWhile sent).map
      fun conn => .notification conn (handle i) (t.value i) else []) := by
  have hi := h.chars_hold i
  rw [notify, hi.getNotifications_eq, hi.handle_eq, hi.value_eq, ConnMap.toList, h.keys_eq,
    h.connectedCount_eq]
  by_cases hnone : t.links = ∅
  · simp [hnone]
  · have hcard : t.links.card ≠ 0 := by simpa using hnone
    cases hsub : t.subscribed i <;> simp [hcard]

variable [DecidableEq ι] {order : List ι}

theorem step_connect (h : s.Refines handle descHandle t) {conn : ℕ} (hnew : conn ∉ t.links)
    (hlt : conn < 2 ^ 16) :
    ∃ s', (bleServer order).step s (.connect conn) = some (s', [.onConnect]) ∧
      s'.Refines handle descHandle { t with links := t.links ∪ {conn} } := by
  have hkeys : conn ∉ s.connectedServers.keys := h.keys_eq ▸ hnew
  have hcard := h.card_links_lt
  refine ⟨_, handleGattServerEvent_own (e := .connect conn) rfl fun c => rfl,
    ?_, ?_, ?_, ?_, h.chars_hold⟩
  · simp only [addPeerDevice, ConnMap.insert, h.keys_eq, if_neg hnew]
  · dsimp only
    rw [h.connectedCount_eq, Finset.card_union_of_disjoint (by simpa using hnew),
      Finset.card_singleton]
    exact Nat.mod_eq_of_lt (by omega)
  · intro c hc
    rcases Finset.mem_union.mp hc with hc | hc
    · exact h.conn_lt c hc
    · exact Finset.mem_singleton.mp hc ▸ hlt
  · intro c hc
    simp only [addPeerDevice, ConnMap.insert, if_neg hkeys]
    rcases Finset.mem_union.mp hc with hc | hc
    · rw [Function.update_of_ne (ne_of_mem_of_not_mem hc hnew)]
      exact h.mtu_bounds c hc
    · rw [Finset.mem_singleton.mp hc, Function.update_self]
      exact ⟨by decide, by decide⟩

theorem step_disconnect (h : s.Refines handle descHandle t) {conn : ℕ} (hconn : conn ∈ t.links) :
    ∃ s', (bleServer order).step s (.disconnect conn) =
        some (s', [.onDisconnect, .startAdvertising]) ∧
      s'.Refines handle descHandle { t with links := t.links.erase conn } := by
  have hcard := h.card_links_lt
  have hpos := Finset.card_pos.mpr ⟨conn, hconn⟩
  refine ⟨_, handleGattServerEvent_own (e := .disconnect conn) rfl fun c => rfl, ?_, ?_, ?_, ?_,
    h.chars_hold⟩
  · simp only [removePeerDevice, ConnMap.erase, h.keys_eq]
  · dsimp only
    rw [h.connectedCount_eq, Finset.card_erase_of_mem hconn]
    omega
  · exact fun c hc => h.conn_lt c (Finset.mem_of_mem_erase hc)
  · exact fun c hc => h.mtu_bounds c (Finset.mem_of_mem_erase hc)

theorem step_mtu (h : s.Refines handle descHandle t) {conn m : ℕ} (hconn : conn ∈ t.links)
    (hm : 23 ≤ m) (hmax : m ≤ espGattMaxAttrLen + 1) :
    ∃ s', (bleServer order).step s (.mtu conn m) = some (s', []) ∧
      s'.Refines handle descHandle t := by
  have hkeys : conn ∈ s.connectedServers.keys := h.keys_eq ▸ hconn
  have hupdate : s.updatePeerMTU conn m = { s with connectedServers :=
      ⟨s.connectedServers.keys, Function.update s.connectedServers.mtu conn m⟩ } := if_pos hkeys
  refine ⟨_, handleGattServerEvent_own (e := .mtu conn m) rfl fun c => rfl, ?_⟩
  rw [hupdate]
  refine ⟨h.keys_eq, h.connectedCount_eq, h.conn_lt, fun c hc => ?_, h.chars_hold⟩
  by_cases hcc : c = conn
  · subst hcc
    simpa using ⟨hm, hmax⟩
  · simpa [hcc] using h.mtu_bounds c hc

theorem step_read (h : s.Refines handle descHandle t) (hnodup : order.Nodup)
    (horder : ∀ i, i ∈ order) {conn : ℕ} (hconn : conn ∈ t.links) (a : ℕ) (isLong needRsp : Bool) :
    (bleServer order).step s (.read conn a isLong needRsp) = some (s, order.flatMap fun i =>
      if a = handle i ∧ needRsp then [.readResponse conn a ⟨0, t.value i⟩] else []) := by
  obtain ⟨m, hfind, hm, hmax⟩ := h.find_eq hconn
  exact BleServer.handleGattServerEvent_eq (e := .read conn a isLong needRsp) rfl
    (fun i => (h.chars_hold i).handle_read hfind hm hmax a isLong needRsp) hnodup horder

theorem step_write (h : s.Refines handle descHandle t) (hnodup : order.Nodup)
    (horder : ∀ i, i ∈ order) (conn a offset : ℕ) {isPrep : Bool} (needRsp : Bool)
    {data : List UInt8} (hdata : data.length ≤ 100) (hfits : isPrep = false → Fits data) :
    ∃ s', (bleServer order).step s (.write conn a offset isPrep needRsp data) =
        some (s', order.flatMap fun i =>
          if a = handle i ∧ needRsp then [.writeResponse conn a offset data] else []) ∧
      s'.Refines handle descHandle { t with
        value := fun i => if a = handle i ∧ isPrep = false then data else t.value i
        pending := fun i => if a = handle i ∧ isPrep then t.pending i ++ data else t.pending i
        subscribed := fun i => if a = descHandle i then
          (data.head?.map fun b => decide (b &&& 1 ≠ 0)).getD (t.subscribed i)
          else t.subscribed i } := by
  choose cs hcs hholds using fun i => (h.chars_hold i).handle_write (ι := ι)
    s.connectedServers.find conn a offset needRsp hdata hfits
  refine ⟨{ s with chars := cs }, ?_, h.with_chars hholds⟩
  exact BleServer.handleGattServerEvent_eq (e := .write conn a offset isPrep needRsp data) rfl hcs
    hnodup horder

theorem step_execWrite (h : s.Refines handle descHandle t) (hnodup : order.Nodup)
    (horder : ∀ i, i ∈ order) (conn : ℕ) {exec : Bool}
    (hfits : ∀ i ∈ order, exec = true → Fits (t.pending i)) :
    ∃ s', (bleServer order).step s (.execWrite conn exec) =
        some (s', order.map fun _ => .execResponse conn) ∧
      s'.Refines handle descHandle { t with
        value := fun i => if exec ∧ t.pending i ≠ [] then t.pending i else t.value i
        pending := fun _ => [] } := by
  choose cs hcs hholds using fun i => (h.chars_hold i).handle_execWrite (ι := ι)
    s.connectedServers.find conn (hfits i (horder i))
  refine ⟨{ s with chars := cs }, ?_, h.with_chars hholds⟩
  rw [List.map_eq_flatMap]
  exact BleServer.handleGattServerEvent_eq (e := .execWrite conn exec) rfl hcs hnodup horder

theorem step_setValue (h : s.Refines handle descHandle t) (i : ι) {data : List UInt8}
    (hfits : Fits data) :
    (s.setValue i data).Refines handle descHandle
      { t with value := Function.update t.value i data } := by
  refine h.with_chars fun j => ?_
  by_cases hij : j = i
  · subst hij
    have hj := h.chars_hold j
    rw [Function.update_self, Function.update_self, BleCharacteristic.Fits.setValue hfits,
      hj.value_eq]
    exact ⟨hj.handle_eq, rfl, hfits, hj.descHandle_eq, hj.length_attrValue, hj.getNotifications_eq⟩
  · rw [Function.update_of_ne hij, Function.update_of_ne hij]
    exact h.chars_hold j

/-- **One step.** -/
theorem step (h : s.Refines handle descHandle t) (hnodup : order.Nodup) (horder : ∀ i, i ∈ order)
    {e : ServerEvent ι} {t' : GattSpec ι} {as : List ServerAction}
    (hstep : (gattSpec order handle descHandle).step t e = some (t', as)) :
    ∃ s', (bleServer order).step s e = some (s', as) ∧ s'.Refines handle descHandle t' := by
  cases e with
  | connect conn =>
    obtain ⟨hlegal, heq⟩ := Option.ite_none_right_eq_some.mp hstep
    obtain ⟨rfl, rfl⟩ := Prod.mk.inj (Option.some.inj heq)
    exact h.step_connect hlegal.1 hlegal.2
  | disconnect conn =>
    obtain ⟨hlegal, heq⟩ := Option.ite_none_right_eq_some.mp hstep
    obtain ⟨rfl, rfl⟩ := Prod.mk.inj (Option.some.inj heq)
    exact h.step_disconnect hlegal
  | mtu conn m =>
    obtain ⟨hlegal, heq⟩ := Option.ite_none_right_eq_some.mp hstep
    obtain ⟨rfl, rfl⟩ := Prod.mk.inj (Option.some.inj heq)
    exact h.step_mtu hlegal.1 hlegal.2.1 hlegal.2.2
  | read conn a isLong needRsp =>
    obtain ⟨hlegal, heq⟩ := Option.ite_none_right_eq_some.mp hstep
    obtain ⟨rfl, rfl⟩ := Prod.mk.inj (Option.some.inj heq)
    exact ⟨s, h.step_read hnodup horder hlegal a isLong needRsp, h⟩
  | write conn a offset isPrep needRsp data =>
    obtain ⟨hlegal, heq⟩ := Option.ite_none_right_eq_some.mp hstep
    obtain ⟨rfl, rfl⟩ := Prod.mk.inj (Option.some.inj heq)
    exact h.step_write hnodup horder conn a offset needRsp hlegal.2.1 hlegal.2.2
  | execWrite conn exec =>
    obtain ⟨hlegal, heq⟩ := Option.ite_none_right_eq_some.mp hstep
    obtain ⟨rfl, rfl⟩ := Prod.mk.inj (Option.some.inj heq)
    exact h.step_execWrite hnodup horder conn hlegal.2
  | setValue i data =>
    obtain ⟨hfits, heq⟩ := Option.ite_none_right_eq_some.mp hstep
    obtain ⟨rfl, rfl⟩ := Prod.mk.inj (Option.some.inj heq)
    exact ⟨_, rfl, h.step_setValue i hfits⟩
  | notify i sent =>
    obtain ⟨rfl, rfl⟩ := Prod.mk.inj (Option.some.inj hstep)
    exact ⟨s, congrArg (Option.map fun as => (s, as)) (h.notify_eq i sent), h⟩

/-- **Any run.** -/
theorem run (h : s.Refines handle descHandle t) (hnodup : order.Nodup) (horder : ∀ i, i ∈ order)
    {es : List (ServerEvent ι)} {t' : GattSpec ι} {as : List ServerAction}
    (hrun : (gattSpec order handle descHandle).run t es = some (t', as)) :
    ∃ s', (bleServer order).run s es = some (s', as) ∧ s'.Refines handle descHandle t' :=
  Transducer.run_refines _ (fun _ _ _ _ _ h hstep => h.step hnodup horder hstep) h hrun

end BleServer.Refines

/-! ### The server from its start -/

section Start

variable {ι : Type}

/-- A server whose characteristics have been created, each with a new `BLE2902`. -/
def BleServer.init (handle descHandle : ι → ℕ) : BleServer ι where
  connectedCount := 0
  connectedServers := ⟨∅, fun _ => 0⟩
  chars i := ⟨handle i, .init, ⟨descHandle i, 2, List.replicate 100 0⟩⟩

/-- No client is connected, all values are empty and all notifications switched off. -/
def GattSpec.init : GattSpec ι := ⟨∅, fun _ => [], fun _ => [], fun _ => false⟩

theorem BleServer.refines_init (handle descHandle : ι → ℕ) :
    (BleServer.init handle descHandle).Refines handle descHandle .init :=
  ⟨rfl, rfl, by simp [GattSpec.init], by simp [GattSpec.init],
    fun i => ⟨rfl, rfl, (by decide : Fits []), rfl, rfl, rfl⟩⟩

variable [DecidableEq ι]

/-- **The server refines its specification**: in every run for which the specification says what
happens, with any number of clients and in any order of their requests and the operations of the
application, the server calls back, advertises, responds and notifies as specified. -/
theorem bleServer_refines {order : List ι} (hnodup : order.Nodup) (horder : ∀ i, i ∈ order)
    (handle descHandle : ι → ℕ) {es : List (ServerEvent ι)} {t : GattSpec ι}
    {as : List ServerAction}
    (hrun : (gattSpec order handle descHandle).run .init es = some (t, as)) :
    ∃ s, (bleServer order).run (.init handle descHandle) es = some (s, as) ∧
      s.Refines handle descHandle t :=
  (BleServer.refines_init handle descHandle).run hnodup horder hrun

/-- A client reads a value with a request for the rest of a long one. -/
theorem bleServer_refines_read :
    ∃ s t, (bleServer [()]).run (.init (fun _ => 42) fun _ => 43)
        [.connect 0, .setValue () [1, 2, 3], .read 0 42 true true] =
        some (s, [.onConnect, .readResponse 0 42 ⟨0, [1, 2, 3]⟩]) ∧
      s.Refines (fun _ => 42) (fun _ => 43) t := by
  have hspec : (gattSpec [()] (fun _ => 42) fun _ => 43).run .init
      [.connect 0, .setValue () [1, 2, 3], .read 0 42 true true] =
        some (_, [.onConnect, .readResponse 0 42 ⟨0, [1, 2, 3]⟩]) := rfl
  obtain ⟨s, hrun, h⟩ := bleServer_refines (List.nodup_singleton ()) (by simp) _ _ hspec
  exact ⟨s, _, hrun, h⟩

end Start

/-! ### Who is notified -/

section Notified

variable {ι : Type} [DecidableEq ι] {order : List ι} {handle descHandle : ι → ℕ}
  {es : List (ServerEvent ι)} {t : GattSpec ι} {as : List ServerAction}

/-- The client has connected and has not disconnected since. -/
def Linked (conn : ℕ) (es : List (ServerEvent ι)) : Prop :=
  Since (· = .connect conn) (· = .disconnect conn) es

/-- The event writes the descriptor with the handle `a`, and the flag for notifications is `b`. -/
def ServerEvent.Switches (a : ℕ) (b : Bool) (e : ServerEvent ι) : Prop :=
  ∃ conn offset isPrep needRsp x data,
    e = .write conn a offset isPrep needRsp (x :: data) ∧ decide (x &&& 1 ≠ 0) = b

/-- Some client has switched the notifications on and none has switched them off since. -/
def SwitchedOn (a : ℕ) (es : List (ServerEvent ι)) : Prop :=
  Since (ServerEvent.Switches a true) (ServerEvent.Switches a false) es

theorem mem_links_iff (hrun : (gattSpec order handle descHandle).run .init es = some (t, as))
    (conn : ℕ) : conn ∈ t.links ↔ Linked conn es := by
  refine Transducer.iff_since_of_run (P := fun t => conn ∈ t.links) (by simp [GattSpec.init]) ?_
    hrun
  intro s e t os hstep
  cases e with
  | connect c =>
    obtain ⟨hlegal, heq⟩ := Option.ite_none_right_eq_some.mp hstep
    obtain ⟨rfl, -⟩ := Prod.mk.inj (Option.some.inj heq)
    simp [eq_comm]
  | disconnect c =>
    obtain ⟨hlegal, heq⟩ := Option.ite_none_right_eq_some.mp hstep
    obtain ⟨rfl, -⟩ := Prod.mk.inj (Option.some.inj heq)
    simp [and_comm, eq_comm]
  | mtu | read | write | execWrite | setValue =>
    obtain ⟨hlegal, heq⟩ := Option.ite_none_right_eq_some.mp hstep
    obtain ⟨rfl, -⟩ := Prod.mk.inj (Option.some.inj heq)
    simp
  | notify i sent =>
    obtain ⟨rfl, -⟩ := Prod.mk.inj (Option.some.inj hstep)
    simp

theorem subscribed_iff (hrun : (gattSpec order handle descHandle).run .init es = some (t, as))
    (i : ι) : t.subscribed i = true ↔ SwitchedOn (descHandle i) es := by
  refine Transducer.iff_since_of_run (P := fun t => t.subscribed i = true) (by simp [GattSpec.init])
    ?_ hrun
  intro s e t os hstep
  cases e with
  | write conn a offset isPrep needRsp data =>
    obtain ⟨hlegal, heq⟩ := Option.ite_none_right_eq_some.mp hstep
    obtain ⟨rfl, -⟩ := Prod.mk.inj (Option.some.inj heq)
    by_cases ha : a = descHandle i
    · cases data with
      | nil => simp [ha, ServerEvent.Switches]
      | cons x data => by_cases hx : x &&& 1 = 0 <;> simp [ha, ServerEvent.Switches, hx]
    · simp [ha, ServerEvent.Switches]
  | connect | disconnect | mtu | read | execWrite | setValue =>
    obtain ⟨hlegal, heq⟩ := Option.ite_none_right_eq_some.mp hstep
    obtain ⟨rfl, -⟩ := Prod.mk.inj (Option.some.inj heq)
    simp [ServerEvent.Switches]
  | notify i sent =>
    obtain ⟨rfl, -⟩ := Prod.mk.inj (Option.some.inj hstep)
    simp [ServerEvent.Switches]

/-- **Who is notified.** After any run that the specification defines, and if everything can be
sent, `notify` sends the current value to exactly the connected clients, if some client, connected
or not, has switched the notifications of the characteristic on and none has switched them off
since. -/
theorem bleServer_notifies (hnodup : order.Nodup) (horder : ∀ i, i ∈ order)
    (hrun : (gattSpec order handle descHandle).run .init es = some (t, as)) (i : ι) :
    ∃ s ns, (bleServer order).run (.init handle descHandle) (es ++ [.notify i fun _ => true]) =
        some (s, as ++ ns) ∧
      ∀ conn v, .notification conn (handle i) v ∈ ns ↔
        SwitchedOn (descHandle i) es ∧ Linked conn es ∧ v = t.value i := by
  obtain ⟨s, hs, h⟩ := (BleServer.refines_init handle descHandle).run hnodup horder hrun
  have htake (l : List ℕ) : l.takeWhile (fun _ => true) = l :=
    List.takeWhile_eq_self_iff.mpr fun _ _ => rfl
  have hnotify := h.notify_eq i fun _ => true
  have hstep : (bleServer order).step s (.notify i fun _ => true) = some (s, _) :=
    congrArg (Option.map fun as => (s, as)) hnotify
  refine ⟨s, _, Transducer.run_concat_of_eq_some hs hstep, fun conn v => ?_⟩
  rw [← subscribed_iff hrun i, ← mem_links_iff hrun conn]
  rw [htake]
  cases t.subscribed i <;> simp [eq_comm]

/-- A client that has not switched the notifications on is notified. -/
theorem bleServer_notifies_another_client :
    ∃ s as, (bleServer [()]).run (.init (fun _ => 42) fun _ => 43)
        [.connect 0, .write 0 43 0 false true [1, 0], .disconnect 0, .connect 1,
          .notify () fun _ => true] = some (s, as) ∧ .notification 1 42 [] ∈ as := by
  have hspec : (gattSpec [()] (fun _ => 42) fun _ => 43).run .init [.connect 0,
      .write 0 43 0 false true [1, 0], .disconnect 0, .connect 1] = some (_, _) := rfl
  obtain ⟨s, ns, hrun, hns⟩ := bleServer_notifies (List.nodup_singleton ()) (by simp) hspec ()
  refine ⟨s, _, hrun, List.mem_append_right _ ((hns 1 []).mpr ⟨?_, ?_, rfl⟩)⟩
  · exact ⟨[.connect 0], _, [.disconnect 0, .connect 1], rfl, ⟨0, 0, false, true, 1, [0], rfl, rfl⟩,
      by simp [ServerEvent.Switches]⟩
  · exact ⟨[.connect 0, .write 0 43 0 false true [1, 0], .disconnect 0], _, [], rfl, rfl, by simp⟩

end Notified

end GpsTracker
