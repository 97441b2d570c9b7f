import GpsTracker.Ble.Server

/-!
# The registration of a service

`BLEServer::createService` and `BLEService::start` register a service and then its characteristics
one after the other, each with its descriptor 0x2902. An object takes a semaphore, asks the stack
for a handle and waits until the handler of the answer gives the semaphore.

The stack is a parameter. A service is created with the largest number of handles that it may have:
the service itself takes one of them, a characteristic two, a descriptor one, and a request that is
not granted is answered with the handle 0, which no attribute has.

The registration always comes to an end, whatever the stack answers, and the characteristics that
have got handles for themselves and their descriptors are at most a third of the number of handles
(`startService_ends`). A characteristic without them is never notified (`BleServer.neverNotifies`).

## Main definitions

* `GattStack`.
* `CharRegistration`, `BleService`, `startService`.
* `CharRegistration.Registered`, `BleCharacteristic.Keeps`, `BleServer.NeverNotifies`.

## Main results

* `BleService.executeCreateChar_eq`, `startService_ends`.
* `BleServer.neverNotifies`.
-/

namespace GpsTracker

/-! ### The stack -/

/-- `NULL_HANDLE`. -/
def nullHandle : ℕ := 0xffff

/-- The part of the stack that gives handles to one service, with what is left of them. -/
structure GattStack (σ : Type) where
  createService : ℕ → σ × ℕ
  addChar : σ → σ × ℕ
  addCharDescr : σ → σ × ℕ
  free : σ → ℕ
  createService_ne : ∀ n, 0 < n → (createService n).2 ≠ nullHandle
  free_createService : ∀ n, 0 < n → free (createService n).1 < n
  free_addChar_le : ∀ t, free (addChar t).1 ≤ free t
  free_addChar : ∀ t, (addChar t).2 ≠ 0 → free (addChar t).1 + 2 ≤ free t
  free_addCharDescr_le : ∀ t, free (addCharDescr t).1 ≤ free t
  free_addCharDescr : ∀ t, (addCharDescr t).2 ≠ 0 → free (addCharDescr t).1 < free t

/-! ### The objects of the library -/

/-- `FreeRTOS::Semaphore::take`. It blocks as long as the semaphore is not available. -/
def semaphoreTake (available : Bool) : Option Bool := if available then some false else none

/-- `FreeRTOS::Semaphore::wait`: the semaphore is taken and given back. -/
def semaphoreWait (available : Bool) : Option Bool := if available then some true else none

/-- What a `BLECharacteristic` and its `BLE2902` keep for their registration: their handles and
semaphores, and whether the descriptor knows its characteristic. -/
structure CharRegistration where
  handle : ℕ
  semaphore : Bool
  descAttached : Bool
  descHandle : ℕ
  descSemaphore : Bool
  deriving DecidableEq, Repr

namespace CharRegistration

/-- The objects after their construction. -/
def new : CharRegistration := ⟨nullHandle, true, false, nullHandle, true⟩

/-- The objects after their registration. -/
def created (handle descHandle : ℕ) : CharRegistration := ⟨handle, true, true, descHandle, true⟩

/-- `BLECharacteristic::handleGATTServerEvent` for `ESP_GATTS_ADD_CHAR_EVT`. -/
def handleAddChar (attrHandle : ℕ) (c : CharRegistration) : CharRegistration :=
  if c.handle = attrHandle then { c with semaphore := true } else c

/-- `BLEDescriptor::handleGATTServerEvent` for `ESP_GATTS_ADD_CHAR_DESCR_EVT`, by whether the
characteristic is the one created last. -/
def handleAddCharDescr (attrHandle : ℕ) (isLast : Prop) [Decidable isLast] (c : CharRegistration) :
    CharRegistration :=
  if c.descAttached ∧ isLast then { c with descHandle := attrHandle, descSemaphore := true } else c

/-- The characteristic and its descriptor have handles. -/
def Registered (c : CharRegistration) : Prop := c.handle ≠ 0 ∧ c.descHandle ≠ 0

instance : DecidablePred Registered := fun c =>
  inferInstanceAs (Decidable (c.handle ≠ 0 ∧ c.descHandle ≠ 0))

end CharRegistration

/-- A `BLEService` with characteristics indexed by `ι`. -/
structure BleService (ι : Type) where
  handle : ℕ
  semaphoreCreate : Bool
  semaphoreStart : Bool
  lastCreatedCharacteristic : Option ι
  chars : ι → CharRegistration

namespace BleService

variable {ι σ : Type}

/-- A service after its construction, with the characteristics it will have. -/
def new : BleService ι := ⟨nullHandle, true, true, none, fun _ => .new⟩

def setHandle (s : BleService ι) (handle : ℕ) : BleService ι :=
  if s.handle ≠ nullHandle then s else { s with handle := handle }

/-- `BLEService::handleGATTServerEvent` for `ESP_GATTS_CREATE_EVT` of this service. -/
def handleCreate (s : BleService ι) (serviceHandle : ℕ) : BleService ι :=
  { s.setHandle serviceHandle with semaphoreCreate := true }

/-- `BLEService::handleGATTServerEvent` for `ESP_GATTS_START_EVT`. -/
def handleStart (s : BleService ι) (serviceHandle : ℕ) : BleService ι :=
  if serviceHandle = s.handle then { s with semaphoreStart := true } else s

/-- `BLEService::executeCreate`. There is no result if it waits for ever. -/
def executeCreate (S : GattStack σ) (numHandles : ℕ) (s : BleService ι) :
    Option (σ × BleService ι) := do
  let taken ← semaphoreTake s.semaphoreCreate
  let (t, serviceHandle) := S.createService numHandles
  let s := { s with semaphoreCreate := taken }.handleCreate serviceHandle
  let given ← semaphoreWait s.semaphoreCreate
  return (t, { s with semaphoreCreate := given })

variable [DecidableEq ι]

def setChar (s : BleService ι) (i : ι) (c : CharRegistration) : BleService ι :=
  { s with chars := Function.update s.chars i c }

/-- `BLEService::handleGATTServerEvent` for `ESP_GATTS_ADD_CHAR_EVT` of this service. The
characteristics in the map handle it too. -/
def handleAddChar (order : List ι) (attrHandle : ℕ) (s : BleService ι) : BleService ι :=
  let s := match s.lastCreatedCharacteristic with
    | some i => s.setChar i { s.chars i with handle := attrHandle }
    | none => s
  { s with chars := fun i =>
      if i ∈ order then (s.chars i).handleAddChar attrHandle else s.chars i }

/-- `BLEService::handleGATTServerEvent` for `ESP_GATTS_ADD_CHAR_DESCR_EVT` of this service: only
the characteristics and their descriptors handle it. -/
def handleAddCharDescr (order : List ι) (attrHandle : ℕ) (s : BleService ι) : BleService ι :=
  { s with chars := fun i =>
      if i ∈ order then
        (s.chars i).handleAddCharDescr attrHandle (s.lastCreatedCharacteristic = some i)
      else s.chars i }

/-- `BLEDescriptor::executeCreate`. -/
def executeCreateDescr (S : GattStack σ) (order : List ι) (i : ι) (t : σ) (s : BleService ι) :
    Option (σ × BleService ι) :=
  if (s.chars i).descHandle ≠ nullHandle then some (t, s)
  else do
    let taken ← semaphoreTake (s.chars i).descSemaphore
    let s := s.setChar i { s.chars i with descAttached := true, descSemaphore := taken }
    let (t, attrHandle) := S.addCharDescr t
    let s := s.handleAddCharDescr order attrHandle
    let given ← semaphoreWait (s.chars i).descSemaphore
    return (t, s.setChar i { s.chars i with descSemaphore := given })

/-- `BLECharacteristic::executeCreate`. -/
def executeCreateChar (S : GattStack σ) (order : List ι) (i : ι) (t : σ) (s : BleService ι) :
    Option (σ × BleService ι) :=
  if (s.chars i).handle ≠ nullHandle then some (t, s)
  else do
    let taken ← semaphoreTake (s.chars i).semaphore
    let s := s.setChar i { s.chars i with semaphore := taken }
    let (t, attrHandle) := S.addChar t
    let s := s.handleAddChar order attrHandle
    let given ← semaphoreWait (s.chars i).semaphore
    executeCreateDescr S order i t (s.setChar i { s.chars i with semaphore := given })

/-- The loop of `BLEService::start`. -/
def createCharacteristics (S : GattStack σ) (order : List ι) :
    List ι → σ → BleService ι → Option (σ × BleService ι)
  | [], t, s => some (t, s)
  | i :: is, t, s => do
    let (t, s) ← executeCreateChar S order i t { s with lastCreatedCharacteristic := some i }
    createCharacteristics S order is t s

/-- `BLEService::start`. -/
def start (S : GattStack σ) (order : List ι) (t : σ) (s : BleService ι) :
    Option (σ × BleService ι) :=
  if s.handle = nullHandle then some (t, s)
  else do
    let (t, s) ← createCharacteristics S order order t s
    let taken ← semaphoreTake s.semaphoreStart
    let s := { s with semaphoreStart := taken }.handleStart s.handle
    let given ← semaphoreWait s.semaphoreStart
    return (t, { s with semaphoreStart := given })

end BleService

/-- `BLEServer::createService` and the start of the service, when it has characteristics that stand
in its map in the order of the list. -/
def startService {ι σ : Type} [DecidableEq ι] (S : GattStack σ) (numHandles : ℕ) (order : List ι) :
    Option (σ × BleService ι) := do
  let (t, s) ← BleService.new.executeCreate S numHandles
  s.start S order t

/-! ### The registration of a characteristic -/

section Registration

open CharRegistration

variable {ι σ : Type} [DecidableEq ι] (S : GattStack σ) {order : List ι}

/-- A characteristic takes three handles with its descriptor. -/
theorem GattStack.free_created_le (t : σ) :
    (if (created (S.addChar t).2 (S.addCharDescr (S.addChar t).1).2).Registered then 3 else 0) +
      S.free (S.addCharDescr (S.addChar t).1).1 ≤ S.free t := by
  split_ifs with h
  · have hchar := S.free_addChar t h.1
    have hdescr := S.free_addCharDescr (S.addChar t).1 h.2
    omega
  · have hchar := S.free_addChar_le t
    have hdescr := S.free_addCharDescr_le (S.addChar t).1
    omega

namespace BleService

variable {s : BleService ι}

@[simp] theorem setChar_chars (i : ι) (c : CharRegistration) : (s.setChar i c).chars i = c :=
  Function.update_self ..

@[simp] theorem setChar_setChar (i : ι) (c c' : CharRegistration) :
    (s.setChar i c).setChar i c' = s.setChar i c' :=
  congrArg (fun cs => { s with chars := cs }) (Function.update_idem ..)

/-- The answer to a request for a descriptor reaches the descriptor that has asked for it. -/
theorem handleAddCharDescr_setChar {i : ι} (hi : i ∈ order)
    (hlast : s.lastCreatedCharacteristic = some i) {c : CharRegistration}
    (hc : c.descAttached = true) (a : ℕ) :
    (s.setChar i c).handleAddCharDescr order a =
      s.setChar i { c with descHandle := a, descSemaphore := true } := by
  refine congrArg (fun cs => { s with chars := cs }) (funext fun j => ?_)
  by_cases hj : j = i
  · subst hj
    simp [setChar, CharRegistration.handleAddCharDescr, hi, hc, hlast]
  · have hne : ¬ s.lastCreatedCharacteristic = some j := by
      rw [hlast]
      exact fun h => hj (Option.some.inj h).symm
    simp [setChar, CharRegistration.handleAddCharDescr, hj, hne]

/-- The answer to a request for a characteristic reaches it. It also gives the semaphores of the
others with that handle, which nobody has taken. -/
theorem handleAddChar_setChar {i : ι} (hi : i ∈ order)
    (hlast : s.lastCreatedCharacteristic = some i) (hsem : ∀ j ≠ i, (s.chars j).semaphore = true)
    (c : CharRegistration) (a : ℕ) :
    (s.setChar i c).handleAddChar order a =
      s.setChar i { c with handle := a, semaphore := true } := by
  obtain ⟨handle, semaphoreCreate, semaphoreStart, last, cs⟩ := s
  obtain rfl : last = some i := hlast
  refine congrArg (BleService.mk _ _ _ _) (funext fun j => ?_)
  by_cases hj : j = i
  · subst hj
    simp [setChar, CharRegistration.handleAddChar, hi]
  · have hgiven : { cs j with semaphore := true } = cs j := by rw [← hsem j hj]
    simp [setChar, CharRegistration.handleAddChar, hj, hgiven]

/-- **A new characteristic** gets the two handles with which the stack answers its requests, and
nothing else changes. -/
theorem executeCreateChar_eq {i : ι} (hi : i ∈ order)
    (hlast : s.lastCreatedCharacteristic = some i) (hsem : ∀ j, (s.chars j).semaphore = true)
    (hnew : s.chars i = .new) (t : σ) :
    executeCreateChar S order i t s =
      some ((S.addCharDescr (S.addChar t).1).1,
        s.setChar i (created (S.addChar t).2 (S.addCharDescr (S.addChar t).1).2)) := by
  have hdescr (t : σ) (h : ℕ) :
      executeCreateDescr S order i t (s.setChar i ⟨h, true, false, nullHandle, true⟩) =
        some ((S.addCharDescr t).1, s.setChar i (created h (S.addCharDescr t).2)) := by
    simp only [executeCreateDescr, setChar_chars, setChar_setChar, semaphoreTake]
    simp [handleAddCharDescr_setChar hi hlast, semaphoreWait, created]
  have hchar (a : ℕ) : (s.setChar i ⟨nullHandle, false, false, nullHandle, true⟩).handleAddChar
      order a = s.setChar i ⟨a, true, false, nullHandle, true⟩ :=
    handleAddChar_setChar hi hlast (fun j _ => hsem j) _ a
  rw [executeCreateChar, hnew, if_neg (by simp [CharRegistration.new])]
  simp [semaphoreTake, semaphoreWait, CharRegistration.new, hchar, hdescr]

/-- The loop of `start` for characteristics that have not been created. -/
theorem exists_createCharacteristics {is : List ι} (his : ∀ i ∈ is, i ∈ order) (hnodup : is.Nodup)
    (hsem : ∀ j, (s.chars j).semaphore = true) (hnew : ∀ i ∈ is, s.chars i = .new) (t : σ) :
    ∃ t' last cs, createCharacteristics S order is t s =
        some (t', { s with lastCreatedCharacteristic := last, chars := cs }) ∧
      (∀ j ∉ is, cs j = s.chars j) ∧
      3 * is.countP (fun i => (cs i).Registered) + S.free t' ≤ S.free t := by
  induction is generalizing s t with
  | nil => exact ⟨t, _, _, rfl, fun _ _ => rfl, by simp⟩
  | cons i is ih =>
    obtain ⟨hi, hnodup⟩ := List.nodup_cons.mp hnodup
    let s₀ : BleService ι := { s with lastCreatedCharacteristic := some i }
    let c := created (S.addChar t).2 (S.addCharDescr (S.addChar t).1).2
    have hfirst : executeCreateChar S order i t s₀ =
        some ((S.addCharDescr (S.addChar t).1).1, s₀.setChar i c) :=
      executeCreateChar_eq (s := s₀) S (his i List.mem_cons_self) rfl hsem
        (hnew i List.mem_cons_self) t
    have hother {j : ι} (hj : j ≠ i) : (s₀.setChar i c).chars j = s.chars j :=
      Function.update_of_ne hj ..
    obtain ⟨t', last, cs, hloop, hcs, hfree⟩ := ih (s := s₀.setChar i c)
      (fun j hj => his j (List.mem_cons_of_mem i hj)) hnodup
      (fun j => by
        by_cases hj : j = i
        · rw [hj, setChar_chars]
          rfl
        · rw [hother hj, hsem])
      (fun j hj => by
        rw [hother (ne_of_mem_of_not_mem hj hi), hnew j (List.mem_cons_of_mem i hj)])
      (S.addCharDescr (S.addChar t).1).1
    refine ⟨t', last, cs, ?_, fun j hj => ?_, ?_⟩
    · simp only [createCharacteristics]
      rw [hfirst]
      exact hloop
    · obtain ⟨hji, hj⟩ := not_or.mp (List.mem_cons.not.mp hj)
      rw [hcs j hj, hother hji]
    · have hc : cs i = c := by rw [hcs i hi, setChar_chars]
      have hle : (if c.Registered then 3 else 0) + _ ≤ S.free t := S.free_created_le t
      simp only [List.countP_cons, hc, decide_eq_true_eq]
      split_ifs at hle ⊢ <;> omega

end BleService

/-- **The registration of a service always comes to an end**, whatever the stack answers, and the
characteristics that have handles then, together with their descriptors, are at most a third of the
number of handles with which the service has been created. -/
theorem startService_ends {numHandles : ℕ} (hpos : 0 < numHandles) (hnodup : order.Nodup) :
    ∃ t s, startService S numHandles order = some (t, s) ∧
      3 * order.countP (fun i => (s.chars i).Registered) < numHandles := by
  let s₀ : BleService ι := { BleService.new with handle := (S.createService numHandles).2 }
  have hcreate : BleService.new.executeCreate S numHandles =
      some ((S.createService numHandles).1, s₀) := rfl
  obtain ⟨t, last, cs, hloop, -, hfree⟩ := BleService.exists_createCharacteristics (s := s₀) S
    (fun i hi => hi) hnodup (fun j => rfl) (fun i _ => rfl) (S.createService numHandles).1
  have hhandle : s₀.handle ≠ nullHandle := S.createService_ne numHandles hpos
  refine ⟨t, { s₀ with lastCreatedCharacteristic := last, chars := cs }, ?_, ?_⟩
  · rw [startService, hcreate]
    simp only [Option.bind_eq_bind, Option.bind_some, BleService.start, if_neg hhandle, hloop]
    simp [s₀, BleService.new, semaphoreTake, semaphoreWait, BleService.handleStart]
  · have hlt := S.free_createService numHandles hpos
    exact (Nat.le_of_add_right_le hfree).trans_lt hlt

end Registration

/-! ### A characteristic without handles -/

section NeverNotifies

variable {ι : Type}

/-- The event is a write to the attribute with the handle `a`. -/
def ServerEvent.WritesTo (a : ℕ) (e : ServerEvent ι) : Prop :=
  ∃ conn offset isPrep needRsp value, e = .write conn a offset isPrep needRsp value

/-- The attributes of a characteristic have these handles, its descriptor has a value, and if the
descriptor has no handle, notifications are switched off. -/
structure BleCharacteristic.Keeps (c : BleCharacteristic) (handle descHandle : ℕ) : Prop where
  handle_eq : c.handle = handle
  descHandle_eq : c.desc.handle = descHandle
  attrValue_ne_nil : c.desc.attrValue ≠ []
  getNotifications_eq : descHandle = 0 → c.desc.getNotifications = some false

/-- A new value takes the place of the first bytes of the old one. -/
theorem BleDescriptor.setValue_frame {d d' : BleDescriptor} {data : List UInt8}
    (h : d.setValue data = some d') :
    d'.handle = d.handle ∧ d'.attrValue.length = d.attrValue.length := by
  rw [setValue] at h
  split_ifs at h with hmax hlen
  · obtain rfl := Option.some.inj h
    exact ⟨rfl, rfl⟩
  · obtain rfl := Option.some.inj h
    refine ⟨rfl, ?_⟩
    rw [List.length_append, List.length_drop]
    omega

namespace BleCharacteristic

variable {c c' : BleCharacteristic} {mtu : ℕ → Option ℕ} {e : ServerEvent ι}
  {as : List ServerAction} {handle descHandle : ℕ}

/-- An event that a characteristic handles itself changes its value only. -/
theorem handleOwn_frame (h : c.handleOwn mtu e = some (c', as)) :
    c'.handle = c.handle ∧ c'.desc = c.desc := by
  cases e with
  | execWrite conn exec =>
    obtain ⟨rfl, -⟩ := Prod.mk.inj (Option.some.inj h)
    exact ⟨rfl, rfl⟩
  | write conn a offset isPrep needRsp value =>
    simp only [handleOwn] at h
    split_ifs at h <;> obtain ⟨rfl, -⟩ := Prod.mk.inj (Option.some.inj h) <;> exact ⟨rfl, rfl⟩
  | read conn a isLong needRsp =>
    simp only [handleOwn] at h
    split_ifs at h with ha hrsp
    · obtain ⟨m, -, h⟩ := Option.bind_eq_some_iff.mp h
      obtain ⟨⟨v, rsp⟩, -, h⟩ := Option.bind_eq_some_iff.mp h
      obtain ⟨rfl, -⟩ := Prod.mk.inj (Option.some.inj h)
      exact ⟨rfl, rfl⟩
    · obtain ⟨m, -, h⟩ := Option.bind_eq_some_iff.mp h
      obtain ⟨rfl, -⟩ := Prod.mk.inj (Option.some.inj h)
      exact ⟨rfl, rfl⟩
    · obtain ⟨rfl, -⟩ := Prod.mk.inj (Option.some.inj h)
      exact ⟨rfl, rfl⟩
  | connect | disconnect | mtu | setValue | notify =>
    obtain ⟨rfl, -⟩ := Prod.mk.inj (Option.some.inj h)
    exact ⟨rfl, rfl⟩

/-- **An event** that is no write to the handle 0. -/
theorem Keeps.handleGattServerEvent (h : c.Keeps handle descHandle) (he : ¬ e.WritesTo 0)
    (hstep : c.handleGattServerEvent mtu e = some (c', as)) : c'.Keeps handle descHandle := by
  obtain ⟨⟨c₁, as₁⟩, hown, hstep⟩ := Option.bind_eq_some_iff.mp hstep
  obtain ⟨d, hdesc, hstep⟩ := Option.bind_eq_some_iff.mp hstep
  obtain ⟨rfl, -⟩ := Prod.mk.inj (Option.some.inj hstep)
  obtain ⟨hhandle, hsame⟩ := handleOwn_frame hown
  -- The descriptor stays as it is but for a write to its handle.
  have hcases : d = c.desc ∨ descHandle ≠ 0 ∧ d.handle = c.desc.handle ∧
      d.attrValue.length = c.desc.attrValue.length := by
    rw [hsame] at hdesc
    cases e with
    | write conn a offset isPrep needRsp value =>
      simp only [BleDescriptor.handleGattServerEvent] at hdesc
      split_ifs at hdesc with ha
      · refine .inr ⟨?_, BleDescriptor.setValue_frame hdesc⟩
        rintro rfl
        rw [ha, h.descHandle_eq] at he
        exact he ⟨conn, offset, isPrep, needRsp, value, rfl⟩
      · exact .inl (Option.some.inj hdesc).symm
    | connect | disconnect | mtu | read | execWrite | setValue | notify =>
      exact .inl (Option.some.inj hdesc).symm
  refine ⟨hhandle.trans h.handle_eq, ?_, ?_, fun h0 => ?_⟩
  · rcases hcases with rfl | ⟨-, hd, -⟩
    · exact h.descHandle_eq
    · exact hd.trans h.descHandle_eq
  · rcases hcases with rfl | ⟨-, -, hlen⟩
    · exact h.attrValue_ne_nil
    · rw [← List.length_pos_iff, hlen, List.length_pos_iff]
      exact h.attrValue_ne_nil
  · rcases hcases with rfl | ⟨hne, -⟩
    · exact h.getNotifications_eq h0
    · exact absurd h0 hne

end BleCharacteristic

namespace BleServer

/-- The server itself leaves the characteristics alone. -/
theorem handleOwn_chars (s : BleServer ι) (e : ServerEvent ι) :
    (s.handleOwn e).1.chars = s.chars := by
  -- The server is taken apart, so that its count is not compared with the new one.
  obtain ⟨count, servers, cs⟩ := s
  cases e with
  | mtu conn mtu =>
    simp only [handleOwn, updatePeerMTU]
    split_ifs <;> rfl
  | connect | disconnect | read | write | execWrite | setValue | notify => rfl

variable [DecidableEq ι] {order : List ι} {handle descHandle : ι → ℕ}

/-- What each characteristic keeps in the handling of an event, all of them keep. -/
theorem dispatch_induction
    {f : BleCharacteristic → Option (BleCharacteristic × List ServerAction)}
    {P : ι → BleCharacteristic → Prop}
    (hf : ∀ i c c' as, P i c → f c = some (c', as) → P i c') {cs cs' : ι → BleCharacteristic}
    {as : List ServerAction} (hcs : ∀ i, P i (cs i)) (h : dispatch f order cs = some (cs', as)) :
    ∀ i, P i (cs' i) := by
  induction order generalizing cs cs' as with
  | nil =>
    obtain ⟨rfl, -⟩ := Prod.mk.inj (Option.some.inj h)
    exact hcs
  | cons j order ih =>
    obtain ⟨⟨c, as₁⟩, hj, h⟩ := Option.bind_eq_some_iff.mp h
    obtain ⟨⟨cs₁, as₂⟩, hrest, h⟩ := Option.bind_eq_some_iff.mp h
    obtain ⟨rfl, -⟩ := Prod.mk.inj (Option.some.inj h)
    refine ih (fun i => ?_) hrest
    by_cases hij : i = j
    · subst hij
      rw [Function.update_self]
      exact hf i _ _ _ (hcs i) hj
    · rw [Function.update_of_ne hij]
      exact hcs i

/-- In the handling of an event the characteristics change by what they do themselves. -/
theorem exists_dispatch {s s' : BleServer ι} {e : ServerEvent ι} {as : List ServerAction}
    (h : s.handleGattServerEvent order e = some (s', as)) :
    ∃ cs mtu as', dispatch (·.handleGattServerEvent mtu e) order s.chars = some (cs, as') ∧
      s'.chars = cs := by
  have hchars := s.handleOwn_chars e
  rw [BleServer.handleGattServerEvent] at h
  generalize s.handleOwn e = own at h hchars
  obtain ⟨s₁, as₁⟩ := own
  obtain ⟨⟨cs, as'⟩, hdispatch, h⟩ := Option.bind_eq_some_iff.mp h
  obtain ⟨rfl, -⟩ := Prod.mk.inj (Option.some.inj h)
  exact ⟨cs, _, as', hchars ▸ hdispatch, rfl⟩

/-- **A step of the server** that is no write to the handle 0. -/
theorem keeps_step {s s' : BleServer ι} (hs : ∀ i, (s.chars i).Keeps (handle i) (descHandle i))
    {e : ServerEvent ι} (he : ¬ e.WritesTo 0) {as : List ServerAction}
    (hstep : (bleServer order).step s e = some (s', as)) :
    ∀ i, (s'.chars i).Keeps (handle i) (descHandle i) := by
  have hevent : s.handleGattServerEvent order e = some (s', as) →
      ∀ i, (s'.chars i).Keeps (handle i) (descHandle i) := by
    intro h
    obtain ⟨cs, mtu, as', hdispatch, rfl⟩ := exists_dispatch h
    exact dispatch_induction (P := fun i c => c.Keeps (handle i) (descHandle i))
      (fun i c c' as hc hc' => hc.handleGattServerEvent he hc') hs hdispatch
  cases e with
  | setValue j data =>
    obtain ⟨rfl, -⟩ := Prod.mk.inj (Option.some.inj hstep)
    intro i
    by_cases hij : i = j
    · subst hij
      obtain ⟨hhandle, hdesc, hlen, hoff⟩ := hs i
      exact ⟨by simpa [BleServer.setValue] using hhandle, by simpa [BleServer.setValue] using hdesc,
        by simpa [BleServer.setValue] using hlen, by simpa [BleServer.setValue] using hoff⟩
    · simpa [BleServer.setValue, hij] using hs i
  | notify j sent =>
    obtain ⟨ns, -, h⟩ := Option.map_eq_some_iff.mp hstep
    obtain ⟨rfl, -⟩ := Prod.mk.inj h
    exact hs
  | connect | disconnect | mtu | read | write | execWrite =>
    simp only [bleServer] at hstep
    exact hevent hstep

/-- Whatever has happened before, if no client has written to the handle 0, `notify` of the
characteristic sends no value of an attribute. -/
def NeverNotifies (order : List ι) (handle descHandle : ι → ℕ) (i : ι) : Prop :=
  ∀ es s as, (bleServer order).run (.init handle descHandle) es = some (s, as) →
    (∀ e ∈ es, ¬ e.WritesTo 0) → ∀ sent, ∃ ns, s.notify i sent = some ns ∧
      ∀ conn a v, .notification conn a v ∈ ns → a = 0

/-- **A characteristic without handles is never notified**: nobody can switch its notifications
on, or they belong to no attribute. -/
theorem neverNotifies {i : ι} (hi : handle i = 0 ∨ descHandle i = 0) :
    NeverNotifies order handle descHandle i := by
  intro es s as hrun hzero sent
  have hkeeps : (s.chars i).Keeps (handle i) (descHandle i) := by
    refine Transducer.run_induction
      (fun _ (s : BleServer ι) => ∀ j, (s.chars j).Keeps (handle j) (descHandle j))
      (fun j => ⟨rfl, rfl, by simp [BleServer.init], fun _ => rfl⟩) ?_ hrun i
    rintro pre post t _ e u o rfl - ht hstep
    exact keeps_step ht (hzero e (by simp)) hstep
  obtain ⟨b, hb⟩ : ∃ b, (s.chars i).desc.getNotifications = some b := by
    obtain ⟨x, xs, hx⟩ := List.exists_cons_of_ne_nil hkeeps.attrValue_ne_nil
    exact ⟨_, by rw [BleDescriptor.getNotifications, hx]; rfl⟩
  by_cases hcount : s.connectedCount = 0
  · exact ⟨[], if_pos hcount, by simp⟩
  cases b with
  | false => exact ⟨[], by simp [notify, hcount, hb], by simp⟩
  | true =>
    refine ⟨_, by rw [notify, if_neg hcount, hb]; rfl, fun conn a v hmem => ?_⟩
    obtain ⟨_, -, heq⟩ := List.mem_map.mp hmem
    have ha : (s.chars i).handle = a := (ServerAction.notification.inj heq).2.1
    rcases hi with hi | hi
    · rw [← ha, hkeeps.handle_eq, hi]
    · exact absurd (hb.symm.trans (hkeeps.getNotifications_eq hi)) (by simp)

end BleServer

end NeverNotifies

end GpsTracker
