import GpsTracker.Stream.Transducer
import Mathlib.Algebra.Group.Nat.Defs
import Mathlib.Data.List.TakeDrop
import Mathlib.Tactic.Common

/-!
# Values of characteristics

The class `BLEValue` holds the value of a characteristic, the parts of a write that is still to be
executed, and the offset at which the next part of a long read begins. The answer to a read is
given by `BLECharacteristic::handleGATTServerEvent`, which does not look at the offset in the
request but keeps its own, one for all clients.

A client that reads a value undisturbed gets all of it, whatever the size of its packets and
wherever an earlier read has ended (`longRead_eq`). A read outside the value is not possible as
long as no value is replaced by one shorter than it (`valueMachine_run_isSome`).

## Main definitions

* `BleValue`, `BleValue.read`.
* `longRead`, `valueMachine`.

## Main results

* `longRead_eq`.
* `valueMachine_run_isSome`.
-/

namespace GpsTracker

/-- `BLEValue`. -/
structure BleValue where
  accumulation : List UInt8
  readOffset : ℕ
  value : List UInt8
  deriving DecidableEq, Repr

/-- The largest length of the value of an attribute, and the size of the array of a response. -/
def espGattMaxAttrLen : ℕ := 600

/-- What is sent in answer to a read. -/
structure ReadResponse where
  offset : ℕ
  value : List UInt8
  deriving DecidableEq, Repr

namespace BleValue

/-! ### Operations -/

/-- `BLEValue::BLEValue`. -/
def init : BleValue := ⟨[], 0, []⟩

def addPart (v : BleValue) (part : List UInt8) : BleValue :=
  { v with accumulation := v.accumulation ++ part }

def cancel (v : BleValue) : BleValue := { v with accumulation := [], readOffset := 0 }

def commit (v : BleValue) : BleValue :=
  if v.accumulation.length = 0 then v
  else { v with value := v.accumulation, accumulation := [], readOffset := 0 }

def setReadOffset (v : BleValue) (readOffset : ℕ) : BleValue :=
  { v with readOffset := readOffset % 2 ^ 16 }

/-- `BLECharacteristic::setValue`. -/
def setValue (v : BleValue) (data : List UInt8) : BleValue :=
  if data.length > espGattMaxAttrLen then v else { v with value := data }

/-- The bytes copied into a response, if they lie in the value and fit. -/
def copy (v : BleValue) (offset len : ℕ) : Option ReadResponse :=
  if offset + len ≤ v.value.length ∧ len ≤ espGattMaxAttrLen then
    some ⟨offset, (v.value.drop offset).take len⟩
  else none

/-- The answer to a read by a client with the given MTU. Lengths are 32-bit numbers. -/
def read (v : BleValue) (mtu : ℕ) (isLong : Bool) : Option (BleValue × ReadResponse) :=
  let maxOffset := (mtu + (2 ^ 16 - 1)) % 2 ^ 16
  if isLong then
    let remaining := (v.value.length + (2 ^ 32 - v.readOffset)) % 2 ^ 32
    if remaining < maxOffset then
      -- This is the last in the chain.
      (v.copy v.readOffset remaining).map fun rsp => (v.setReadOffset 0, rsp)
    else
      -- There will be more to come.
      (v.copy v.readOffset maxOffset).map fun rsp =>
        (v.setReadOffset (v.readOffset + maxOffset), rsp)
  else if v.value.length + 1 > maxOffset then
    -- Too big for a single shot entry.
    (v.copy 0 maxOffset).map fun rsp => (v.setReadOffset maxOffset, rsp)
  else
    (v.copy 0 v.value.length).map fun rsp => (v, rsp)

/-- The read of a client: a first request, and further ones as long as a response is full. -/
def readAll (mtu : ℕ) : ℕ → Bool → BleValue → Option (BleValue × List UInt8)
  | 0, _, _ => none
  | n + 1, isLong, v => do
    let (v, rsp) ← v.read mtu isLong
    if rsp.value.length < mtu - 1 then return (v, rsp.value)
    let (v, bytes) ← readAll mtu n true v
    return (v, rsp.value ++ bytes)

/-- The first request and at most `n` further ones. -/
def longRead (mtu n : ℕ) (v : BleValue) : Option (BleValue × List UInt8) :=
  readAll mtu (n + 1) false v

/-! ### Reads inside the value -/

section Read

variable {v : BleValue} {mtu : ℕ}

theorem maxOffset_eq (hmtu : 1 < mtu) (hmax : mtu ≤ espGattMaxAttrLen + 1) :
    (mtu + (2 ^ 16 - 1)) % 2 ^ 16 = mtu - 1 := by
  rw [espGattMaxAttrLen] at hmax
  omega

theorem copy_eq_some {offset len : ℕ} (h : offset + len ≤ v.value.length)
    (hlen : len ≤ espGattMaxAttrLen) :
    v.copy offset len = some ⟨offset, (v.value.drop offset).take len⟩ :=
  if_pos ⟨h, hlen⟩

/-- The last response of a long read. -/
theorem read_last (hmtu : 1 < mtu) (hmax : mtu ≤ espGattMaxAttrLen + 1)
    (hv : v.readOffset ≤ v.value.length) (hlen : v.value.length < 2 ^ 16)
    (hlast : v.value.length - v.readOffset < mtu - 1) :
    v.read mtu true =
      some ({ v with readOffset := 0 }, ⟨v.readOffset, v.value.drop v.readOffset⟩) := by
  have hremaining : (v.value.length + (2 ^ 32 - v.readOffset)) % 2 ^ 32 =
      v.value.length - v.readOffset := by omega
  rw [read, maxOffset_eq hmtu hmax, if_pos rfl, hremaining, if_pos hlast,
    copy_eq_some (by omega) (by omega), List.take_of_length_le (by simp)]
  rfl

/-- A full response of a long read. -/
theorem read_more (hmtu : 1 < mtu) (hmax : mtu ≤ espGattMaxAttrLen + 1)
    (hlen : v.value.length < 2 ^ 16) (hmore : v.readOffset + (mtu - 1) ≤ v.value.length) :
    v.read mtu true = some ({ v with readOffset := v.readOffset + (mtu - 1) },
      ⟨v.readOffset, (v.value.drop v.readOffset).take (mtu - 1)⟩) := by
  have hremaining : (v.value.length + (2 ^ 32 - v.readOffset)) % 2 ^ 32 =
      v.value.length - v.readOffset := by omega
  have hoffset : (v.readOffset + (mtu - 1)) % 2 ^ 16 = v.readOffset + (mtu - 1) :=
    Nat.mod_eq_of_lt (by omega)
  rw [read, maxOffset_eq hmtu hmax, if_pos rfl, hremaining, if_neg (by omega),
    copy_eq_some hmore (by omega), Option.map_some, setReadOffset, hoffset]

/-- The response to the first request for a value that does not fit. -/
theorem read_first (hmtu : 1 < mtu) (hmax : mtu ≤ espGattMaxAttrLen + 1)
    (hbig : mtu - 1 ≤ v.value.length) :
    v.read mtu false = some ({ v with readOffset := mtu - 1 }, ⟨0, v.value.take (mtu - 1)⟩) := by
  rw [espGattMaxAttrLen] at hmax
  have hoffset : (mtu - 1) % 2 ^ 16 = mtu - 1 := Nat.mod_eq_of_lt (by omega)
  rw [read, maxOffset_eq hmtu hmax, if_neg (by simp), if_pos (by omega),
    copy_eq_some (by omega) (by rw [espGattMaxAttrLen]; omega), Option.map_some, setReadOffset,
    hoffset, List.drop_zero]

/-- The response to the first request for a value that fits. -/
theorem read_whole (hmtu : 1 < mtu) (hmax : mtu ≤ espGattMaxAttrLen + 1)
    (hsmall : v.value.length < mtu - 1) : v.read mtu false = some (v, ⟨0, v.value⟩) := by
  rw [read, maxOffset_eq hmtu hmax, if_neg (by simp), if_neg (by omega),
    copy_eq_some (by omega) (by omega), List.drop_zero, List.take_length]
  rfl

/-- The requests of a long read after the first one. -/
theorem readAll_true (hmtu : 1 < mtu) (hmax : mtu ≤ espGattMaxAttrLen + 1)
    (hv : v.readOffset ≤ v.value.length) (hlen : v.value.length < 2 ^ 16) {n : ℕ}
    (hn : (v.value.length - v.readOffset) / (mtu - 1) < n) :
    readAll mtu n true v = some ({ v with readOffset := 0 }, v.value.drop v.readOffset) := by
  induction n generalizing v with
  | zero => exact absurd hn (Nat.not_lt_zero _)
  | succ n ih =>
    rw [readAll]
    rcases Nat.lt_or_ge (v.value.length - v.readOffset) (mtu - 1) with hlast | hmore
    · rw [read_last hmtu hmax hv hlen hlast]
      simp [hlast]
    · have hn' : (v.value.length - (v.readOffset + (mtu - 1))) / (mtu - 1) < n := by
        rw [Nat.div_eq_sub_div (by omega) hmore] at hn
        rw [← Nat.sub_sub]
        omega
      have hrest := ih (v := { v with readOffset := v.readOffset + (mtu - 1) }) (by
        change v.readOffset + (mtu - 1) ≤ v.value.length
        omega) hlen hn'
      rw [read_more hmtu hmax hlen (by omega)]
      have hfull : ¬ ((v.value.drop v.readOffset).take (mtu - 1)).length < mtu - 1 := by
        simp only [List.length_take, List.length_drop]
        omega
      simp only [Option.bind_eq_bind, Option.bind_some, hfull, if_false, hrest, Option.pure_def,
        Option.some_inj, Prod.mk.injEq, true_and]
      rw [← List.drop_drop, List.take_append_drop]

/-- **A long read that nothing disturbs** returns the value, for every packet size and every state
in which earlier reads have left the offset. -/
theorem longRead_eq (hmtu : 1 < mtu) (hmax : mtu ≤ espGattMaxAttrLen + 1)
    (hlen : v.value.length < 2 ^ 16) :
    longRead mtu (v.value.length / (mtu - 1)) v =
      some ({ v with readOffset := if v.value.length < mtu - 1 then v.readOffset else 0 },
        v.value) := by
  rw [longRead, readAll]
  rcases Nat.lt_or_ge v.value.length (mtu - 1) with hsmall | hbig
  · rw [read_whole hmtu hmax hsmall]
    simp [hsmall]
  · have hn : (v.value.length - (mtu - 1)) / (mtu - 1) < v.value.length / (mtu - 1) := by
      rw [Nat.div_eq_sub_div (by omega) hbig]
      omega
    have hrest := readAll_true (v := { v with readOffset := mtu - 1 }) hmtu hmax hbig hlen hn
    have hfull : ¬ (v.value.take (mtu - 1)).length < mtu - 1 := by
      rw [List.length_take]
      omega
    rw [read_first hmtu hmax hbig]
    simp only [Option.bind_eq_bind, Option.bind_some, hfull, if_false, hrest, Option.pure_def,
      Option.some_inj, Prod.mk.injEq, List.take_append_drop, and_true]
    rw [if_neg (by omega)]

/-- A value of 60 bytes is read in three packets. -/
theorem longRead_eq_three_packets :
    longRead 23 2 ⟨[], 5, List.replicate 60 7⟩ = some (⟨[], 0, List.replicate 60 7⟩,
      List.replicate 60 7) :=
  @longRead_eq ⟨[], 5, List.replicate 60 7⟩ 23 (by decide) (by decide) (by decide)

/-- A read inside the value is answered by bytes of it, and the next one is inside it as well. -/
theorem exists_read (hmtu : 1 < mtu) (hmax : mtu ≤ espGattMaxAttrLen + 1)
    (hlen : v.value.length < 2 ^ 16) (hv : v.readOffset ≤ v.value.length) (isLong : Bool) :
    ∃ n rsp, v.read mtu isLong = some ({ v with readOffset := n }, rsp) ∧ n ≤ v.value.length ∧
      rsp.value <+: v.value.drop rsp.offset := by
  cases isLong with
  | false =>
    rcases Nat.lt_or_ge v.value.length (mtu - 1) with hsmall | hbig
    · exact ⟨_, _, read_whole hmtu hmax hsmall, hv, List.prefix_rfl⟩
    · exact ⟨_, _, read_first hmtu hmax hbig, hbig, List.take_prefix _ _⟩
  | true =>
    rcases Nat.lt_or_ge (v.value.length - v.readOffset) (mtu - 1) with hlast | hmore
    · exact ⟨_, _, read_last hmtu hmax hv hlen hlast, Nat.zero_le _, List.prefix_rfl⟩
    · exact ⟨_, _, read_more hmtu hmax hlen (by omega), by omega, List.take_prefix _ _⟩

end Read

end BleValue

/-! ### Any order of requests -/

/-- What happens to a value: a read by some client, a part of a write, the execution or the
cancellation of the parts, and the replacement of the value. -/
inductive ValueEvent where
  | read (mtu : ℕ) (isLong : Bool)
  | addPart (part : List UInt8)
  | commit
  | cancel
  | setValue (data : List UInt8)
  deriving DecidableEq, Repr

/-- The value of a characteristic under the requests of any number of clients. -/
def valueMachine : Transducer BleValue ValueEvent ReadResponse where
  step v e :=
    match e with
    | .read mtu isLong => (v.read mtu isLong).map fun p => (p.1, [p.2])
    | .addPart part => some (v.addPart part, [])
    | .commit => some (v.commit, [])
    | .cancel => some (v.cancel, [])
    | .setValue data => some (v.setValue data, [])

/-- The offset lies in the value, and the lengths are numbers of 16 bits. -/
structure BleValue.Inside (v : BleValue) : Prop where
  readOffset_le : v.readOffset ≤ v.value.length
  length_lt : v.value.length < 2 ^ 16
  length_accumulation_lt : v.accumulation.length < 2 ^ 16

/-- An event that replaces the value by one that is not shorter, or executes the parts of a write
with fewer than 2 ^ 16 bytes, or does not change the value. -/
def ValueEvent.Keeps (v : BleValue) : ValueEvent → Prop
  | read mtu _ => 1 < mtu ∧ mtu ≤ espGattMaxAttrLen + 1
  | addPart part => v.accumulation.length + part.length < 2 ^ 16
  | commit => True
  | cancel => True
  | setValue data => v.value.length ≤ data.length

/-- **A step inside the value.** -/
theorem BleValue.Inside.step {v : BleValue} (hv : v.Inside) {e : ValueEvent} (he : e.Keeps v) :
    ∃ u o, valueMachine.step v e = some (u, o) ∧ u.Inside := by
  obtain ⟨hoffset, hlen, hacc⟩ := hv
  cases e with
  | read mtu isLong =>
    obtain ⟨n, rsp, hread, hn, -⟩ := exists_read he.1 he.2 hlen hoffset isLong
    have hstep : valueMachine.step v (.read mtu isLong) =
        some ({ v with readOffset := n }, [rsp]) :=
      congrArg (Option.map fun p : BleValue × ReadResponse => (p.1, [p.2])) hread
    exact ⟨_, _, hstep, ⟨hn, hlen, hacc⟩⟩
  | addPart part =>
    refine ⟨_, _, rfl, ⟨hoffset, hlen, ?_⟩⟩
    rw [addPart, List.length_append]
    exact he
  | commit =>
    refine ⟨_, _, rfl, ?_⟩
    rw [commit]
    split
    · exact ⟨hoffset, hlen, hacc⟩
    · exact ⟨Nat.zero_le _, hacc, by simp⟩
  | cancel => exact ⟨_, _, rfl, ⟨Nat.zero_le _, hlen, by simp [cancel]⟩⟩
  | setValue data =>
    refine ⟨_, _, rfl, ?_⟩
    rw [setValue]
    split
    · exact ⟨hoffset, hlen, hacc⟩
    next hle =>
      rw [espGattMaxAttrLen] at hle
      exact ⟨Nat.le_trans hoffset he, by dsimp only; omega, hacc⟩

/-- **No read leaves the value** in a run of any clients in which no value is replaced by a shorter
one, although all clients share one offset. -/
theorem valueMachine_run_isSome {es : List ValueEvent}
    (hes : ∀ pre e post v os, es = pre ++ e :: post →
      valueMachine.run .init pre = some (v, os) → e.Keeps v) :
    ∃ v os, valueMachine.run .init es = some (v, os) ∧ v.Inside := by
  induction es using List.reverseRecOn with
  | nil => exact ⟨.init, [], rfl, ⟨Nat.le_refl 0, by decide, by decide⟩⟩
  | append_singleton es e ih =>
    obtain ⟨v, os, hrun, hv⟩ := ih fun pre e' post v os heq =>
      hes pre e' (post ++ [e]) v os (by rw [heq, List.append_assoc, List.cons_append])
    obtain ⟨u, o, hstep, hu⟩ := hv.step (hes es e [] v os rfl hrun)
    exact ⟨u, os ++ o, Transducer.run_concat_of_eq_some hrun hstep, hu⟩

/-- A client reads on where another one with smaller packets has begun. -/
theorem valueMachine_run_isSome_two_clients :
    ∃ v os, valueMachine.run .init [.setValue (List.replicate 60 7), .read 23 false,
      .read 33 true] = some (v, os) ∧ v.Inside := by
  refine valueMachine_run_isSome ?_
  intro pre e post v os heq hrun
  match pre, heq with
  | [], heq =>
    obtain ⟨rfl, -⟩ := List.cons.inj heq
    obtain ⟨rfl, -⟩ : BleValue.init = v ∧ [] = os := by simpa using hrun
    exact Nat.zero_le _
  | [_], heq =>
    obtain ⟨-, rfl, -⟩ : _ ∧ .read 23 false = e ∧ _ := by simpa using heq
    exact ⟨by decide, by decide⟩
  | [_, _], heq =>
    obtain ⟨-, -, rfl, -⟩ : _ ∧ _ ∧ .read 33 true = e ∧ _ := by simpa using heq
    exact ⟨by decide, by decide⟩
  | _ :: _ :: _ :: _, heq => simp at heq

end GpsTracker
