import GpsTracker.Stream.Matcher
import GpsTracker.Clock.CycleCounter
import Mathlib.Data.Nat.Find

/-!
# Protocol detection

The functions `ubx_detectNMEA` and `ubx_detectUBX` of `main/gps.c` read single bytes for at least
two seconds and look for a pattern in them. The loops ignore how many bytes
`uart_read_bytes` has read, so that after a timeout they compare the value that is in the variable.

However the counter wraps, and whatever is read, a window ends: not before two seconds less half a
microsecond have passed, unless the pattern is found, and at the latest with the first sample at
which two seconds have passed (`detectWindow_ends`).

What the loops find is an occurrence of the pattern in the values, those of the timeouts among
them, that an even number of partial matches precede. Such an occurrence is received in reads that
follow one another (`Received`), or a timeout completes it (`Completed`). The loops are right in
three kinds of cases: the pattern is received in this way, or timeouts complete it while it is
received in another way, or it is not received and no timeout completes it (`ubxDetect_iff`). A
single `0xB5` before the header hides it (`not_ubxDetect_exact`).

## Main definitions

* `ByteRead`, `Window`, `detectWindow`, `ubxDetectUBX`, `ubxDetectNMEA`.
* `Occurs`, `Found` : what the loops look for and what they find.
* `Received`, `Completed` : the two kinds of what they find.
* `SamplesAdvance` : the times at which the counter is sampled.

## Main results

* `ubxDetect_iff`, `not_ubxDetect_exact`.
* `detectWindow_ends`.
-/

namespace GpsTracker

/-! ### The detection loops -/

/-- What `uart_read_bytes(UartNum, &b, 1, 20 / portTICK_RATE_MS)` does: it reads a byte, or none,
and then `b` keeps the value that it has. -/
inductive ByteRead where
  | byte (b : UInt8)
  | timeout (stale : UInt8)
  deriving DecidableEq, Repr

/-- The value of `b` after the read. -/
def ByteRead.value : ByteRead → UInt8
  | .byte b => b
  | .timeout stale => stale

/-- The byte that has been received. -/
def ByteRead.received? : ByteRead → Option UInt8
  | .byte b => some b
  | .timeout _ => none

/-- A window that has ended: the count of matched bytes, the reads that it consumed and the reads
and samples of the counter that remain. -/
structure Window where
  cnt : ℕ
  consumed : List ByteRead
  rest : List (ByteRead × UInt32)
  deriving DecidableEq, Repr

/-- The do-while loop, with `cnt` bytes matched. After each read the counter is sampled, unless the
whole pattern has matched. The input is that of a loop that has not ended if the result is
`none`. -/
def detectWindow (pat : List UInt8) (marker : UInt32) :
    ℕ → List (ByteRead × UInt32) → Option Window
  | _, [] => none
  | cnt, (r, now) :: input =>
    let cnt := nextMatch pat cnt r.value
    if cnt < pat.length ∧ cctElapsedUs cctTicksPerUs marker now < 2000000 then
      (detectWindow pat marker cnt input).map fun w => { w with consumed := r :: w.consumed }
    else some ⟨cnt, [r], input⟩

def szNMEA_GNGLL : List UInt8 := [0x24, 0x47, 0x4E, 0x47, 0x4C, 0x4C, 0x2C]

def szNMEA_GPGLL : List UInt8 := [0x24, 0x47, 0x50, 0x47, 0x4C, 0x4C, 0x2C]

def ubxnavpvthdr : List UInt8 := [0xB5, 0x62, 0x01, 0x07]

/-- `ubx_detectUBX`, with the reads of its window. -/
def ubxDetectUBX (marker : UInt32) (input : List (ByteRead × UInt32)) :
    Option (Bool × List ByteRead) := do
  let w ← detectWindow ubxnavpvthdr marker 0 input
  return (if w.cnt < 4 then false else true, w.consumed)

/-- `ubx_detectNMEA`, with the reads of its two windows. -/
def ubxDetectNMEA (marker₁ marker₂ : UInt32) (input : List (ByteRead × UInt32)) :
    Option (Bool × List ByteRead × List ByteRead) := do
  let w₁ ← detectWindow szNMEA_GNGLL marker₁ 0 input
  if w₁.cnt = 7 then return (true, w₁.consumed, [])
  let w₂ ← detectWindow szNMEA_GPGLL marker₂ 0 w₁.rest
  if w₂.cnt = 7 then return (true, w₁.consumed, w₂.consumed)
  return (false, w₁.consumed, w₂.consumed)

/-! ### What is detected -/

/-- The pattern occurs in the bytes received. -/
def Occurs (pat : List UInt8) (rs : List ByteRead) : Prop :=
  pat <:+: rs.filterMap ByteRead.received?

/-- The pattern occurs in the values read, after an even number of partial matches. -/
def Found (pat : List UInt8) (rs : List ByteRead) : Prop :=
  Matched pat (rs.map ByteRead.value)

/-- Reads that follow one another directly receive the pattern, and an even number of partial
matches, in the values read, end directly before them. -/
def Received (pat : List UInt8) (rs : List ByteRead) : Prop :=
  ∃ pre post k, rs = pre ++ pat.map .byte ++ post ∧ Even k ∧
    EndsWithPartials pat k (pre.map ByteRead.value)

/-- Reads that follow one another directly, a timeout among them, have the values of the pattern,
and an even number of partial matches end directly before them. -/
def Completed (pat : List UInt8) (rs : List ByteRead) : Prop :=
  ∃ pre mid post k, rs = pre ++ mid ++ post ∧ mid.map ByteRead.value = pat ∧
    (∃ stale, .timeout stale ∈ mid) ∧ Even k ∧ EndsWithPartials pat k (pre.map ByteRead.value)

instance (pat : List UInt8) (rs : List ByteRead) : Decidable (Occurs pat rs) :=
  inferInstanceAs (Decidable (pat <:+: _))

section Reads

variable {pat : List UInt8} {rs : List ByteRead}

/-- Reads that are no timeouts are those of their values. -/
theorem map_byte_value (h : ∀ stale, .timeout stale ∉ rs) :
    (rs.map ByteRead.value).map .byte = rs := by
  rw [List.map_map]
  refine (List.map_congr_left fun r hr => ?_).trans rs.map_id
  cases r with
  | byte b => rfl
  | timeout stale => exact absurd hr (h stale)

/-- What is found is received, or completed by a timeout. -/
theorem found_iff : Found pat rs ↔ Received pat rs ∨ Completed pat rs := by
  constructor
  · rintro ⟨pre, post, k, hvalues, heven, hends⟩
    obtain ⟨rs₁, rs₃, rfl, hrs₁, rfl⟩ := List.map_eq_append_iff.1 hvalues
    obtain ⟨rs₁, rs₂, rfl, rfl, hrs₂⟩ := List.map_eq_append_iff.1 hrs₁
    by_cases htimeout : ∃ stale, .timeout stale ∈ rs₂
    · exact .inr ⟨rs₁, rs₂, rs₃, k, rfl, hrs₂, htimeout, heven, hends⟩
    · refine .inl ⟨rs₁, rs₃, k, ?_, heven, hends⟩
      rw [← hrs₂, map_byte_value (not_exists.1 htimeout)]
  · rintro (⟨pre, post, k, rfl, heven, hends⟩ | ⟨pre, mid, post, k, rfl, hmid, -, heven, hends⟩)
    · refine ⟨pre.map ByteRead.value, post.map ByteRead.value, k, ?_, heven, hends⟩
      simp [ByteRead.value, Function.comp_def]
    · exact ⟨pre.map ByteRead.value, post.map ByteRead.value, k, by simp [hmid], heven, hends⟩

/-- What is received in reads that follow one another occurs in the bytes received. -/
theorem Received.occurs (h : Received pat rs) : Occurs pat rs := by
  obtain ⟨pre, post, k, rfl, -, -⟩ := h
  refine ⟨pre.filterMap ByteRead.received?, post.filterMap ByteRead.received?, ?_⟩
  have hbytes : ∀ bs : List UInt8, (bs.map ByteRead.byte).filterMap ByteRead.received? = bs := by
    intro bs
    rw [List.filterMap_map]
    exact List.filterMap_some
  rw [List.filterMap_append, List.filterMap_append, hbytes]

end Reads

section Window

variable {pat : List UInt8} {marker : UInt32} {w : Window}

/-- The count of a window is the one of the scan of its values. -/
theorem detectWindow_scanFrom {m : ℕ} {input : List (ByteRead × UInt32)}
    (h : detectWindow pat marker m input = some w) :
    w.cnt ≤ pat.length ∧
      (w.cnt = pat.length ↔ scanFrom pat m (w.consumed.map ByteRead.value)) := by
  induction input generalizing m w with
  | nil => cases h
  | cons x input ih =>
    obtain ⟨r, now⟩ := x
    have hle : nextMatch pat m r.value ≤ pat.length := nextMatch_le_length r.value
    simp only [detectWindow] at h
    split at h
    next hloop =>
      obtain ⟨w', hw', rfl⟩ := Option.map_eq_some_iff.1 h
      simpa [scanFrom, hloop.1.ne] using ih hw'
    next =>
      obtain rfl := Option.some.inj h
      simpa [scanFrom] using hle

/-- A window ends with the whole pattern matched exactly when the pattern is found. -/
theorem detectWindow_cnt_eq_iff {input : List (ByteRead × UInt32)} (hne : pat ≠ [])
    (hhead : pat.head hne ∉ pat.tail) (h : detectWindow pat marker 0 input = some w) :
    w.cnt = pat.length ↔ Found pat w.consumed := by
  rw [(detectWindow_scanFrom h).2, Found, scanFrom_iff hne hhead]

end Window

/-- `ubx_detectUBX` returns true exactly when the header is found. -/
theorem ubxDetectUBX_eq_true_iff {marker : UInt32} {input : List (ByteRead × UInt32)}
    {found : Bool} {rs : List ByteRead} (h : ubxDetectUBX marker input = some (found, rs)) :
    found = true ↔ Found ubxnavpvthdr rs := by
  obtain ⟨w, hw, hret⟩ := Option.bind_eq_some_iff.1 h
  obtain ⟨rfl, rfl⟩ := Prod.mk.inj (Option.some.inj hret)
  have hle : w.cnt ≤ 4 := (detectWindow_scanFrom hw).1
  have hfound : w.cnt = 4 ↔ _ := detectWindow_cnt_eq_iff (by decide) (by decide) hw
  rw [← hfound]
  split <;> simp <;> omega

/-- `ubx_detectNMEA` returns true exactly when one of the patterns is found in its window. -/
theorem ubxDetectNMEA_eq_true_iff {marker₁ marker₂ : UInt32} {input : List (ByteRead × UInt32)}
    {found : Bool} {rs₁ rs₂ : List ByteRead}
    (h : ubxDetectNMEA marker₁ marker₂ input = some (found, rs₁, rs₂)) :
    found = true ↔ Found szNMEA_GNGLL rs₁ ∨ Found szNMEA_GPGLL rs₂ := by
  obtain ⟨w₁, hw₁, h⟩ := Option.bind_eq_some_iff.1 h
  have hfound₁ : w₁.cnt = 7 ↔ _ := detectWindow_cnt_eq_iff (by decide) (by decide) hw₁
  by_cases hcnt₁ : w₁.cnt = 7
  · rw [if_pos hcnt₁] at h
    obtain ⟨rfl, rfl, rfl⟩ : true = found ∧ w₁.consumed = rs₁ ∧ [] = rs₂ := by simpa using h
    exact iff_of_true rfl (.inl (hfound₁.1 hcnt₁))
  rw [if_neg hcnt₁] at h
  obtain ⟨w₂, hw₂, h⟩ := Option.bind_eq_some_iff.1 h
  have hfound₂ : w₂.cnt = 7 ↔ _ := detectWindow_cnt_eq_iff (by decide) (by decide) hw₂
  by_cases hcnt₂ : w₂.cnt = 7
  · rw [if_pos hcnt₂] at h
    obtain ⟨rfl, rfl, rfl⟩ : true = found ∧ w₁.consumed = rs₁ ∧ w₂.consumed = rs₂ := by
      simpa using h
    exact iff_of_true rfl (.inr (hfound₂.1 hcnt₂))
  · rw [if_neg hcnt₂] at h
    obtain ⟨rfl, rfl, rfl⟩ : false = found ∧ w₁.consumed = rs₁ ∧ w₂.consumed = rs₂ := by
      simpa using h
    refine iff_of_false Bool.false_ne_true ?_
    rintro (h₁ | h₂)
    · exact hcnt₁ (hfound₁.2 h₁)
    · exact hcnt₂ (hfound₂.2 h₂)

/-- A proposition that `r` implies is equivalent to `r ∨ c` in three kinds of cases. -/
theorem or_iff_iff_of_imp {r c o : Prop} (hro : r → o) :
    (r ∨ c ↔ o) ↔ r ∨ o ∧ c ∨ ¬ o ∧ ¬ c := by
  tauto

/-- **Detection is exact in three kinds of cases.** The pattern is received in reads that follow one
another after an even number of partial matches; or it is received only in other ways, split by a
timeout or after an odd number of partial matches, but a timeout completes it after an even number;
or it is not received and no timeout completes it after an even number. -/
theorem ubxDetect_iff (input : List (ByteRead × UInt32)) :
    (∀ marker found rs, ubxDetectUBX marker input = some (found, rs) →
      ((found = true ↔ Occurs ubxnavpvthdr rs) ↔
        Received ubxnavpvthdr rs ∨
          Occurs ubxnavpvthdr rs ∧ Completed ubxnavpvthdr rs ∨
          ¬ Occurs ubxnavpvthdr rs ∧ ¬ Completed ubxnavpvthdr rs)) ∧
    (∀ marker₁ marker₂ found rs₁ rs₂,
      ubxDetectNMEA marker₁ marker₂ input = some (found, rs₁, rs₂) →
      ((found = true ↔ Occurs szNMEA_GNGLL rs₁ ∨ Occurs szNMEA_GPGLL rs₂) ↔
        (Received szNMEA_GNGLL rs₁ ∨ Received szNMEA_GPGLL rs₂) ∨
          (Occurs szNMEA_GNGLL rs₁ ∨ Occurs szNMEA_GPGLL rs₂) ∧
            (Completed szNMEA_GNGLL rs₁ ∨ Completed szNMEA_GPGLL rs₂) ∨
          ¬ (Occurs szNMEA_GNGLL rs₁ ∨ Occurs szNMEA_GPGLL rs₂) ∧
            ¬ (Completed szNMEA_GNGLL rs₁ ∨ Completed szNMEA_GPGLL rs₂))) := by
  constructor
  · intro marker found rs h
    rw [ubxDetectUBX_eq_true_iff h, found_iff]
    exact or_iff_iff_of_imp Received.occurs
  · intro marker₁ marker₂ found rs₁ rs₂ h
    rw [ubxDetectNMEA_eq_true_iff h, found_iff, found_iff, or_or_or_comm]
    exact or_iff_iff_of_imp (Or.imp Received.occurs Received.occurs)

/-- A header that two partial matches precede, a timeout among them, is detected. -/
theorem ubxDetect_iff_two_partials :
    ∃ rs, ubxDetectUBX 0 [(.byte 0xB5, 1), (.timeout 0xB5, 2), (.byte 0xB5, 3), (.byte 0x62, 4),
        (.byte 0x01, 5), (.byte 0x07, 6)] = some (true, rs) ∧ Occurs ubxnavpvthdr rs := by
  refine ⟨[.byte 0xB5, .timeout 0xB5, .byte 0xB5, .byte 0x62, .byte 0x01, .byte 0x07], by decide,
    (((ubxDetect_iff [(.byte 0xB5, 1), (.timeout 0xB5, 2), (.byte 0xB5, 3), (.byte 0x62, 4),
      (.byte 0x01, 5), (.byte 0x07, 6)]).1 0 true _ (by decide)).2 (.inl ?_)).1 rfl⟩
  have htwo : EndsWithPartials ubxnavpvthdr 2 [0xB5, 0xB5] :=
    ((endsWithPartials_nil _).succ Nat.one_pos (by decide)).succ Nat.one_pos (by decide)
  exact ⟨[.byte 0xB5, .timeout 0xB5], [], 2, rfl, even_two, htwo⟩

/-- **A header after a single `0xB5` is not detected.** -/
theorem not_ubxDetect_exact :
    ∃ rs, ubxDetectUBX 0 [(.byte 0xB5, 1), (.byte 0xB5, 2), (.byte 0x62, 3), (.byte 0x01, 4),
        (.byte 0x07, 320000000)] = some (false, rs) ∧ Occurs ubxnavpvthdr rs :=
  ⟨[.byte 0xB5, .byte 0xB5, .byte 0x62, .byte 0x01, .byte 0x07], by decide, by decide⟩

/-! ### The time that a window takes -/

/-- The counter is sampled at these times after the marker: a tick at least and 3900000000 ticks at
most lie between the marker and the first sample and between one sample and the next. -/
structure SamplesAdvance (times : ℕ → ℕ) : Prop where
  first_pos : 0 < times 0
  first_le : times 0 ≤ 3900000000
  lt_succ (n : ℕ) : times n < times (n + 1)
  succ_le (n : ℕ) : times (n + 1) ≤ times n + 3900000000

section Time

variable (marker : UInt32) (reads : ℕ → ByteRead) (times : ℕ → ℕ)

/-- The first `n` reads, and the counter at the samples after them. -/
def windowInput (n : ℕ) : List (ByteRead × UInt32) :=
  (List.range n).map fun i => (reads i, counterAt marker (times i))

theorem windowInput_succ (n : ℕ) :
    windowInput marker reads times (n + 1) =
      (reads 0, counterAt marker (times 0)) ::
        windowInput marker (fun i => reads (i + 1)) (fun i => times (i + 1)) n := by
  rw [windowInput, List.range_succ_eq_map, List.map_cons, List.map_map]
  rfl

/-- Less than two seconds are measured. -/
theorem lt_of_elapsed {t : ℕ} (ht : t + 80 < 2 ^ 32)
    (h : cctElapsedUs cctTicksPerUs marker (counterAt marker t) < 2000000) : t < 320000000 := by
  by_contra hge
  have hle := le_cctElapsedUs cctTicksPerUs marker 2000000 (by decide) ht
    (Nat.not_lt.1 hge)
  exact absurd (UInt32.lt_iff_toNat_lt.1 h) (Nat.not_lt.2 hle)

/-- Two seconds are measured. -/
theorem le_of_elapsed {t : ℕ} (ht : t + 80 < 2 ^ 32)
    (h : ¬ cctElapsedUs cctTicksPerUs marker (counterAt marker t) < 2000000) :
    319999920 ≤ t := by
  by_contra hlt
  have hticks : t + 80 < 2000000 * 160 := by omega
  exact h (UInt32.lt_iff_toNat_lt.2
    (cctElapsedUs_lt cctTicksPerUs marker 2000000 ht hticks))

/-- A loop that is sampled when two seconds have passed has ended then, if the counter has not run
into its value at the marker again. -/
theorem exists_detectWindow (reads : ℕ → ByteRead) (times : ℕ → ℕ) (pat : List UInt8)
    (m N : ℕ) (hlast : 320000000 ≤ times N)
    (hsmall : ∀ i ≤ N, times i + 80 < 2 ^ 32) :
    ∃ n ≤ N, ∃ w, detectWindow pat marker m (windowInput marker reads times (n + 1)) = some w ∧
      w.rest = [] ∧ (w.cnt < pat.length → 319999920 ≤ times n) := by
  have hfirst := hsmall 0 (Nat.zero_le N)
  by_cases hloop : nextMatch pat m (reads 0).value < pat.length ∧
      cctElapsedUs cctTicksPerUs marker (counterAt marker (times 0)) < 2000000
  · have hearly := lt_of_elapsed marker hfirst hloop.2
    cases N with
    | zero => exact absurd hlast (Nat.not_le.2 hearly)
    | succ N =>
      obtain ⟨n, hn, w, hw, hrest, hcnt⟩ := exists_detectWindow (fun i => reads (i + 1))
        (fun i => times (i + 1)) pat (nextMatch pat m (reads 0).value) N hlast
        fun i hi => hsmall (i + 1) (Nat.succ_le_succ hi)
      refine ⟨n + 1, Nat.succ_le_succ hn, { w with consumed := reads 0 :: w.consumed }, ?_, hrest,
        hcnt⟩
      rw [windowInput_succ, detectWindow, if_pos hloop, hw, Option.map_some]
  · refine ⟨0, Nat.zero_le N, ⟨nextMatch pat m (reads 0).value, [reads 0], []⟩, ?_, rfl, ?_⟩
    · rw [windowInput_succ, detectWindow, if_neg hloop]
      rfl
    · intro hcnt
      exact le_of_elapsed marker hfirst fun helapsed => hloop ⟨hcnt, helapsed⟩

variable {times}

theorem SamplesAdvance.lt (h : SamplesAdvance times) (n : ℕ) : n < times n := by
  induction n with
  | zero => exact h.first_pos
  | succ n ih => exact (Nat.succ_le_of_lt ih).trans_lt (h.lt_succ n)

/-- There is a first sample at a time, and it is not much later. -/
theorem SamplesAdvance.exists_first (h : SamplesAdvance times) (t : ℕ) :
    ∃ N, t ≤ times N ∧ times N ≤ t + 3900000000 ∧ ∀ i < N, times i < t := by
  have hexists : ∃ N, t ≤ times N := ⟨t, (h.lt t).le⟩
  refine ⟨Nat.find hexists, Nat.find_spec hexists, ?_, fun i hi =>
    Nat.not_le.1 (Nat.find_min hexists hi)⟩
  rcases hN : Nat.find hexists with _ | N
  · exact h.first_le.trans (Nat.le_add_left ..)
  · have hbefore := Nat.not_le.1 (Nat.find_min hexists (m := N) (by omega))
    exact (h.succ_le N).trans (Nat.add_le_add_right hbefore.le _)

/-- **A window ends on time.** It ends with the sample `n`: no sample before it is made when two
seconds have passed, and if the pattern has not matched two seconds less half a microsecond have
passed. -/
theorem detectWindow_ends (h : SamplesAdvance times) (pat : List UInt8) :
    ∃ n w, detectWindow pat marker 0 (windowInput marker reads times (n + 1)) = some w ∧
      w.rest = [] ∧ (w.cnt < pat.length → 319999920 ≤ times n) ∧
      ∀ i < n, times i < 320000000 := by
  obtain ⟨N, hN, hnear, hbefore⟩ := h.exists_first 320000000
  have hsmall : ∀ i ≤ N, times i + 80 < 2 ^ 32 := by
    intro i hi
    rcases hi.eq_or_lt with rfl | hlt
    · omega
    · have := hbefore i hlt
      omega
  obtain ⟨n, hn, w, hw, hrest, hcnt⟩ := exists_detectWindow marker reads times pat 0 N hN hsmall
  exact ⟨n, w, hw, hrest, hcnt, fun i hi => hbefore i (hi.trans_le hn)⟩

end Time

/-- Nothing is received, and the counter is sampled each second. -/
theorem detectWindow_ends_timeout :
    ∃ n w, detectWindow ubxnavpvthdr 0xFFFFFF00 0 (windowInput 0xFFFFFF00 (fun _ => .timeout 0)
        (fun n => 160000000 * (n + 1)) (n + 1)) = some w ∧
      w.rest = [] ∧ (w.cnt < 4 → 319999920 ≤ 160000000 * (n + 1)) ∧
      ∀ i < n, 160000000 * (i + 1) < 320000000 :=
  have h : SamplesAdvance fun n => 160000000 * (n + 1) :=
    ⟨by omega, by omega, fun n => by omega, fun n => by omega⟩
  detectWindow_ends 0xFFFFFF00 _ h ubxnavpvthdr

end GpsTracker
