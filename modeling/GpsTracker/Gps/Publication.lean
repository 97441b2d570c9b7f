import GpsTracker.Gps.Framing

/-!
# What the GPS task publishes

The other tasks read the navigation solution from `NavPvt`, which is the array the state machine
captures packets in. Two properties one would like to have of it hold only of some streams.

The solution is published in one piece at every point of a run exactly when every byte stored
before the last one of a packet is 0, as in the record at the start (`neverHalfUpdated_iff`).
The machine accepts only packets with a correct checksum exactly when the stream frames no others
(`acceptsOnlyIntact_iff`), since `gps_packetChecksum` accepts everything. Both are consequences of
what one byte does at a point of the run (`gpsPoint_succ`).

## Main definitions

* `Published`, `NeverHalfUpdated`, `KeepsRecord`, `ZeroButLast`.
* `Intact`, `AcceptsOnlyIntact`, `framedPackets`.

## Main results

* `neverHalfUpdated_iff`, `not_neverHalfUpdated`.
* `acceptsOnlyIntact_iff`, `not_acceptsOnlyIntact`.
-/

namespace GpsTracker

/-! ### One byte at a point of the run -/

/-- The packets that the framer of the NAV-PVT header finds in a stream. -/
def framedPackets (xs : List UInt8) : List (List UInt8) :=
  match ubxFramer.machine.run (.seek 0) xs with
  | some (_, ps) => ps
  | none => []

theorem framedPackets_of_run {xs : List UInt8} {f : Framer.State UInt8} {ps : List (List UInt8)}
    (h : ubxFramer.machine.run (.seek 0) xs = some (f, ps)) : framedPackets xs = ps := by
  rw [framedPackets, h]

/-- The packets found in a part of the stream are found in the stream. -/
theorem framedPackets_take_subset (xs : List UInt8) (n : ℕ) :
    framedPackets (xs.take n) ⊆ framedPackets xs := by
  obtain ⟨f, ps, hrun, -⟩ := ubxFramer.run_segmented (xs.take n)
  obtain ⟨f', ps', hrun', -⟩ := ubxFramer.run_segmented xs
  have happ := Transducer.run_append_of_eq_some hrun (xs.drop n)
  rw [List.take_append_drop, hrun'] at happ
  obtain ⟨⟨g, qs⟩, -, heq⟩ := Option.map_eq_some_iff.mp happ.symm
  obtain ⟨-, rfl⟩ : g = f' ∧ ps ++ qs = ps' := by simpa using heq
  rw [framedPackets_of_run hrun, framedPackets_of_run hrun']
  exact List.subset_append_left ps qs

variable {buf : List UInt8} {rs : List UartRead} {n : ℕ} {s : GpsVars} {os : List GpsReport}

/-- The variables at a point represent the framer, and what was reported are its packets. -/
theorem gpsPoint_eq_some (h : gpsPoint rs n (gpsConfigured buf) = some (s, os)) :
    ∃ f ps, os = ps.map .navUpdated ∧
      ubxFramer.machine.run (.seek 0) ((received rs).take n) = some (f, ps) ∧
      s.Represents f (ps.getLast?.getD zeroPkt) := by
  obtain ⟨s', f, ps, hpoint, hrun, hrep⟩ := gpsPoint_represents buf rs n
  obtain ⟨rfl, rfl⟩ : s' = s ∧ ps.map .navUpdated = os := by simpa [hpoint] using h
  exact ⟨f, ps, rfl, hrun, hrep⟩

/-- The next point of the run is one byte further. -/
theorem gpsPoint_succ (h : gpsPoint rs n (gpsConfigured buf) = some (s, os)) {b : UInt8}
    (hb : (received rs)[n]? = some b) {s' : GpsVars} {o : List GpsReport}
    (hs : gpsStateMachineByte s b = some (s', o)) :
    gpsPoint rs (n + 1) (gpsConfigured buf) = some (s', os ++ o) := by
  rw [gpsPoint_eq_run] at h ⊢
  rw [List.take_add_one, hb, Option.toList_some]
  exact Transducer.run_concat_of_eq_some h hs

/-- **The rule for runs.** What holds at the start and is preserved by each byte of the run holds at
every point of it. -/
theorem gpsPoint_induction {P : GpsVars → List GpsReport → Prop}
    (h0 : P (gpsConfigReset .static) [])
    (hstep : ∀ n s os b s' o, gpsPoint rs n (gpsConfigured buf) = some (s, os) →
      (received rs)[n]? = some b → gpsStateMachineByte s b = some (s', o) → P s os →
      P s' (os ++ o)) :
    ∀ n s os, gpsPoint rs n (gpsConfigured buf) = some (s, os) → P s os := by
  intro n
  induction n with
  | zero =>
    intro s os h
    rw [gpsPoint_eq_run] at h
    obtain ⟨rfl, rfl⟩ : gpsConfigReset .static = s ∧ [] = os := by simpa [gpsConfigured] using h
    exact h0
  | succ n ih =>
    intro s' os' h
    cases hb : (received rs)[n]? with
    | none =>
      -- All bytes have been processed after the first `n`, so the point is the same.
      rw [gpsPoint_eq_run, List.take_add_one, hb, Option.toList_none, List.append_nil,
        ← gpsPoint_eq_run] at h
      exact ih s' os' h
    | some b =>
      obtain ⟨s, f, ps, hpoint, -, hrep⟩ := gpsPoint_represents buf rs n
      obtain ⟨t, ht, -⟩ := hrep.step b
      obtain ⟨rfl, rfl⟩ : t = s' ∧ _ = os' := by simpa [gpsPoint_succ hpoint hb ht] using h
      exact hstep n s _ b t _ hpoint hb ht (ih s _ hpoint)

/-! ### The record published -/

/-- The buffer holds the zeros it began with or the packet reported last. -/
def Published (s : GpsVars) (os : List GpsReport) : Prop :=
  s.pktBuffer = zeroPkt ∨ (os.filterMap GpsReport.packet?).getLast? = some s.pktBuffer

/-- At no point of the run does the buffer hold anything else. -/
def NeverHalfUpdated (buf : List UInt8) (rs : List UartRead) : Prop :=
  ∀ n s os, gpsPoint rs n (gpsConfigured buf) = some (s, os) → Published s os

/-- The byte `b` is not stored in the buffer, or completes a packet, or is 0. -/
def KeepsRecord (s : GpsVars) (b : UInt8) : Prop :=
  s.gpsState = .pktRcv → s.pktReceivedBytes = 93 ∨ b = 0

/-- The bytes of the buffer before the last one of a packet are 0. -/
def ZeroButLast (s : GpsVars) : Prop := ∀ i < 93, s.pktBuffer[i]? = some 0

private theorem filterMap_packet? (ps : List (List UInt8)) :
    (ps.map GpsReport.navUpdated).filterMap GpsReport.packet? = ps := by
  rw [List.filterMap_map]
  exact List.filterMap_some

private theorem getElem?_zeroPkt {i : ℕ} (h : i < navPvtPktNumBytes) : zeroPkt[i]? = some 0 := by
  rw [zeroPkt, List.getElem?_replicate, if_pos h]

namespace GpsVars.Represents

/-- The byte in whose place the next one is stored is that of the record before the capture. -/
private theorem getElem?_next {f : Framer.State UInt8} {base : List UInt8}
    (h : s.Represents f base) (hs : s.gpsState = .pktRcv) :
    s.pktBuffer[s.pktReceivedBytes.toNat]? = base[s.pktReceivedBytes.toNat]? := by
  cases f with
  | seek m => exact absurd (h.vars_eq.2.1.symm.trans hs) (by simp)
  | capture c =>
    obtain ⟨-, hbuf, -, -, -, hk⟩ := h
    rw [hbuf, hk, Int.toNat_natCast, Framer.State.captured_capture,
      List.getElem?_append_right le_rfl, Nat.sub_self, List.getElem?_drop, Nat.add_zero]

private theorem toNat_pktReceivedBytes_lt {f : Framer.State UInt8} {base : List UInt8}
    (h : s.Represents f base) (hne : s.pktReceivedBytes ≠ 93) : s.pktReceivedBytes.toNat < 93 := by
  have := h.pktReceivedBytes_bounds
  omega

variable {f : Framer.State UInt8} {ps : List (List UInt8)} {b : UInt8} {s' : GpsVars}
  {o : List GpsReport}

/-- A byte that keeps the record leaves the buffer as it is or completes a packet. -/
theorem keepsRecord_cases {base : List UInt8} (h : s.Represents f base)
    (hs : gpsStateMachineByte s b = some (s', o)) (hkeep : KeepsRecord s b)
    (hzero : ZeroButLast s) :
    o = [] ∧ s'.pktBuffer = s.pktBuffer ∨
      o = [.navUpdated s'.pktBuffer] ∧ s'.pktBuffer = s.pktBuffer.take 93 ++ [b] := by
  rcases h.step_cases hs with ⟨-, ho, hbuf⟩ | ⟨hrcv, hne, ho, hset⟩ | ⟨-, -, ho, hbuf⟩
  · exact .inl ⟨ho, hbuf⟩
  · obtain rfl : b = 0 := (hkeep hrcv).resolve_left hne
    obtain ⟨hk, hget⟩ :=
      List.getElem?_eq_some_iff.mp (hzero _ (h.toNat_pktReceivedBytes_lt hne))
    exact .inl ⟨ho, by rw [hset, ← hget, List.set_getElem_self]⟩
  · exact .inr ⟨ho, hbuf⟩

/-- It leaves the bytes before the last one 0. -/
theorem zeroButLast {base : List UInt8} (h : s.Represents f base)
    (hs : gpsStateMachineByte s b = some (s', o)) (hkeep : KeepsRecord s b)
    (hzero : ZeroButLast s) : ZeroButLast s' := by
  intro i hi
  rcases h.keepsRecord_cases hs hkeep hzero with ⟨-, hbuf⟩ | ⟨-, hbuf⟩
  · rw [hbuf, hzero i hi]
  · have hlen : (s.pktBuffer.take 93).length = 93 := by
      rw [List.length_take, h.length_pktBuffer, navPvtPktNumBytes]
      rfl
    rw [hbuf, List.getElem?_append_left (by omega), List.getElem?_take_of_lt hi, hzero i hi]

/-- It leaves the record published. -/
theorem published (h : s.Represents f (ps.getLast?.getD zeroPkt))
    (hs : gpsStateMachineByte s b = some (s', o)) (hkeep : KeepsRecord s b) (hzero : ZeroButLast s)
    (hpub : Published s (ps.map .navUpdated)) : Published s' (ps.map .navUpdated ++ o) := by
  rcases h.keepsRecord_cases hs hkeep hzero with ⟨rfl, hbuf⟩ | ⟨rfl, -⟩
  · rw [List.append_nil]
    rwa [Published, hbuf]
  · exact .inr (by simp [GpsReport.packet?])

/-- A byte after which the record is published has kept it. -/
theorem keepsRecord (h : s.Represents f (ps.getLast?.getD zeroPkt))
    (hs : gpsStateMachineByte s b = some (s', o)) (hzero : ZeroButLast s)
    (hpub : Published s' (ps.map .navUpdated ++ o)) : KeepsRecord s b := by
  intro hrcv
  rcases h.step_cases hs with ⟨hst, -⟩ | ⟨-, hne, rfl, hset⟩ | ⟨-, h93, -⟩
  · exact absurd hrcv hst
  · have hk := h.toNat_pktReceivedBytes_lt hne
    have hnew : s'.pktBuffer[s.pktReceivedBytes.toNat]? = some b := by
      rw [hset, List.getElem?_set_self (by rw [h.length_pktBuffer, navPvtPktNumBytes]; omega)]
    -- What is published has a 0 in the place of the byte.
    have hold : s'.pktBuffer[s.pktReceivedBytes.toNat]? = some 0 := by
      rw [List.append_nil] at hpub
      rcases hpub with hfirst | hlast
      · rw [hfirst, getElem?_zeroPkt (by rw [navPvtPktNumBytes]; omega)]
      · rw [filterMap_packet?] at hlast
        rw [← hzero _ hk, h.getElem?_next hrcv, hlast, Option.getD_some]
    exact .inr (Option.some.inj (hnew.symm.trans hold))
  · exact .inl h93

end GpsVars.Represents

theorem zeroButLast_static : ZeroButLast (gpsConfigReset .static) := fun i hi =>
  getElem?_zeroPkt (hi.trans (by decide))

/-- **The solution is never half-updated exactly when every byte that is captured is 0**, but for
the last ones of the packets. -/
theorem neverHalfUpdated_iff (buf : List UInt8) (rs : List UartRead) :
    NeverHalfUpdated buf rs ↔ ∀ n s os b, gpsPoint rs n (gpsConfigured buf) = some (s, os) →
      (received rs)[n]? = some b → KeepsRecord s b := by
  constructor
  · intro hpub n s os b hpoint hb
    have hkeep : ∀ n s os b, gpsPoint rs n (gpsConfigured buf) = some (s, os) →
        (received rs)[n]? = some b → ZeroButLast s → KeepsRecord s b := by
      intro n s os b hpoint hb hzero
      obtain ⟨f, ps, rfl, -, hrep⟩ := gpsPoint_eq_some hpoint
      obtain ⟨s', hs, -⟩ := hrep.step b
      exact hrep.keepsRecord hs hzero (hpub _ _ _ (gpsPoint_succ hpoint hb hs))
    refine hkeep n s os b hpoint hb (gpsPoint_induction (P := fun s _ => ZeroButLast s)
      zeroButLast_static ?_ n s os hpoint)
    intro n s os b s' o hpoint hb hs hzero
    obtain ⟨f, ps, -, -, hrep⟩ := gpsPoint_eq_some hpoint
    exact hrep.zeroButLast hs (hkeep n s os b hpoint hb hzero) hzero
  · intro hkeep
    refine fun n s os hpoint => (gpsPoint_induction
      (P := fun s os => Published s os ∧ ZeroButLast s) ⟨.inl rfl, zeroButLast_static⟩ ?_
      n s os hpoint).1
    intro n s os b s' o hpoint hb hs ⟨hpub, hzero⟩
    obtain ⟨f, ps, rfl, -, hrep⟩ := gpsPoint_eq_some hpoint
    have hb := hkeep n s _ b hpoint hb
    exact ⟨hrep.published hs hb hzero hpub, hrep.zeroButLast hs hb hzero⟩

/-- **A packet of which one byte has arrived is visible.** -/
theorem not_neverHalfUpdated : ¬ ∀ buf rs, NeverHalfUpdated buf rs := by
  intro h
  have hpoint : gpsPoint [.bytes (gpsUbxNavPvtHdr ++ [1]) (by decide)] 7 (gpsConfigured []) =
      some ({ gpsConfigReset .static with
        gpsState := .pktRcv
        pktReceivedBytes := 1
        pktBuffer := 1 :: List.replicate 93 0 }, []) := by decide
  rcases h [] _ 7 _ _ hpoint with hzero | hlast
  · simp [zeroPkt, navPvtPktNumBytes, List.replicate_succ] at hzero
  · simp at hlast

/-! ### The packets accepted -/

/-- The last two of the 94 bytes are the UBX checksum of the class, the identifier and the length
of the message, which end the header, and of the payload. -/
def Intact (p : List UInt8) : Prop :=
  p.drop 92 = [(ubxChecksum (gpsUbxNavPvtHdr.drop 2 ++ p.take 92)).1,
    (ubxChecksum (gpsUbxNavPvtHdr.drop 2 ++ p.take 92)).2]

instance (p : List UInt8) : Decidable (Intact p) :=
  inferInstanceAs (Decidable (_ = _))

/-- Every byte of the run that makes the machine report an update completes an intact packet, and
every byte that completes a packet that is not intact is answered by the error message alone. -/
def AcceptsOnlyIntact (buf : List UInt8) (rs : List UartRead) : Prop :=
  ∀ n s os b s' o, gpsPoint rs n (gpsConfigured buf) = some (s, os) →
    (received rs)[n]? = some b → gpsStateMachineByte s b = some (s', o) →
    (∀ p, .navUpdated p ∈ o → Intact p) ∧
      (s.gpsState = .pktRcv → s.pktReceivedBytes = 93 → ¬ Intact (s.pktBuffer.take 93 ++ [b]) →
        o = [.logError "gps" "packet checksum error"])

/-- The packets reported at a point of the run are framed in the stream. -/
theorem mem_framedPackets (h : gpsPoint rs n (gpsConfigured buf) = some (s, os)) {p : List UInt8}
    (hp : .navUpdated p ∈ os) : p ∈ framedPackets (received rs) := by
  obtain ⟨f, ps, rfl, hrun, -⟩ := gpsPoint_eq_some h
  refine framedPackets_take_subset _ n ?_
  rw [framedPackets_of_run hrun]
  simpa using hp

/-- The packets framed in the stream have been reported at the end of the run. -/
theorem exists_gpsPoint_of_mem_framedPackets (buf : List UInt8) {p : List UInt8}
    (hp : p ∈ framedPackets (received rs)) :
    ∃ n s os, gpsPoint rs n (gpsConfigured buf) = some (s, os) ∧ .navUpdated p ∈ os := by
  obtain ⟨s, f, ps, hpoint, hrun, -⟩ := gpsPoint_represents buf rs (received rs).length
  rw [List.take_length] at hrun
  rw [framedPackets_of_run hrun] at hp
  exact ⟨_, s, _, hpoint, List.mem_map_of_mem hp⟩

/-- If only intact packets are accepted, those reported until any point are intact. -/
theorem AcceptsOnlyIntact.intact (hacc : AcceptsOnlyIntact buf rs) :
    ∀ n s os, gpsPoint rs n (gpsConfigured buf) = some (s, os) →
      ∀ p, .navUpdated p ∈ os → Intact p := by
  refine gpsPoint_induction (by simp) ?_
  intro n s os b s' o hpoint hb hs hos p hp
  rcases List.mem_append.mp hp with hp | hp
  · exact hos p hp
  · exact (hacc n s os b s' o hpoint hb hs).1 p hp

/-- **Only intact packets are accepted exactly when the stream frames no others.** -/
theorem acceptsOnlyIntact_iff (buf : List UInt8) (rs : List UartRead) :
    AcceptsOnlyIntact buf rs ↔ ∀ p ∈ framedPackets (received rs), Intact p := by
  constructor
  · intro hacc p hp
    obtain ⟨n, s, os, hpoint, hmem⟩ := exists_gpsPoint_of_mem_framedPackets buf hp
    exact hacc.intact n s os hpoint p hmem
  · intro hintact n s os b s' o hpoint hb hs
    have hreported : ∀ p, .navUpdated p ∈ o → Intact p := fun p hp =>
      hintact p (mem_framedPackets (gpsPoint_succ hpoint hb hs) (List.mem_append_right os hp))
    obtain ⟨f, ps, -, -, hrep⟩ := gpsPoint_eq_some hpoint
    refine ⟨hreported, fun hrcv h93 hnot => ?_⟩
    rcases hrep.step_cases hs with ⟨hst, -⟩ | ⟨-, hne, -⟩ | ⟨-, -, rfl, hbuf⟩
    · exact absurd hrcv hst
    · exact absurd h93 hne
    · exact absurd (hreported _ (by simp)) (hbuf ▸ hnot)

/-- **A packet of zeros, whose checksum is wrong, is accepted.** -/
theorem not_acceptsOnlyIntact : ¬ ∀ buf rs, AcceptsOnlyIntact buf rs := by
  intro h
  have hpoint : gpsPoint [.bytes (gpsUbxNavPvtHdr ++ zeroPkt) (by decide)] 99 (gpsConfigured []) =
      some ({ gpsConfigReset .static with gpsState := .pktRcv, pktReceivedBytes := 93 }, []) := by
    decide +kernel
  have hstep : gpsStateMachineByte
      { gpsConfigReset .static with gpsState := .pktRcv, pktReceivedBytes := 93 } 0 =
      some ({ gpsConfigReset .static with isGpsNavUpdated := true }, [.navUpdated zeroPkt]) := by
    decide +kernel
  have hbad : ¬ Intact zeroPkt := by decide +kernel
  exact hbad ((h [] _ 99 _ _ 0 _ _ hpoint (by decide +kernel) hstep).1 zeroPkt (by simp))

end GpsTracker
