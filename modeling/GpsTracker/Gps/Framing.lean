import GpsTracker.Gps.StateMachine

/-!
# Framing of NAV-PVT packets

The results of this file hold at every point of every run of the GPS task after a successful
`gps_config`, whatever bytes arrive and however the UART cuts them into reads.

The indices `NumValidHdrBytes` and `PktReceivedBytes` stay inside the arrays they index, so that
the task never accesses them out of bounds, and the packets captured are, in order, disjoint
segments of 94 bytes of the stream, each immediately preceded by the header (`gpsPoint_framing`).

A header in the stream is not always recognised. The machine drops a byte that does not continue
a partial match without asking whether it begins a new one, so that it recognises a header exactly
when no partial match is pending (`headerRecognised_iff`); a single `0xB5` before a header makes it
miss the packet (`not_headerSyncComplete`).

## Main definitions

* `HeaderRecognised`, `HeaderSyncComplete`.

## Main results

* `gpsPoint_framing`.
* `headerRecognised_iff`, `not_headerSyncComplete`.
-/

namespace GpsTracker

/-! ### The framer at a point of the run -/

/-- At every point of a run the variables represent the state of the framer. -/
theorem gpsPoint_represents (buf : List UInt8) (rs : List UartRead) (n : ℕ) :
    ∃ s f ps, gpsPoint rs n (gpsConfigured buf) = some (s, ps.map .navUpdated) ∧
      ubxFramer.machine.run (.seek 0) ((received rs).take n) = some (f, ps) ∧
      s.Represents f (ps.getLast?.getD zeroPkt) := by
  rw [gpsPoint_eq_run]
  exact gpsMachine_run_eq _

/-- The variables at a point of a run represent the state of the framer there. -/
theorem gpsPoint_of_run (buf : List UInt8) {rs : List UartRead} {n : ℕ}
    {f : Framer.State UInt8} {ps : List (List UInt8)}
    (h : ubxFramer.machine.run (.seek 0) ((received rs).take n) = some (f, ps)) :
    ∃ s, gpsPoint rs n (gpsConfigured buf) = some (s, ps.map .navUpdated) ∧
      s.Represents f (ps.getLast?.getD zeroPkt) := by
  obtain ⟨s, f', ps', hpoint, hrun, hrep⟩ := gpsPoint_represents buf rs n
  obtain ⟨rfl, rfl⟩ : f' = f ∧ ps' = ps := by simpa [hrun] using h
  exact ⟨s, hpoint, hrep⟩

namespace GpsVars.Represents

variable {s : GpsVars} {f : Framer.State UInt8} {base : List UInt8}

theorem numValidHdrBytes_bounds (h : s.Represents f base) :
    0 ≤ s.numValidHdrBytes ∧ s.numValidHdrBytes ≤ 5 := by
  cases f with
  | seek m => obtain ⟨-, -, hm, -, hn, -⟩ := h; omega
  | capture c => obtain ⟨-, -, -, -, hn, -⟩ := h; omega

theorem pktReceivedBytes_bounds (h : s.Represents f base) :
    0 ≤ s.pktReceivedBytes ∧ s.pktReceivedBytes ≤ 93 := by
  cases f with
  | seek m => obtain ⟨-, -, -, -, -, hk⟩ := h; omega
  | capture c =>
    obtain ⟨-, -, hc, -, -, hk⟩ := h
    rw [navPvtPktNumBytes] at hc
    omega

theorem length_pktBuffer (h : s.Represents f base) : s.pktBuffer.length = navPvtPktNumBytes := by
  have hle : f.captured.length ≤ navPvtPktNumBytes := by
    cases f with
    | seek m => exact Nat.zero_le _
    | capture c => exact h.vars_eq.1.le
  rw [h.pktBuffer_eq, List.length_append, List.length_drop, h.length_base]
  omega

theorem eq_seek (h : s.Represents f base) (hs : s.gpsState ≠ .pktRcv) :
    f = .seek s.numValidHdrBytes.toNat := by
  cases f with
  | seek m => obtain ⟨-, -, -, -, hn, -⟩ := h; simp [hn]
  | capture c => exact absurd h.vars_eq.2.1 hs

theorem eq_capture (h : s.Represents f base) (hs : s.gpsState = .pktRcv) :
    f = .capture (s.pktBuffer.take s.pktReceivedBytes.toNat) ∧ s.numValidHdrBytes = 0 := by
  cases f with
  | seek m => exact absurd (h.vars_eq.2.1.symm.trans hs) (by simp)
  | capture c =>
    obtain ⟨-, hbuf, -, -, hn, hk⟩ := h
    simp [hbuf, hk, hn]

end GpsVars.Represents

/-! ### Captured packets are segments of the stream -/

/-- **Framing soundness and index safety.** At every point of every run no array has been accessed
out of bounds, the indices are between their bounds, and the packets captured are disjoint
segments of the stream, each immediately preceded by the header. Of the bytes received since the
last packet, all in the idle state, the last `NumValidHdrBytes` are that prefix of the header;
while a packet is captured they end with the header and the bytes captured. -/
theorem gpsPoint_framing (buf : List UInt8) (rs : List UartRead) (n : ℕ) :
    ∃ s ps, gpsPoint rs n (gpsConfigured buf) = some (s, ps.map .navUpdated) ∧
      (0 ≤ s.numValidHdrBytes ∧ s.numValidHdrBytes ≤ 5) ∧
      (0 ≤ s.pktReceivedBytes ∧ s.pktReceivedBytes ≤ 93) ∧
      s.pktBuffer.length = navPvtPktNumBytes ∧
      ∃ done rest, (received rs).take n = done ++ rest ∧ ubxFramer.Segmented done ps ∧
        (s.gpsState = .idle → gpsUbxNavPvtHdr.take s.numValidHdrBytes.toNat <:+ rest) ∧
        (s.gpsState = .pktRcv → s.numValidHdrBytes = 0 ∧
          ∃ gap, rest = gap ++ gpsUbxNavPvtHdr ++ s.pktBuffer.take s.pktReceivedBytes.toNat) := by
  obtain ⟨s, f, ps, hpoint, hrun, hrep⟩ := gpsPoint_represents buf rs n
  obtain ⟨f', ps', hrun', hacc⟩ := ubxFramer.run_segmented ((received rs).take n)
  obtain ⟨rfl, rfl⟩ : f' = f ∧ ps' = ps := by simpa [hrun'] using hrun
  obtain ⟨done, rest, hsplit, hseg, hpend⟩ := hacc
  refine ⟨s, ps', hpoint, hrep.numValidHdrBytes_bounds, hrep.pktReceivedBytes_bounds,
    hrep.length_pktBuffer, done, rest, hsplit, hseg, fun hidle => ?_, fun hrcv => ?_⟩
  · rw [hrep.eq_seek (by simp [hidle])] at hpend
    exact hpend.2
  · obtain ⟨hf, hn⟩ := hrep.eq_capture hrcv
    rw [hf] at hpend
    exact ⟨hn, hpend.2⟩

/-! ### Recognition of a header -/

/-- After the six bytes that follow the first `n`, a packet is about to be captured. -/
def HeaderRecognised (buf : List UInt8) (rs : List UartRead) (n : ℕ) : Prop :=
  ∃ s os, gpsPoint rs (n + 6) (gpsConfigured buf) = some (s, os) ∧
    s.gpsState = .pktRcv ∧ s.pktReceivedBytes = 0

/-- Every header that arrives while no packet is captured is recognised. -/
def HeaderSyncComplete : Prop :=
  ∀ (buf : List UInt8) (rs : List UartRead) (pre post : List UInt8) (s : GpsVars)
    (os : List GpsReport), received rs = pre ++ (gpsUbxNavPvtHdr ++ post) →
    gpsPoint rs pre.length (gpsConfigured buf) = some (s, os) → s.gpsState ≠ .pktRcv →
    HeaderRecognised buf rs pre.length

/-- After a header that follows the bytes `pre`, the framer has captured nothing yet, or it has
missed the header. -/
private theorem run_pre_header {pre : List UInt8} {m : ℕ} {ps : List (List UInt8)}
    (hpre : ubxFramer.machine.run (.seek 0) pre = some (.seek m, ps)) :
    ubxFramer.machine.run (.seek 0) (pre ++ gpsUbxNavPvtHdr) =
      some (if m = 0 then .capture [] else .seek 0, ps) := by
  have hhead : ubxFramer.header.head ubxFramer.header_ne_nil ∉ ubxFramer.header.tail := by decide
  rw [Transducer.run_append_of_eq_some hpre, ← ubxFramer_header]
  by_cases hm : m = 0
  · subst hm
    rw [(ubxFramer.run_header_iff hhead ubxFramer.length_header_pos).mpr rfl]
    simp
  · rw [ubxFramer.run_header_of_pos hhead (Nat.pos_of_ne_zero hm)]
    simp [hm]

/-- The 94 bytes after a header at which the framer begins a capture are reported. -/
private theorem gpsPoint_payload (buf : List UInt8) {rs : List UartRead}
    {pre pkt rest : List UInt8} {ps : List (List UInt8)}
    (hrs : received rs = pre ++ (gpsUbxNavPvtHdr ++ (pkt ++ rest)))
    (hlen : pkt.length = navPvtPktNumBytes)
    (hhdr : ubxFramer.machine.run (.seek 0) (pre ++ gpsUbxNavPvtHdr) = some (.capture [], ps)) :
    ∃ s, gpsPoint rs (pre.length + 100) (gpsConfigured buf) =
      some (s, ps.map .navUpdated ++ [.navUpdated pkt]) := by
  have htake : (received rs).take (pre.length + 100) = pre ++ gpsUbxNavPvtHdr ++ pkt := by
    rw [hrs, List.append_assoc, List.take_length_add_append, ← List.append_assoc,
      List.take_left' (by simp [hlen, gpsUbxNavPvtHdr, navPvtPktNumBytes])]
  have hpkt : ubxFramer.machine.run (.seek 0) (pre ++ gpsUbxNavPvtHdr ++ pkt) =
      some (.seek 0, ps ++ [pkt]) := by
    rw [Transducer.run_append_of_eq_some hhdr, ubxFramer.run_payload hlen, Option.map_some]
  obtain ⟨s, hpoint, -⟩ := gpsPoint_of_run buf (htake ▸ hpkt)
  exact ⟨s, by simpa using hpoint⟩

/-- **A header is recognised exactly when no partial match is pending**, and the 94 bytes after a
recognised header are then captured as a packet. -/
theorem headerRecognised_iff (buf : List UInt8) {rs : List UartRead} {pre post : List UInt8}
    {s : GpsVars} {os : List GpsReport} (hrs : received rs = pre ++ (gpsUbxNavPvtHdr ++ post))
    (hpoint : gpsPoint rs pre.length (gpsConfigured buf) = some (s, os))
    (hs : s.gpsState ≠ .pktRcv) :
    (HeaderRecognised buf rs pre.length ↔ s.numValidHdrBytes = 0) ∧
      (HeaderRecognised buf rs pre.length →
        ∀ pkt rest, post = pkt ++ rest → pkt.length = navPvtPktNumBytes →
          ∃ s', gpsPoint rs (pre.length + 100) (gpsConfigured buf) =
            some (s', os ++ [.navUpdated pkt])) := by
  obtain ⟨s', f, ps, hpoint', hrun, hrep⟩ := gpsPoint_represents buf rs pre.length
  obtain ⟨rfl, rfl⟩ : s' = s ∧ ps.map .navUpdated = os := by simpa [hpoint'] using hpoint
  rw [hrs, List.take_left, hrep.eq_seek hs] at hrun
  have hzero : s'.numValidHdrBytes.toNat = 0 ↔ s'.numValidHdrBytes = 0 := by
    have := hrep.numValidHdrBytes_bounds
    omega
  have hhdr := run_pre_header hrun
  have htake : (received rs).take (pre.length + 6) = pre ++ gpsUbxNavPvtHdr := by
    rw [hrs, List.take_length_add_append]
    exact congrArg (pre ++ ·) rfl
  obtain ⟨t, hpt, hrept⟩ := gpsPoint_of_run buf (htake ▸ hhdr)
  have hiff : HeaderRecognised buf rs pre.length ↔ s'.numValidHdrBytes = 0 := by
    rw [← hzero]
    constructor
    · rintro ⟨t', qs, ht, hrcv, -⟩
      obtain ⟨rfl, -⟩ : t = t' ∧ _ := by simpa [hpt] using ht
      by_contra hm
      rw [if_neg hm] at hrept
      exact absurd (hrept.vars_eq.2.1.symm.trans hrcv) (by simp)
    · intro hm
      rw [if_pos hm] at hrept
      exact ⟨t, _, hpt, hrept.vars_eq.2.1, by simpa using hrept.vars_eq.2.2.2⟩
  refine ⟨hiff, fun hrec pkt rest hpost hlen => ?_⟩
  rw [if_pos (hzero.mpr (hiff.mp hrec))] at hhdr
  exact gpsPoint_payload buf (hpost ▸ hrs) hlen hhdr

/-- Two reads, the first of which ends inside a header that follows two other bytes. -/
def splitHeader : List UartRead :=
  [.bytes ([0xB5, 0x00] ++ gpsUbxNavPvtHdr.take 3) (by decide),
    .bytes (gpsUbxNavPvtHdr.drop 3 ++ List.replicate 94 7 ++ [1, 2]) (by decide)]

/-- The header is recognised and the packet after it reported, since the `0xB5` at the beginning is
not the last byte before the header. -/
theorem headerRecognised_splitHeader :
    HeaderRecognised [] splitHeader 2 ∧ ∃ s, gpsPoint splitHeader 102 (gpsConfigured []) =
      some (s, [.navUpdated (List.replicate 94 7)]) := by
  have hrs : received splitHeader =
    [0xB5, 0x00] ++ (gpsUbxNavPvtHdr ++ (List.replicate 94 7 ++ [1, 2])) := rfl
  have hpoint : gpsPoint splitHeader 2 (gpsConfigured []) = some (gpsConfigReset .static, []) := by
    decide
  obtain ⟨hiff, hpacket⟩ := headerRecognised_iff [] hrs hpoint (by decide)
  have hrec := hiff.mpr rfl
  exact ⟨hrec, hpacket hrec _ _ rfl (by decide)⟩

/-- **A header preceded by the byte `0xB5` is missed.** -/
theorem not_headerSyncComplete : ¬ HeaderSyncComplete := by
  intro h
  have hpoint : gpsPoint [.bytes (0xB5 :: gpsUbxNavPvtHdr) (by decide)] 1 (gpsConfigured []) =
      some ({ gpsConfigReset .static with numValidHdrBytes := 1 }, []) := by decide
  obtain ⟨s, os, hafter, hrcv, -⟩ := h [] [.bytes (0xB5 :: gpsUbxNavPvtHdr) (by decide)] [0xB5] []
    _ _ rfl hpoint (by decide)
  have hmissed : gpsPoint [.bytes (0xB5 :: gpsUbxNavPvtHdr) (by decide)] 7 (gpsConfigured []) =
      some (gpsConfigReset .static, []) := by decide
  obtain ⟨rfl, -⟩ : gpsConfigReset .static = s ∧ [] = os := by
    simpa [hmissed] using hafter
  simp [gpsConfigReset] at hrcv

end GpsTracker
