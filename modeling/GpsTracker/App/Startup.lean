import GpsTracker.App.Telemetry
import GpsTracker.Ble.Service

/-!
# The start of the server

`init_ble` creates a service with the default number of 15 handles and gives it six characteristics,
each with a descriptor. Together they would need 19 handles. So at least two of the six are left
without a handle of their own or of their descriptor, and no client is ever notified of them,
whatever it writes (`initBle_neverNotifies`).

## Main definitions

* `initBle`.

## Main results

* `initBle_neverNotifies`.
-/

namespace GpsTracker

/-- `init_ble`. The order of the characteristics in their map is that of the addresses of the
objects. -/
def initBle {σ : Type} (S : GattStack σ) (order : List Characteristic) :
    Option (σ × BleService Characteristic) :=
  startService S 15 order

section Startup

variable {σ : Type} (S : GattStack σ) {order : List Characteristic}

/-- A property that leaves out two elements of a list without repetitions. -/
theorem exists_ne_of_countP_le {α : Type*} [DecidableEq α] {p : α → Prop} [DecidablePred p]
    {l : List α} (hnodup : l.Nodup) (hcount : l.countP p + 2 ≤ l.length) :
    ∃ a b, a ≠ b ∧ ¬ p a ∧ ¬ p b := by
  have hlength : l.length = l.countP p + (l.filter fun a => ¬ p a).length := by
    rw [List.length_eq_countP_add_countP fun a => decide (p a)]
    simp [List.countP_eq_length_filter]
  have hcard : 1 < (l.filter fun a => ¬ p a).toFinset.card := by
    rw [List.toFinset_card_of_nodup (hnodup.filter _)]
    omega
  obtain ⟨a, ha, b, hb, hne⟩ := Finset.one_lt_card.mp hcard
  simp only [decide_not, List.mem_toFinset, List.mem_filter, Bool.not_eq_true',
    decide_eq_false_iff_not] at ha hb
  exact ⟨a, b, hne, ha.2, hb.2⟩

/-- **Two of the characteristics are never notified**: they have no handle of their own or none of
their descriptor. -/
theorem initBle_neverNotifies (hnodup : order.Nodup) (horder : ∀ c, c ∈ order) :
    ∃ t s, initBle S order = some (t, s) ∧ ∃ c d, c ≠ d ∧ ∀ e ∈ [c, d],
      ((s.chars e).handle = 0 ∨ (s.chars e).descHandle = 0) ∧
        BleServer.NeverNotifies order (fun i => (s.chars i).handle)
          (fun i => (s.chars i).descHandle) e := by
  obtain ⟨t, s, hstart, hcount⟩ := startService_ends S (by decide : 0 < 15) hnodup
  have hperm : order.Perm Characteristic.all :=
    (List.perm_ext_iff_of_nodup hnodup (by decide)).mpr fun c =>
      iff_of_true (horder c) c.mem_all
  have hlength : order.length = 6 := hperm.length_eq
  obtain ⟨c, d, hne, hc, hd⟩ :=
    exists_ne_of_countP_le (p := fun i => (s.chars i).Registered) hnodup (by omega)
  refine ⟨t, s, hstart, c, d, hne, fun e he => ?_⟩
  have hzero : (s.chars e).handle = 0 ∨ (s.chars e).descHandle = 0 := by
    have hlacks : ¬ (s.chars e).Registered := by
      rcases List.mem_pair.mp he with rfl | rfl
      · exact hc
      · exact hd
    rw [CharRegistration.Registered] at hlacks
    tauto
  exact ⟨hzero, BleServer.neverNotifies hzero⟩

/-- A stack that gives the handles of a service one after the other. -/
def sequentialStack : GattStack (ℕ × ℕ) where
  createService n := ((40, n - 1), 40)
  addChar t := if 2 ≤ t.2 then ((t.1 + 2, t.2 - 2), t.1 + 2) else (t, 0)
  addCharDescr t := if 1 ≤ t.2 then ((t.1 + 1, t.2 - 1), t.1 + 1) else (t, 0)
  free := Prod.snd
  createService_ne n hn := (by decide : 40 ≠ nullHandle)
  free_createService n hn := by
    dsimp only
    omega
  free_addChar_le t := by
    split_ifs <;> simp
  free_addChar t h := by
    split_ifs at h ⊢ <;> simp at h ⊢
    omega
  free_addCharDescr_le t := by
    split_ifs <;> simp
  free_addCharDescr t h := by
    split_ifs at h ⊢ <;> simp at h ⊢
    omega

/-- The handles are used up by four characteristics and the value of a fifth. -/
theorem initBle_neverNotifies_sequential :
    ∃ s, initBle sequentialStack Characteristic.all = some ((54, 0), s) ∧ ∃ c d, c ≠ d ∧
      ∀ e ∈ [c, d], ((s.chars e).handle = 0 ∨ (s.chars e).descHandle = 0) ∧
        BleServer.NeverNotifies Characteristic.all (fun i => (s.chars i).handle)
          (fun i => (s.chars i).descHandle) e := by
  obtain ⟨t, s, hinit, hnever⟩ :=
    initBle_neverNotifies sequentialStack (by decide) Characteristic.mem_all
  have hfree : (initBle sequentialStack Characteristic.all).map Prod.fst = some (54, 0) := by
    decide
  rw [hinit] at hfree
  obtain rfl : t = (54, 0) := Option.some.inj hfree
  exact ⟨s, hinit, hnever⟩

end Startup

end GpsTracker
