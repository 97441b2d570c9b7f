import Mathlib.Data.Finset.Basic
import Mathlib.Data.List.AList

/-!
# Registries of handles

A program that acquires resources under keys, such as subscriptions to named sources, keeps their
handles in a table to release them later. A *registry* is the set of the handles that are live
together with such a table. Acquiring a resource stores its handle under the key, in place of the
one that was stored there before, if any; releasing a key, or all of them, releases what is stored.

A registry is *tracked* if every live handle is stored under its key. Releases neither make a
registry tracked nor spoil it, and an acquisition spoils it exactly if its key is in use
(`Registry.tracked_acquire_iff`, `Registry.tracked_release_iff`, `Registry.tracked_releaseAll_iff`).

## Main definitions

* `Handle`, `Registry`, `Registry.Tracked`.
* `Registry.acquire`, `Registry.release`, `Registry.releaseAll`.

## Main results

* `Registry.tracked_acquire_iff`, `Registry.tracked_release_iff`,
  `Registry.tracked_releaseAll_iff`.
* `Registry.Tracked.eq_of_key_eq`, `Registry.Tracked.live_eq_empty`.
-/

/-- A handle of a resource: the key it has been acquired under, and a number of its own. -/
structure Handle (κ : Type*) where
  key : κ
  serial : ℕ
  deriving DecidableEq, Repr

/-- The live handles and the table of the stored ones. What is stored is live, under its own key,
and numbers from `next` on are not in use. -/
structure Registry (κ : Type*) [DecidableEq κ] where
  live : Finset (Handle κ)
  stored : AList fun _ : κ => Handle κ
  next : ℕ
  key_eq : ∀ k h, stored.lookup k = some h → h.key = k
  mem_live : ∀ k h, stored.lookup k = some h → h ∈ live
  serial_lt : ∀ h ∈ live, h.serial < next

namespace Registry

variable {κ : Type*} [DecidableEq κ]

/-- No handle is live. -/
def empty : Registry κ :=
  ⟨∅, ∅, 0, by simp, by simp, by simp⟩

variable (r : Registry κ) (k : κ)

/-- The handle that the next acquisition gets. -/
def fresh : Handle κ := ⟨k, r.next⟩

/-- Acquire a resource and store its handle. A handle that was stored under the key is forgotten,
not released. -/
def acquire : Registry κ where
  live := insert (r.fresh k) r.live
  stored := r.stored.insert k (r.fresh k)
  next := r.next + 1
  key_eq k' h hk' := by
    by_cases hk : k' = k
    · subst hk
      rw [AList.lookup_insert, Option.some_inj] at hk'
      rw [← hk', fresh]
    · rw [AList.lookup_insert_ne hk] at hk'
      exact r.key_eq k' h hk'
  mem_live k' h hk' := by
    by_cases hk : k' = k
    · subst hk
      rw [AList.lookup_insert, Option.some_inj] at hk'
      exact hk' ▸ Finset.mem_insert_self ..
    · rw [AList.lookup_insert_ne hk] at hk'
      exact Finset.mem_insert_of_mem (r.mem_live k' h hk')
  serial_lt h hh := by
    rcases Finset.mem_insert.mp hh with rfl | hh
    · exact Nat.lt_succ_self _
    · exact (r.serial_lt h hh).trans (Nat.lt_succ_self _)

/-- Release what is stored under a key. -/
def release : Registry κ where
  live := (r.stored.lookup k).elim r.live r.live.erase
  stored := r.stored.erase k
  next := r.next
  key_eq k' h hk' := by
    by_cases hk : k' = k
    · rw [hk, AList.lookup_erase] at hk'
      cases hk'
    · rw [AList.lookup_erase_ne hk] at hk'
      exact r.key_eq k' h hk'
  mem_live k' h hk' := by
    by_cases hk : k' = k
    · rw [hk, AList.lookup_erase] at hk'
      cases hk'
    · rw [AList.lookup_erase_ne hk] at hk'
      have hmem := r.mem_live k' h hk'
      rcases hlookup : r.stored.lookup k with _ | h'
      · exact hmem
      · refine Finset.mem_erase.mpr ⟨?_, hmem⟩
        rintro rfl
        exact hk ((r.key_eq k' h hk').symm.trans (r.key_eq k h hlookup))
  serial_lt h hh := by
    rcases hlookup : r.stored.lookup k with _ | h'
    · exact r.serial_lt h (by simpa [hlookup] using hh)
    · exact r.serial_lt h (Finset.mem_of_mem_erase (by simpa [hlookup] using hh))

private theorem mem_foldl_erase (es : List (Σ _ : κ, Handle κ)) (live : Finset (Handle κ))
    (h : Handle κ) :
    h ∈ es.foldl (fun live e => live.erase e.2) live ↔ h ∈ live ∧ ∀ e ∈ es, e.2 ≠ h := by
  induction es generalizing live with
  | nil => simp
  | cons e es ih =>
    rw [List.foldl_cons, ih, Finset.mem_erase, List.forall_mem_cons, ne_comm]
    tauto

/-- What is left of the live handles when all that are stored have been released. -/
theorem mem_foldl_stored (h : Handle κ) :
    h ∈ r.stored.foldl (fun live _ h => live.erase h) r.live ↔
      h ∈ r.live ∧ r.stored.lookup h.key ≠ some h := by
  refine (mem_foldl_erase r.stored.entries r.live h).trans (and_congr_right fun _ => ?_)
  constructor
  · intro hne hlookup
    exact hne ⟨h.key, h⟩ (AList.mem_lookup_iff.mp hlookup) rfl
  · rintro hne ⟨k, h'⟩ hmem rfl
    have hlookup := AList.mem_lookup_iff.mpr hmem
    exact hne (r.key_eq k h' hlookup ▸ hlookup)

/-- Release all that is stored. -/
def releaseAll : Registry κ where
  live := r.stored.foldl (fun live _ h => live.erase h) r.live
  stored := ∅
  next := r.next
  key_eq k h hk := by simp at hk
  mem_live k h hk := by simp at hk
  serial_lt h hh := r.serial_lt h ((r.mem_foldl_stored h).mp hh).1

/-! ### Tracked registries -/

/-- Every live handle is stored under its key. -/
def Tracked : Prop := ∀ h ∈ r.live, r.stored.lookup h.key = some h

theorem tracked_empty : (empty : Registry κ).Tracked := by
  simp [Tracked, empty]

variable {r k}

/-- There is at most one live handle for a key. -/
theorem Tracked.eq_of_key_eq (hr : r.Tracked) {h h' : Handle κ} (hh : h ∈ r.live)
    (hh' : h' ∈ r.live) (hkey : h.key = h'.key) : h = h' := by
  have hlookup := hr h' hh'
  rw [← hkey, hr h hh] at hlookup
  exact Option.some_inj.mp hlookup

/-- **An acquisition keeps a registry tracked exactly if its key is free.** -/
theorem tracked_acquire_iff :
    (r.acquire k).Tracked ↔ r.Tracked ∧ r.stored.lookup k = none := by
  have hother : ∀ h ∈ r.live, h ≠ r.fresh k := by
    rintro h hh rfl
    exact lt_irrefl _ (r.serial_lt _ hh)
  constructor
  · intro htracked
    have hkey : ∀ h ∈ r.live, h.key ≠ k := by
      intro h hh hk
      have hlookup := htracked h (Finset.mem_insert_of_mem hh)
      rw [acquire, hk, AList.lookup_insert, Option.some_inj] at hlookup
      exact hother h hh hlookup.symm
    refine ⟨fun h hh => ?_, ?_⟩
    · have hlookup := htracked h (Finset.mem_insert_of_mem hh)
      rwa [acquire, AList.lookup_insert_ne (hkey h hh)] at hlookup
    · rcases hlookup : r.stored.lookup k with _ | h
      · rfl
      · exact absurd (r.key_eq k h hlookup) (hkey h (r.mem_live k h hlookup))
  · rintro ⟨htracked, hfree⟩ h hh
    rcases Finset.mem_insert.mp hh with rfl | hmem
    · exact AList.lookup_insert _
    · have hne : h.key ≠ k := by
        rintro rfl
        exact Option.some_ne_none h ((htracked h hmem).symm.trans hfree)
      exact (AList.lookup_insert_ne hne).trans (htracked h hmem)

/-- **A release neither spoils a registry nor repairs it.** -/
theorem tracked_release_iff : (r.release k).Tracked ↔ r.Tracked := by
  have hlive : ∀ h, h ∈ (r.release k).live ↔ h ∈ r.live ∧ r.stored.lookup k ≠ some h := by
    intro h
    rcases hlookup : r.stored.lookup k with _ | h'
    · simp [release, hlookup]
    · simp [release, hlookup, and_comm, eq_comm]
  constructor
  · intro htracked h hh
    by_cases hstored : r.stored.lookup k = some h
    · rw [r.key_eq k h hstored, hstored]
    · have hlookup := htracked h ((hlive h).mpr ⟨hh, hstored⟩)
      have hne : h.key ≠ k := by
        rintro rfl
        simp [release] at hlookup
      rwa [release, AList.lookup_erase_ne hne] at hlookup
  · intro htracked h hh
    obtain ⟨hmem, hstored⟩ := (hlive h).mp hh
    have hne : h.key ≠ k := by
      rintro rfl
      exact hstored (htracked h hmem)
    exact (AList.lookup_erase_ne hne).trans (htracked h hmem)

/-- **The same for a release of all that is stored.** -/
theorem tracked_releaseAll_iff : r.releaseAll.Tracked ↔ r.Tracked := by
  constructor
  · intro htracked h hh
    by_contra hstored
    have hlookup := htracked h ((r.mem_foldl_stored h).mpr ⟨hh, hstored⟩)
    simp [releaseAll] at hlookup
  · intro htracked h hh
    obtain ⟨hmem, hstored⟩ := (r.mem_foldl_stored h).mp hh
    exact absurd (htracked h hmem) hstored

/-- Nothing is live in a tracked registry that stores nothing. -/
theorem Tracked.live_eq_empty (hr : r.Tracked) (hnone : ∀ k, r.stored.lookup k = none) :
    r.live = ∅ := by
  ext h
  simp only [Finset.notMem_empty, iff_false]
  exact fun hh => Option.some_ne_none h ((hr h hh).symm.trans (hnone h.key))

end Registry
