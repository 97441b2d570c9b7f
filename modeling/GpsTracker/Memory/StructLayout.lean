import GpsTracker.Memory.LittleEndian

/-!
# Structures in memory

A compiler places the members of a C structure in their order, each at the next address that is a
multiple of its size. The members of such a structure occupy disjoint parts of the memory
(`StructType.disjoint`), so that each member holds the bytes of the value written to it
(`StructType.bytes_write`), whatever the bytes between them, and a copy of the structure has the
same members (`StructType.bytes_store_load`).

## Main definitions

* `ByteMemory`, `ByteMemory.load`, `ByteMemory.store`.
* `StructType`, `StructType.offset`, `StructType.sizeof`.
* `StructType.Value`, `StructType.read`, `StructType.write`.

## Main results

* `ByteMemory.load_store`, `ByteMemory.load_store_of_disjoint`.
* `StructType.disjoint`, `StructType.offset_add_size_le`.
* `StructType.bytes_write`, `StructType.bytes_store_load`.
-/

/-! ### Bytes in memory -/

/-- The bytes from some base address on. -/
abbrev ByteMemory := ℕ → UInt8

namespace ByteMemory

/-- The `w` bytes at the offset `o`. -/
def load (m : ByteMemory) (o w : ℕ) : List UInt8 := (List.range w).map fun k => m (o + k)

/-- The memory with the bytes `bs` at the offset `o`. -/
def store (m : ByteMemory) (o : ℕ) (bs : List UInt8) : ByteMemory := fun a =>
  if o ≤ a then bs[a - o]?.getD (m a) else m a

@[simp] theorem length_load (m : ByteMemory) (o w : ℕ) : (m.load o w).length = w := by
  simp [load]

/-- A part of the bytes at the beginning. -/
theorem take_drop_load (m : ByteMemory) {o w n : ℕ} (h : o + w ≤ n) :
    ((m.load 0 n).drop o).take w = m.load o w := by
  refine List.ext_getElem (by simp; omega) fun k hk hk' => ?_
  simp [load]

theorem load_eq_load_iff {m m' : ByteMemory} {o o' w : ℕ} :
    m.load o w = m'.load o' w ↔ ∀ k < w, m (o + k) = m' (o' + k) := by
  simp [load, List.map_inj_left]

theorem store_of_mem {m : ByteMemory} {o k : ℕ} {bs : List UInt8} (h : k < bs.length) :
    m.store o bs (o + k) = bs[k] := by
  simp [store, h]

theorem store_of_notMem {m : ByteMemory} {o a : ℕ} {bs : List UInt8}
    (h : a < o ∨ o + bs.length ≤ a) : m.store o bs a = m a := by
  unfold store
  split
  · rw [List.getElem?_eq_none (by omega), Option.getD_none]
  · rfl

theorem load_store (m : ByteMemory) (o : ℕ) (bs : List UInt8) :
    (m.store o bs).load o bs.length = bs := by
  refine List.ext_getElem (by simp) fun k hk hk' => ?_
  simp only [load, List.getElem_map, List.getElem_range]
  exact store_of_mem hk'

@[simp] theorem store_nil (m : ByteMemory) (o : ℕ) : m.store o [] = m := by
  funext a
  simp [store]

theorem store_store (m : ByteMemory) (o : ℕ) (bs cs : List UInt8) :
    (m.store o bs).store (o + bs.length) cs = m.store o (bs ++ cs) := by
  funext a
  by_cases ho : o ≤ a
  · by_cases hbs : a - o < bs.length
    · simp [store, ho, hbs, show ¬ o + bs.length ≤ a by omega, List.getElem?_append_left hbs]
    · have hsub : a - o - bs.length = a - (o + bs.length) := by omega
      simp [store, ho, show o + bs.length ≤ a by omega, List.getElem?_append_right (not_lt.mp hbs),
        hsub, List.getElem?_eq_none (not_lt.mp hbs)]
  · simp [store, ho, show ¬ o + bs.length ≤ a by omega]

theorem load_store_of_disjoint (m : ByteMemory) {o o' w : ℕ} {bs : List UInt8}
    (h : o + w ≤ o' ∨ o' + bs.length ≤ o) : (m.store o' bs).load o w = m.load o w :=
  load_eq_load_iff.mpr fun _ _ => store_of_notMem (by omega)

end ByteMemory

/-! ### Layout -/

/-- A structure with members named by `ι`, in the order of the list `members`. -/
structure StructType (ι : Type*) where
  members : List ι
  type : ι → IntType
  nodup : members.Nodup
  mem_members : ∀ i, i ∈ members

namespace StructType

variable {ι : Type*} [DecidableEq ι] (S : StructType ι)

/-- The least multiple of `a` that is at least `n`. -/
def alignUp (a n : ℕ) : ℕ := (n + a - 1) / a * a

theorem le_alignUp {a : ℕ} (ha : 0 < a) (n : ℕ) : n ≤ alignUp a n := by
  have hdiv := Nat.div_add_mod (n + a - 1) a
  have hmod := Nat.mod_lt (n + a - 1) ha
  rw [alignUp, Nat.mul_comm]
  omega

/-- The offset of the member `i` when the members of a list are placed from the offset `n` on. -/
def offsetFrom (i : ι) : ℕ → List ι → ℕ
  | n, [] => n
  | n, j :: js =>
    if i = j then alignUp (S.type j).size n
    else offsetFrom i (alignUp (S.type j).size n + (S.type j).size) js

/-- The offset of a member. -/
def offset (i : ι) : ℕ := S.offsetFrom i 0 S.members

theorem le_offsetFrom (i : ι) (n : ℕ) (js : List ι) : n ≤ S.offsetFrom i n js := by
  induction js generalizing n with
  | nil => exact le_rfl
  | cons j js ih =>
    have hle := le_alignUp (S.type j).size_pos n
    rw [offsetFrom]
    split
    · exact hle
    · exact le_trans (by omega) (ih _)

private theorem disjoint_offsetFrom {i j : ι} (hij : i ≠ j) (n : ℕ) {js : List ι}
    (hi : i ∈ js) (hj : j ∈ js) :
    S.offsetFrom i n js + (S.type i).size ≤ S.offsetFrom j n js ∨
      S.offsetFrom j n js + (S.type j).size ≤ S.offsetFrom i n js := by
  induction js generalizing n with
  | nil => simp at hi
  | cons k js ih =>
    by_cases hik : i = k
    · subst hik
      left
      simp only [offsetFrom, if_true, hij.symm, if_false]
      exact S.le_offsetFrom j _ js
    · by_cases hjk : j = k
      · subst hjk
        right
        simp only [offsetFrom, if_true, hik, if_false]
        exact S.le_offsetFrom i _ js
      · simp only [offsetFrom, hik, hjk, if_false]
        exact ih _ (List.mem_of_ne_of_mem hik hi) (List.mem_of_ne_of_mem hjk hj)

/-- **Distinct members occupy disjoint parts of the memory.** -/
theorem disjoint {i j : ι} (hij : i ≠ j) :
    S.offset i + (S.type i).size ≤ S.offset j ∨ S.offset j + (S.type j).size ≤ S.offset i :=
  S.disjoint_offsetFrom hij 0 (S.mem_members i) (S.mem_members j)

/-- The offset after the members of a list that are placed from the offset `n` on. -/
def endFrom : ℕ → List ι → ℕ
  | n, [] => n
  | n, j :: js => endFrom (alignUp (S.type j).size n + (S.type j).size) js

/-- The size of the structure, a multiple of the size of its largest member. -/
def sizeof : ℕ :=
  alignUp (S.members.foldr (fun j a => max (S.type j).size a) 1) (S.endFrom 0 S.members)

omit [DecidableEq ι] in
theorem le_endFrom (n : ℕ) (js : List ι) : n ≤ S.endFrom n js := by
  induction js generalizing n with
  | nil => exact le_rfl
  | cons j js ih =>
    have hle := le_alignUp (S.type j).size_pos n
    rw [endFrom]
    exact le_trans (by omega) (ih _)

private theorem offsetFrom_add_size_le {i : ι} (n : ℕ) {js : List ι} (hi : i ∈ js) :
    S.offsetFrom i n js + (S.type i).size ≤ S.endFrom n js := by
  induction js generalizing n with
  | nil => simp at hi
  | cons j js ih =>
    rw [offsetFrom, endFrom]
    by_cases hij : i = j
    · subst hij
      rw [if_pos rfl]
      exact S.le_endFrom _ js
    · rw [if_neg hij]
      exact ih _ (List.mem_of_ne_of_mem hij hi)

/-- **Every member lies inside the structure.** -/
theorem offset_add_size_le (i : ι) : S.offset i + (S.type i).size ≤ S.sizeof := by
  have hpos : ∀ js : List ι, 0 < js.foldr (fun j a => max (S.type j).size a) 1 := by
    intro js
    induction js with
    | nil => exact Nat.one_pos
    | cons j js ih => exact lt_max_of_lt_right ih
  exact (S.offsetFrom_add_size_le 0 (S.mem_members i)).trans (le_alignUp (hpos S.members) _)

/-! ### Values -/

/-- Values of the members, each in the range of its type. -/
structure Value where
  val : ι → ℤ
  inRange : ∀ i, (S.type i).InRange (val i)

/-- The bytes of a member. -/
def bytes (m : ByteMemory) (i : ι) : List UInt8 := m.load (S.offset i) (S.type i).size

/-- **A copy of the structure has the same members.** -/
theorem bytes_store_load (m m' : ByteMemory) (i : ι) :
    S.bytes (m.store 0 (m'.load 0 S.sizeof)) i = S.bytes m' i := by
  have hle := S.offset_add_size_le i
  refine ByteMemory.load_eq_load_iff.mpr fun k hk => ?_
  have hlt : S.offset i + k < (m'.load 0 S.sizeof).length := by
    rw [ByteMemory.length_load]
    omega
  have hstore := m.store_of_mem (o := 0) hlt
  rw [Nat.zero_add] at hstore
  simpa [ByteMemory.load] using hstore

/-- The value of a member. -/
def read (m : ByteMemory) (i : ι) : ℤ := (S.type i).decode (S.bytes m i)

/-- The memory after the assignment of values to the members of a list. -/
def writeMembers (v : ι → ℤ) (m : ByteMemory) (js : List ι) : ByteMemory :=
  js.foldl (fun m j => m.store (S.offset j) ((S.type j).encode (v j))) m

/-- The memory with a value of the structure. -/
def write (m : ByteMemory) (v : S.Value) : ByteMemory := S.writeMembers v.val m S.members

private theorem bytes_writeMembers_of_notMem (v : ι → ℤ) (m : ByteMemory) {i : ι} {js : List ι}
    (hi : i ∉ js) : S.bytes (S.writeMembers v m js) i = S.bytes m i := by
  induction js generalizing m with
  | nil => rfl
  | cons j js ih =>
    have hij : i ≠ j := List.ne_of_not_mem_cons hi
    rw [writeMembers, List.foldl_cons]
    refine (ih _ (List.not_mem_of_not_mem_cons hi)).trans ?_
    exact m.load_store_of_disjoint (by simpa using S.disjoint hij)

private theorem bytes_writeMembers_of_mem (v : ι → ℤ) (m : ByteMemory) {i : ι} {js : List ι}
    (hnodup : js.Nodup) (hi : i ∈ js) :
    S.bytes (S.writeMembers v m js) i = (S.type i).encode (v i) := by
  induction js generalizing m with
  | nil => simp at hi
  | cons j js ih =>
    obtain ⟨hj, hjs⟩ := List.nodup_cons.mp hnodup
    rw [writeMembers, List.foldl_cons]
    by_cases hij : i = j
    · subst hij
      refine (S.bytes_writeMembers_of_notMem v _ hj).trans ?_
      simpa [bytes] using m.load_store (S.offset i) ((S.type i).encode (v i))
    · exact ih _ hjs (List.mem_of_ne_of_mem hij hi)

/-- **A member holds the bytes of the value written to it.** -/
theorem bytes_write (m : ByteMemory) (v : S.Value) (i : ι) :
    S.bytes (S.write m v) i = (S.type i).encode (v.val i) :=
  S.bytes_writeMembers_of_mem v.val m S.nodup (S.mem_members i)

end StructType
