import Okexchain.Lib.KVStore

/-!
# Go slices over shared backing arrays, and maps of slices

A Go slice is a window into a backing array: the array's address, the first element, the length
and the capacity (`Slice`). The arrays live in a `Heap`, so two slices over one array see each
other's writes.

* `append` writes in place while the capacity allows and moves to a new array otherwise; how
  large the new array is is left open by the language (`Growth`).
* `removeAt s i` is the idiom `append(s[:i], s[i+1:]...)`: it shifts the tail down inside the
  same array and leaves a stale copy of the last element behind it.
* `SliceMap K α` is a Go map from keys to slices together with the heap. Its two fields of proof
  say that every stored slice lies inside its array and that no two keys share an array, so the
  list a key holds (`lookup`) changes only by operations on that key.
* A slice read out of the map and kept in a local variable still aliases the map's array
  (`appendLocal`).
-/

namespace Okexchain

variable {K α : Type} [LinearOrder K]

/-- The backing arrays, by address. -/
abbrev Heap (α : Type) := List (List α)

/-- A slice header. -/
structure Slice where
  array : Nat
  start : Nat
  len : Nat
  cap : Nat
deriving DecidableEq, Repr

/-- The capacity `append` gives a new array: at least what is needed. -/
structure Growth where
  newCap : Nat → Nat → Nat
  le_newCap : ∀ c n, n ≤ newCap c n

/-! ## Arrays -/

/-- Write `xs` into `l` from position `off` on; positions outside `l` are dropped. -/
def overwrite (l : List α) (off : Nat) (xs : List α) : List α :=
  l.mapIdx fun i a => if off ≤ i then xs.getD (i - off) a else a

theorem length_overwrite (l : List α) (off : Nat) (xs : List α) :
    (overwrite l off xs).length = l.length := by
  unfold overwrite
  exact List.length_mapIdx

/-- The array at address `a`. -/
def arr (h : Heap α) (a : Nat) : List α := h.getD a []

/-- Write `xs` into the array at `a`. -/
def write (h : Heap α) (a off : Nat) (xs : List α) : Heap α :=
  h.set a (overwrite (arr h a) off xs)

theorem length_write (h : Heap α) (a off : Nat) (xs : List α) :
    (write h a off xs).length = h.length := List.length_set

theorem arr_write_self {h : Heap α} {a : Nat} (ha : a < h.length) (off : Nat) (xs : List α) :
    arr (write h a off xs) a = overwrite (arr h a) off xs := by
  unfold write
  simp [arr, List.getD, ha]

theorem arr_write_ne {h : Heap α} {a b : Nat} (hab : b ≠ a) (off : Nat) (xs : List α) :
    arr (write h a off xs) b = arr h b := by
  unfold write
  simp [arr, List.getD, List.getElem?_set_ne (Ne.symm hab)]

theorem length_arr_write (h : Heap α) (a b off : Nat) (xs : List α) :
    (arr (write h a off xs) b).length = (arr h b).length := by
  by_cases hab : b = a
  · subst hab
    by_cases hb : b < h.length
    · rw [arr_write_self hb, length_overwrite]
    · unfold write
      rw [List.set_eq_of_length_le (not_lt.mp hb)]
  · rw [arr_write_ne hab]

theorem arr_alloc_old {h : Heap α} {l : List α} {a : Nat} (ha : a < h.length) :
    arr (h ++ [l]) a = arr h a := by
  simp [arr, List.getD, List.getElem?_append_left ha]

theorem arr_alloc_new (h : Heap α) (l : List α) : arr (h ++ [l]) h.length = l := by
  simp [arr, List.getD]

/-! ## Slices -/

namespace Slice

/-- The empty slice: no array behind it. -/
def nil : Slice := ⟨0, 0, 0, 0⟩

/-- The elements of the slice. -/
def read (h : Heap α) (s : Slice) : List α := ((arr h s.array).drop s.start).take s.len

/-- `s[i]`; `none` is the index-out-of-range panic. -/
def index (h : Heap α) (s : Slice) (i : Nat) : Option α :=
  if i < s.len then (arr h s.array)[s.start + i]? else none

/-- The window lies inside an allocated array. -/
structure InBounds (h : Heap α) (s : Slice) : Prop where
  alloc : s.array < h.length
  len_le : s.len ≤ s.cap
  cap_le : s.start + s.cap ≤ (arr h s.array).length

theorem length_read {h : Heap α} {s : Slice} (hs : s.InBounds h) : (s.read h).length = s.len := by
  have h1 := hs.len_le
  have h2 := hs.cap_le
  simp only [read, List.length_take, List.length_drop]
  omega

/-- `s[i:]`, for `i` up to the length. -/
def tailFrom (s : Slice) (i : Nat) : Slice :=
  { s with start := s.start + min i s.len, len := s.len - min i s.len, cap := s.cap - min i s.len }

/-- `append(s, xs...)`. -/
def append [Inhabited α] (g : Growth) (h : Heap α) (s : Slice) (xs : List α) : Heap α × Slice :=
  let n := s.len + xs.length
  if n ≤ s.cap then
    (write h s.array (s.start + s.len) xs, { s with len := n })
  else
    let c := g.newCap s.cap n
    (h ++ [s.read h ++ xs ++ List.replicate (c - n) default], ⟨h.length, 0, n, c⟩)

/-- `append(s[:i], s[i+1:]...)`: always in place. -/
def removeAt (h : Heap α) (s : Slice) (i : Nat) : Heap α × Slice :=
  (write h s.array (s.start + i) ((s.read h).drop (i + 1)), { s with len := s.len - 1 })

variable {h : Heap α} {s : Slice}

theorem InBounds.of_write (hs : s.InBounds h) (a off : Nat) (xs : List α) :
    s.InBounds (write h a off xs) :=
  ⟨by rw [length_write]; exact hs.alloc, hs.len_le, by rw [length_arr_write]; exact hs.cap_le⟩

theorem InBounds.of_alloc (hs : s.InBounds h) (l : List α) : s.InBounds (h ++ [l]) :=
  ⟨by rw [List.length_append]; exact Nat.lt_of_lt_of_le hs.alloc (Nat.le_add_right _ _),
    hs.len_le, by rw [arr_alloc_old hs.alloc]; exact hs.cap_le⟩

theorem InBounds.tailFrom (hs : s.InBounds h) (i : Nat) : (s.tailFrom i).InBounds h := by
  have h1 := hs.len_le
  have h2 := hs.cap_le
  refine ⟨hs.alloc, ?_, ?_⟩
  · show s.len - min i s.len ≤ s.cap - min i s.len
    omega
  · show s.start + min i s.len + (s.cap - min i s.len) ≤ (arr h s.array).length
    omega

end Slice

/-! ## Maps of slices -/

/-- A Go map whose values are slices: each inside its own array. -/
structure SliceMap (K α : Type) [LinearOrder K] where
  heap : Heap α
  slots : KVStore K Slice
  inBounds : ∀ k s, slots.get k = some s → s.InBounds heap
  separate : ∀ k k' s s', slots.get k = some s → slots.get k' = some s' →
    s.array = s'.array → k = k'

namespace SliceMap

/-- The empty map. -/
def empty : SliceMap K α :=
  ⟨[], ∅, fun _ _ h => absurd h (by simp), fun _ _ _ _ h => absurd h (by simp)⟩

/-- The elements stored at `k`, if there is an entry. -/
def lookup (m : SliceMap K α) (k : K) : Option (List α) := (m.slots.get k).map (Slice.read m.heap)

/-- The elements stored at `k`; a missing key reads as the empty slice. -/
def list (m : SliceMap K α) (k : K) : List α := (m.lookup k).getD []

/-- The slice stored at `k`. -/
def slice (m : SliceMap K α) (k : K) : Slice := (m.slots.get k).getD Slice.nil

variable {m : SliceMap K α} {k q : K}

/-- A slot is written, and nobody else has its array. -/
theorem separate_set {slots : KVStore K Slice} {k₀ : K} {s : Slice}
    (hs : ∀ k k' s s', slots.get k = some s → slots.get k' = some s' → s.array = s'.array → k = k')
    (hnew : ∀ k t, slots.get k = some t → t.array = s.array → k = k₀) :
    ∀ k k' t t', (slots.set k₀ s).get k = some t → (slots.set k₀ s).get k' = some t' →
      t.array = t'.array → k = k' := by
  intro k k' t t' hk hk' heq
  rw [KVStore.get_set] at hk hk'
  split_ifs at hk hk' with h1 h2 h2
  · rw [h1, h2]
  · cases hk
    exact h1.trans (hnew k' t' hk' heq.symm).symm
  · cases hk'
    exact (hnew k t hk heq).trans h2.symm
  · exact hs k k' t t' hk hk' heq

/-- A slot whose array is the freshly allocated one, beside slots in the old heap. -/
theorem separate_set_fresh {h : Heap α} {slots : KVStore K Slice} {s : Slice}
    (hb : ∀ k s, slots.get k = some s → s.InBounds h)
    (hs : ∀ k k' s s', slots.get k = some s → slots.get k' = some s' → s.array = s'.array → k = k')
    (hfresh : s.array = h.length) (k₀ : K) :
    ∀ k k' t t', (slots.set k₀ s).get k = some t → (slots.set k₀ s).get k' = some t' →
      t.array = t'.array → k = k' := by
  refine separate_set hs fun k t hk heq => ?_
  have := (hb k t hk).alloc
  omega

/-- A slot rewritten over its own array, beside the other slots. -/
theorem separate_set_same {slots : KVStore K Slice} {k₀ : K} {s s₀ : Slice}
    (hs : ∀ k k' s s', slots.get k = some s → slots.get k' = some s' → s.array = s'.array → k = k')
    (h₀ : slots.get k₀ = some s₀) (ha : s.array = s₀.array) :
    ∀ k k' t t', (slots.set k₀ s).get k = some t → (slots.set k₀ s).get k' = some t' →
      t.array = t'.array → k = k' := by
  exact separate_set hs fun k t hk heq => hs k k₀ t s₀ hk h₀ (heq.trans ha)

/-- `delete(m, k)`. -/
def delete (m : SliceMap K α) (k : K) : SliceMap K α where
  heap := m.heap
  slots := m.slots.delete k
  inBounds := fun q s h => by
    rw [KVStore.get_delete] at h
    split_ifs at h
    exact m.inBounds q s h
  separate := fun q q' s s' h h' => by
    rw [KVStore.get_delete] at h h'
    split_ifs at h h'
    exact m.separate q q' s s' h h'

/-- Store at `k` the tail `xs[i:]` of a new array holding `xs`. -/
def putFresh [Inhabited α] (g : Growth) (m : SliceMap K α) (k : K) (xs : List α) (i : Nat) :
    SliceMap K α where
  heap := m.heap ++ [xs ++ List.replicate (g.newCap 0 xs.length - xs.length) default]
  slots := m.slots.set k (Slice.tailFrom ⟨m.heap.length, 0, xs.length, g.newCap 0 xs.length⟩ i)
  inBounds := fun q s h => by
    rw [KVStore.get_set] at h
    split_ifs at h with hq
    · cases h
      have hg := g.le_newCap 0 xs.length
      refine Slice.InBounds.tailFrom ⟨by simp, hg, ?_⟩ i
      simp only [arr_alloc_new, List.length_append, List.length_replicate]
      omega
    · exact (m.inBounds q s h).of_alloc _
  separate := separate_set_fresh m.inBounds m.separate rfl k

/-- `m[k] = append(m[k], x)`. -/
def append [Inhabited α] (g : Growth) (m : SliceMap K α) (k : K) (x : α) : SliceMap K α :=
  match h : m.slots.get k with
  | none => m.putFresh g k [x] 0
  | some s =>
    if hc : s.len + 1 ≤ s.cap then
      { heap := write m.heap s.array (s.start + s.len) [x]
        slots := m.slots.set k { s with len := s.len + 1 }
        inBounds := fun q t ht => by
          rw [KVStore.get_set] at ht
          split_ifs at ht
          · cases ht
            have hs := (m.inBounds k s h).of_write s.array (s.start + s.len) [x]
            exact ⟨hs.alloc, hc, hs.cap_le⟩
          · exact (m.inBounds q t ht).of_write _ _ _
        separate := separate_set_same m.separate h rfl }
    else
      { heap := m.heap ++ [s.read m.heap ++ [x] ++
          List.replicate (g.newCap s.cap (s.len + 1) - (s.len + 1)) default]
        slots := m.slots.set k ⟨m.heap.length, 0, s.len + 1, g.newCap s.cap (s.len + 1)⟩
        inBounds := fun q t ht => by
          rw [KVStore.get_set] at ht
          split_ifs at ht
          · cases ht
            have hg := g.le_newCap s.cap (s.len + 1)
            have hl := Slice.length_read (m.inBounds k s h)
            refine ⟨by simp, hg, ?_⟩
            simp only [arr_alloc_new, List.length_append, List.length_replicate, hl,
              List.length_singleton]
            omega
          · exact (m.inBounds q t ht).of_alloc _
        separate := separate_set_fresh m.inBounds m.separate rfl k }

/-- `m[k] = append(m[k][:i], m[k][i+1:]...)`, for a position inside the slice. -/
def removeIdx (m : SliceMap K α) (k : K) (i : Nat) : SliceMap K α :=
  match h : m.slots.get k with
  | none => m
  | some s =>
    { heap := (s.removeAt m.heap i).1
      slots := m.slots.set k (s.removeAt m.heap i).2
      inBounds := fun q t ht => by
        rw [KVStore.get_set] at ht
        split_ifs at ht
        · cases ht
          have hs :=
            (m.inBounds k s h).of_write s.array (s.start + i) ((s.read m.heap).drop (i + 1))
          exact ⟨hs.alloc, (Nat.sub_le _ _).trans hs.len_le, hs.cap_le⟩
        · exact (m.inBounds q t ht).of_write _ _ _
      separate := separate_set_same m.separate h rfl }

/-! ### A local variable over a stored slice -/

/-- `append(s, xs...)` on a slice held in a local variable: the map's slots stay as they are, its
heap may change. -/
def appendLocal [Inhabited α] (g : Growth) (m : SliceMap K α) (s : Slice) (xs : List α) :
    SliceMap K α × Slice :=
  ({ heap := (s.append g m.heap xs).1
     slots := m.slots
     inBounds := fun q t ht => by
      unfold Slice.append
      simp only
      split_ifs
      · exact (m.inBounds q t ht).of_write _ _ _
      · exact (m.inBounds q t ht).of_alloc _
     separate := m.separate }, (s.append g m.heap xs).2)

end SliceMap

end Okexchain
