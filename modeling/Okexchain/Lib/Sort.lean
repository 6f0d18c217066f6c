import Mathlib.Data.List.Perm.Basic

/-!
# `sort.Search`, `sort.Sort` and map iteration

The three places where Go leaves something to its library.

* `search n f` is `sort.Search`: the binary search for the first index at which a predicate that
  goes from false to true holds.
* `Sorter` is `sort.Sort` as documented: the result is a permutation, and it is ascending when
  the comparison is a strict weak order on the elements. What it does otherwise is left open, but
  for two elements: those are compared once, the second against the first (`two`). A strict
  total comparison makes the result independent of the input's order (`Sorter.sort_eq_of_perm`).
  `insertionSort` is the algorithm the library runs on short slices, and a `Sorter`.
* `Shuffle` is the order in which a `range` over a map yields the keys: any permutation.
-/

namespace Okexchain

variable {α : Type}

/-! ## Binary search -/

/-- The loop of `sort.Search` over the half-open interval from `i` to `j`. -/
def searchLoop (f : Nat → Bool) : Nat → Nat → Nat → Nat
  | 0, i, _ => i
  | fuel + 1, i, j =>
    if i < j then
      if f ((i + j) / 2) then searchLoop f fuel i ((i + j) / 2)
      else searchLoop f fuel ((i + j) / 2 + 1) j
    else i

/-- `sort.Search(n, f)`. The interval shrinks at every step, so `n` steps are enough. -/
def search (n : Nat) (f : Nat → Bool) : Nat := searchLoop f n 0 n

/-! ## Sorting -/

/-- A strict weak order on the elements of `l`: irreflexive, transitive, and with a transitive
complement. -/
structure StrictWeakOn (less : α → α → Bool) (l : List α) : Prop where
  irrefl : ∀ a ∈ l, less a a = false
  trans : ∀ a ∈ l, ∀ b ∈ l, ∀ c ∈ l, less a b = true → less b c = true → less a c = true
  notLess_trans : ∀ a ∈ l, ∀ b ∈ l, ∀ c ∈ l,
    less a b = false → less b c = false → less a c = false

theorem StrictWeakOn.subset {less : α → α → Bool} {l l' : List α} (h : StrictWeakOn less l)
    (hsub : ∀ a, a ∈ l' → a ∈ l) : StrictWeakOn less l' :=
  ⟨fun a ha => h.irrefl a (hsub a ha),
   fun a ha b hb c hc => h.trans a (hsub a ha) b (hsub b hb) c (hsub c hc),
   fun a ha b hb c hc => h.notLess_trans a (hsub a ha) b (hsub b hb) c (hsub c hc)⟩

/-- `sort.Sort`. -/
structure Sorter where
  sort : {α : Type} → (α → α → Bool) → List α → List α
  perm : ∀ {α : Type} (less : α → α → Bool) (l : List α), (sort less l).Perm l
  sorted : ∀ {α : Type} (less : α → α → Bool) (l : List α), StrictWeakOn less l →
    (sort less l).Pairwise fun a b => less b a = false
  two : ∀ {α : Type} (less : α → α → Bool) (a b : α),
    sort less [a, b] = if less b a then [b, a] else [a, b]

/-- Sorting by a strict total comparison does not depend on the order of the input. -/
theorem Sorter.sort_eq_of_perm (srt : Sorter) {less : α → α → Bool} {l l' : List α}
    (hl : StrictWeakOn less l)
    (htotal : ∀ a ∈ l, ∀ b ∈ l, less a b = false → less b a = false → a = b)
    (hperm : l.Perm l') : srt.sort less l = srt.sort less l' := by
  have hl' : StrictWeakOn less l' := hl.subset fun a ha => hperm.mem_iff.mpr ha
  refine List.Perm.eq_of_pairwise (fun a b ha hb hab hba => ?_) (srt.sorted less l hl)
    (srt.sorted less l' hl') (((srt.perm less l).trans hperm).trans (srt.perm less l').symm)
  have ha' := (srt.perm less l).mem_iff.mp ha
  have hb' := hperm.mem_iff.mpr ((srt.perm less l').mem_iff.mp hb)
  exact htotal a ha' b hb' hba hab

/-! ## Insertion sort -/

/-- Move `x` down past the elements it is less than. The sorted part is held in reverse, its last
element first. -/
def insertDown (less : α → α → Bool) (x : α) : List α → List α
  | [] => [x]
  | y :: ys => if less x y then y :: insertDown less x ys else x :: y :: ys

/-- The insertion sort `sort.Sort` runs on short slices. -/
def insertionSort (less : α → α → Bool) (l : List α) : List α :=
  (l.foldl (fun acc x => insertDown less x acc) []).reverse

theorem insertDown_perm (less : α → α → Bool) (x : α) (l : List α) :
    (insertDown less x l).Perm (x :: l) := by
  induction l with
  | nil => exact List.Perm.refl _
  | cons y ys ih =>
    unfold insertDown
    split_ifs
    · exact (ih.cons y).trans (List.Perm.swap x y ys)
    · exact List.Perm.refl _

theorem foldl_insertDown_perm (less : α → α → Bool) (l acc : List α) :
    (l.foldl (fun acc x => insertDown less x acc) acc).Perm (l ++ acc) := by
  induction l generalizing acc with
  | nil => exact List.Perm.refl _
  | cons x l ih =>
    refine (ih (insertDown less x acc)).trans ?_
    refine ((insertDown_perm less x acc).append_left l).trans ?_
    exact List.perm_middle

theorem insertionSort_perm (less : α → α → Bool) (l : List α) :
    (insertionSort less l).Perm l := by
  refine (List.reverse_perm _).trans ((foldl_insertDown_perm less l []).trans ?_)
  rw [List.append_nil]

theorem insertDown_sorted {less : α → α → Bool} {x : α} {l : List α}
    (hw : StrictWeakOn less (x :: l)) (hl : l.Pairwise fun a b => less a b = false) :
    (insertDown less x l).Pairwise fun a b => less a b = false := by
  induction l with
  | nil => exact List.pairwise_singleton _ _
  | cons y ys ih =>
    obtain ⟨hy, hys⟩ := List.pairwise_cons.mp hl
    have hx : x ∈ x :: y :: ys := List.mem_cons_self
    have hym : y ∈ x :: y :: ys := List.mem_cons_of_mem _ List.mem_cons_self
    have hsub : ∀ a, a ∈ x :: ys → a ∈ x :: y :: ys := fun a ha => by
      rcases List.mem_cons.mp ha with rfl | ha
      · exact hx
      · exact List.mem_cons_of_mem _ (List.mem_cons_of_mem _ ha)
    unfold insertDown
    split_ifs with hxy
    · refine List.pairwise_cons.mpr ⟨fun b hb => ?_, ih (hw.subset hsub) hys⟩
      rcases List.mem_cons.mp ((insertDown_perm less x ys).mem_iff.mp hb) with rfl | hb
      · -- `x` is less than `y`, so `y` is not less than `x`
        by_contra hyx
        have := hw.trans y hym b hx y hym (by simpa using hyx) hxy
        rw [hw.irrefl y hym] at this
        exact Bool.noConfusion this
      · exact hy b hb
    · have hxy' : less x y = false := by simpa using hxy
      refine List.pairwise_cons.mpr ⟨fun b hb => ?_, hl⟩
      rcases List.mem_cons.mp hb with rfl | hb
      · exact hxy'
      · exact hw.notLess_trans x hx y hym b
          (List.mem_cons_of_mem _ (List.mem_cons_of_mem _ hb)) hxy' (hy b hb)

theorem foldl_insertDown_sorted {less : α → α → Bool} {l acc : List α}
    (hw : StrictWeakOn less (l ++ acc)) (hacc : acc.Pairwise fun a b => less a b = false) :
    (l.foldl (fun acc x => insertDown less x acc) acc).Pairwise fun a b => less a b = false := by
  induction l generalizing acc with
  | nil => exact hacc
  | cons x l ih =>
    have hsub : ∀ a, a ∈ l ++ insertDown less x acc → a ∈ x :: l ++ acc := fun a ha => by
      rw [List.mem_append, (insertDown_perm less x acc).mem_iff] at ha
      simp only [List.mem_append, List.mem_cons] at ha ⊢
      tauto
    have hsub' : ∀ a, a ∈ x :: acc → a ∈ x :: l ++ acc := fun a ha => by
      simp only [List.mem_append, List.mem_cons] at ha ⊢
      tauto
    exact ih (hw.subset hsub) (insertDown_sorted (hw.subset hsub') hacc)

/-- Insertion sort is a `Sorter`. -/
def insertionSorter : Sorter where
  sort := insertionSort
  perm := insertionSort_perm
  sorted := fun less l hw => by
    unfold insertionSort
    rw [List.pairwise_reverse]
    rw [← List.append_nil l] at hw
    exact foldl_insertDown_sorted hw List.Pairwise.nil
  two := fun less a b => by
    unfold insertionSort insertDown
    simp only [List.foldl_cons, List.foldl_nil, insertDown]
    split_ifs <;> rfl

/-! ## Map iteration -/

/-- The order in which a `range` over a map visits its keys. -/
structure Shuffle where
  order : List String → List String
  perm : ∀ l, (order l).Perm l

/-- The keys in their stored order. -/
def Shuffle.id : Shuffle := ⟨fun l => l, fun l => List.Perm.refl l⟩

end Okexchain
