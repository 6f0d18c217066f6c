import Mathlib.Data.Nat.ModEq

/-!
# Circular buffers

A buffer of `w` cells, in which the values of a history are written one after the other, and the
place starts over at the end. It has the last `w` values, and each write replaces the oldest.

**Results.** `ring_recent`: the cell of the value that was written `j` values ago has it, for
`j < w`. `ring_oldest`: the cell of the next write has the value that leaves the window.
`countP_take_cons`: what enters and what leaves is what a count over the window changes by.
-/

namespace Okexchain

variable {α : Type} {d : α} {w : Nat} {hist : List α}

/-- The cell `i` when the values of a history, last first, have been written; `d` if none was. -/
def ring (d : α) (w : Nat) : List α → Nat → α
  | [], _ => d
  | x :: hist, i => if hist.length % w = i then x else ring d w hist i

/-- Within one round all places are different. -/
theorem add_mod_ne_self {n k : Nat} (hpos : 0 < k) (hk : k < w) : (n + k) % w ≠ n % w := by
  intro heq
  have hmod : k ≡ 0 [MOD w] := Nat.ModEq.add_left_cancel' n heq
  have hzero : k = 0 := hmod.eq_of_lt_of_lt hk (hpos.trans hk)
  omega

/-- **The window is in the buffer**: the value that was written `j` values ago. -/
theorem ring_recent {j : Nat} (hj : j < w) :
    ring d w hist ((hist.length + (w - 1 - j)) % w) = hist.getD j d := by
  induction hist generalizing j with
  | nil => rfl
  | cons x hist ih =>
    unfold ring
    cases j with
    | zero =>
      have hplace : (x :: hist).length + (w - 1 - 0) = hist.length + w := by
        rw [List.length_cons]
        omega
      rw [hplace, Nat.add_mod_right, if_pos rfl, List.getD_cons_zero]
    | succ j =>
      have hplace : (x :: hist).length + (w - 1 - (j + 1)) = hist.length + (w - 1 - j) := by
        rw [List.length_cons]
        omega
      have hne : hist.length % w ≠ (hist.length + (w - 1 - j)) % w :=
        (add_mod_ne_self (by omega) (by omega)).symm
      rw [hplace, if_neg hne, ih (by omega), List.getD_cons_succ]

/-- **The next write replaces the oldest value of the window.** -/
theorem ring_oldest (hw : 0 < w) :
    ring d w hist (hist.length % w) = hist.getD (w - 1) d := by
  have h : ring d w hist ((hist.length + (w - 1 - (w - 1))) % w) = hist.getD (w - 1) d :=
    ring_recent (Nat.sub_lt hw Nat.one_pos)
  rwa [Nat.sub_self, Nat.add_zero] at h

/-- **A value enters the window, and the oldest leaves it.** -/
theorem countP_take_cons (hw : 0 < w) {p : α → Bool} (hd : p d = false) (x : α) :
    ((x :: hist).take w).countP p + (p (hist.getD (w - 1) d)).toNat =
      (hist.take w).countP p + (p x).toNat := by
  obtain ⟨v, rfl⟩ : ∃ v, w = v + 1 := ⟨w - 1, by omega⟩
  have hone : ∀ y : α, [y].countP p = (p y).toNat := fun y => by
    cases hy : p y <;> simp [hy]
  have hlast : hist[v]?.toList.countP p = (p (hist.getD v d)).toNat := by
    rw [List.getD_eq_getElem?_getD]
    cases hist[v]? with
    | none => simp [hd]
    | some y => exact hone y
  rw [List.take_succ_cons, List.take_add_one, List.countP_append, hlast, Nat.add_sub_cancel,
    ← List.singleton_append, List.countP_append, hone]
  omega

end Okexchain
