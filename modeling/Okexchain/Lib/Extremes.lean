import Mathlib.Order.Bounds.Defs
import Mathlib.Order.MinMax

/-!
# Running extremes

A loop that keeps the greater of a value and the next element, or the smaller one, from some start
on.

* `foldl_choice`: an operation that chooses between its arguments gives the start or an element.
* `le_foldl_max`: a running maximum is above the start and above every element.
* `isGreatest_foldl_max_iff`, `isLeast_foldl_min_iff`: it is the greatest element, or the least,
  exactly if some element reaches the start.
-/

namespace Okexchain

variable {α : Type}

theorem foldl_choice {op : α → α → α} (hop : ∀ a b, op a b = a ∨ op a b = b) (l : List α) (a : α) :
    l.foldl op a = a ∨ l.foldl op a ∈ l := by
  induction l generalizing a with
  | nil => exact .inl rfl
  | cons x l ih =>
    rw [List.foldl_cons]
    rcases ih (op a x) with h | h
    · rcases hop a x with hx | hx
      · exact .inl (h.trans hx)
      · exact .inr (by rw [h, hx]; exact List.mem_cons_self)
    · exact .inr (List.mem_cons_of_mem _ h)

variable [LinearOrder α]

theorem le_foldl_max (l : List α) (a : α) :
    a ≤ l.foldl max a ∧ ∀ x ∈ l, x ≤ l.foldl max a := by
  induction l generalizing a with
  | nil => exact ⟨le_rfl, fun x hx => absurd hx List.not_mem_nil⟩
  | cons y l ih =>
    obtain ⟨h1, h2⟩ := ih (max a y)
    rw [List.foldl_cons]
    refine ⟨(le_max_left a y).trans h1, fun x hx => ?_⟩
    rcases List.mem_cons.mp hx with rfl | hx
    · exact (le_max_right a x).trans h1
    · exact h2 x hx

/-- A running maximum is the greatest element exactly if some element reaches the start. -/
theorem isGreatest_foldl_max_iff (l : List α) (b : α) :
    IsGreatest {x | x ∈ l} (l.foldl max b) ↔ ∃ x ∈ l, b ≤ x := by
  obtain ⟨hstart, hall⟩ := le_foldl_max l b
  refine ⟨fun h => ⟨_, h.1, hstart⟩, fun ⟨x, hx, hb⟩ => ⟨?_, hall⟩⟩
  rcases foldl_choice max_choice l b with heq | hmem
  · have : x = l.foldl max b := le_antisymm (hall x hx) (heq.le.trans hb)
    exact this ▸ hx
  · exact hmem

/-- The dual: a running minimum. -/
theorem isLeast_foldl_min_iff (l : List α) (b : α) :
    IsLeast {x | x ∈ l} (l.foldl min b) ↔ ∃ x ∈ l, x ≤ b :=
  isGreatest_foldl_max_iff (α := αᵒᵈ) l b

end Okexchain
