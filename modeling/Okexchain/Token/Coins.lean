import Okexchain.Token.Keeper
import Okexchain.Lib.Dec

/-!
# Arithmetic of coin lists

The operations of `sdk.SysCoins` on whole lists. A list leaves out zero amounts, so an operation
that truncates an amount to zero drops the coin, as the source's does.

* `mulDecTruncate`, `quoDecTruncate`: every amount is multiplied or divided and truncated;
* `isAllLT`: the other list has more of everything in this one. It is false when the other list is
  empty, and true when only this one is;
* `subCoins`: the difference, if no amount is negative. The source panics otherwise.

**Results.** `isAllLT_eq_false` and `subCoins_eq_some`: a list that is covered by another is neither
found to be above it nor refused as a subtrahend.
-/

namespace Okexchain

namespace Coins

/-- `MulDecTruncate`. -/
def mulDecTruncate (c : Coins) (d : Int) : Coins :=
  c.mapRange (fun _ a => Dec.mulTruncate a d) fun _ => by simp [Dec.mulTruncate]

/-- `QuoDecTruncate`; the divisor is not zero. -/
def quoDecTruncate (c : Coins) (d : Int) : Coins :=
  c.mapRange (fun _ a => Dec.quoTruncate a d) fun _ => by simp [Dec.quoTruncate]

/-- `IsAllLT`. -/
def isAllLT (a b : Coins) : Bool :=
  decide (b ≠ 0 ∧ (a = 0 ∨ a.support ⊆ b.support ∧ ∀ d ∈ a.support, a d < b d))

/-- `Sub`, which panics on a negative amount. -/
def subCoins (a b : Coins) : Option Coins := if (a - b).isNegative then none else some (a - b)

variable {a b : Coins}

@[simp] theorem mulDecTruncate_apply (c : Coins) (x : Int) (d : String) :
    c.mulDecTruncate x d = Dec.mulTruncate (c d) x := DFinsupp.mapRange_apply ..

@[simp] theorem quoDecTruncate_apply (c : Coins) (x : Int) (d : String) :
    c.quoDecTruncate x d = Dec.quoTruncate (c d) x := DFinsupp.mapRange_apply ..

theorem sum_nonneg {l : List Coins} (h : ∀ c ∈ l, ∀ d, 0 ≤ c d) (d : String) : 0 ≤ l.sum d := by
  induction l with
  | nil => exact le_rfl
  | cons c l ih =>
    obtain ⟨hc, hl⟩ := List.forall_mem_cons.mp h
    rw [List.sum_cons, DFinsupp.add_apply]
    exact add_nonneg (hc d) (ih hl)

theorem isAllLT_eq_false (h : ∀ d, b d ≤ a d) (hb : ∀ d, 0 ≤ b d) : a.isAllLT b = false := by
  unfold isAllLT
  rw [decide_eq_false_iff_not]
  rintro ⟨hne, rfl | ⟨-, hlt⟩⟩
  · exact hne (DFinsupp.ext fun d => le_antisymm (h d) (hb d))
  · refine hne (DFinsupp.ext fun d => ?_)
    by_contra hd
    have hpos : 0 < b d := lt_of_le_of_ne (hb d) (Ne.symm hd)
    have hmem : d ∈ a.support := DFinsupp.mem_support_iff.mpr (lt_of_lt_of_le hpos (h d)).ne'
    exact absurd (hlt d hmem) (not_lt.mpr (h d))

theorem subCoins_eq_some (h : ∀ d, b d ≤ a d) : a.subCoins b = some (a - b) := by
  unfold subCoins
  have hneg : (a - b).isNegative = false := isNegative_eq_false.mpr fun d => by
    rw [DFinsupp.sub_apply]
    exact sub_nonneg.mpr (h d)
  rw [hneg]
  rfl

theorem subCoins_cases {c : Coins} (h : a.subCoins b = some c) : c = a - b ∧ ∀ d, b d ≤ a d := by
  unfold subCoins at h
  split_ifs at h with hneg
  cases h
  refine ⟨rfl, fun d => ?_⟩
  have hd := isNegative_eq_false.mp (Bool.eq_false_iff.mpr hneg) d
  rw [DFinsupp.sub_apply] at hd
  exact sub_nonneg.mp hd

end Coins

end Okexchain
