import Okexchain.Swap.Spec
import Mathlib.Tactic.FieldSimp

/-!
# `MulAndQuo` and the size of decimals

`common.MulAndQuo` (`x/common/util.go`) multiplies and divides amounts of the swap module. It scales
its first argument by `10^18`, so that the truncations on the way fall on digits that the last
division cuts off. The model of the swap module (`mulAndQuo`) leaves one thing out: each operation
of `sdk.Dec` panics if its result has more than 315 bits. Here the operations are taken with this
limit (`Dec.fits`).

**Results.** `MulAndQuo.returns_quotient`: **where the function returns, it returns the largest
multiple of `10^-18` that is at most `a * b / c`**, and it returns unless one of three products and
quotients has more than 315 bits. For amounts of at most `9 * 10^10` this does not happen.
-/

namespace Okexchain

namespace Dec

/-- The first raw value that is too large: 255 bits, and 60 for the digits. -/
def limit : Nat :=
  2 ^ (255 + 60)

/-- A raw value that is not too large. -/
def fits (x : Int) : Bool :=
  x.natAbs < limit

/-- A result, unless it is too large. -/
def checked (x : Int) : Option Int :=
  if fits x then some x else none

/-- The rational number that a raw value stands for. -/
def toRat (x : Int) : ℚ :=
  x / one

end Dec

namespace MulAndQuo

/-- `MulAndQuo` with the limit of decimals. -/
def run (a b c : Int) : Option Int := do
  let auxiliaryDec := Dec.newDec Dec.one
  let a ← Dec.checked (Dec.mulTruncate a auxiliaryDec)
  let ab ← Dec.checked (Dec.mulTruncate a b)
  if c = 0 then none
  else
    let quo ← Dec.checked (Dec.quoTruncate ab c)
    Dec.checked (Dec.quoTruncate quo auxiliaryDec)

variable {a b c : Int}

/-- The values on the way: the scaled argument, the product and the scaled quotient. -/
def steps (a b c : Int) : List Int :=
  [a * Dec.one, a * b, a * b * Dec.one / c]

theorem checked_bind_eq_some {x r : Int} {f : Int → Option Int} :
    (Dec.checked x >>= f) = some r ↔ Dec.fits x = true ∧ f x = some r := by
  unfold Dec.checked
  split_ifs with h
  · exact ⟨fun hf => ⟨h, hf⟩, fun hf => hf.2⟩
  · exact ⟨fun hf => (by cases hf), fun hf => absurd hf.1 h⟩

theorem checked_eq_some {x r : Int} : Dec.checked x = some r ↔ Dec.fits x = true ∧ r = x := by
  unfold Dec.checked
  split_ifs with h
  · exact ⟨fun hf => ⟨h, (Option.some.inj hf).symm⟩, fun hf => congrArg some hf.2.symm⟩
  · exact ⟨fun hf => (by cases hf), fun hf => absurd hf.1 h⟩

/-- The quotient is smaller than the scaled one. -/
theorem fits_quotient (ha : 0 ≤ a) (hb : 0 ≤ b) (hc : 0 < c)
    (h : Dec.fits (a * b * Dec.one / c) = true) : Dec.fits (a * b / c) = true := by
  have hab : 0 ≤ a * b := mul_nonneg ha hb
  have hle : a * b / c ≤ a * b * Dec.one / c :=
    Int.ediv_le_ediv hc (le_mul_of_one_le_right hab Dec.one_pos)
  have hnonneg : 0 ≤ a * b / c := Int.ediv_nonneg hab hc.le
  unfold Dec.fits at h ⊢
  rw [decide_eq_true_eq] at h ⊢
  omega

/-- **`MulAndQuo` returns if and only if the values on the way fit**, and then the quotient. -/
theorem run_eq_some (ha : 0 ≤ a) (hb : 0 ≤ b) (hc : 0 < c) {r : Int} :
    run a b c = some r ↔ (∀ x ∈ steps a b c, Dec.fits x = true) ∧ r = a * b / c := by
  have hab : 0 ≤ a * b := mul_nonneg ha hb
  have hscale : Dec.mulTruncate a (Dec.newDec Dec.one) = a * Dec.one :=
    Dec.mulTruncate_newDec_right a Dec.one
  have hprod : Dec.mulTruncate (a * Dec.one) b = a * b := hscale ▸ mulTruncate_scaled a b
  have hquo : Dec.quoTruncate (a * b) c = a * b * Dec.one / c := Dec.quoTruncate_eq hab hc
  have hlast : Dec.quoTruncate (a * b * Dec.one / c) (Dec.newDec Dec.one) = a * b / c :=
    hquo ▸ quoTruncate_scaled hab hc
  unfold run steps
  simp only [checked_bind_eq_some, checked_eq_some, hscale, hprod, if_neg hc.ne', hquo, hlast,
    List.forall_mem_cons, List.not_mem_nil, false_implies, implies_true, and_true]
  constructor
  · rintro ⟨hfirst, hsecond, hthird, -, hr⟩
    exact ⟨⟨hfirst, hsecond, hthird⟩, hr⟩
  · rintro ⟨⟨hfirst, hsecond, hthird⟩, hr⟩
    exact ⟨hfirst, hsecond, hthird, fits_quotient ha hb hc hthird, hr⟩

/-- The rational quotient is at least a multiple of `10^-18` if and only if the raw one is. -/
theorem toRat_le_iff (hc : 0 < c) (n : Int) :
    Dec.toRat n ≤ Dec.toRat a * Dec.toRat b / Dec.toRat c ↔ n ≤ a * b / c := by
  have hone : (0 : ℚ) < Dec.one := by exact_mod_cast Dec.one_pos
  have hcq : (0 : ℚ) < c := by exact_mod_cast hc
  have heq : Dec.toRat a * Dec.toRat b / Dec.toRat c = (a * b : ℚ) / c / Dec.one := by
    unfold Dec.toRat
    field_simp
  rw [heq, Dec.toRat, div_le_div_iff_of_pos_right hone, le_div_iff₀ hcq, Int.le_ediv_iff_mul_le hc]
  exact_mod_cast Iff.rfl

/-- The values on the way of amounts of at most `9 * 10^10`: the largest has 253 bits. -/
theorem fits_steps (ha : 0 ≤ a) (hb : 0 ≤ b) (hc : 0 < c) (hle : a ≤ Dec.newDec (9 * 10 ^ 10))
    (hle' : b ≤ Dec.newDec (9 * 10 ^ 10)) : ∀ x ∈ steps a b c, Dec.fits x = true := by
  have hfits : ∀ {x : Int}, 0 ≤ x → x ≤ Dec.newDec (9 * 10 ^ 10) * Dec.newDec (9 * 10 ^ 10) *
      Dec.one → Dec.fits x = true := by
    intro x hx hle
    have hbound : Dec.newDec (9 * 10 ^ 10) * Dec.newDec (9 * 10 ^ 10) * Dec.one < Dec.limit := by
      decide +kernel
    unfold Dec.fits
    rw [decide_eq_true_eq, ← Int.ofNat_lt, Int.natAbs_of_nonneg hx]
    exact hle.trans_lt hbound
  have hab : 0 ≤ a * b := mul_nonneg ha hb
  have hprod : a * b ≤ Dec.newDec (9 * 10 ^ 10) * Dec.newDec (9 * 10 ^ 10) :=
    mul_le_mul hle hle' hb (ha.trans hle)
  have hscaled : a * b * Dec.one ≤
      Dec.newDec (9 * 10 ^ 10) * Dec.newDec (9 * 10 ^ 10) * Dec.one :=
    mul_le_mul_of_nonneg_right hprod Dec.one_nonneg
  have hone : Dec.newDec (9 * 10 ^ 10) * Dec.one ≤
      Dec.newDec (9 * 10 ^ 10) * Dec.newDec (9 * 10 ^ 10) * Dec.one := by
    decide +kernel
  unfold steps
  simp only [List.forall_mem_cons, List.not_mem_nil, false_implies, implies_true, and_true]
  refine ⟨hfits (mul_nonneg ha Dec.one_nonneg) ?_, hfits hab ?_, hfits ?_ ?_⟩
  · exact (mul_le_mul_of_nonneg_right hle Dec.one_nonneg).trans hone
  · exact (le_mul_of_one_le_right hab Dec.one_pos).trans hscaled
  · exact Int.ediv_nonneg (mul_nonneg hab Dec.one_nonneg) hc.le
  · exact (Int.ediv_le_self _ (mul_nonneg hab Dec.one_nonneg)).trans hscaled

/-- **`MulAndQuo` is exact.** It returns unless a value on the way does not fit, and it returns the
largest multiple of `10^-18` that is at most the rational quotient. For amounts of at most `9 *
10^10` every value fits. -/
theorem returns_quotient (a b c : Int) (ha : 0 ≤ a) (hb : 0 ≤ b) (hc : 0 < c) :
    ((∀ x ∈ steps a b c, Dec.fits x = true) → ∃ r, run a b c = some r) ∧
      (∀ r, run a b c = some r →
        IsGreatest { n | Dec.toRat n ≤ Dec.toRat a * Dec.toRat b / Dec.toRat c } r) ∧
      (a ≤ Dec.newDec (9 * 10 ^ 10) → b ≤ Dec.newDec (9 * 10 ^ 10) →
        ∃ r, run a b c = some r) := by
  have hret : (∀ x ∈ steps a b c, Dec.fits x = true) → ∃ r, run a b c = some r := fun hfits =>
    ⟨_, (run_eq_some ha hb hc).mpr ⟨hfits, rfl⟩⟩
  refine ⟨hret, fun r hr => ?_, fun hle hle' => hret ?_⟩
  · obtain ⟨-, rfl⟩ := (run_eq_some ha hb hc).mp hr
    exact ⟨(toRat_le_iff hc _).mpr le_rfl, fun n hn => (toRat_le_iff hc n).mp hn⟩
  · exact fits_steps ha hb hc hle hle'

/-- `10 * 10 / 3`, where the smallest unit is lost. -/
theorem returns_quotient_thirds :
    run (Dec.newDec 10) (Dec.newDec 10) (Dec.newDec 3) = some 33333333333333333333 ∧
      IsGreatest { n | Dec.toRat n ≤
        Dec.toRat (Dec.newDec 10) * Dec.toRat (Dec.newDec 10) / Dec.toRat (Dec.newDec 3) }
        33333333333333333333 := by
  have hrun : run (Dec.newDec 10) (Dec.newDec 10) (Dec.newDec 3) = some 33333333333333333333 := by
    decide +kernel
  exact ⟨hrun, (returns_quotient (Dec.newDec 10) (Dec.newDec 10) (Dec.newDec 3) (by decide)
    (by decide) (by decide)).2.1 _ hrun⟩

end MulAndQuo

end Okexchain
