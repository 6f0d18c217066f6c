import Mathlib.Tactic.Linarith
import Mathlib.Tactic.Ring
import Mathlib.Tactic.Positivity

/-!
# Fixed-point decimals with 18 places

A decimal is the integer count of its `10⁻¹⁸` units, so sums, differences and comparisons are those
of the integers. A product has 36 places and is brought back to 18 by `chopPrecisionAndRound`, which
rounds half to even; a quotient is truncated at 36 places first.

Rounding is what breaks accounting identities, so the lemmas say where there is none:

* `mul_mul_one`: a product is exact when the unit divides the raw product;
* `Exact u`: products of multiples of `u` are exact. On multiples of such a `u` the product
  distributes (`Exact.mul_sub`) and is monotone (`Exact.mul_le_mul`);
* `mul_newDec`: so is a product with a whole number.

Where there is some, they bound it: a rounded quotient is within half a unit (`chopNonneg_near`),
and monotone (`chopNonneg_mono`, `scaledQuo_mono`).
-/

namespace Okexchain

namespace Dec

/-- The units in one whole. -/
def one : Int := 1000000000000000000

/-- A whole number as a decimal. -/
def newDec (n : Int) : Int := n * one

/-- Divide a nonnegative raw value by `one`, rounding half to even. -/
def chopNonneg (d : Int) : Int :=
  let quo := d / one
  let rem := d % one
  if rem = 0 then quo
  else if 2 * rem < one then quo
  else if one < 2 * rem then quo + 1
  else if quo % 2 = 0 then quo
  else quo + 1

/-- Divide a raw value by `one`, rounding half to even; a negative value is rounded as its
opposite. -/
def chopPrecisionAndRound (d : Int) : Int :=
  if d < 0 then -chopNonneg (-d) else chopNonneg d

/-- `Dec.Mul`. -/
def mul (a b : Int) : Int := chopPrecisionAndRound (a * b)

/-- `Dec.Quo`; a zero divisor panics. -/
def quo (a b : Int) : Option Int :=
  if b = 0 then none else some (chopPrecisionAndRound ((a * one * one).tdiv b))

/-- `Dec.MulTruncate`. -/
def mulTruncate (a b : Int) : Int := (a * b).tdiv one

/-- `Dec.QuoTruncate`. A zero divisor panics; the callers rule it out. -/
def quoTruncate (a b : Int) : Int := ((a * one * one).tdiv b).tdiv one

/-! ## Exact products -/

theorem one_pos : 0 < one := by decide

theorem one_nonneg : 0 ≤ one := one_pos.le

theorem chopNonneg_nonneg {d : Int} (h : 0 ≤ d) : 0 ≤ chopNonneg d := by
  have hq : 0 ≤ d / one := Int.ediv_nonneg h one_pos.le
  unfold chopNonneg
  simp only
  split_ifs <;> omega

theorem mul_nonneg {a b : Int} (ha : 0 ≤ a) (hb : 0 ≤ b) : 0 ≤ mul a b := by
  have h : 0 ≤ a * b := Int.mul_nonneg ha hb
  unfold mul chopPrecisionAndRound
  rw [if_neg (not_lt.mpr h)]
  exact chopNonneg_nonneg h

theorem le_mul {a b : Int} (ha : 0 ≤ a) (hb : one ≤ b) : a ≤ mul a b := by
  have hprod : a * one ≤ a * b := mul_le_mul_of_nonneg_left hb ha
  have hpos : 0 ≤ a * b := le_trans (Int.mul_nonneg ha one_pos.le) hprod
  have hquo : a ≤ a * b / one := (Int.le_ediv_iff_mul_le one_pos).mpr hprod
  unfold mul chopPrecisionAndRound
  rw [if_neg (not_lt.mpr hpos)]
  unfold chopNonneg
  dsimp only
  split_ifs <;> omega

theorem chopNonneg_mul_one (k : Int) : chopNonneg (k * one) = k := by
  unfold chopNonneg
  simp only [Int.mul_emod_left, if_true]
  exact Int.mul_ediv_cancel k one_pos.ne'

/-- A raw value that is a whole number of units is not rounded. -/
theorem chopPrecisionAndRound_mul_one (k : Int) : chopPrecisionAndRound (k * one) = k := by
  unfold chopPrecisionAndRound
  split_ifs
  · rw [← Int.neg_mul, chopNonneg_mul_one, Int.neg_neg]
  · exact chopNonneg_mul_one k

theorem mul_of_eq {a b k : Int} (h : a * b = k * one) : mul a b = k := by
  unfold mul
  rw [h, chopPrecisionAndRound_mul_one]

theorem mul_mul_one {a b : Int} (h : one ∣ a * b) : mul a b * one = a * b := by
  obtain ⟨k, hk⟩ := h
  rw [mul_of_eq (hk.trans (mul_comm _ _)), hk, mul_comm]

theorem mul_newDec (a n : Int) : mul a (newDec n) = a * n :=
  mul_of_eq (mul_assoc a n one).symm

/-! ## Rounded quotients -/

/-- The nearest of the units to a raw value: it is within half a unit. -/
theorem chopNonneg_near (d : Int) :
    2 * d - one ≤ 2 * one * chopNonneg d ∧ 2 * one * chopNonneg d ≤ 2 * d + one := by
  unfold chopNonneg one
  dsimp only
  split_ifs <;> omega

theorem chopNonneg_mono {d d' : Int} (h : d ≤ d') : chopNonneg d ≤ chopNonneg d' := by
  unfold chopNonneg one
  dsimp only
  split_ifs <;> omega

/-- Half a unit above an even number of units is rounded down to it. -/
theorem chopNonneg_le_of_even {d k : Int} (hk : k % 2 = 0) (h : 2 * d ≤ (2 * k + 1) * one) :
    chopNonneg d ≤ k := by
  unfold chopNonneg one at *
  dsimp only
  split_ifs <;> omega

/-- The quotient of nonnegative values, before it is rounded. -/
def scaledQuo (a b : Int) : Int := a * one * one / b

theorem quo_eq {a b : Int} (ha : 0 ≤ a) (hb : 0 < b) :
    quo a b = some (chopNonneg (scaledQuo a b)) := by
  have hscaled : 0 ≤ a * one * one :=
    Int.mul_nonneg (Int.mul_nonneg ha one_nonneg) one_nonneg
  have hquo : 0 ≤ a * one * one / b := Int.ediv_nonneg hscaled hb.le
  unfold quo chopPrecisionAndRound scaledQuo
  rw [if_neg hb.ne', Int.tdiv_eq_ediv_of_nonneg hscaled, if_neg (not_lt.mpr hquo)]

/-- A quotient grows with its dividend, and as its divisor gets smaller. -/
theorem scaledQuo_mono {a a' b b' : Int} (ha : 0 ≤ a) (haa : a ≤ a') (hb : 0 < b') (hbb : b' ≤ b) :
    scaledQuo a b ≤ scaledQuo a' b' := by
  have hone := one_pos
  have hscaled : 0 ≤ a * one * one := by positivity
  have hle : a * one * one ≤ a' * one * one := by gcongr
  unfold scaledQuo
  rw [Int.le_ediv_iff_mul_le hb]
  calc a * one * one / b * b' ≤ a * one * one / b * b :=
        mul_le_mul_of_nonneg_left hbb (Int.ediv_nonneg hscaled (hb.trans_le hbb).le)
    _ ≤ a * one * one := Int.ediv_mul_le _ (hb.trans_le hbb).ne'
    _ ≤ a' * one * one := hle

/-- The quotients of two parts of the divisor are together at most one. -/
theorem scaledQuo_add_le {a c b : Int} (hb : 0 < b) (h : a + c ≤ b) :
    scaledQuo a b + scaledQuo c b ≤ one * one := by
  have hone := one_pos
  have ha : scaledQuo a b * b ≤ a * one * one := Int.ediv_mul_le _ hb.ne'
  have hc : scaledQuo c b * b ≤ c * one * one := Int.ediv_mul_le _ hb.ne'
  have htotal : (a + c) * (one * one) ≤ b * (one * one) :=
    mul_le_mul_of_nonneg_right h (by positivity)
  refine le_of_mul_le_mul_right ?_ hb
  calc (scaledQuo a b + scaledQuo c b) * b = scaledQuo a b * b + scaledQuo c b * b := add_mul _ _ _
    _ ≤ a * one * one + c * one * one := add_le_add ha hc
    _ = (a + c) * (one * one) := by ring
    _ ≤ b * (one * one) := htotal
    _ = one * one * b := mul_comm _ _

/-! ## Truncation -/

theorem mulTruncate_nonneg {a b : Int} (ha : 0 ≤ a) (hb : 0 ≤ b) : 0 ≤ mulTruncate a b :=
  Int.tdiv_nonneg (Int.mul_nonneg ha hb) one_pos.le

theorem mulTruncate_mul_one_le {a b : Int} (ha : 0 ≤ a) (hb : 0 ≤ b) :
    mulTruncate a b * one ≤ a * b := by
  unfold mulTruncate
  rw [Int.tdiv_eq_ediv_of_nonneg (Int.mul_nonneg ha hb)]
  exact Int.ediv_mul_le _ one_pos.ne'

theorem mulTruncate_newDec (n a : Int) : mulTruncate (newDec n) a = n * a := by
  unfold mulTruncate newDec
  rw [mul_right_comm]
  exact Int.mul_tdiv_cancel _ one_pos.ne'

theorem mulTruncate_newDec_right (a n : Int) : mulTruncate a (newDec n) = a * n := by
  unfold mulTruncate newDec
  rw [← mul_assoc, Int.mul_tdiv_cancel _ one_pos.ne']

theorem quoTruncate_eq {a b : Int} (ha : 0 ≤ a) (hb : 0 < b) :
    quoTruncate a b = a * one / b := by
  have h1 : 0 ≤ a * one * one := by
    have := one_pos
    positivity
  unfold quoTruncate
  rw [Int.tdiv_eq_ediv_of_nonneg h1, Int.tdiv_eq_ediv_of_nonneg (Int.ediv_nonneg h1 hb.le),
    Int.ediv_ediv_of_nonneg hb.le, mul_comm b one, ← Int.ediv_ediv_of_nonneg one_pos.le,
    Int.mul_ediv_cancel _ one_pos.ne']

theorem quoTruncate_nonneg {a b : Int} (ha : 0 ≤ a) (hb : 0 < b) : 0 ≤ quoTruncate a b := by
  rw [quoTruncate_eq ha hb]
  exact Int.ediv_nonneg (Int.mul_nonneg ha one_pos.le) hb.le

/-- A truncated quotient times its divisor is at most the dividend. -/
theorem quoTruncate_mul_le {a b : Int} (ha : 0 ≤ a) (hb : 0 < b) :
    quoTruncate a b * b ≤ a * one := by
  rw [quoTruncate_eq ha hb]
  exact Int.ediv_mul_le _ hb.ne'

/-! ## Products on a grid -/

/-- Products of multiples of `u` are exact. -/
def Exact (u : Int) : Prop := one ∣ u * u

namespace Exact

variable {u a b c : Int}

theorem dvd (hu : Exact u) (ha : u ∣ a) (hb : u ∣ b) : one ∣ a * b :=
  hu.trans (mul_dvd_mul ha hb)

theorem mul_sub (hu : Exact u) (ha : u ∣ a) (hb : u ∣ b) (hc : u ∣ c) :
    mul a (b - c) = mul a b - mul a c := by
  apply mul_of_eq
  rw [Int.sub_mul, mul_mul_one (hu.dvd ha hb), mul_mul_one (hu.dvd ha hc), Int.mul_sub]

theorem mul_le_mul (hu : Exact u) (ha : u ∣ a) (hb : u ∣ b) (hc : u ∣ c) (hab : a ≤ b)
    (h0 : 0 ≤ c) : mul a c ≤ mul b c := by
  have h : a * c ≤ b * c := Int.mul_le_mul_of_nonneg_right hab h0
  rw [← mul_mul_one (hu.dvd ha hc), ← mul_mul_one (hu.dvd hb hc)] at h
  exact le_of_mul_le_mul_right h one_pos

end Exact

/-- Four decimal places: the products of two such values are exact. -/
theorem exact_four : Exact 100000000000000 := by
  unfold Exact one
  decide

end Dec

end Okexchain
