import Mathlib.Tactic.Linarith
import Mathlib.Tactic.Ring
import Mathlib.Tactic.LinearCombination

/-!
# Constant-product pools

A pool holds two reserves and has shares. Traders swap one reserve against the other, providers add
to both reserves for new shares or burn shares for a part of both.

The amounts a real pool computes are rounded, so nothing here says what they are: an operation is
described by the inequality between its amounts that its rounding guarantees.

* `trade_product`, `trade_lt`: a trade that gives at most the constant-product price keeps the
  product, and never empties the reserve it takes from.
* `trade_split`, `trade_mono`: two trades one after the other give no more than one of their size,
  and a larger trade gives no less.
* `withdraw_le_deposit`, `withdraw_lt_deposit`: shares that are minted and burned again give no more
  than they cost.
* `KeepsValue`: the value per share, measured by `base * quote / shares²`, has not fallen.
* `keepsValue_trade`, `keepsValue_withdraw`, `keepsValue_deposit`: trades at most at the price,
  withdrawals of at most the share, and deposits of at least the share keep it.
* `keepsValue_deposit_iff`: a deposit of less than the share, with its two remainders.
-/

namespace Okexchain

variable {R : Type} [CommRing R] [LinearOrder R] [IsStrictOrderedRing R]

/-- The reserves and the shares of a pool. -/
@[ext] structure Pool (R : Type) where
  base : R
  quote : R
  shares : R
deriving DecidableEq

namespace Pool

/-! ## Trades -/

/-- A trade at most at the constant-product price keeps the product. -/
theorem trade_product {X Y x y : R} (h : y * (X + x) ≤ x * Y) : X * Y ≤ (X + x) * (Y - y) := by
  linarith

/-- A trade at most at the constant-product price leaves something. -/
theorem trade_lt {X Y x y : R} (hX : 0 < X) (hY : 0 < Y) (hx : 0 ≤ x)
    (h : y * (X + x) ≤ x * Y) : y < Y := by
  by_contra hle
  rw [not_lt] at hle
  have h1 : Y * (X + x) ≤ y * (X + x) := mul_le_mul_of_nonneg_right hle (by linarith)
  have h2 : 0 < Y * X := mul_pos hY hX
  linarith

/-- A trade that gives at most the price also does so for a larger input. -/
theorem trade_mono {X Y x x' y : R} (hX : 0 < X) (hY : 0 ≤ Y) (hx : 0 ≤ x) (hle : x ≤ x')
    (h : y * (X + x) ≤ x * Y) : y * (X + x') ≤ x' * Y := by
  have hy : y ≤ Y := by
    refine le_of_mul_le_mul_right ?_ (show 0 < X + x by linarith)
    have : 0 ≤ Y * X := mul_nonneg hY hX.le
    linarith
  have hmore : y * (x' - x) ≤ Y * (x' - x) := mul_le_mul_of_nonneg_right hy (by linarith)
  linarith

/-- Two trades one after the other, the second with a reserve that has grown by at least the first
input: together they give at most the price. -/
theorem trade_split {X X' Y x x' y y' : R} (hy' : 0 ≤ y') (hgrown : X + x ≤ X')
    (h : y * (X + x) ≤ x * Y) (h' : y' * (X' + x') ≤ x' * (Y - y)) :
    (y + y') * (X + (x + x')) ≤ (x + x') * Y := by
  have hmore : y' * (X + x) ≤ y' * X' := mul_le_mul_of_nonneg_left hgrown hy'
  linarith

/-- Of two pairs of reserves with products in order, the second is not below the first in both. -/
theorem gain_of_loss {X Y X' Y' : R} (hX : 0 < X) (hY' : 0 < Y') (h : X * Y ≤ X' * Y')
    (hloss : X' < X) : Y < Y' := by
  by_contra hle
  rw [not_lt] at hle
  have h1 : X' * Y' < X * Y' := mul_lt_mul_of_pos_right hloss hY'
  have h2 : X * Y' ≤ X * Y := mul_le_mul_of_nonneg_left hle hX.le
  linarith

/-! ## The value of a share -/

/-- The value per share has not fallen. -/
def KeepsValue (p p' : Pool R) : Prop :=
  p.base * p.quote * p'.shares ^ 2 ≤ p'.base * p'.quote * p.shares ^ 2

omit [IsStrictOrderedRing R] in
theorem KeepsValue.refl (p : Pool R) : KeepsValue p p := le_rfl

theorem keepsValue_trade {B Q B' Q' : R} (S : R) (h : B * Q ≤ B' * Q') :
    KeepsValue ⟨B, Q, S⟩ ⟨B', Q', S⟩ := mul_le_mul_of_nonneg_right h (sq_nonneg S)

/-- A withdrawal of at most the part of the reserves that the burned shares stand for. -/
theorem keepsValue_withdraw {B Q S b q l : R} (hB : 0 ≤ B) (hQ : 0 ≤ Q) (hl : l ≤ S)
    (hb : b * S ≤ B * l) (hq : q * S ≤ Q * l) :
    KeepsValue ⟨B, Q, S⟩ ⟨B - b, Q - q, S - l⟩ := by
  have hleft : B * (S - l) ≤ (B - b) * S := by linarith
  have hright : Q * (S - l) ≤ (Q - q) * S := by linarith
  have hpart : 0 ≤ S - l := sub_nonneg.mpr hl
  calc B * Q * (S - l) ^ 2 = B * (S - l) * (Q * (S - l)) := by ring
    _ ≤ (B - b) * S * ((Q - q) * S) :=
        mul_le_mul hleft hright (mul_nonneg hQ hpart) ((mul_nonneg hB hpart).trans hleft)
    _ = (B - b) * (Q - q) * S ^ 2 := by ring

section Deposit

variable {B Q S x b l : R}

/-- A deposit of at least the part of the reserves that the new shares stand for. -/
theorem keepsValue_deposit (hB : 0 ≤ B) (hQ : 0 < Q) (hS : 0 ≤ S) (hx : 0 ≤ x) (hl : 0 ≤ l)
    (hb : x * B ≤ b * Q) (hshares : l * Q ≤ x * S) :
    KeepsValue ⟨B, Q, S⟩ ⟨B + b, Q + x, S + l⟩ := by
  have hbase : B * (Q + x) ≤ Q * (B + b) := by linarith
  have hmint : Q * (S + l) ≤ S * (Q + x) := by linarith
  have hsq : (Q * (S + l)) ^ 2 ≤ (S * (Q + x)) ^ 2 :=
    pow_le_pow_left₀ (mul_nonneg hQ.le (by linarith)) hmint 2
  have hT : 0 ≤ (Q + x) * S ^ 2 := mul_nonneg (by linarith) (sq_nonneg S)
  refine le_of_mul_le_mul_left ?_ hQ
  calc Q * (B * Q * (S + l) ^ 2) = B * (Q * (S + l)) ^ 2 := by ring
    _ ≤ B * (S * (Q + x)) ^ 2 := mul_le_mul_of_nonneg_left hsq hB
    _ = B * (Q + x) * ((Q + x) * S ^ 2) := by ring
    _ ≤ Q * (B + b) * ((Q + x) * S ^ 2) := mul_le_mul_of_nonneg_right hbase hT
    _ = Q * ((B + b) * (Q + x) * S ^ 2) := by ring

/-- A deposit whose base amount and new shares are both rounded down, with the remainders `ρ` and
`σ`: the value per share does not fall exactly when what the missing base is worth is made up by
the missing shares. -/
theorem keepsValue_deposit_iff {ρ σ : R} (hQ : 0 < Q) (hb : b * Q + ρ = x * B)
    (hshares : l * Q + σ = x * S) :
    KeepsValue ⟨B, Q, S⟩ ⟨B + b, Q + x, S + l⟩ ↔
      ρ * (Q + x) * S ^ 2 ≤ B * σ * (2 * S * (Q + x) - σ) := by
  have hbase : Q * (B + b) = B * (Q + x) - ρ := by linear_combination hb
  have hmint : Q * (S + l) = S * (Q + x) - σ := by linear_combination hshares
  have hold : Q * (B * Q * (S + l) ^ 2) = B * (S * (Q + x) - σ) ^ 2 := by
    rw [← hmint]
    ring
  have hnew : Q * ((B + b) * (Q + x) * S ^ 2) = (B * (Q + x) - ρ) * (Q + x) * S ^ 2 := by
    rw [← hbase]
    ring
  show B * Q * (S + l) ^ 2 ≤ (B + b) * (Q + x) * S ^ 2 ↔ _
  rw [← mul_le_mul_iff_right₀ hQ, hold, hnew]
  constructor <;> intro h <;> linarith

end Deposit

/-! ## Minting shares and burning them again -/

section Return

variable {B Q S x b l back : R}

/-- Shares that are at most the part of the reserve that was paid in. -/
theorem withdraw_le_deposit (hS : 0 < S) (hl : 0 ≤ l) (hshares : l * Q ≤ x * S)
    (hback : back * (S + l) ≤ (Q + x) * l) : back ≤ x := by
  refine le_of_mul_le_mul_right ?_ (show 0 < S + l by linarith)
  linarith

/-- The same for the other reserve, of which the part is paid in up to less than one unit. -/
theorem withdraw_lt_deposit (hB : 0 ≤ B) (hQ : 0 < Q) (hS : 0 < S) (hl : 0 ≤ l)
    (hshares : l * Q ≤ x * S) (hb : x * B < (b + 1) * Q) (hback : back * (S + l) ≤ (B + b) * l) :
    back < b + 1 := by
  have hpart : B * l < (b + 1) * S := by
    refine lt_of_mul_lt_mul_right ?_ hQ.le
    calc B * l * Q = B * (l * Q) := by ring
      _ ≤ B * (x * S) := mul_le_mul_of_nonneg_left hshares hB
      _ = x * B * S := by ring
      _ < (b + 1) * Q * S := mul_lt_mul_of_pos_right hb hS
      _ = (b + 1) * S * Q := by ring
  refine lt_of_mul_lt_mul_right ?_ (show 0 ≤ S + l by linarith)
  linarith

end Return

end Pool

end Okexchain
