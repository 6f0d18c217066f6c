import Okexchain.Order.Handler

/-!
# What a fill does

What one call of `fillOrder` of `fill.go` does to the order and which fee it charges.

* `Order.filledBy` is an order after a fill (`Order.settled_fill`).
* Reading the last price may store it (`State.getLastPrice_cases`), and so may computing a fee
  (`State.getDealFee_cases`).

**Results.** `State.chargeFee_cases`: charging the fees changes the ledger, the fee records of the
order and maybe a last price.
-/

namespace Okexchain

variable {B : Type}

/-! ## One order -/

namespace Order

/-- What an order has locked after a fill. -/
def lockAfter (o : Order) (price amount : Int) : Int :=
  if o.side = .buy then o.remainLocked - Dec.mul price amount else o.remainLocked - amount

/-- An order after a fill: a fully filled one gives back what it still has locked. -/
def filledBy (o : Order) (price amount avg : Int) (info : ExtraInfo) : Order :=
  { o with
    remainQuantity := o.remainQuantity - amount
    filledAvgPrice := avg
    remainLocked :=
      if o.remainQuantity - amount = 0 ∧ 0 < o.lockAfter price amount then 0
      else o.lockAfter price amount
    status := if o.remainQuantity - amount = 0 then .filled else o.status
    extraInfo := info }

/-- `o'` is `o` after a fill. -/
def FilledBy (o o' : Order) (price amount : Int) : Prop :=
  ∃ avg info, o' = o.filledBy price amount avg info

variable {o o₁ : Order} {price amount : Int}

/-- The two steps of a fill of an open order. -/
theorem settled_fill (hopen : o.status = .open) (h : o.fill price amount = some o₁)
    (info : ExtraInfo) : o.FilledBy { o₁.settled with extraInfo := info } price amount := by
  obtain ⟨avg, rfl⟩ := fill_spec h
  refine ⟨avg, info, ?_⟩
  unfold settled filledBy unlock lockAfter
  simp only
  by_cases hz : o.remainQuantity - amount = 0
  · simp only [hz, if_true, true_and]
    split_ifs <;> rfl
  · simp only [hz, if_false, hopen, false_and, reduceCtorEq]

end Order

/-- The transfer of a deal fee: it fails, or it goes to some account. -/
def FeeSent (env : Env B) (height : Nat) (sender : Address) (led led' : Ledger B) : Prop :=
  led' = led ∨ ∃ target coins,
    TokenKeeper.sendCoinsFromAccountToAccount env.bank led height sender target coins = some led'

namespace State

/-- Write a last price, or nothing. -/
def withPrice (s : State B) : Option (String × Int) → State B
  | none => s
  | some (product, price) => s.setLastPrice product price

variable {env : Env B} {height : Nat} {s s' : State B} {o : Order} {price amount : Int}
  {deal : Deal}

theorem getLastPrice_cases (s : State B) (product : String) :
    ∃ p, (s.getLastPrice product).1 = s.withPrice p := by
  unfold getLastPrice
  split_ifs
  · exact ⟨none, rfl⟩
  · cases s.store.prices.get product with
    | some price => exact ⟨none, rfl⟩
    | none =>
      cases s.dex.getTokenPair product with
      | none => exact ⟨none, rfl⟩
      | some tokenPair => exact ⟨some (product, tokenPair.initPrice), rfl⟩

theorem getDealFee_cases (s : State B) (o : Order) (fillAmt : Int) :
    ∃ p, (s.getDealFee o fillAmt).1 = s.withPrice p := by
  unfold getDealFee
  cases o.side with
  | buy => exact ⟨none, rfl⟩
  | sell => exact s.getLastPrice_cases o.product

theorem sendFeesToProductOwner_cases (env : Env B) (height : Nat) (s : State B) (coins : Coins)
    (source : Address) (product : String) :
    FeeSent env height source s.ledger
      (s.sendFeesToProductOwner env height coins source product).1 := by
  unfold sendFeesToProductOwner
  split_ifs
  · exact .inl rfl
  · cases s.getProductFeeReceiver product with
    | none => exact .inl rfl
    | some target =>
      simp only
      cases hsend : TokenKeeper.sendCoinsFromAccountToAccount env.bank s.ledger height source target
        coins with
      | none => exact .inl rfl
      | some led => exact .inr ⟨target, coins, hsend⟩

theorem ledger_withPrice (s : State B) (p : Option (String × Int)) :
    (s.withPrice p).ledger = s.ledger := by
  cases p <;> rfl

/-- Charging the fees changes the ledger, the fee records of the order and maybe a last price. -/
theorem chargeFee_cases (env : Env B) (height : Nat) (s : State B) (o : Order)
    (fillQuantity : Int) :
    ∃ info p led, FeeSent env height o.sender (s.ledger.closeFee env.bank height o) led ∧
      (s.chargeFee env height o fillQuantity).1 = { s.withPrice p with ledger := led } ∧
      (s.chargeFee env height o fillQuantity).2.1 = { o with extraInfo := info } := by
  have hcharged : ∃ info, (if o.status = .filled then o.recordOrderReceiveFee (o.receiveFee height)
      else o) = { o with extraInfo := info } := by
    split_ifs
    · exact ⟨_, rfl⟩
    · exact ⟨o.extraInfo, rfl⟩
  have hdeal : ∀ (o₁ : Order) (fee : Coins), ∃ info,
      o₁.recordOrderDealFee env.parseDecCoins fee = { o₁ with extraInfo := info } := by
    intro o₁ fee
    unfold Order.recordOrderDealFee
    cases o₁.extraInfo.dealFee with
    | none => exact ⟨_, rfl⟩
    | some old =>
      simp only
      cases env.parseDecCoins old with
      | none => exact ⟨o₁.extraInfo, rfl⟩
      | some oldFee => exact ⟨_, rfl⟩
  unfold chargeFee
  simp only
  obtain ⟨info, hinfo⟩ := hcharged
  rw [hinfo]
  set s₁ : State B := { s with ledger := s.ledger.closeFee env.bank height o }
  obtain ⟨p, hp⟩ := s₁.getDealFee_cases { o with extraInfo := info } fillQuantity
  set r := s₁.getDealFee { o with extraInfo := info } fillQuantity
  have hsent := sendFeesToProductOwner_cases env height r.1 r.2 o.sender o.product
  rw [hp, ledger_withPrice] at hsent
  have hstate : ∀ led : Ledger B, ({ s₁.withPrice p with ledger := led } : State B) =
      { s.withPrice p with ledger := led } := by
    intro led
    cases p <;> rfl
  simp only [hp]
  cases hs : (s₁.withPrice p).sendFeesToProductOwner env height r.2 o.sender o.product with
  | mk led receiver =>
    rw [hs] at hsent
    cases receiver with
    | none => exact ⟨info, p, led, hsent, hstate led, rfl⟩
    | some receiver =>
      obtain ⟨info', hinfo'⟩ := hdeal { o with extraInfo := info }
        (if o.status = .filled then o.costFee height else 0)
      exact ⟨info', p, led, hsent, hstate led, hinfo'⟩

end State

end Okexchain
