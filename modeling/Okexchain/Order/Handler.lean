import Okexchain.Order.EndBlocker

/-!
# The message handlers

Model of `x/order/handler.go`: `handleMsgNewOrders` and `handleMsgCancelOrders` with the checks they
make on each item.

Each item runs on a branch of the store that is written only if the item succeeds. The disk cache
is not branched, but `PlaceOrder` changes it as its last step, after everything that can fail; so a
rejected item leaves the whole state as it was. The printed message of a result is left out.
-/

namespace Okexchain

variable {B : Type}

/-- `OrderResult`. -/
structure OrderResult where
  error : Option OrderError
  orderID : String
deriving DecidableEq, Repr

/-- `getOrderFromMsg`, for one item. The ratio is a decimal. -/
def getOrderFromMsg (params : Params) (sender : Address) (item : OrderItem) (ratio : Int) : Order :=
  Order.new sender item.product item.side item.price item.quantity params.orderExpireBlocks
    ⟨params.feePerBlock.denom, Dec.mul params.feePerBlock.amount ratio⟩

/-- The ratio of the fee: `0.8` for several items in one message. -/
def feeRatio (msg : MsgNewOrders) : Int :=
  if msg.orderItems.length > 1 then 800000000000000000 else Dec.one

theorem feeRatio_nonneg (msg : MsgNewOrders) : 0 ≤ feeRatio msg := by
  unfold feeRatio
  split_ifs <;> decide

namespace State

/-- `checkOrderNewMsg`; `none` is acceptance. -/
def checkOrderNewMsg (env : Env B) (s : State B) (item : OrderItem) : Option OrderError :=
  match s.dex.getTokenPair item.product with
  | none => some (.tokenPairNotExist item.product)
  | some tokenPair =>
    if tokenPair.delisting then some (.tradingPairIsDelisting item.product)
    else if env.roundDecimal item.price tokenPair.maxPriceDigit ≠ item.price then
      some (.priceOverAccuracy item.price tokenPair.maxPriceDigit)
    else if env.roundDecimal item.quantity tokenPair.maxQuantityDigit ≠ item.quantity then
      some (.quantityOverAccuracy item.quantity tokenPair.maxQuantityDigit)
    else if item.quantity < tokenPair.minQuantity then
      some (.msgQuantityLessThan tokenPair.minQuantity)
    else none

/-- `handleNewOrder`, with the write of the item's branch. -/
def handleNewOrder (env : Env B) (height : Nat) (sender : Address) (ratio : Int) (s : State B)
    (item : OrderItem) : State B × OrderResult :=
  let order := getOrderFromMsg s.params sender item ratio
  match s.checkOrderNewMsg env item with
  | some err => (s, ⟨some err, order.orderID⟩)
  | none =>
    if s.dex.isTokenPairLocked item.product then
      (s, ⟨some (.isProductLocked order.product), order.orderID⟩)
    else
      match s.placeOrder env height order with
      | none => (s, ⟨some .sendCoinsFromAccountToModuleFailed, order.orderID⟩)
      | some (s, order) => (s, ⟨none, order.orderID⟩)

/-- The loop of `handleMsgNewOrders`. -/
def handleNewOrders (env : Env B) (height : Nat) (sender : Address) (ratio : Int) :
    State B → List OrderItem → State B × List OrderResult
  | s, [] => (s, [])
  | s, item :: items =>
    let (s, res) := s.handleNewOrder env height sender ratio item
    let (s, rs) := handleNewOrders env height sender ratio s items
    (s, res :: rs)

/-- `handleMsgNewOrders`: the state, the results, and the error when every item failed. -/
def handleMsgNewOrders (env : Env B) (height : Nat) (s : State B) (msg : MsgNewOrders) :
    State B × List OrderResult × Option OrderError :=
  let (s, rs) := handleNewOrders env height msg.sender (feeRatio msg) s msg.orderItems
  (s, rs, if rs.any fun r => r.error.isNone then none else some .allOrderFailedToExecute)

/-- `validateCancelOrder`; `none` is acceptance. -/
def validateCancelOrder (s : State B) (sender : Address) (orderID : String) :
    Option OrderError :=
  match s.getOrder orderID with
  | none => some (.orderIsNotExistOrClosed orderID)
  | some order =>
    if order.status ≠ .open then some .orderStatusIsNotOpen
    else if order.sender ≠ sender then some (.notOrderOwner orderID)
    else if s.dex.isTokenPairLocked order.product then some (.isProductLocked order.product)
    else none

/-- `handleCancelOrder`, with the write of the item's branch. -/
def handleCancelOrder (env : Env B) (height : Nat) (sender : Address) (s : State B)
    (orderID : String) : State B × OrderResult :=
  match s.validateCancelOrder sender orderID with
  | some err => (s, ⟨some err, orderID⟩)
  | none =>
    match s.getOrder orderID with
    | none => (s, ⟨none, orderID⟩) -- not reached: the order was found above
    | some order => (s.cancelOrder env height order, ⟨none, orderID⟩)

/-- The loop of `handleMsgCancelOrders`. -/
def handleCancelOrders (env : Env B) (height : Nat) (sender : Address) :
    State B → List String → State B × List OrderResult
  | s, [] => (s, [])
  | s, orderID :: orderIDs =>
    let (s, res) := s.handleCancelOrder env height sender orderID
    let (s, rs) := handleCancelOrders env height sender s orderIDs
    (s, res :: rs)

/-- `handleMsgCancelOrders`: the state, the results, and the error when no order was cancelled. -/
def handleMsgCancelOrders (env : Env B) (height : Nat) (s : State B) (msg : MsgCancelOrders) :
    State B × List OrderResult × Option OrderError :=
  let (s, rs) := handleCancelOrders env height msg.sender s msg.orderIDs
  (s, rs, if rs.any fun r => r.error.isNone then none else some .noOrdersIsCanceled)

/-! ## What an accepted item does -/

/-- **An item either leaves the state alone or places its order**, on a product that is listed and
not locked, after all the checks. -/
theorem handleNewOrder_cases (env : Env B) (height : Nat) (sender : Address) (ratio : Int)
    (s : State B) (item : OrderItem) :
    (s.handleNewOrder env height sender ratio item).1 = s ∧
        (s.handleNewOrder env height sender ratio item).2.error.isSome ∨
      ∃ s' o, (s.handleNewOrder env height sender ratio item).1 = s' ∧
        (s.handleNewOrder env height sender ratio item).2.error = none ∧
        s.checkOrderNewMsg env item = none ∧ s.dex.isTokenPairLocked item.product = false ∧
        s.placeOrder env height (getOrderFromMsg s.params sender item ratio) = some (s', o) := by
  unfold handleNewOrder
  cases hc : s.checkOrderNewMsg env item with
  | some err => exact .inl ⟨rfl, rfl⟩
  | none =>
    simp only
    cases hl : s.dex.isTokenPairLocked item.product with
    | true => exact .inl ⟨rfl, rfl⟩
    | false =>
      simp only [Bool.false_eq_true, if_false]
      cases hp : s.placeOrder env height (getOrderFromMsg s.params sender item ratio) with
      | none => exact .inl ⟨rfl, rfl⟩
      | some r => exact .inr ⟨r.1, r.2, rfl, rfl, trivial, trivial, rfl⟩

/-- **A cancellation either leaves the state alone or cancels an open order** of the sender's, on a
product that is not locked. -/
theorem handleCancelOrder_cases (env : Env B) (height : Nat) (sender : Address) (s : State B)
    (orderID : String) :
    (s.handleCancelOrder env height sender orderID).1 = s ∧
        (s.handleCancelOrder env height sender orderID).2.error.isSome ∨
      ∃ o, (s.handleCancelOrder env height sender orderID).1 = s.cancelOrder env height o ∧
        (s.handleCancelOrder env height sender orderID).2.error = none ∧
        s.getOrder orderID = some o ∧ o.status = .open ∧ o.sender = sender ∧
        s.dex.isTokenPairLocked o.product = false := by
  unfold handleCancelOrder validateCancelOrder
  cases ho : s.getOrder orderID with
  | none => exact .inl ⟨rfl, rfl⟩
  | some o =>
    simp only
    by_cases h1 : o.status ≠ .open
    · rw [if_pos h1]
      exact .inl ⟨rfl, rfl⟩
    rw [if_neg h1]
    by_cases h2 : o.sender ≠ sender
    · rw [if_pos h2]
      exact .inl ⟨rfl, rfl⟩
    rw [if_neg h2]
    cases h3 : s.dex.isTokenPairLocked o.product with
    | true => exact .inl ⟨rfl, rfl⟩
    | false => exact .inr ⟨o, rfl, rfl, rfl, not_not.mp h1, not_not.mp h2, h3⟩

end State

end Okexchain
