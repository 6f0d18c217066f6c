import Okexchain.Order.Keys
import Okexchain.Token.Keeper

/-!
# Orders, parameters and messages

Model of `x/order/types`: `order.go` (the order and its transitions), `params.go`, `msgs.go` and
the errors of `errors.go` the handlers return.

* Decimals (`sdk.Dec`) are integers counting `10⁻¹⁸` units, see `Okexchain.Lib.Dec`. A stored
  order that was never filled decodes with `FilledAvgPrice` zero.
* `TxHash` and `Timestamp` are carried along by the source and read by nothing modelled here; they
  are left out.
* `ExtraInfo` is a JSON object of printed coin lists. The three keys the keeper writes are kept as
  optional coins; whether the text of a coin list is accepted again by `sdk.ParseDecCoins` is the
  caller's parameter of `recordOrderDealFee`.
* `Params` carries what `ParamSetPairs` validates, so a parameter set that would be rejected does
  not exist.
* A message's side is one of the two accepted texts, hence `Side`; `ValidateBasic` rejects any
  other.
-/

namespace Okexchain

/-- `OrderStatusOpen`, … -/
inductive OrderStatus where
  | open
  | filled
  | cancelled
  | expired
  | partialFilledCancelled
  | partialFilledExpired
deriving DecidableEq, Repr

/-- The entries of `ExtraInfo` the keeper writes. -/
structure ExtraInfo where
  newFee : Option Coins
  receiveFee : Option Coins
  dealFee : Option Coins
deriving DecidableEq

/-- `Order`. -/
structure Order where
  orderID : String
  sender : Address
  product : String
  side : Side
  price : Int
  quantity : Int
  status : OrderStatus
  filledAvgPrice : Int
  remainQuantity : Int
  remainLocked : Int
  orderExpireBlocks : Nat
  feePerBlock : DecCoin
  extraInfo : ExtraInfo
deriving DecidableEq

namespace Order

/-- `NewOrder`. The ID is assigned when the order is placed. -/
def new (sender : Address) (product : String) (side : Side) (price quantity : Int)
    (orderExpireBlocks : Nat) (feePerBlock : DecCoin) : Order where
  orderID := ""
  sender := sender
  product := product
  side := side
  price := price
  quantity := quantity
  status := .open
  filledAvgPrice := 0
  remainQuantity := quantity
  remainLocked := if side = .buy then Dec.mul price quantity else quantity
  orderExpireBlocks := orderExpireBlocks
  feePerBlock := feePerBlock
  extraInfo := ⟨none, none, none⟩

/-- `RecordOrderNewFee`. -/
def recordOrderNewFee (o : Order) (fee : Coins) : Order :=
  { o with extraInfo := { o.extraInfo with newFee := some fee } }

/-- `RecordOrderReceiveFee`. -/
def recordOrderReceiveFee (o : Order) (fee : Coins) : Order :=
  { o with extraInfo := { o.extraInfo with receiveFee := some fee } }

/-- `RecordOrderDealFee`: add to the recorded fee, if its text is accepted again. -/
def recordOrderDealFee (parseDecCoins : Coins → Option Coins) (o : Order) (fee : Coins) : Order :=
  match o.extraInfo.dealFee with
  | none => { o with extraInfo := { o.extraInfo with dealFee := some fee } }
  | some oldValue =>
    match parseDecCoins oldValue with
    | none => o
    | some oldFee => { o with extraInfo := { o.extraInfo with dealFee := some (oldFee + fee) } }

/-- `Fill`. `none` is the division by a zero filled quantity. -/
def fill (o : Order) (price fillAmount : Int) : Option Order :=
  let filledSum := Dec.mul o.filledAvgPrice (o.quantity - o.remainQuantity)
  let newFilledSum := filledSum + Dec.mul price fillAmount
  let remainQuantity := o.remainQuantity - fillAmount
  match Dec.quo newFilledSum (o.quantity - remainQuantity) with
  | none => none
  | some filledAvgPrice =>
    some { o with
      remainQuantity := remainQuantity
      filledAvgPrice := filledAvgPrice
      remainLocked :=
        if o.side = .buy then o.remainLocked - Dec.mul price fillAmount
        else o.remainLocked - fillAmount
      status := if remainQuantity = 0 then .filled else o.status }

/-- `Cancel`. -/
def cancel (o : Order) : Order :=
  { o with status :=
      if o.remainQuantity = o.quantity then .cancelled else .partialFilledCancelled }

/-- `Expire`. -/
def expire (o : Order) : Order :=
  { o with status := if o.remainQuantity = o.quantity then .expired else .partialFilledExpired }

/-- The denomination an order locks: the quote symbol of a buy order, the base symbol of a sell
order. -/
def lockDenom (o : Order) : String :=
  if o.side = .buy then quoteSymbol o.product else baseSymbol o.product

/-- `NeedLockCoins`. -/
def needLockCoins (o : Order) : Coins :=
  coin o.lockDenom (if o.side = .buy then Dec.mul o.price o.quantity else o.quantity)

/-- `NeedUnlockCoins`. -/
def needUnlockCoins (o : Order) : Coins := coin o.lockDenom o.remainLocked

/-- `Unlock`. -/
def unlock (o : Order) : Order := { o with remainLocked := 0 }

end Order

/-- `Params`, with what their validation guarantees. The gas units are read by the gas meter
only. -/
structure Params where
  orderExpireBlocks : Nat
  maxDealsPerBlock : Nat
  feePerBlock : DecCoin
  tradeFeeRate : Int
  orderExpireBlocks_pos : 0 < orderExpireBlocks
  maxDealsPerBlock_pos : 0 < maxDealsPerBlock
  feePerBlock_nonneg : 0 ≤ feePerBlock.amount
  tradeFeeRate_nonneg : 0 ≤ tradeFeeRate
  tradeFeeRate_le_one : tradeFeeRate ≤ Dec.one
deriving DecidableEq

/-- `OrderItem`. -/
structure OrderItem where
  product : String
  side : Side
  price : Int
  quantity : Int
deriving DecidableEq, Repr

/-- `MsgNewOrders`. -/
structure MsgNewOrders where
  sender : Address
  orderItems : List OrderItem
deriving DecidableEq, Repr

/-- `MsgCancelOrders`. -/
structure MsgCancelOrders where
  sender : Address
  orderIDs : List String
deriving DecidableEq, Repr

/-- `Deal`. -/
structure Deal where
  orderID : String
  side : Side
  quantity : Int
  fee : Coins
  feeReceiver : Address
deriving DecidableEq

/-- `MatchResult`. -/
structure MatchResult where
  blockHeight : Nat
  price : Int
  quantity : Int
  deals : List Deal
deriving DecidableEq

/-- The errors of `errors.go` the messages and handlers return. -/
inductive OrderError where
  | invalidAddress (addr : Address)
  | tokenPairNotExist (product : String)
  | tradingPairIsDelisting (product : String)
  | priceOverAccuracy (price digit : Int)
  | quantityOverAccuracy (quantity digit : Int)
  | msgQuantityLessThan (minQuantity : Int)
  | isProductLocked (product : String)
  | sendCoinsFromAccountToModuleFailed
  | orderIsNotExistOrClosed (orderID : String)
  | orderStatusIsNotOpen
  | notOrderOwner (orderID : String)
  | orderItemCountsIsEmpty
  | orderItemCountsBiggerThanLimit (limit : Nat)
  | orderItemProductCountsIsEmpty
  | orderItemProductFormat
  | orderItemProductSymbolIsEqual
  | orderItemPriceOrQuantityIsNotPositive
  | orderIDsIsEmpty
  | cancelOrderBiggerThanLimit (limit : Nat)
  | orderIDsHasDuplicatedID
  | userInputOrderIDIsEmpty
  | allOrderFailedToExecute
  | noOrdersIsCanceled
deriving DecidableEq, Repr

/-- `OrderItemLimit`. -/
def orderItemLimit : Nat := 200

/-- `MultiCancelOrderItemLimit`. -/
def multiCancelOrderItemLimit : Nat := 200

/-- The checks `ValidateBasic` makes on one item. -/
def OrderItem.validateBasic (item : OrderItem) : Option OrderError :=
  if item.product = "" then some .orderItemProductCountsIsEmpty
  else if (symbols item.product).length ≠ 2 then some .orderItemProductFormat
  else if baseSymbol item.product = quoteSymbol item.product then
    some .orderItemProductSymbolIsEqual
  else if ¬ (0 < item.price ∧ 0 < item.quantity) then
    some .orderItemPriceOrQuantityIsNotPositive
  else none

/-- `MsgNewOrders.ValidateBasic`; `none` is acceptance. -/
def MsgNewOrders.validateBasic (msg : MsgNewOrders) : Option OrderError :=
  if msg.sender = "" then some (.invalidAddress msg.sender)
  else if msg.orderItems = [] then some .orderItemCountsIsEmpty
  else if msg.orderItems.length > orderItemLimit then
    some (.orderItemCountsBiggerThanLimit orderItemLimit)
  else msg.orderItems.findSome? OrderItem.validateBasic

/-- `MsgCancelOrders.ValidateBasic`; `none` is acceptance. -/
def MsgCancelOrders.validateBasic (msg : MsgCancelOrders) : Option OrderError :=
  if msg.sender = "" then some (.invalidAddress msg.sender)
  else if msg.orderIDs = [] then some .orderIDsIsEmpty
  else if msg.orderIDs.length > multiCancelOrderItemLimit then
    some (.cancelOrderBiggerThanLimit multiCancelOrderItemLimit)
  else if ¬ msg.orderIDs.Nodup then some .orderIDsHasDuplicatedID
  else if "" ∈ msg.orderIDs then some .userInputOrderIDIsEmpty
  else none

/-! ## What the transitions guarantee -/

namespace Order

variable {o o' : Order} {price amount : Int}

/-- A fill of an order that is then partly or wholly filled does not divide by zero. -/
theorem fill_isSome (h : o.quantity - (o.remainQuantity - amount) ≠ 0) :
    ∃ o', o.fill price amount = some o' := by
  unfold fill Dec.quo
  simp only [if_neg h]
  exact ⟨_, rfl⟩

theorem fill_spec (h : o.fill price amount = some o') :
    ∃ avg, o' = { o with
      remainQuantity := o.remainQuantity - amount
      filledAvgPrice := avg
      remainLocked :=
        if o.side = .buy then o.remainLocked - Dec.mul price amount else o.remainLocked - amount
      status := if o.remainQuantity - amount = 0 then .filled else o.status } := by
  unfold fill at h
  simp only at h
  split at h
  · cases h
  · exact ⟨_, (Option.some.inj h).symm⟩

end Order

end Okexchain
