import Okexchain.Order.Auction

/-!
# Filling orders

Model of `x/order/match/periodicauction/fill.go`.

* The loops over an index become recursions over the list that is left: `fillLoop` over the IDs of
  one level, `fillLevels` over the levels of one side. The source's `index` and `filledDealsCnt`
  advance together in `fillOrderByKey` and are one counter here.
* `fillBuyOrders` walks the book from the top, `fillSellOrders` from the bottom; they are one
  recursion with the side, the book's direction and the price test as parameters.
* `none` is a panic: an index past the end of an ID list, an order that is not in the store, or a
  division by zero in `Order.Fill`.
-/

namespace Okexchain

variable {B : Type}

/-! ## One order -/

/-- The coins a fill takes out of the order's lock. -/
def Order.outputCoins (o : Order) (fillPrice fillQuantity : Int) : Coins :=
  match o.side with
  | .buy => coin (quoteSymbol o.product) (Dec.mul fillPrice fillQuantity)
  | .sell => coin (baseSymbol o.product) fillQuantity

/-- The coins a fill pays to the order's owner. -/
def Order.inputCoins (o : Order) (fillPrice fillQuantity : Int) : Coins :=
  match o.side with
  | .buy => coin (baseSymbol o.product) fillQuantity
  | .sell => coin (quoteSymbol o.product) (Dec.mul fillPrice fillQuantity)

/-- A fully filled order gives back what it still has locked. -/
def Order.settled (o : Order) : Order :=
  if o.status = .filled ∧ 0 < o.remainLocked then o.unlock else o

/-- The transfers of a fill: `balanceAccount`, and the unlocking of what a fully filled order still
has locked. -/
def Ledger.settle (bk : BankKeeper B) (led : Ledger B) (o : Order) (fillPrice fillQuantity : Int) :
    Ledger B :=
  let led := led.balanceAccount bk o.sender (o.outputCoins fillPrice fillQuantity)
    (o.inputCoins fillPrice fillQuantity)
  if o.status = .filled ∧ 0 < o.remainLocked then
    led.unlockCoins bk o.sender o.needUnlockCoins .quantity
  else led

/-- The fee transfers of a fully filled order. -/
def Ledger.closeFee (bk : BankKeeper B) (led : Ledger B) (height : Nat) (o : Order) : Ledger B :=
  if o.status = .filled then
    (led.unlockCoins bk o.sender o.newFee .fee).addCollectedFees bk (o.costFee height) o.sender
  else led

namespace State

/-- `chargeFee`: the order with its fee records, the deal fee and who received it. -/
def chargeFee (env : Env B) (height : Nat) (s : State B) (o : Order) (fillQuantity : Int) :
    State B × Order × Coins × Address :=
  let fee := if o.status = .filled then o.costFee height else 0
  let charged :=
    if o.status = .filled then o.recordOrderReceiveFee (o.receiveFee height) else o
  let s := { s with ledger := s.ledger.closeFee env.bank height o }
  let (s, dealFee) := s.getDealFee charged fillQuantity
  match s.sendFeesToProductOwner env height dealFee o.sender o.product with
  | (led, some receiver) =>
    ({ s with ledger := led }, charged.recordOrderDealFee env.parseDecCoins fee, dealFee, receiver)
  | (led, none) => ({ s with ledger := led }, charged, dealFee, "")

/-- `UpdateOrder`. -/
def updateOrder (s : State B) (o : Order) : State B :=
  if o.status = .filled then
    { s.setOrder o with disk := s.disk.closeOrder o.orderID }
  else s.setOrder o

/-- `fillOrder`. -/
def fillOrder (env : Env B) (height : Nat) (s : State B) (o : Order)
    (fillPrice fillQuantity : Int) : Option (State B × Deal) :=
  match o.fill fillPrice fillQuantity with
  | none => none
  | some o =>
    let s := { s with ledger := s.ledger.settle env.bank o fillPrice fillQuantity }
    let (s, o, dealFee, feeReceiver) := s.chargeFee env height o.settled fillQuantity
    some (s.updateOrder o, ⟨o.orderID, o.side, fillQuantity, dealFee, feeReceiver⟩)

/-! ## One level -/

/-- The loop of `fillOrderByKey` over the IDs that are left: the state, the deals, the filled
amount and the number of orders filled in full. -/
def fillLoop (env : Env B) (height : Nat) (needFillAmount fillPrice remainDeals : Int) :
    State B → List String → Int → Nat → Option (State B × List Deal × Int × Nat)
  | s, [], filledAmount, filledDealsCnt =>
    if filledDealsCnt < remainDeals ∧ filledAmount < needFillAmount then none
    else some (s, [], filledAmount, filledDealsCnt)
  | s, orderID :: orderIDs, filledAmount, filledDealsCnt =>
    if filledDealsCnt < remainDeals ∧ filledAmount < needFillAmount then
      match s.getOrder orderID with
      | none => none
      | some o =>
        if filledAmount + o.remainQuantity ≤ needFillAmount then
          match s.fillOrder env height o fillPrice o.remainQuantity with
          | none => none
          | some (s, deal) =>
            match fillLoop env height needFillAmount fillPrice remainDeals s orderIDs
              (filledAmount + o.remainQuantity) (filledDealsCnt + 1) with
            | none => none
            | some (s, deals, filled, cnt) => some (s, deal :: deals, filled, cnt)
        else
          match s.fillOrder env height o fillPrice (needFillAmount - filledAmount) with
          | none => none
          | some (s, deal) => some (s, [deal], needFillAmount, filledDealsCnt)
    else some (s, [], filledAmount, filledDealsCnt)

/-- `fillOrderByKey`: the state, the deals, the filled amount and the number of deals that
count. -/
def fillOrderByKey (env : Env B) (height : Nat) (s : State B) (key : String)
    (needFillAmount fillPrice remainDeals : Int) : Option (State B × List Deal × Int × Nat) :=
  match s.disk.orderIDsMap.data.lookup key with
  | none => some (s, [], 0, 0)
  | some orderIDs =>
    match fillLoop env height needFillAmount fillPrice remainDeals s orderIDs 0 0 with
    | none => none
    | some (s, deals, filledAmount, filledDealsCnt) =>
      some ({ s with disk := s.disk.setOrderIDsTail env.growth key orderIDs filledDealsCnt },
        deals, filledAmount, filledDealsCnt)

/-! ## One side -/

/-- Whether a level's price takes part: at least the best price to buy, at most to sell. -/
def reaches (side : Side) (bestPrice price : Int) : Bool :=
  match side with
  | .buy => decide (bestPrice ≤ price)
  | .sell => decide (price ≤ bestPrice)

/-- A level that `RemoveIfEmpty` keeps. -/
def keepItem (it : DepthBookItem) (items : DepthBook) : DepthBook :=
  if it.isEmpty then items else it :: items

/-- What a pass over the levels of one side leaves. -/
structure SideFill (B : Type) where
  state : State B
  items : DepthBook
  deals : List Deal
  executed : Int
  remainDeals : Int

/-- The loop of `fillBuyOrders` and `fillSellOrders` over the levels that are left, the next one
first. -/
def fillLevels (env : Env B) (height : Nat) (product : String) (side : Side)
    (bestPrice maxExecution : Int) :
    State B → DepthBook → Int → Int → Option (SideFill B)
  | s, [], executed, remainDeals => some ⟨s, [], [], executed, remainDeals⟩
  | s, it :: items, executed, remainDeals =>
    if reaches side bestPrice it.price ∧ executed < maxExecution then
      let fillAmount := min (it.qty side) (maxExecution - executed)
      if fillAmount = 0 then
        match fillLevels env height product side bestPrice maxExecution s items executed
          remainDeals with
        | none => none
        | some r => some { r with items := it :: r.items }
      else
        match s.fillOrderByKey env height (formatOrderIDsKey product it.price side) fillAmount
          bestPrice remainDeals with
        | none => none
        | some (s, deals, filledAmount, filledDealsCnt) =>
          let it := it.sub filledAmount side
          if remainDeals - filledDealsCnt ≤ 0 then
            some ⟨s, keepItem it items, deals, executed + filledAmount,
              remainDeals - filledDealsCnt⟩
          else
            match fillLevels env height product side bestPrice maxExecution s items
              (executed + filledAmount) (remainDeals - filledDealsCnt) with
            | none => none
            | some r => some { r with items := keepItem it r.items, deals := deals ++ r.deals }
    else some ⟨s, it :: items, [], executed, remainDeals⟩

/-- `fillBuyOrders`: prices from high to low. -/
def fillBuyOrders (env : Env B) (height : Nat) (s : State B) (product : String)
    (bestPrice maxExecution buyExecuted blockRemainDeals : Int) :
    Option (State B × List Deal × Int × Int) :=
  match fillLevels env height product .buy bestPrice maxExecution s
    (s.disk.getDepthBookCopy product) buyExecuted blockRemainDeals with
  | none => none
  | some r =>
    some ({ r.state with disk := r.state.disk.setDepthBook product r.items }, r.deals, r.executed,
      r.remainDeals)

/-- `fillSellOrders`: prices from low to high. -/
def fillSellOrders (env : Env B) (height : Nat) (s : State B) (product : String)
    (bestPrice maxExecution sellExecuted blockRemainDeals : Int) :
    Option (State B × List Deal × Int × Int) :=
  match fillLevels env height product .sell bestPrice maxExecution s
    (s.disk.getDepthBookCopy product).reverse sellExecuted blockRemainDeals with
  | none => none
  | some r =>
    some ({ r.state with disk := r.state.disk.setDepthBook product r.items.reverse }, r.deals,
      r.executed, r.remainDeals)

/-- What `fillDepthBook` leaves. -/
structure BookFill (B : Type) where
  state : State B
  deals : List Deal
  buyExecuted : Int
  sellExecuted : Int
  remainDeals : Int

/-- `fillDepthBook`. -/
def fillDepthBook (env : Env B) (height : Nat) (s : State B) (product : String)
    (bestPrice maxExecution buyExecuted sellExecuted blockRemainDeals : Int) :
    Option (BookFill B) :=
  if maxExecution = 0 then some ⟨s, [], buyExecuted, sellExecuted, blockRemainDeals⟩
  else
    match s.fillBuyOrders env height product bestPrice maxExecution buyExecuted
      blockRemainDeals with
    | none => none
    | some (s, buyDeals, buyExecuted, blockRemainDeals) =>
      if blockRemainDeals ≤ 0 then
        some ⟨s, buyDeals, buyExecuted, sellExecuted, blockRemainDeals⟩
      else
        match s.fillSellOrders env height product bestPrice maxExecution sellExecuted
          blockRemainDeals with
        | none => none
        | some (s, sellDeals, sellExecuted, blockRemainDeals) =>
          some ⟨s, buyDeals ++ sellDeals, buyExecuted, sellExecuted, blockRemainDeals⟩

end State

end Okexchain
