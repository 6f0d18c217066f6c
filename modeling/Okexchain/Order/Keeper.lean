import Okexchain.Order.DiskCache
import Okexchain.Dex.Keeper

/-!
# The order keeper

Model of `x/order/keeper`: `keeper.go`, `order.go`, `fee.go`, `disk_cache_keeper.go` and
`product_lock.go`.

* `State` is everything the module reads and writes: its key-value store, the disk cache, the
  token ledger, the dex stores and the parameters. A missing key of the store reads as the zero
  value, as the getters return it. `started` is the state of the `sync.Once` that loads the caches
  after a process start.
* `Env` collects what the repository does not contain: the bank, `Dec.RoundDecimal`, the parsing
  of printed coins, `sort.Sort` and the capacities of Go slices.
* Heights and order numbers are natural numbers; the model does not wrap at 64 bits.
* `AddFeeDetail`, the statistics of `memory_cache.go`, events, logs and gas write nothing the
  modelled functions read back, and are left out.

Functions of the `EndBlock` path return `none` where the source panics.
-/

namespace Okexchain

/-- The key-value store of the order module. -/
structure OrderStore where
  orders : KVStore String Order
  depthBooks : KVStore String DepthBook
  orderIDs : KVStore String (List String)
  prices : KVStore String Int
  expireBlockHeights : KVStore Nat (List Nat)
  orderNumPerBlock : KVStore Nat Nat
  recentlyClosedOrderIDs : List String
  lastExpiredBlockHeight : Nat
  openOrderNum : Int
  storeOrderNum : Int
deriving DecidableEq

/-- An order module's store before any block. -/
def OrderStore.empty : OrderStore where
  orders := ∅
  depthBooks := ∅
  orderIDs := ∅
  prices := ∅
  expireBlockHeights := ∅
  orderNumPerBlock := ∅
  recentlyClosedOrderIDs := []
  lastExpiredBlockHeight := 0
  openOrderNum := 0
  storeOrderNum := 0

/-- What the module reads and writes. -/
structure State (B : Type) where
  store : OrderStore
  disk : DiskCache
  ledger : Ledger B
  dex : Dex
  params : Params
  started : Bool

/-- What the module calls into. -/
structure Env (B : Type) where
  bank : BankKeeper B
  /-- `Dec.RoundDecimal`. -/
  roundDecimal : Int → Int → Int
  /-- `sdk.ParseDecCoins` on printed coins. -/
  parseDecCoins : Coins → Option Coins
  sorter : Sorter
  /-- The capacities `append` chooses. -/
  growth : Growth
  /-- The capacities of decoded slices. -/
  decoded : Growth
  /-- Rounding to `n` places leaves no more than `n` places. -/
  roundDecimal_dvd : ∀ (d : Int) (n : Nat), n ≤ 18 → (10 : Int) ^ (18 - n) ∣ roundDecimal d n

/-- `append` doubles the capacity when that is enough. -/
def doubling : Growth := ⟨fun c n => max (2 * c) n, fun _ _ => le_max_right _ _⟩

/-- A decoded slice has no spare capacity. -/
def exactCap : Growth := ⟨fun _ n => n, fun _ _ => le_rfl⟩

/-- An environment over `simpleBank` in which rounding cuts off the places that are too many. -/
def simpleEnv : Env (KVStore Address Coins) where
  bank := simpleBank
  roundDecimal := fun d n => d / 10 ^ (18 - n.toNat) * 10 ^ (18 - n.toNat)
  parseDecCoins := some
  sorter := insertionSorter
  growth := doubling
  decoded := exactCap
  roundDecimal_dvd := fun d n _ => Dvd.intro_left _ (by rw [Int.toNat_natCast])

variable {B : Type}

/-! ## Coins -/

namespace Ledger

/-- The order keeper's `LockCoins`. -/
def lockCoins (bk : BankKeeper B) (led : Ledger B) (addr : Address) (coins : Coins)
    (t : LockCoinsType) : Option (Ledger B) :=
  if coins = 0 then some led else TokenKeeper.lockCoins bk led addr coins t

/-- The order keeper's `UnlockCoins`: an error is only logged. -/
def unlockCoins (bk : BankKeeper B) (led : Ledger B) (addr : Address) (coins : Coins)
    (t : LockCoinsType) : Ledger B :=
  if coins = 0 then led
  else
    let (led', ok) := TokenKeeper.unlockCoins bk led addr coins t
    if ok then led' else { led' with failures := led'.failures ++ [.unlockCoins addr coins] }

/-- The order keeper's `BalanceAccount`: an error is only logged. -/
def balanceAccount (bk : BankKeeper B) (led : Ledger B) (addr : Address)
    (outputCoins inputCoins : Coins) : Ledger B :=
  let (led', ok) := TokenKeeper.balanceAccount bk led addr outputCoins inputCoins
  if ok then led'
  else { led' with failures := led'.failures ++ [.balanceAccount addr outputCoins] }

/-- `AddCollectedFees`; every caller only logs its error. -/
def addCollectedFees (bk : BankKeeper B) (led : Ledger B) (coins : Coins) (addr : Address) :
    Ledger B :=
  if coins = 0 then led
  else (TokenKeeper.sendCoins bk led addr bk.feeCollector coins).getD led

end Ledger

/-! ## Fees -/

namespace Order

/-- `GetOrderNewFee`. -/
def newFee (o : Order) : Coins :=
  coin o.feePerBlock.denom (Dec.mul o.feePerBlock.amount (Dec.newDec o.orderExpireBlocks))

/-- `GetOrderCostFee` at a block height. -/
def costFee (o : Order) (height : Nat) : Coins :=
  let blockNum : Int := height - getBlockHeightFromOrderID o.orderID
  if blockNum < 0 then 0
  else
    coin o.feePerBlock.denom
      (Dec.mul o.feePerBlock.amount (Dec.newDec (min blockNum o.orderExpireBlocks)))

/-- What is returned of the locked fee when the order is closed. The source's subtraction panics
on a negative amount, which does not occur: see `receiveFee_nonneg`. -/
def receiveFee (o : Order) (height : Nat) : Coins := o.newFee - o.costFee height

end Order

/-- `minFee`, `0.00000001`. -/
def minFee : Int := 10000000000

namespace State

/-! ## Prices -/

/-- `SetLastPrice`. -/
def setLastPrice (s : State B) (product : String) (price : Int) : State B :=
  { s with
    store := { s.store with prices := s.store.prices.set product price }
    disk := s.disk.setLastPrice product price }

/-- `GetLastPrice`: cached, stored, or the initial price of the token pair, which is then
written. -/
def getLastPrice (s : State B) (product : String) : State B × Int :=
  if 0 < s.disk.getLastPrice product then (s, s.disk.getLastPrice product)
  else
    match s.store.prices.get product with
    | some price => (s, price)
    | none =>
      match s.dex.getTokenPair product with
      | none => (s, 0)
      | some tokenPair => (s.setLastPrice product tokenPair.initPrice, tokenPair.initPrice)

/-- `GetDealFee`. -/
def getDealFee (s : State B) (o : Order) (fillAmt : Int) : State B × Coins :=
  match o.side with
  | .buy =>
    (s, coin (baseSymbol o.product) (max (Dec.mul fillAmt s.params.tradeFeeRate) minFee))
  | .sell =>
    let (s', lastPrice) := s.getLastPrice o.product
    (s', coin (quoteSymbol o.product)
      (max (Dec.mul (Dec.mul fillAmt lastPrice) s.params.tradeFeeRate) minFee))

/-- `GetProductFeeReceiver`. -/
def getProductFeeReceiver (s : State B) (product : String) : Option Address :=
  (s.dex.getTokenPair product).map fun tokenPair =>
    (s.dex.operators.get tokenPair.owner).getD tokenPair.owner

/-- `SendFeesToProductOwner`: the ledger, and the receiver unless an error is returned. -/
def sendFeesToProductOwner (env : Env B) (height : Nat) (s : State B) (coins : Coins)
    (source : Address) (product : String) : Ledger B × Option Address :=
  if coins = 0 then (s.ledger, some "")
  else
    match s.getProductFeeReceiver product with
    | none => (s.ledger, none)
    | some target =>
      match TokenKeeper.sendCoinsFromAccountToAccount env.bank s.ledger height source target
        coins with
      | none => (s.ledger, none)
      | some led => (led, some target)

/-! ## Placing -/

/-- `GetBlockOrderNum`. -/
def getBlockOrderNum (s : State B) (height : Nat) : Nat :=
  (s.store.orderNumPerBlock.get height).getD 0

/-- `GetOrder`. -/
def getOrder (s : State B) (orderID : String) : Option Order := s.store.orders.get orderID

/-- `SetOrder`. -/
def setOrder (s : State B) (o : Order) : State B :=
  { s with store := { s.store with orders := s.store.orders.set o.orderID o } }

/-- `TryPlaceOrder`: lock the coins and the fee of the order. -/
def tryPlaceOrder (env : Env B) (led : Ledger B) (o : Order) : Option (Ledger B) :=
  match led.lockCoins env.bank o.sender o.needLockCoins .quantity with
  | none => none
  | some led => led.lockCoins env.bank o.sender o.newFee .fee

/-- `PlaceOrder`: the new state and the order as stored; `none` is the error of
`TryPlaceOrder`. -/
def placeOrder (env : Env B) (height : Nat) (s : State B) (o : Order) :
    Option (State B × Order) :=
  match tryPlaceOrder env s.ledger o with
  | none => none
  | some led =>
    let orderNum := s.getBlockOrderNum height
    let o := { o.recordOrderNewFee o.newFee with orderID := formatOrderID height (orderNum + 1) }
    some ({ s with
      ledger := led
      store := { s.store with
        orderNumPerBlock := s.store.orderNumPerBlock.set height (orderNum + 1)
        orders := s.store.orders.set o.orderID o }
      disk := s.disk.insertOrder env.growth o }, o)

end State

/-! ## Quitting -/

/-- The two ways an order is quit: `FeeTypeOrderCancel` and `FeeTypeOrderExpire`. -/
inductive QuitType where
  | cancel
  | expire
deriving DecidableEq, Repr

/-- The order with its final status. -/
def Order.quitStatus (o : Order) : QuitType → Order
  | .cancel => o.cancel
  | .expire => o.expire

/-- The order as `quitOrder` stores it. -/
def Order.quit (o : Order) (height : Nat) (t : QuitType) : Order :=
  ((o.quitStatus t).recordOrderReceiveFee (o.receiveFee height)).unlock

/-- What `quitOrder` does to the ledger. -/
def Ledger.quitOrder (bk : BankKeeper B) (led : Ledger B) (height : Nat) (o : Order) : Ledger B :=
  let led := led.unlockCoins bk o.sender o.needUnlockCoins .quantity
  let led := led.unlockCoins bk o.sender o.newFee .fee
  led.addCollectedFees bk (o.costFee height) o.sender

namespace State

/-- `quitOrder`. The ledger operations and the fees do not depend on the status it sets first. -/
def quitOrder (env : Env B) (height : Nat) (s : State B) (o : Order) (t : QuitType) : State B :=
  { s with
    ledger := s.ledger.quitOrder env.bank height o
    store := { s.store with orders := s.store.orders.set o.orderID (o.quit height t) }
    disk := s.disk.removeOrder (o.quit height t) }

/-- `CancelOrder`. -/
def cancelOrder (env : Env B) (height : Nat) (s : State B) (o : Order) : State B :=
  s.quitOrder env height o .cancel

/-- `ExpireOrder`. -/
def expireOrder (env : Env B) (height : Nat) (s : State B) (o : Order) : State B :=
  s.quitOrder env height o .expire

/-- One step of the loop of `DropExpiredOrdersByBlockHeight`. -/
def dropExpiredOrder (env : Env B) (height : Nat) (s : State B) (o : Order) : State B :=
  if o.status = .open ∧ s.dex.isTokenPairLocked o.product = false then
    s.expireOrder env height o
  else s

/-- The orders a prefix iterator over the store yields, in key order. The iterator reads the store
as it was when it was opened. -/
def ordersWithPrefix (s : State B) (pre : String) : List Order :=
  (s.store.orders.entries.filter fun e => hasPrefix pre e.1).map Prod.snd

/-- `DropExpiredOrdersByBlockHeight`. -/
def dropExpiredOrdersByBlockHeight (env : Env B) (height : Nat) (s : State B)
    (expiredBlockHeight : Nat) : State B :=
  (s.ordersWithPrefix (formatOrderIDPrefix expiredBlockHeight)).foldl
    (dropExpiredOrder env height) s

/-! ## Flushing and loading the cache -/

/-- `StoreDepthBook`. -/
def storeDepthBook (c : DiskCache) (m : KVStore String DepthBook) (product : String) :
    KVStore String DepthBook :=
  if c.getDepthBookCopy product = [] then m.delete product
  else m.set product (c.getDepthBookCopy product)

/-- `StoreOrderIDsMap`. -/
def storeOrderIDsMap (c : DiskCache) (m : KVStore String (List String)) (key : String) :
    KVStore String (List String) :=
  if c.getOrderIDs key = [] then m.delete key else m.set key (c.getOrderIDs key)

/-- `Cache2Disk`. -/
def cache2Disk (s : State B) : State B :=
  { s with store := { s.store with
      recentlyClosedOrderIDs := s.disk.closedOrderIDs
      openOrderNum := s.disk.openNum
      storeOrderNum := s.disk.storeOrderNum
      depthBooks :=
        s.disk.depthBookMap.updatedItems.keys.foldl (storeDepthBook s.disk) s.store.depthBooks
      orderIDs :=
        s.disk.orderIDsMap.updatedItems.keys.foldl (storeOrderIDsMap s.disk) s.store.orderIDs } }

/-- The body of `onStartUp`: read the books and the ID lists back from the store. -/
def loadCache (env : Env B) (s : State B) : DiskCache :=
  { s.disk with
    depthBookMap := { s.disk.depthBookMap with
      data := s.store.depthBooks.entries.foldl (fun m e => m.set e.1 e.2)
        s.disk.depthBookMap.data }
    orderIDsMap := { s.disk.orderIDsMap with
      data := s.store.orderIDs.entries.foldl (fun m e => m.putFresh env.decoded e.1 e.2 0)
        s.disk.orderIDsMap.data } }

/-- `ResetCache`, called by `BeginBlocker`. -/
def resetCache (env : Env B) (s : State B) : State B :=
  let disk := if s.started then s.disk else s.loadCache env
  { s with
    disk := { disk.reset with
      openNum := s.store.openOrderNum
      storeOrderNum := s.store.storeOrderNum }
    started := true }

end State

/-! ## What placing and quitting do -/

/-- The order as `PlaceOrder` stores it. -/
def Order.placed (o : Order) (orderID : String) : Order :=
  { o.recordOrderNewFee o.newFee with orderID := orderID }

theorem State.placeOrder_cases {env : Env B} {height : Nat} {s s' : State B} {o o' : Order}
    (h : s.placeOrder env height o = some (s', o')) :
    ∃ led, tryPlaceOrder env s.ledger o = some led ∧
      o' = o.placed (formatOrderID height (s.getBlockOrderNum height + 1)) ∧
      s' = { s with
        ledger := led
        store := { s.store with
          orderNumPerBlock := s.store.orderNumPerBlock.set height (s.getBlockOrderNum height + 1)
          orders := s.store.orders.set o'.orderID o' }
        disk := s.disk.insertOrder env.growth o' } := by
  unfold placeOrder at h
  cases hled : tryPlaceOrder env s.ledger o with
  | none =>
    rw [hled] at h
    cases h
  | some led =>
    rw [hled] at h
    obtain ⟨rfl, rfl⟩ := Prod.mk.inj (Option.some.inj h)
    exact ⟨led, rfl, rfl, rfl⟩

/-! ## The fees of a closed order -/

theorem Order.costFee_eq (o : Order) (height : Nat) :
    ∃ n : Int, 0 ≤ n ∧ n ≤ o.orderExpireBlocks ∧
      o.costFee height = coin o.feePerBlock.denom (o.feePerBlock.amount * n) := by
  unfold costFee
  simp only
  split_ifs with h
  · exact ⟨0, le_rfl, Int.natCast_nonneg _, by rw [Int.mul_zero, coin_zero]⟩
  · refine ⟨_, ?_, min_le_right _ _, by rw [Dec.mul_newDec]⟩
    exact le_min (not_lt.mp h) (Int.natCast_nonneg _)

theorem Order.newFee_eq (o : Order) :
    o.newFee = coin o.feePerBlock.denom (o.feePerBlock.amount * o.orderExpireBlocks) := by
  rw [newFee, Dec.mul_newDec]

/-- The cost of an order never exceeds the fee locked for it, so the difference is not
negative. -/
theorem Order.receiveFee_nonneg {o : Order} (h : 0 ≤ o.feePerBlock.amount) (height : Nat)
    (d : String) : 0 ≤ o.receiveFee height d := by
  obtain ⟨n, -, hle, hcost⟩ := o.costFee_eq height
  have hn : 0 ≤ o.feePerBlock.amount * (o.orderExpireBlocks - n) := Int.mul_nonneg h (by omega)
  rw [receiveFee, newFee_eq, hcost, ← coin_sub, ← Int.mul_sub]
  exact coin_nonneg hn _ _

end Okexchain
