import Okexchain.Order.Fill

/-!
# The end of a block

Model of the second half of `x/order/match/periodicauction/match.go`, of `impl.go` and of
`x/order/endblocker.go`: expiry, the clean-up of delisted products, matching, and the flush of the
cache.

* `MapOrder` holds the orders in which the three `range` loops over Go maps visit their keys. The
  language leaves them open, so every end of a block comes with its own.
* `cleanOrdersByOrderIDList` ranges over a slice header that was read out of the cache before the
  loop; each element is read from the backing array when its turn comes, after the earlier
  cancellations have shifted it.
* The block's match results are returned; the source hands them to the memory cache for the
  backend plug-in.
-/

namespace Okexchain

variable {B : Type}

/-- The iteration orders of one end of a block. -/
structure MapOrder where
  /-- `getProductsFromDepthBookMap`. -/
  depthBooks : Shuffle
  /-- `GetNewDepthbookKeys`. -/
  newKeys : Shuffle
  /-- The `range` over `lockMap.Data`. -/
  locks : Shuffle

/-- Every map in key order. -/
def MapOrder.sorted : MapOrder := ⟨Shuffle.id, Shuffle.id, Shuffle.id⟩

namespace State

/-! ## Expiry -/

/-- `GetExpireBlockHeight`. -/
def getExpireBlockHeight (s : State B) (height : Nat) : List Nat :=
  (s.store.expireBlockHeights.get height).getD []

/-- `markCurBlockToFutureExpireBlockList`. -/
def markCurBlockToFutureExpireBlockList (height : Nat) (s : State B) : State B :=
  let futureHeight := height + s.params.orderExpireBlocks
  { s with store := { s.store with expireBlockHeights :=
      s.store.expireBlockHeights.set futureHeight (s.getExpireBlockHeight futureHeight ++ [height]) } }

/-- `DropOrder`. -/
def dropOrder (s : State B) (orderID : String) : State B :=
  { s with store := { s.store with orders := s.store.orders.delete orderID } }

/-- `cleanLastBlockClosedOrders`. -/
def cleanLastBlockClosedOrders (s : State B) : State B :=
  let lastClosedOrderIDs := s.store.recentlyClosedOrderIDs
  let s := lastClosedOrderIDs.foldl dropOrder s
  { s with disk := s.disk.decreaseStoreOrderNum lastClosedOrderIDs.length }

/-- The loop over the expired heights recorded for one height. -/
def expireAtHeight (env : Env B) (height : Nat) (s : State B) (expireHeight : Nat) : State B :=
  (s.getExpireBlockHeight expireHeight).foldl (dropExpiredOrdersByBlockHeight env height) s

/-- `DropBlockOrderNum`. -/
def dropBlockOrderNum (s : State B) (height : Nat) : State B :=
  { s with store := { s.store with orderNumPerBlock := s.store.orderNumPerBlock.delete height } }

/-- `DropExpireBlockHeight`. -/
def dropExpireBlockHeight (s : State B) (height : Nat) : State B :=
  { s with store := { s.store with
      expireBlockHeights := s.store.expireBlockHeights.delete height } }

/-- Drop what was kept for one height. -/
def dropHeight (s : State B) (height : Nat) : State B :=
  ((s.getExpireBlockHeight height).foldl dropBlockOrderNum s).dropExpireBlockHeight height

/-- The height up to which expiry has been done. Zero is taken for "never". -/
def lastExpired (height : Nat) (s : State B) : Nat :=
  if s.store.lastExpiredBlockHeight = 0 then height - 1 else s.store.lastExpiredBlockHeight

/-- The second half of `cacheExpiredBlockToCurrentHeight`: when no product is locked, drop the
lists that have been dealt with and move `LastExpiredBlockHeight` forward. -/
def advanceExpired (height last : Nat) (s : State B) : State B :=
  if s.dex.isAnyProductLocked then s
  else
    let s := if height > 1 then (List.range' last (height - last)).foldl dropHeight s else s
    { s with store := { s.store with
        lastExpiredBlockHeight := if height > 1 then max last height else last } }

/-- `cacheExpiredBlockToCurrentHeight`. -/
def cacheExpiredBlockToCurrentHeight (env : Env B) (height : Nat) (s : State B) : State B :=
  let last := s.lastExpired height
  advanceExpired height last
    ((List.range' (last + 1) (height - last)).foldl (expireAtHeight env height) s)

/-- `cleanupExpiredOrders`. -/
def cleanupExpiredOrders (env : Env B) (height : Nat) (s : State B) : State B :=
  (s.markCurBlockToFutureExpireBlockList height).cleanLastBlockClosedOrders
    |>.cacheExpiredBlockToCurrentHeight env height

/-! ## Delisted products -/

/-- `cleanOrdersByOrderIDList` from index `i` on, with `fuel` elements left. -/
def cleanOrdersByOrderIDList (env : Env B) (height : Nat) (orderIDList : Slice) :
    Nat → Nat → State B → Option (State B)
  | 0, _, s => some s
  | fuel + 1, i, s =>
    match orderIDList.index s.disk.orderIDsMap.data.heap i with
    | none => none
    | some orderID =>
      match s.getOrder orderID with
      | none => none
      | some o =>
        cleanOrdersByOrderIDList env height orderIDList fuel (i + 1)
          (s.cancelOrder env height o)

/-- `append(GetProductPriceOrderIDs(buyKey), GetProductPriceOrderIDs(sellKey)...)`: the cache's own
slice of buy orders, extended in place or copied, as its capacity allows. -/
def levelOrderIDs (env : Env B) (s : State B) (product : String) (price : Int) :
    State B × Slice :=
  let data := s.disk.orderIDsMap.data
  let (data', list) := data.appendLocal env.growth
    (data.slice (formatOrderIDsKey product price .buy))
    (data.list (formatOrderIDsKey product price .sell))
  ({ s with disk := { s.disk with orderIDsMap := { s.disk.orderIDsMap with data := data' } } },
    list)

/-- The clean-up of one level. -/
def cleanupLevel (env : Env B) (height : Nat) (product : String) (s : State B)
    (item : DepthBookItem) : Option (State B) :=
  let (s, orderIDList) := s.levelOrderIDs env product item.price
  cleanOrdersByOrderIDList env height orderIDList orderIDList.len 0 s

/-- `cleanupOrdersByProduct`. -/
def cleanupOrdersByProduct (env : Env B) (height : Nat) (s : State B) (product : String) :
    Option (State B) :=
  (s.disk.getDepthBookCopy product).foldlM (cleanupLevel env height product) s

/-- `cleanupOrdersWhoseTokenPairHaveBeenDelisted`. -/
def cleanupOrdersWhoseTokenPairHaveBeenDelisted (env : Env B) (iter : MapOrder) (height : Nat)
    (s : State B) : Option (State B) :=
  (iter.depthBooks.order s.disk.depthBookMap.data.keys).foldlM (fun s product =>
    match s.dex.getTokenPair product with
    | none => s.cleanupOrdersByProduct env height product
    | some _ => some s) s

/-! ## Matching -/

/-- One step of `calcMatchPriceAndExecution`. -/
def calcMatchPrice (env : Env B) (height : Nat) (acc : State B × KVStore String MatchResult)
    (product : String) : Option (State B × KVStore String MatchResult) :=
  let (s, resultMap) := acc
  match s.dex.getTokenPair product with
  | none => some (s, resultMap)
  | some tokenPair =>
    let book := s.disk.getDepthBookCopy product
    let (s, lastPrice) := s.getLastPrice product
    match periodicAuctionMatchPrice env book tokenPair.maxPriceDigit lastPrice with
    | none => none
    | some (bestPrice, maxExecution) =>
      if 0 < maxExecution then
        some (s.setLastPrice product bestPrice,
          resultMap.set product ⟨height, bestPrice, maxExecution, []⟩)
      else some (s, resultMap)

/-- `calcMatchPriceAndExecution`. -/
def calcMatchPriceAndExecution (env : Env B) (height : Nat) (s : State B)
    (products : List String) : Option (State B × KVStore String MatchResult) :=
  products.foldlM (calcMatchPrice env height) (s, ∅)

/-- `lockProduct`. -/
def lockProduct (s : State B) (product : String) (matchResult : MatchResult)
    (buyExecutedCnt sellExecutedCnt : Int) : State B :=
  let lock : ProductLock := {
    blockHeight := matchResult.blockHeight
    price := matchResult.price
    quantity := matchResult.quantity
    buyExecuted := buyExecutedCnt
    sellExecuted := sellExecutedCnt }
  { s with dex := s.dex.lockTokenPair product lock }

/-- `executeMatchedUpdatedProduct`: the state, the deals and the deals that remain. -/
def executeMatchedUpdatedProduct (env : Env B) (height : Nat) (s : State B)
    (matchResult : MatchResult) (blockRemainDeals : Int) (product : String) :
    Option (State B × List Deal × Int) :=
  if blockRemainDeals ≤ 0 then
    some (s.lockProduct product matchResult 0 0, matchResult.deals, blockRemainDeals)
  else
    match s.fillDepthBook env height product matchResult.price matchResult.quantity 0 0
      blockRemainDeals with
    | none => none
    | some r =>
      if r.buyExecuted < matchResult.quantity ∨ r.sellExecuted < matchResult.quantity then
        some (r.state.lockProduct product matchResult r.buyExecuted r.sellExecuted, r.deals,
          r.remainDeals)
      else some (r.state, r.deals, r.remainDeals)

/-- What `executeLockedProduct` leaves: the lock is updated in the caller's copy of the lock map
as well. -/
structure LockedFill (B : Type) where
  state : State B
  deals : List Deal
  lock : ProductLock
  remainDeals : Int

/-- `executeLockedProduct`. -/
def executeLockedProduct (env : Env B) (height : Nat) (s : State B) (lock : ProductLock)
    (blockRemainDeals : Int) (product : String) : Option (LockedFill B) :=
  if blockRemainDeals ≤ 0 then some ⟨s, [], lock, blockRemainDeals⟩
  else
    match s.fillDepthBook env height product lock.price lock.quantity lock.buyExecuted
      lock.sellExecuted blockRemainDeals with
    | none => none
    | some r =>
      let lock := { lock with buyExecuted := r.buyExecuted, sellExecuted := r.sellExecuted }
      if lock.quantity ≤ r.buyExecuted ∧ lock.quantity ≤ r.sellExecuted then
        some ⟨{ r.state with dex := r.state.dex.unlockTokenPair product }, r.deals, lock,
          r.remainDeals⟩
      else
        some ⟨{ r.state with dex := r.state.dex.lockTokenPair product lock }, r.deals, lock,
          r.remainDeals⟩

/-- What is carried along the products in `executeMatch`. -/
structure MatchAcc (B : Type) where
  state : State B
  results : KVStore String MatchResult
  lockMap : KVStore String ProductLock
  remainDeals : Int

/-- One step of `executeMatch`. -/
def executeProduct (env : Env B) (height : Nat) (acc : MatchAcc B) (product : String) :
    Option (MatchAcc B) :=
  match acc.results.get product with
  | some matchResult =>
    match acc.state.executeMatchedUpdatedProduct env height matchResult acc.remainDeals product with
    | none => none
    | some (s, deals, remainDeals) =>
      some { acc with
        state := s
        results := acc.results.set product { matchResult with deals := deals }
        remainDeals := remainDeals }
  | none =>
    match acc.lockMap.get product with
    | none => some acc
    | some lock =>
      match acc.state.executeLockedProduct env height lock acc.remainDeals product with
      | none => none
      | some r =>
        some {
          state := r.state
          results :=
            if r.deals = [] then acc.results
            else acc.results.set product ⟨lock.blockHeight, lock.price, lock.quantity, r.deals⟩
          lockMap := acc.lockMap.set product r.lock
          remainDeals := r.remainDeals }

/-- `executeMatch`. -/
def executeMatch (env : Env B) (height : Nat) (s : State B) (products : List String)
    (updatedProductsBasePrice : KVStore String MatchResult)
    (lockMap : KVStore String ProductLock) : Option (MatchAcc B) :=
  products.foldlM (executeProduct env height)
    ⟨s, updatedProductsBasePrice, lockMap, s.params.maxDealsPerBlock⟩

/-- `FilterDelistedProducts`. -/
def filterDelistedProducts (s : State B) (products : List String) : List String :=
  products.filter fun product => (s.dex.getTokenPair product).isSome

/-- `matchOrders`: the state and the block's match results. -/
def matchOrders (env : Env B) (iter : MapOrder) (height : Nat) (s : State B) :
    Option (State B × KVStore String MatchResult) :=
  if s.getBlockOrderNum height = 0 ∧ s.dex.isAnyProductLocked = false then some (s, ∅)
  else
    let products := s.dex.sortProducts env.sorter
      (s.filterDelistedProducts (iter.newKeys.order s.disk.depthBookMap.newItems.keys))
    match s.calcMatchPriceAndExecution env height products with
    | none => none
    | some (s, results) =>
      let lockMap := s.dex.productLocks
      let products := s.dex.sortProducts env.sorter (products ++ iter.locks.order lockMap.keys)
      (s.executeMatch env height products results lockMap).map fun acc => (acc.state, acc.results)

/-- `EndBlocker`: the matching engine's `Run`, then the flush. -/
def endBlocker (env : Env B) (iter : MapOrder) (height : Nat) (s : State B) : Option (State B) := do
  let s ← (s.cleanupExpiredOrders env height).cleanupOrdersWhoseTokenPairHaveBeenDelisted env iter
    height
  let (s, _) ← s.matchOrders env iter height
  some s.cache2Disk

end State

end Okexchain
