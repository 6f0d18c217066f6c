import Okexchain.Lib.Slice
import Okexchain.Order.DepthBook

/-!
# The disk cache

Model of `x/order/keeper/disk_cache.go`: the depth books, the ID lists and the counters the order
keeper holds in memory between two blocks, and the marks that tell `Cache2Disk` what to write.

* A map used as a set (`updatedItems`, `newItems`) is a store of units.
* The ID lists are Go slices (`SliceMap`): `insertOrder` appends in place, `removeOrder` shifts in
  place inside the list's own backing array, and the fill loop stores the tail of a fresh copy
  (`setOrderIDsTail`, the call `SetOrderIDs(key, orderIDs[index:])` on the slice that
  `GetOrderIDsMapCopy` made). An emptied list is deleted from the map.
* `GetOrderIDsMapCopy` copies every list; only the copy that is kept is allocated here.

`Growth` is the capacity `append` chooses, which the language leaves open.
-/

namespace Okexchain

/-- `DepthBookMap`. -/
structure DepthBookMap where
  data : KVStore String DepthBook
  updatedItems : KVStore String Unit
  newItems : KVStore String Unit
deriving DecidableEq

/-- `OrderIDsMap`. -/
structure OrderIDsMap where
  data : SliceMap String String
  updatedItems : KVStore String Unit

/-- `DiskCache`. -/
structure DiskCache where
  depthBookMap : DepthBookMap
  orderIDsMap : OrderIDsMap
  priceMap : KVStore String Int
  storeOrderNum : Int
  openNum : Int
  closedOrderIDs : List String

/-- `newDiskCache`. -/
def newDiskCache : DiskCache where
  depthBookMap := ⟨∅, ∅, ∅⟩
  orderIDsMap := ⟨SliceMap.empty, ∅⟩
  priceMap := ∅
  storeOrderNum := 0
  openNum := 0
  closedOrderIDs := []

namespace DiskCache

/-- `reset`. -/
def reset (c : DiskCache) : DiskCache :=
  { c with
    closedOrderIDs := []
    orderIDsMap := { c.orderIDsMap with updatedItems := ∅ }
    depthBookMap := { c.depthBookMap with updatedItems := ∅, newItems := ∅ } }

/-- `setLastPrice`. -/
def setLastPrice (c : DiskCache) (product : String) (price : Int) : DiskCache :=
  { c with priceMap := c.priceMap.set product price }

/-- `getLastPrice`. -/
def getLastPrice (c : DiskCache) (product : String) : Int := (c.priceMap.get product).getD 0

/-- `getOrderIDs`, as a list; a missing key reads as the empty list. -/
def getOrderIDs (c : DiskCache) (key : String) : List String := c.orderIDsMap.data.list key

/-- `getDepthBook`. -/
def getDepthBook (c : DiskCache) (product : String) : Option DepthBook :=
  c.depthBookMap.data.get product

/-- The items of a product's book; a missing book has none (`GetDepthBookCopy`). -/
def getDepthBookCopy (c : DiskCache) (product : String) : DepthBook :=
  (c.getDepthBook product).getD []

/-- `DecreaseStoreOrderNum`. -/
def decreaseStoreOrderNum (c : DiskCache) (num : Int) : DiskCache :=
  { c with storeOrderNum := c.storeOrderNum - num }

/-- Replace the ID lists and mark a key as updated. -/
def markOrderIDs (c : DiskCache) (key : String) (data : SliceMap String String) : DiskCache :=
  { c with orderIDsMap := ⟨data, c.orderIDsMap.updatedItems.set key ()⟩ }

/-- `setOrderIDs(key, orderIDs[index:])`, for a fresh copy `orderIDs`. -/
def setOrderIDsTail (g : Growth) (c : DiskCache) (key : String) (orderIDs : List String)
    (index : Nat) : DiskCache :=
  if orderIDs.drop index = [] then c.markOrderIDs key (c.orderIDsMap.data.delete key)
  else c.markOrderIDs key (c.orderIDsMap.data.putFresh g key orderIDs index)

/-- `setDepthBook`. -/
def setDepthBook (c : DiskCache) (product : String) (book : DepthBook) : DiskCache :=
  { c with depthBookMap := { c.depthBookMap with
      data := if book = [] then c.depthBookMap.data.delete product
        else c.depthBookMap.data.set product book
      updatedItems := c.depthBookMap.updatedItems.set product () } }

/-- `insertOrder`. -/
def insertOrder (g : Growth) (c : DiskCache) (o : Order) : DiskCache :=
  let key := formatOrderIDsKey o.product o.price o.side
  { c with
    depthBookMap := {
      data := c.depthBookMap.data.set o.product
        (DepthBook.insertOrder (c.getDepthBookCopy o.product) o)
      updatedItems := c.depthBookMap.updatedItems.set o.product ()
      newItems := c.depthBookMap.newItems.set o.product () }
    orderIDsMap := {
      data := c.orderIDsMap.data.append g key o.orderID
      updatedItems := c.orderIDsMap.updatedItems.set key () }
    openNum := c.openNum + 1
    storeOrderNum := c.storeOrderNum + 1 }

/-- `closeOrder`. -/
def closeOrder (c : DiskCache) (orderID : String) : DiskCache :=
  { c with closedOrderIDs := c.closedOrderIDs ++ [orderID], openNum := c.openNum - 1 }

/-- The first part of `removeOrder`: the order leaves its depth book. -/
def removeFromBook (c : DiskCache) (o : Order) : DiskCache :=
  match c.getDepthBook o.product with
  | none => c
  | some depthBook => c.setDepthBook o.product (DepthBook.removeOrder depthBook o)

/-- The second part of `removeOrder`: the ID leaves its list, which is shifted in place. -/
def removeFromIDs (c : DiskCache) (o : Order) : DiskCache :=
  let key := formatOrderIDsKey o.product o.price o.side
  let orderIDs := c.getOrderIDs key
  let i := orderIDs.findIdx (· == o.orderID)
  if i < orderIDs.length then
    if orderIDs.length = 1 then c.markOrderIDs key (c.orderIDsMap.data.delete key)
    else c.markOrderIDs key (c.orderIDsMap.data.removeIdx key i)
  else c

/-- `removeOrder`. -/
def removeOrder (c : DiskCache) (o : Order) : DiskCache :=
  ((c.removeFromBook o).removeFromIDs o).closeOrder o.orderID

end DiskCache

end Okexchain
