import Okexchain.Lib.Sort
import Okexchain.Order.Types

/-!
# The depth book

Model of `x/order/types/depth_book.go`. A depth book is a list of price levels, highest price
first, with the quantity waiting to buy and to sell at each.

* `insertOrder`, `removeOrder` find the level with `sort.Search`, as the source does; the binary
  search is sound because the prices descend.
* `DepthBookItem.sub` and `DepthBookItem.isEmpty` are `Sub` and the test of `RemoveIfEmpty` on one
  level; the fill loops apply them level by level.

A level is found by its price only if the prices of the book descend (`Descending`).
-/

namespace Okexchain

/-- `DepthBookItem`. -/
structure DepthBookItem where
  price : Int
  buyQuantity : Int
  sellQuantity : Int
deriving DecidableEq, Repr

/-- `DepthBook`: its items. -/
abbrev DepthBook := List DepthBookItem

namespace DepthBookItem

/-- The quantity of one side. -/
def qty (it : DepthBookItem) : Side → Int
  | .buy => it.buyQuantity
  | .sell => it.sellQuantity

/-- Add to the quantity of one side. -/
def add (it : DepthBookItem) (num : Int) : Side → DepthBookItem
  | .buy => { it with buyQuantity := it.buyQuantity + num }
  | .sell => { it with sellQuantity := it.sellQuantity + num }

/-- `Sub` at this item. -/
def sub (it : DepthBookItem) (num : Int) : Side → DepthBookItem
  | .buy => { it with buyQuantity := it.buyQuantity - num }
  | .sell => { it with sellQuantity := it.sellQuantity - num }

/-- The test of `RemoveIfEmpty`. -/
def isEmpty (it : DepthBookItem) : Bool := it.buyQuantity = 0 && it.sellQuantity = 0

end DepthBookItem

namespace DepthBook

/-- The first index whose price is at most `price`. -/
def searchPrice (items : DepthBook) (price : Int) : Nat :=
  search items.length fun i => items[i]?.any fun it => decide (it.price ≤ price)

/-- The item `InsertOrder` makes for a new level. -/
def newItem (o : Order) : DepthBookItem :=
  DepthBookItem.add ⟨o.price, 0, 0⟩ o.remainQuantity o.side

/-- `InsertOrder`. -/
def insertOrder (items : DepthBook) (o : Order) : DepthBook :=
  match items.getLast? with
  | none => items ++ [newItem o]
  | some last =>
    if o.price < last.price then items ++ [newItem o]
    else
      let index := searchPrice items o.price
      match items[index]? with
      | none => items -- not reached: the last price is at most the order's
      | some it =>
        if o.price = it.price then items.set index (it.add o.remainQuantity o.side)
        else items.take index ++ newItem o :: items.drop index

/-- `RemoveOrder`. -/
def removeOrder (items : DepthBook) (o : Order) : DepthBook :=
  let index := searchPrice items o.price
  match items[index]? with
  | none => items
  | some it =>
    if it.price = o.price then
      if (it.sub o.remainQuantity o.side).isEmpty then items.eraseIdx index
      else items.set index (it.sub o.remainQuantity o.side)
    else items

/-! ## Quantities -/

/-- Prices strictly descend. -/
def Descending (items : DepthBook) : Prop := items.Pairwise fun a b => b.price < a.price

end DepthBook

end Okexchain
