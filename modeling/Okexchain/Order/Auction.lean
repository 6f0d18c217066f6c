import Okexchain.Order.Keeper

/-!
# The periodic auction's price

Model of the first half of `x/order/match/periodicauction/match.go`: `preMatchProcessing`, the
rules `execRule0` to `execRule3` and `periodicAuctionMatchPrice`.

A list index that is out of range would panic, so the functions that index into the book or into
the imbalances return `none` there.
-/

namespace Okexchain

variable {B : Type}

/-- `buyAmountSum`: at each level, what is waiting to buy at its price or above. -/
def buyAmountSum : Int → DepthBook → List Int
  | _, [] => []
  | acc, it :: items => (acc + it.buyQuantity) :: buyAmountSum (acc + it.buyQuantity) items

/-- `sellAmountSum`: at each level, what is waiting to sell at its price or below. -/
def sellAmountSum : DepthBook → List Int
  | [] => []
  | it :: items => ((sellAmountSum items).headD 0 + it.sellQuantity) :: sellAmountSum items

/-- `preMatchProcessing`. -/
def preMatchProcessing (book : DepthBook) : List Int × List Int :=
  (buyAmountSum 0 book, sellAmountSum book)

/-- `execRule0`: the volume each level would execute, and the largest. -/
def execRule0 (buySum sellSum : List Int) : Int × List Int :=
  let execution := List.zipWith min buySum sellSum
  (execution.foldl max 0, execution)

/-- `execRule1`: the levels that execute the largest volume. -/
def execRule1 (maxExecution : Int) (execution : List Int) : List Nat :=
  (List.range execution.length).filter fun i => execution[i]? == some maxExecution

/-- `execRule2`: of those, the levels with the smallest imbalance; and all their imbalances. -/
def execRule2 (buySum sellSum : List Int) (indexesRule1 : List Nat) : List Nat × List Int :=
  let imbalanceAt := fun i => buySum.getD i 0 - sellSum.getD i 0
  let imbalance := indexesRule1.map imbalanceAt
  let minAbsImbalance := (imbalance.tail.map fun x => |x|).foldl min |imbalance.headD 0|
  (indexesRule1.filter fun i => |imbalanceAt i| == minAbsImbalance, imbalance)

/-- `bestPriceFromRefPrice`. The source names the higher price `minPrice`. -/
def bestPriceFromRefPrice (minPrice maxPrice refPrice : Int) : Int :=
  if minPrice ≤ refPrice then minPrice
  else if maxPrice ≥ refPrice then maxPrice
  else refPrice

/-- `execRule3`: market pressure moves the reference price by five percent. -/
def execRule3 (env : Env B) (book : DepthBook) (offset : Nat) (refPrice pricePrecision : Int)
    (indexesRule2 : List Nat) (imbalance : List Int) : Option Int := do
  let first ← indexesRule2.head?
  let last ← indexesRule2.getLast?
  let firstImbalance ← imbalance[first - offset]?
  let newRefPrice ←
    if 0 < firstImbalance then
      some (env.roundDecimal (Dec.mul refPrice 1050000000000000000) pricePrecision)
    else
      (imbalance[last - offset]?).map fun lastImbalance =>
        if lastImbalance < 0 then
          env.roundDecimal (Dec.mul refPrice 950000000000000000) pricePrecision
        else env.roundDecimal refPrice pricePrecision
  let firstItem ← book[first]?
  let lastItem ← book[last]?
  some (bestPriceFromRefPrice firstItem.price lastItem.price newRefPrice)

/-- `periodicAuctionMatchPrice`: the best price and the volume it executes. -/
def periodicAuctionMatchPrice (env : Env B) (book : DepthBook) (pricePrecision refPrice : Int) :
    Option (Int × Int) :=
  let (buySum, sellSum) := preMatchProcessing book
  if buySum = [] then some (0, 0)
  else
    let (maxExecution, execution) := execRule0 buySum sellSum
    if maxExecution = 0 then some (refPrice, maxExecution)
    else
      let indexesRule1 := execRule1 maxExecution execution
      if indexesRule1.length = 1 then
        (book[indexesRule1.headD 0]?).map fun it => (it.price, maxExecution)
      else
        let (indexesRule2, imbalance) := execRule2 buySum sellSum indexesRule1
        if indexesRule2.length = 1 then
          (book[indexesRule2.headD 0]?).map fun it => (it.price, maxExecution)
        else
          (execRule3 env book (indexesRule1.headD 0) refPrice pricePrecision indexesRule2
            imbalance).map fun bestPrice => (bestPrice, maxExecution)

end Okexchain
