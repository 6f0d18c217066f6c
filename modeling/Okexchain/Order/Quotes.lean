import Okexchain.Lib.Extremes
import Okexchain.Order.Run

/-!
# The best bid and the best ask

Model of `GetBestBidAndAsk` of `x/order/keeper/keeper.go`, which the tickers of `x/backend` show.
One loop over the stored book keeps a maximum of the prices with buyers and a minimum of the prices
with sellers. Both start at zero.

* The two results are `foldl max 0` and `foldl min 0` over the prices of the two sides
  (`foldl_quoteStep`), and a running maximum is the greatest of its list exactly if some element
  reaches the start (`isGreatest_foldl_max_iff`).

**Results.** `State.getBestBidAndAsk_iff`: **the answer is right exactly if each side is empty or
has a price on the right side of zero**. Prices are positive, so the best ask is right only if there
are no sellers.
-/

namespace Okexchain

variable {B : Type}

/-! ## The loop -/

/-- `GetDepthBookFromDB`. -/
def State.getDepthBookFromDB (s : State B) (product : String) : DepthBook :=
  (s.store.depthBooks.get product).getD []

/-- One round of the loop of `GetBestBidAndAsk`. -/
def quoteStep (best : Int × Int) (item : DepthBookItem) : Int × Int :=
  (if 0 < item.buyQuantity then if best.1 < item.price then item.price else best.1 else best.1,
    if 0 < item.sellQuantity then if item.price < best.2 then item.price else best.2 else best.2)

/-- `GetBestBidAndAsk`. -/
def State.getBestBidAndAsk (s : State B) (product : String) : Int × Int :=
  (s.getDepthBookFromDB product).foldl quoteStep (0, 0)

/-- The prices with buyers. -/
def DepthBook.bidPrices (book : DepthBook) : List Int :=
  (book.filter fun item => 0 < item.buyQuantity).map DepthBookItem.price

/-- The prices with sellers. -/
def DepthBook.askPrices (book : DepthBook) : List Int :=
  (book.filter fun item => 0 < item.sellQuantity).map DepthBookItem.price

/-- The loop takes a maximum and a minimum. -/
theorem foldl_quoteStep (book : DepthBook) (best : Int × Int) :
    book.foldl quoteStep best =
      ((DepthBook.bidPrices book).foldl max best.1, (DepthBook.askPrices book).foldl min best.2) := by
  induction book generalizing best with
  | nil => rfl
  | cons item book ih =>
    have hmax : (if best.1 < item.price then item.price else best.1) = max best.1 item.price :=
      (max_def_lt best.1 item.price).symm
    have hmin : (if item.price < best.2 then item.price else best.2) = min best.2 item.price := by
      rw [min_comm]
      exact (min_def_lt item.price best.2).symm
    rw [List.foldl_cons, ih]
    unfold quoteStep DepthBook.bidPrices DepthBook.askPrices
    simp only [hmax, hmin, List.filter_cons, decide_eq_true_eq]
    split_ifs <;> rfl

/-- The answer for a side: the extreme price, and zero if there is none. -/
def IsBestBid (prices : List Int) (p : Int) : Prop :=
  if prices = [] then p = 0 else IsGreatest {x | x ∈ prices} p

@[inherit_doc IsBestBid]
def IsBestAsk (prices : List Int) (p : Int) : Prop :=
  if prices = [] then p = 0 else IsLeast {x | x ∈ prices} p

/-- **The best bid and ask are right exactly if each side is empty or has a price on the right side
of zero.** -/
theorem State.getBestBidAndAsk_iff (s : State B) (product : String) :
    (IsBestBid (DepthBook.bidPrices (s.getDepthBookFromDB product)) (s.getBestBidAndAsk product).1 ∧
      IsBestAsk (DepthBook.askPrices (s.getDepthBookFromDB product))
        (s.getBestBidAndAsk product).2) ↔
      (DepthBook.bidPrices (s.getDepthBookFromDB product) = [] ∨
        ∃ p ∈ DepthBook.bidPrices (s.getDepthBookFromDB product), 0 ≤ p) ∧
      (DepthBook.askPrices (s.getDepthBookFromDB product) = [] ∨
        ∃ p ∈ DepthBook.askPrices (s.getDepthBookFromDB product), p ≤ 0) := by
  unfold getBestBidAndAsk IsBestBid IsBestAsk
  rw [foldl_quoteStep]
  refine and_congr ?_ ?_
  · split_ifs with hnil
    · rw [hnil]
      exact iff_of_true rfl (.inl rfl)
    · rw [or_iff_right hnil]
      exact isGreatest_foldl_max_iff _ _
  · split_ifs with hnil
    · rw [hnil]
      exact iff_of_true rfl (.inl rfl)
    · rw [or_iff_right hnil]
      exact isLeast_foldl_min_iff _ _

/-- Bob asks for ten, nobody bids, and the best ask is zero. -/
theorem State.getBestBidAndAsk_zero : ∃ n,
    (abcMarket (freeParams 10 10 (by decide) (by decide))).run simpleEnv
      [.beginBlock, .newOrders ⟨"bob", [abcItem .sell 10 1]⟩, .endBlock .sorted] = some n ∧
    n.state.getDepthBookFromDB "abc_okt" = [⟨Dec.newDec 10, 0, Dec.newDec 1⟩] ∧
    (n.state.getBestBidAndAsk "abc_okt").2 = 0 ∧
    ¬ IsBestAsk (DepthBook.askPrices (n.state.getDepthBookFromDB "abc_okt"))
      (n.state.getBestBidAndAsk "abc_okt").2 := by
  have hrun : ((abcMarket (freeParams 10 10 (by decide) (by decide))).run simpleEnv
      [.beginBlock, .newOrders ⟨"bob", [abcItem .sell 10 1]⟩, .endBlock .sorted]).map
        (fun n => (n.state.getDepthBookFromDB "abc_okt", (n.state.getBestBidAndAsk "abc_okt").2)) =
      some ([⟨Dec.newDec 10, 0, Dec.newDec 1⟩], 0) := by decide +kernel
  obtain ⟨n, hn, heq⟩ := Option.map_eq_some_iff.mp hrun
  obtain ⟨hbook, hask⟩ := Prod.mk.inj heq
  refine ⟨n, hn, hbook, hask, ?_⟩
  rw [hbook, hask]
  intro h
  have hmem : (0 : Int) ∈ DepthBook.askPrices [⟨Dec.newDec 10, 0, Dec.newDec 1⟩] :=
    (show IsLeast _ (0 : Int) from h).1
  exact absurd hmem (by decide)

end Okexchain
