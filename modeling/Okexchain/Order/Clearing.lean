import Okexchain.Order.AuctionSpec

/-!
# The auction clears the maximal volume

At a price `p` the buyers of a book take `D p`, the quantity at prices `p` and above, and the
sellers give `S p`, the quantity at prices `p` and below (`bookLiquidity`). The volume that
`periodicAuctionMatchPrice` of `x/order/match/periodicauction/match.go` reports is the largest `min
(D p) (S p)`, over all prices and not only over the levels of the book.

* A price that buyers reach lies at or below some level, and the lowest such level has the same
  buyers and no fewer sellers (`exists_level_of_buy`, `bookLiquidity_sell_le`).

**Results.** `auction_clears_maximum`: **the volume is the maximum, and both sides can execute it at
the price that is returned**, also if this price lies between two levels.
-/

namespace Okexchain

variable {B : Type} {book : DepthBook}

/-- Buyers at a price are those of a level at the price or above, if there are any. -/
theorem exists_level_of_buy (hd : DepthBook.Descending book) (acc p : Int) :
    bookLiquidity book .buy p = 0 ∨ ∃ (i : Nat) (it : DepthBookItem), book[i]? = some it ∧
      p ≤ it.price ∧ (buyAmountSum acc book)[i]? = some (acc + bookLiquidity book .buy p) := by
  induction book generalizing acc with
  | nil => exact .inl rfl
  | cons y book ih =>
    obtain ⟨hy, hd'⟩ := List.pairwise_cons.mp hd
    rw [bookLiquidity_cons]
    by_cases hp : p ≤ y.price
    · have hreach : State.reaches .buy p y.price = true := decide_eq_true hp
      rw [if_pos hreach]
      refine .inr ?_
      rcases ih hd' (acc + y.buyQuantity) with hzero | ⟨i, it, hit, hle, hsum⟩
      · refine ⟨0, y, rfl, hp, ?_⟩
        rw [hzero, add_zero]
        rfl
      · refine ⟨i + 1, it, hit, hle, ?_⟩
        show (buyAmountSum (acc + y.buyQuantity) book)[i]? = _
        rw [hsum, add_assoc]
        rfl
    · -- nobody buys at this level or below
      have hnone : (y :: book).filter (fun it => State.reaches .buy p it.price) = [] := by
        refine List.filter_eq_nil_iff.mpr fun z hz => ?_
        rw [State.reaches, decide_eq_true_eq]
        rcases List.mem_cons.mp hz with rfl | hz
        · exact hp
        · have := hy z hz
          omega
      refine .inl ?_
      rw [← bookLiquidity_cons]
      unfold bookLiquidity
      rw [hnone]
      rfl

/-- Sellers at a price are among those of any level at the price or above. -/
theorem bookLiquidity_sell_le (hd : DepthBook.Descending book) (hn : NonNeg book) {i : Nat}
    {it : DepthBookItem} {p x : Int} (hit : book[i]? = some it) (hp : p ≤ it.price)
    (hx : (sellAmountSum book)[i]? = some x) : bookLiquidity book .sell p ≤ x := by
  induction book generalizing i with
  | nil => cases hit
  | cons y book ih =>
    obtain ⟨hy, hd'⟩ := List.pairwise_cons.mp hd
    cases i with
    | zero =>
      have hx : (sellAmountSum (y :: book)).headD 0 = x := Option.some.inj hx
      rw [← hx, headD_sellAmountSum]
      refine (List.filter_sublist.map _).sum_le_sum fun q hq => ?_
      obtain ⟨z, hz, rfl⟩ := List.mem_map.mp hq
      exact hn z hz .sell
    | succ i =>
      have hlt := hy it (List.mem_of_getElem? hit)
      have hreach : ¬ State.reaches .sell p y.price = true := by
        rw [State.reaches, decide_eq_true_eq]
        omega
      rw [bookLiquidity_cons, if_neg hreach, zero_add]
      exact ih hd' hn.tail hit hx

/-- **No price executes more than the best level.** -/
theorem min_bookLiquidity_le (hd : DepthBook.Descending book) (hn : NonNeg book) (p : Int) :
    min (bookLiquidity book .buy p) (bookLiquidity book .sell p) ≤
      (List.zipWith min (buyAmountSum 0 book) (sellAmountSum book)).foldl max 0 := by
  obtain ⟨hzero, hmax⟩ :=
    le_foldl_max (List.zipWith min (buyAmountSum 0 book) (sellAmountSum book)) 0
  rcases exists_level_of_buy hd 0 p with hnone | ⟨i, it, hit, hp, hbuy⟩
  · rw [hnone]
    exact (min_le_left _ _).trans hzero
  · have hlen := (List.getElem?_eq_some_iff.mp hit).1
    obtain ⟨x, hx⟩ : ∃ x, (sellAmountSum book)[i]? = some x :=
      ⟨_, List.getElem?_eq_getElem (by rw [length_sellAmountSum]; exact hlen)⟩
    have hsell := bookLiquidity_sell_le hd hn hit hp hx
    rw [zero_add] at hbuy
    have hlevel : (List.zipWith min (buyAmountSum 0 book) (sellAmountSum book))[i]? =
        some (min (bookLiquidity book .buy p) x) :=
      List.getElem?_zipWith_eq_some.mpr ⟨_, _, hbuy, hx, rfl⟩
    exact (min_le_min_left _ hsell).trans (hmax _ (List.mem_of_getElem? hlevel))

/-- The volume that is returned is that of the best level. -/
theorem periodicAuctionMatchPrice_volume {env : Env B} {prec refPrice price volume : Int}
    (h : periodicAuctionMatchPrice env book prec refPrice = some (price, volume)) :
    volume = (List.zipWith min (buyAmountSum 0 book) (sellAmountSum book)).foldl max 0 := by
  have hlevel : ∀ {x : Option DepthBookItem} {v : Int},
      (x.map fun it => (it.price, v)) = some (price, volume) → volume = v := fun hx => by
    obtain ⟨it, -, heq⟩ := Option.map_eq_some_iff.mp hx
    exact (congrArg Prod.snd heq).symm
  unfold periodicAuctionMatchPrice preMatchProcessing execRule0 at h
  simp only at h
  split_ifs at h with hnil hzero h1 h2
  · cases h
    rw [hnil]
    rfl
  · exact (congrArg Prod.snd (Option.some.inj h)).symm
  · exact hlevel h
  · exact hlevel h
  · obtain ⟨best, -, heq⟩ := Option.map_eq_some_iff.mp h
    exact (congrArg Prod.snd heq).symm

/-- **The auction clears the maximal volume**: it is the largest that any price executes, and at the
price that is returned both sides of the book can execute it. -/
theorem auction_clears_maximum (env : Env B) {book : DepthBook} (hd : DepthBook.Descending book)
    (hn : NonNeg book) (prec refPrice : Int) :
    ∃ price volume, periodicAuctionMatchPrice env book prec refPrice = some (price, volume) ∧
      IsGreatest (Set.range fun p => min (bookLiquidity book .buy p) (bookLiquidity book .sell p))
        volume ∧
      (0 < volume → volume ≤ bookLiquidity book .buy price ∧
        volume ≤ bookLiquidity book .sell price) := by
  obtain ⟨price, volume, heq, hnonneg, hok⟩ := periodicAuctionMatchPrice_spec env hd hn prec refPrice
  have hvolume := periodicAuctionMatchPrice_volume heq
  have hbound : ∀ p, min (bookLiquidity book .buy p) (bookLiquidity book .sell p) ≤ volume :=
    fun p => hvolume ▸ min_bookLiquidity_le hd hn p
  refine ⟨price, volume, heq, ⟨⟨price, le_antisymm (hbound price) (le_min ?_ ?_)⟩, ?_⟩, ?_⟩
  · rcases hnonneg.eq_or_lt with rfl | hpos
    · exact bookLiquidity_nonneg hn .buy price
    · exact (hok hpos).buy
  · rcases hnonneg.eq_or_lt with rfl | hpos
    · exact bookLiquidity_nonneg hn .sell price
    · exact (hok hpos).sell
  · rintro _ ⟨p, rfl⟩
    exact hbound p
  · exact fun hpos => ⟨(hok hpos).buy, (hok hpos).sell⟩

/-- Two levels execute the most, with opposite imbalances. -/
def crossedBook : DepthBook := [⟨100, 25, 0⟩, ⟨98, 0, 35⟩, ⟨97, 35, 0⟩, ⟨95, 0, 25⟩]

theorem descending_crossedBook : DepthBook.Descending crossedBook := by
  unfold DepthBook.Descending
  decide

theorem nonNeg_crossedBook : NonNeg crossedBook := by
  intro it hit side
  simp only [crossedBook, List.mem_cons, List.not_mem_nil, or_false] at hit
  rcases hit with rfl | rfl | rfl | rfl <;> cases side <;> decide

/-- A reference price between the two levels is the price, and 25 are executed. -/
theorem auction_clears_maximum_between :
    periodicAuctionMatchPrice simpleEnv crossedBook 18 99 = some (99, 25) ∧
      IsGreatest (Set.range fun p =>
        min (bookLiquidity crossedBook .buy p) (bookLiquidity crossedBook .sell p)) 25 ∧
      25 ≤ bookLiquidity crossedBook .buy 99 ∧ 25 ≤ bookLiquidity crossedBook .sell 99 := by
  have hrun : periodicAuctionMatchPrice simpleEnv crossedBook 18 99 = some (99, 25) := by
    decide +kernel
  obtain ⟨price, volume, heq, hgreatest, hok⟩ :=
    auction_clears_maximum simpleEnv descending_crossedBook nonNeg_crossedBook 18 99
  rw [hrun] at heq
  cases heq
  exact ⟨hrun, hgreatest, hok (by decide)⟩

end Okexchain
