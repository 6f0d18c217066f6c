import Okexchain.Lib.Extremes
import Okexchain.Order.FillSpec

/-!
# What the periodic auction chooses

`periodicAuctionMatchPrice` sums the quantities from both ends of the book and picks, among the
levels that execute the largest volume, a price by three further rules. This file proves that it
always returns, and that at the price it returns both sides of the book can execute the volume.

* The cumulated buy quantities grow and the cumulated sell quantities shrink down the book, so the
  levels that execute the largest volume are consecutive (`mem_execRule1_of_between`). The source
  relies on this when it indexes the imbalances by the distance from the first such level.
* `bookLiquidity` is what a side of the book executes at a price.

**Results.** `periodicAuctionMatchPrice_spec`.
-/

namespace Okexchain

variable {B : Type}

/-! ## Cumulated quantities -/

/-- What a side of a book executes at a price. -/
def bookLiquidity (book : DepthBook) (side : Side) (best : Int) : Int :=
  ((book.filter fun it => State.reaches side best it.price).map fun it => it.qty side).sum

/-- No quantity of the book is negative. -/
def NonNeg (book : DepthBook) : Prop := ∀ it ∈ book, ∀ side, 0 ≤ it.qty side

theorem NonNeg.tail {it : DepthBookItem} {book : DepthBook} (h : NonNeg (it :: book)) :
    NonNeg book := fun x hx => h x (List.mem_cons_of_mem _ hx)

theorem bookLiquidity_cons (it : DepthBookItem) (book : DepthBook) (side : Side) (best : Int) :
    bookLiquidity (it :: book) side best =
      (if State.reaches side best it.price then it.qty side else 0) +
        bookLiquidity book side best := by
  unfold bookLiquidity
  rw [List.filter_cons]
  split_ifs
  · rfl
  · exact (zero_add _).symm

theorem bookLiquidity_nonneg {book : DepthBook} (h : NonNeg book) (side : Side) (best : Int) :
    0 ≤ bookLiquidity book side best := by
  refine List.sum_nonneg fun x hx => ?_
  obtain ⟨it, hit, rfl⟩ := List.mem_map.mp hx
  exact h it (List.mem_of_mem_filter hit) side

theorem length_buyAmountSum (acc : Int) (book : DepthBook) :
    (buyAmountSum acc book).length = book.length := by
  induction book generalizing acc with
  | nil => rfl
  | cons it book ih => exact congrArg (· + 1) (ih _)

theorem length_sellAmountSum (book : DepthBook) :
    (sellAmountSum book).length = book.length := by
  induction book with
  | nil => rfl
  | cons it book ih => exact congrArg (· + 1) ih

/-- At a price up to that of a level, buyers take at least the level's cumulated quantity. -/
theorem buyAmountSum_le {book : DepthBook} (hd : DepthBook.Descending book) (hn : NonNeg book)
    {i : Nat} {acc x best : Int} {it : DepthBookItem} (hx : (buyAmountSum acc book)[i]? = some x)
    (hit : book[i]? = some it) (hbest : best ≤ it.price) :
    x ≤ acc + bookLiquidity book .buy best := by
  induction book generalizing acc i with
  | nil => cases hit
  | cons y book ih =>
    obtain ⟨hy, hd'⟩ := List.pairwise_cons.mp hd
    have hrest := bookLiquidity_nonneg hn.tail .buy best
    rw [bookLiquidity_cons]
    cases i with
    | zero =>
      cases hit
      have hx : acc + it.buyQuantity = x := Option.some.inj hx
      have hreach : State.reaches .buy best it.price = true := decide_eq_true hbest
      rw [if_pos hreach, ← hx]
      show acc + it.qty .buy ≤ _
      omega
    | succ i =>
      have hmem : it ∈ book := List.mem_of_getElem? hit
      have hreach : State.reaches .buy best y.price = true :=
        decide_eq_true (by have := hy it hmem; omega)
      have := ih hd' hn.tail hx hit
      rw [if_pos hreach]
      show x ≤ acc + (y.buyQuantity + _)
      omega

theorem headD_sellAmountSum (book : DepthBook) :
    (sellAmountSum book).headD 0 = (book.map fun it => it.sellQuantity).sum := by
  induction book with
  | nil => rfl
  | cons it book ih =>
    show (sellAmountSum book).headD 0 + it.sellQuantity = _
    rw [ih, List.map_cons, List.sum_cons, Int.add_comm]

/-- At a price from that of a level on, sellers give at least the level's cumulated quantity. -/
theorem sellAmountSum_le {book : DepthBook} (hd : DepthBook.Descending book) (hn : NonNeg book)
    {i : Nat} {x best : Int} {it : DepthBookItem} (hx : (sellAmountSum book)[i]? = some x)
    (hit : book[i]? = some it) (hbest : it.price ≤ best) :
    x ≤ bookLiquidity book .sell best := by
  induction book generalizing i with
  | nil => cases hit
  | cons y book ih =>
    obtain ⟨hy, hd'⟩ := List.pairwise_cons.mp hd
    cases i with
    | zero =>
      cases hit
      -- every level below takes part as well
      have hx : (sellAmountSum book).headD 0 + it.sellQuantity = x := Option.some.inj hx
      have hall : (it :: book).filter (fun y => State.reaches .sell best y.price) = it :: book := by
        refine List.filter_eq_self.mpr fun z hz => decide_eq_true ?_
        rcases List.mem_cons.mp hz with rfl | hz
        · exact hbest
        · have := hy z hz
          omega
      unfold bookLiquidity
      rw [hall, List.map_cons, List.sum_cons, ← hx, headD_sellAmountSum, Int.add_comm]
      rfl
    | succ i =>
      have := ih hd' hn.tail hx hit
      have hq := hn y List.mem_cons_self .sell
      rw [bookLiquidity_cons]
      split_ifs
      · omega
      · omega

/-- In a list that is in order, an earlier element comes before a later one or is the same. -/
theorem rel_of_pairwise {α : Type} {R : α → α → Prop} {l : List α} (h : l.Pairwise R) {i j : Nat}
    (hij : i ≤ j) {x y : α} (hx : l[i]? = some x) (hy : l[j]? = some y) : x = y ∨ R x y := by
  rcases hij.eq_or_lt with rfl | hlt
  · exact .inl (Option.some.inj (hx.symm.trans hy))
  · obtain ⟨hi, rfl⟩ := List.getElem?_eq_some_iff.mp hx
    obtain ⟨hj, rfl⟩ := List.getElem?_eq_some_iff.mp hy
    exact .inr (List.pairwise_iff_getElem.mp h i j hi hj hlt)

theorem price_le_of_le {book : DepthBook} (hd : DepthBook.Descending book) {i j : Nat}
    {hi lo : DepthBookItem} (hij : i ≤ j) (hhi : book[i]? = some hi) (hlo : book[j]? = some lo) :
    lo.price ≤ hi.price :=
  (rel_of_pairwise hd hij hhi hlo).elim (fun heq => heq ▸ le_rfl) le_of_lt

theorem pairwise_buyAmountSum {book : DepthBook} (hn : NonNeg book) (acc : Int) :
    (∀ y ∈ buyAmountSum acc book, acc ≤ y) ∧ (buyAmountSum acc book).Pairwise (· ≤ ·) := by
  induction book generalizing acc with
  | nil => exact ⟨nofun, .nil⟩
  | cons it book ih =>
    have hq : 0 ≤ it.buyQuantity := hn it List.mem_cons_self .buy
    obtain ⟨hle, hsorted⟩ := ih hn.tail (acc + it.buyQuantity)
    refine ⟨fun y hy => ?_, List.pairwise_cons.mpr ⟨hle, hsorted⟩⟩
    rcases List.mem_cons.mp hy with rfl | hy
    · omega
    · have := hle y hy
      omega

theorem pairwise_sellAmountSum {book : DepthBook} (hn : NonNeg book) :
    (∀ y ∈ sellAmountSum book, y ≤ (sellAmountSum book).headD 0) ∧
      (sellAmountSum book).Pairwise (· ≥ ·) := by
  induction book with
  | nil => exact ⟨nofun, .nil⟩
  | cons it book ih =>
    have hq : 0 ≤ it.sellQuantity := hn it List.mem_cons_self .sell
    obtain ⟨hle, hsorted⟩ := ih hn.tail
    have hrest : ∀ y ∈ sellAmountSum book, y ≤ (sellAmountSum book).headD 0 + it.sellQuantity := by
      intro y hy
      have := hle y hy
      omega
    refine ⟨fun y hy => ?_, List.pairwise_cons.mpr ⟨hrest, hsorted⟩⟩
    rcases List.mem_cons.mp hy with rfl | hy
    · exact le_rfl
    · exact hrest y hy

/-! ## The rules -/

section Rules

variable {book : DepthBook} {v : Int}

theorem mem_execRule1 {execution : List Int} {i : Nat} :
    i ∈ execRule1 v execution ↔ execution[i]? = some v := by
  unfold execRule1
  rw [List.mem_filter, List.mem_range, beq_iff_eq]
  exact ⟨fun h => h.2, fun h => ⟨(List.getElem?_eq_some_iff.mp h).1, h⟩⟩

theorem sorted_execRule1 (v : Int) (execution : List Int) :
    (execRule1 v execution).Pairwise (· < ·) :=
  List.pairwise_lt_range.filter _

theorem getElem?_execution {buySum sellSum : List Int} {i : Nat}
    (h : (List.zipWith min buySum sellSum)[i]? = some v) :
    ∃ b s, buySum[i]? = some b ∧ sellSum[i]? = some s ∧ v ≤ b ∧ v ≤ s ∧ (v = b ∨ v = s) := by
  obtain ⟨b, s, hb, hs, rfl⟩ := List.getElem?_zipWith_eq_some.mp h
  exact ⟨b, s, hb, hs, min_le_left _ _, min_le_right _ _, min_choice b s⟩

/-- **The levels that execute the largest volume are consecutive.** -/
theorem mem_execRule1_of_between (hn : NonNeg book) {i j k : Nat} (hik : i ≤ k) (hkj : k ≤ j)
    (hmax : ∀ x ∈ List.zipWith min (buyAmountSum 0 book) (sellAmountSum book), x ≤ v)
    (hi : i ∈ execRule1 v (List.zipWith min (buyAmountSum 0 book) (sellAmountSum book)))
    (hj : j ∈ execRule1 v (List.zipWith min (buyAmountSum 0 book) (sellAmountSum book))) :
    k ∈ execRule1 v (List.zipWith min (buyAmountSum 0 book) (sellAmountSum book)) := by
  obtain ⟨bi, -, hbi, -, hvbi, -⟩ := getElem?_execution (mem_execRule1.mp hi)
  obtain ⟨bj, sj, hbj, hsj, -, hvsj, -⟩ := getElem?_execution (mem_execRule1.mp hj)
  have hlen : k < book.length := by
    have := (List.getElem?_eq_some_iff.mp hbj).1
    rw [length_buyAmountSum] at this
    omega
  obtain ⟨bk, hbk⟩ : ∃ bk, (buyAmountSum 0 book)[k]? = some bk :=
    ⟨_, List.getElem?_eq_getElem (by rw [length_buyAmountSum]; exact hlen)⟩
  obtain ⟨sk, hsk⟩ : ∃ sk, (sellAmountSum book)[k]? = some sk :=
    ⟨_, List.getElem?_eq_getElem (by rw [length_sellAmountSum]; exact hlen)⟩
  have hk : (List.zipWith min (buyAmountSum 0 book) (sellAmountSum book))[k]? =
      some (min bk sk) := List.getElem?_zipWith_eq_some.mpr ⟨bk, sk, hbk, hsk, rfl⟩
  have h1 : bi ≤ bk := (rel_of_pairwise (pairwise_buyAmountSum hn 0).2 hik hbi hbk).elim le_of_eq id
  have h2 : sj ≤ sk :=
    (rel_of_pairwise (pairwise_sellAmountSum hn).2 hkj hsk hsj).elim ge_of_eq id
  have h3 := hmax _ (List.mem_of_getElem? hk)
  rw [mem_execRule1, hk]
  exact congrArg some (le_antisymm h3 (le_min (hvbi.trans h1) (hvsj.trans h2)))

/-- In an increasing list without gaps an element's distance from the head is an index. -/
theorem sub_head_lt_length {l : List Nat} (hs : l.Pairwise (· < ·)) {x : Nat} (hx : x ∈ l)
    (hconv : ∀ k, l.headD 0 ≤ k → k ≤ x → k ∈ l) : x - l.headD 0 < l.length := by
  have hle : l.headD 0 ≤ x := by
    cases l with
    | nil => exact absurd hx List.not_mem_nil
    | cons a l =>
      rcases List.mem_cons.mp hx with rfl | hx
      · exact le_rfl
      · exact ((List.pairwise_cons.mp hs).1 x hx).le
  have hsub : List.range' (l.headD 0) (x - l.headD 0 + 1) ⊆ l := fun k hk => by
    rw [List.mem_range'_1] at hk
    exact hconv k hk.1 (by omega)
  have := (List.subperm_of_subset List.nodup_range' hsub).length_le
  rw [List.length_range'] at this
  omega

theorem execRule2_subset (buySum sellSum : List Int) (l : List Nat) :
    (execRule2 buySum sellSum l).1.Sublist l := List.filter_sublist

/-- Some level has the smallest imbalance. -/
theorem execRule2_ne_nil (buySum sellSum : List Int) {l : List Nat} (hl : l ≠ []) :
    (execRule2 buySum sellSum l).1 ≠ [] := by
  obtain ⟨i, l, rfl⟩ := List.exists_cons_of_ne_nil hl
  set f : Nat → Int := fun i => buySum.getD i 0 - sellSum.getD i 0 with hf
  have hmin : ∃ k ∈ i :: l, |f k| = ((l.map f).map fun x => |x|).foldl min |f i| := by
    have hchoice : ∀ a b : Int, min a b = a ∨ min a b = b := fun a b => min_choice a b
    rcases foldl_choice hchoice ((l.map f).map fun x => |x|) |f i|
      with h | h
    · exact ⟨i, List.mem_cons_self, h.symm⟩
    · obtain ⟨y, hy, he⟩ := List.mem_map.mp h
      obtain ⟨k, hk, rfl⟩ := List.mem_map.mp hy
      exact ⟨k, List.mem_cons_of_mem _ hk, he⟩
  obtain ⟨k, hk, he⟩ := hmin
  refine List.ne_nil_of_mem (a := k) (List.mem_filter.mpr ⟨hk, ?_⟩)
  exact beq_iff_eq.mpr he

theorem length_execRule2 (buySum sellSum : List Int) (l : List Nat) :
    (execRule2 buySum sellSum l).2.length = l.length := List.length_map _

theorem bestPriceFromRefPrice_between {hi lo : Int} (ref : Int) (h : lo ≤ hi) :
    lo ≤ bestPriceFromRefPrice hi lo ref ∧ bestPriceFromRefPrice hi lo ref ≤ hi ∧
      (bestPriceFromRefPrice hi lo ref = hi ∨ bestPriceFromRefPrice hi lo ref = lo ∨
        bestPriceFromRefPrice hi lo ref = ref) := by
  unfold bestPriceFromRefPrice
  split_ifs with h1 h2
  · exact ⟨h, le_rfl, .inl rfl⟩
  · exact ⟨le_rfl, h, .inr (.inl rfl)⟩
  · exact ⟨by omega, by omega, .inr (.inr rfl)⟩

/-- What the auction guarantees about its price and volume: both sides of the book can execute the
volume, the price is not below all levels and is that of a level or rounded, and the volume comes
in the units of the levels. -/
structure AuctionOK (env : Env B) (book : DepthBook) (pricePrecision price volume : Int) : Prop where
  buy : volume ≤ bookLiquidity book .buy price
  sell : volume ≤ bookLiquidity book .sell price
  low : ∃ it ∈ book, it.price ≤ price
  origin : (∃ it ∈ book, price = it.price) ∨ ∃ d, price = env.roundDecimal d pricePrecision
  whole : ∀ u, (∀ it ∈ book, ∀ side, u ∣ it.qty side) → u ∣ volume

theorem dvd_buyAmountSum {u acc : Int} {book : DepthBook} (hacc : u ∣ acc)
    (h : ∀ it ∈ book, ∀ side, u ∣ it.qty side) : ∀ x ∈ buyAmountSum acc book, u ∣ x := by
  induction book generalizing acc with
  | nil => exact fun x hx => absurd hx List.not_mem_nil
  | cons it book ih =>
    have hit := Int.dvd_add hacc (h it List.mem_cons_self .buy)
    intro x hx
    rcases List.mem_cons.mp hx with rfl | hx
    · exact hit
    · exact ih hit (fun it' hit' => h it' (List.mem_cons_of_mem _ hit')) x hx

theorem dvd_sellAmountSum {u : Int} {book : DepthBook}
    (h : ∀ it ∈ book, ∀ side, u ∣ it.qty side) : ∀ x ∈ sellAmountSum book, u ∣ x := by
  induction book with
  | nil => exact fun x hx => absurd hx List.not_mem_nil
  | cons it book ih =>
    have ih := ih fun it' hit' => h it' (List.mem_cons_of_mem _ hit')
    have hhead : u ∣ (sellAmountSum book).headD 0 := by
      cases hs : sellAmountSum book with
      | nil => exact dvd_zero u
      | cons y ys => exact ih y (hs ▸ List.mem_cons_self)
    intro x hx
    rcases List.mem_cons.mp hx with rfl | hx
    · exact Int.dvd_add hhead (h it List.mem_cons_self .sell)
    · exact ih x hx

/-- A price between two levels that execute the volume. -/
theorem AuctionOK.of_levels {env : Env B} (hd : DepthBook.Descending book) (hn : NonNeg book)
    {i j : Nat} {hi lo : DepthBookItem} {price prec : Int}
    (hi' : i ∈ execRule1 v (List.zipWith min (buyAmountSum 0 book) (sellAmountSum book)))
    (hj' : j ∈ execRule1 v (List.zipWith min (buyAmountSum 0 book) (sellAmountSum book)))
    (hhi : book[i]? = some hi) (hlo : book[j]? = some lo) (hple : price ≤ hi.price)
    (hlep : lo.price ≤ price)
    (horigin : (∃ it ∈ book, price = it.price) ∨ ∃ d, price = env.roundDecimal d prec) :
    AuctionOK env book prec price v := by
  obtain ⟨b, y, hb, hy, hvb, -, hmin⟩ := getElem?_execution (mem_execRule1.mp hi')
  obtain ⟨-, x, -, hx, -, hvx, -⟩ := getElem?_execution (mem_execRule1.mp hj')
  have h1 := buyAmountSum_le hd hn hb hhi hple
  have h2 := sellAmountSum_le hd hn hx hlo hlep
  refine ⟨by omega, by omega, ⟨lo, List.mem_of_getElem? hlo, hlep⟩, horigin, fun u hu => ?_⟩
  rcases hmin with rfl | rfl
  · exact dvd_buyAmountSum (dvd_zero u) hu _ (List.mem_of_getElem? hb)
  · exact dvd_sellAmountSum hu _ (List.mem_of_getElem? hy)

theorem length_execution (book : DepthBook) :
    (List.zipWith min (buyAmountSum 0 book) (sellAmountSum book)).length = book.length := by
  rw [List.length_zipWith, length_buyAmountSum, length_sellAmountSum, min_self]

theorem exists_item {i : Nat}
    (hi : i ∈ execRule1 v (List.zipWith min (buyAmountSum 0 book) (sellAmountSum book))) :
    ∃ it, book[i]? = some it := by
  have := (List.getElem?_eq_some_iff.mp (mem_execRule1.mp hi)).1
  rw [length_execution] at this
  exact ⟨_, List.getElem?_eq_getElem this⟩

/-- The third rule finds its imbalances and its levels, and returns a price between the levels. -/
theorem execRule3_spec (env : Env B) (hd : DepthBook.Descending book) (hn : NonNeg book)
    (refPrice prec : Int)
    (hmax : ∀ x ∈ List.zipWith min (buyAmountSum 0 book) (sellAmountSum book), x ≤ v)
    {rule1 : List Nat}
    (hrule1 : rule1 = execRule1 v (List.zipWith min (buyAmountSum 0 book) (sellAmountSum book)))
    (hne : rule1 ≠ []) :
    ∃ price, execRule3 env book (rule1.headD 0) refPrice prec
        (execRule2 (buyAmountSum 0 book) (sellAmountSum book) rule1).1
        (execRule2 (buyAmountSum 0 book) (sellAmountSum book) rule1).2 = some price ∧
      AuctionOK env book prec price v := by
  set rule2 := execRule2 (buyAmountSum 0 book) (sellAmountSum book) rule1 with hrule2
  have hsub : rule2.1.Sublist rule1 := execRule2_subset _ _ _
  have hne2 : rule2.1 ≠ [] := execRule2_ne_nil _ _ hne
  have hsorted : rule1.Pairwise (· < ·) := hrule1 ▸ sorted_execRule1 v _
  -- the imbalance of every level of the first rule is found
  have hfound : ∀ i ∈ rule1, ∃ x, rule2.2[i - rule1.headD 0]? = some x := by
    intro i hi
    have hhead : rule1.headD 0 ∈ rule1 := by
      cases rule1 with
      | nil => exact absurd hi List.not_mem_nil
      | cons a l => exact List.mem_cons_self
    have hlt := sub_head_lt_length hsorted hi fun k h1 h2 => by
      rw [hrule1] at hi hhead h1 ⊢
      exact mem_execRule1_of_between hn h1 h2 hmax hhead hi
    exact ⟨_, List.getElem?_eq_getElem (by rw [length_execRule2]; exact hlt)⟩
  obtain ⟨first, hfirst⟩ : ∃ first, rule2.1.head? = some first :=
    ⟨_, List.head?_eq_some_head hne2⟩
  obtain ⟨last, hlast⟩ : ∃ last, rule2.1.getLast? = some last :=
    ⟨_, List.getLast?_eq_some_getLast hne2⟩
  have hfmem : first ∈ rule1 := hsub.subset (List.mem_of_mem_head? hfirst)
  have hlmem : last ∈ rule1 := hsub.subset (List.mem_of_mem_getLast? hlast)
  have hle : first ≤ last := by
    have hs2 : rule2.1.Pairwise (· < ·) := hsorted.sublist hsub
    obtain ⟨l, hl⟩ := List.head?_eq_some_iff.mp hfirst
    rw [hl] at hs2 hlast
    have hmem := List.mem_of_mem_getLast? hlast
    rcases List.mem_cons.mp hmem with rfl | hmem
    · exact le_rfl
    · exact ((List.pairwise_cons.mp hs2).1 last hmem).le
  obtain ⟨x, hx⟩ := hfound first hfmem
  obtain ⟨y, hy⟩ := hfound last hlmem
  obtain ⟨hi, hhi⟩ := exists_item (hrule1 ▸ hfmem)
  obtain ⟨lo, hlo⟩ := exists_item (hrule1 ▸ hlmem)
  have hprice : lo.price ≤ hi.price := price_le_of_le hd hle hhi hlo
  -- the moved reference price is rounded in every case
  obtain ⟨d, hd'⟩ : ∃ d, (if 0 < x then
      some (env.roundDecimal (Dec.mul refPrice 1050000000000000000) prec)
      else (rule2.2[last - rule1.headD 0]?).map fun lastImbalance =>
        if lastImbalance < 0 then env.roundDecimal (Dec.mul refPrice 950000000000000000) prec
        else env.roundDecimal refPrice prec) = some (env.roundDecimal d prec) := by
    rw [hy]
    split_ifs with h1
    · exact ⟨_, rfl⟩
    · simp only [Option.map_some]
      split_ifs
      · exact ⟨_, rfl⟩
      · exact ⟨_, rfl⟩
  refine ⟨bestPriceFromRefPrice hi.price lo.price (env.roundDecimal d prec), ?_, ?_⟩
  · unfold execRule3
    simp only [hfirst, hlast, hx, Option.bind_eq_bind, Option.bind_some, hhi, hlo]
    by_cases h1 : 0 < x
    · rw [if_pos h1] at hd' ⊢
      rw [Option.some.inj hd']
    · rw [if_neg h1] at hd' ⊢
      rw [hd']
      rfl
  · obtain ⟨h1, h2, h3⟩ := bestPriceFromRefPrice_between (env.roundDecimal d prec) hprice
    refine AuctionOK.of_levels hd hn (hrule1 ▸ hfmem) (hrule1 ▸ hlmem) hhi hlo h2 h1 ?_
    rcases h3 with h3 | h3 | h3
    · exact .inl ⟨hi, List.mem_of_getElem? hhi, h3⟩
    · exact .inl ⟨lo, List.mem_of_getElem? hlo, h3⟩
    · exact .inr ⟨d, h3⟩

end Rules

/-- **The auction returns**, and both sides of the book can execute a volume that is not zero. -/
theorem periodicAuctionMatchPrice_spec (env : Env B) {book : DepthBook}
    (hd : DepthBook.Descending book) (hn : NonNeg book) (prec refPrice : Int) :
    ∃ price volume, periodicAuctionMatchPrice env book prec refPrice = some (price, volume) ∧
      0 ≤ volume ∧ (0 < volume → AuctionOK env book prec price volume) := by
  set execution := List.zipWith min (buyAmountSum 0 book) (sellAmountSum book) with hexec
  set v := execution.foldl max 0 with hv
  obtain ⟨hv0, hmax⟩ := le_foldl_max execution 0
  unfold periodicAuctionMatchPrice preMatchProcessing execRule0
  simp only
  by_cases hnil : buyAmountSum 0 book = []
  · rw [if_pos hnil]
    exact ⟨0, 0, rfl, le_rfl, fun h => absurd h (lt_irrefl _)⟩
  rw [if_neg hnil]
  by_cases hz : v = 0
  · rw [if_pos hz]
    exact ⟨refPrice, v, rfl, hv0, fun h => by omega⟩
  rw [if_neg hz]
  have hchoice : ∀ a b : Int, max a b = a ∨ max a b = b := fun a b => max_choice a b
  have hmem : v ∈ execution := (foldl_choice hchoice execution 0).resolve_left hz
  obtain ⟨i, hi⟩ := List.mem_iff_getElem?.mp hmem
  have hne : execRule1 v execution ≠ [] := List.ne_nil_of_mem (mem_execRule1.mpr hi)
  -- a rule that leaves one level takes its price
  have hone : ∀ l : List Nat, l.Sublist (execRule1 v execution) → l.length = 1 →
      ∃ price volume, ((book[l.headD 0]?).map fun it => (it.price, v)) = some (price, volume) ∧
        0 ≤ volume ∧ (0 < volume → AuctionOK env book prec price volume) := by
    intro l hsub hlen
    obtain ⟨i, rfl⟩ := List.length_eq_one_iff.mp hlen
    have hi := hsub.subset List.mem_cons_self
    obtain ⟨it, hit⟩ := exists_item hi
    refine ⟨it.price, v, ?_, hv0, fun _ => ?_⟩
    · rw [List.headD_cons, hit]
      rfl
    · exact AuctionOK.of_levels hd hn hi hi hit hit le_rfl le_rfl
        (.inl ⟨it, List.mem_of_getElem? hit, rfl⟩)
  by_cases h1 : (execRule1 v execution).length = 1
  · rw [if_pos h1]
    exact hone _ (List.Sublist.refl _) h1
  rw [if_neg h1]
  by_cases h2 : (execRule2 (buyAmountSum 0 book) (sellAmountSum book)
      (execRule1 v execution)).1.length = 1
  · rw [if_pos h2]
    exact hone _ (execRule2_subset _ _ _) h2
  rw [if_neg h2]
  obtain ⟨price, hprice, hok⟩ := execRule3_spec env hd hn refPrice prec hmax rfl hne
  rw [hprice]
  exact ⟨price, v, rfl, hv0, fun _ => hok⟩

end Okexchain
