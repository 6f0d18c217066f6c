import Mathlib.Data.Int.ConditionallyCompleteOrder
import Okexchain.Order.Clearing

/-!
# How the auction breaks ties

Several levels can execute the maximal volume. `execRule2` of
`x/order/match/periodicauction/match.go` keeps those with the smallest imbalance between buyers and
sellers, and `execRule3` looks for a price between the levels that are left.

* `imbalance book p` is `D p - S p`, what buyers want at the price `p` beyond what sellers give. It
  grows as the price falls (`imbalance_anti`). The cumulated lists of the source hold its two parts
  level by level (`getElem?_buyAmountSum`, `getElem?_sellAmountSum`).
* `execRule3` indexes the imbalances of the rule 1 levels by the distance from the first of them,
  and looks at the sign at both ends only. The first is right because the levels have no gaps
  (`eq_range'_of_convex`), the second because the imbalances are sorted.
* `bestPriceFromRefPrice` is called with the higher price as `minPrice`. It moves the reference
  price into the interval between the two (`bestPriceFromRefPrice_closest`).

**Results.** `ties_broken`: the levels of both rules are consecutive, every lookup reads the
imbalance of its own level, the signs at the ends tell the market pressure, **the price has the
smallest imbalance, and it is the price nearest to the reference price** if several levels are left.
-/

namespace Okexchain

variable {B : Type} {book : DepthBook}

/-! ## The imbalance at a price -/

/-- What buyers want at a price beyond what sellers give. -/
def imbalance (book : DepthBook) (p : Int) : Int :=
  bookLiquidity book .buy p - bookLiquidity book .sell p

/-- Whoever takes part at a price takes part at a better one. -/
theorem bookLiquidity_mono (hn : NonNeg book) {side : Side} {p q : Int}
    (h : ∀ price, State.reaches side p price = true → State.reaches side q price = true) :
    bookLiquidity book side p ≤ bookLiquidity book side q := by
  have hsub := List.monotone_filter_right book fun it : DepthBookItem => h it.price
  refine (hsub.map _).sum_le_sum fun x hx => ?_
  obtain ⟨it, hit, rfl⟩ := List.mem_map.mp hx
  exact hn it (List.mem_of_mem_filter hit) side

/-- **A lower price has more buyers and fewer sellers.** -/
theorem imbalance_anti (hn : NonNeg book) {p q : Int} (hpq : p ≤ q) :
    imbalance book q ≤ imbalance book p := by
  have hbuy : bookLiquidity book .buy q ≤ bookLiquidity book .buy p :=
    bookLiquidity_mono hn fun price h => decide_eq_true (hpq.trans (of_decide_eq_true h))
  have hsell : bookLiquidity book .sell p ≤ bookLiquidity book .sell q :=
    bookLiquidity_mono hn fun price h => decide_eq_true ((of_decide_eq_true h).trans hpq)
  unfold imbalance
  omega

/-- The cumulated buy quantity of a level is what buyers want at its price. -/
theorem getElem?_buyAmountSum (hd : DepthBook.Descending book) (acc : Int) {i : Nat}
    {it : DepthBookItem} (hit : book[i]? = some it) :
    (buyAmountSum acc book)[i]? = some (acc + bookLiquidity book .buy it.price) := by
  induction book generalizing acc i with
  | nil => cases hit
  | cons y book ih =>
    obtain ⟨hy, hd'⟩ := List.pairwise_cons.mp hd
    rw [bookLiquidity_cons]
    cases i with
    | zero =>
      cases hit
      -- no level below reaches the price
      have hnone : bookLiquidity book .buy it.price = 0 := by
        unfold bookLiquidity
        rw [List.filter_eq_nil_iff.mpr fun z hz => ?_]
        · rfl
        · rw [State.reaches, decide_eq_true_eq]
          have := hy z hz
          omega
      have hreach : State.reaches .buy it.price it.price = true := decide_eq_true le_rfl
      rw [if_pos hreach, hnone, add_zero]
      rfl
    | succ i =>
      have hreach : State.reaches .buy it.price y.price = true :=
        decide_eq_true (hy it (List.mem_of_getElem? hit)).le
      rw [if_pos hreach, ← add_assoc]
      exact ih hd' (acc + y.buyQuantity) hit

/-- The cumulated sell quantity of a level is what sellers give at its price. -/
theorem getElem?_sellAmountSum (hd : DepthBook.Descending book) (hn : NonNeg book) {i : Nat}
    {it : DepthBookItem} (hit : book[i]? = some it) :
    (sellAmountSum book)[i]? = some (bookLiquidity book .sell it.price) := by
  have hlen := (List.getElem?_eq_some_iff.mp hit).1
  obtain ⟨x, hx⟩ : ∃ x, (sellAmountSum book)[i]? = some x :=
    ⟨_, List.getElem?_eq_getElem (by rw [length_sellAmountSum]; exact hlen)⟩
  rw [hx]
  exact congrArg some (le_antisymm (sellAmountSum_le hd hn hx hit le_rfl)
    (bookLiquidity_sell_le hd hn hit le_rfl hx))

/-! ## Consecutive indexes -/

/-- An increasing list without gaps is a range. -/
theorem eq_range'_of_convex {l : List Nat} (hs : l.Pairwise (· < ·))
    (hconv : ∀ i ∈ l, ∀ j ∈ l, ∀ k, i ≤ k → k ≤ j → k ∈ l) :
    l = List.range' (l.headD 0) l.length := by
  induction l with
  | nil => rfl
  | cons a l ih =>
    obtain ⟨ha, hs'⟩ := List.pairwise_cons.mp hs
    have hconv' : ∀ i ∈ l, ∀ j ∈ l, ∀ k, i ≤ k → k ≤ j → k ∈ l := by
      intro i hi j hj k hik hkj
      have hk := hconv i (List.mem_cons_of_mem _ hi) j (List.mem_cons_of_mem _ hj) k hik hkj
      refine (List.mem_cons.mp hk).resolve_left fun h => ?_
      have := ha i hi
      omega
    rw [List.headD_cons, List.length_cons, List.range'_succ]
    refine congrArg (a :: ·) ?_
    cases l with
    | nil => rfl
    | cons b l =>
      -- the index after the head is in the list, and nothing smaller than `b` is left
      have hb := ha b List.mem_cons_self
      have hmem := hconv a List.mem_cons_self b (List.mem_cons_of_mem _ List.mem_cons_self) (a + 1)
        (by omega) (by omega)
      obtain rfl : b = a + 1 := by
        rcases List.mem_cons.mp hmem with h | h
        · omega
        · rcases List.mem_cons.mp h with h | h
          · exact h.symm
          · have := (List.pairwise_cons.mp hs').1 _ h
            omega
      exact ih hs' hconv'

/-- In a range an index is found at its distance from the head. -/
theorem getElem?_sub_head {l : List Nat} (hl : l = List.range' (l.headD 0) l.length) {i : Nat}
    (hi : i ∈ l) : l[i - l.headD 0]? = some i := by
  generalize l.headD 0 = a at hl ⊢
  generalize l.length = n at hl
  subst hl
  obtain ⟨hle, hlt⟩ := List.mem_range'_1.mp hi
  rw [List.getElem?_range' (by omega)]
  exact congrArg some (by omega)

/-! ## The rules -/

/-- The levels that rule 1 selects. -/
def rule1Levels (book : DepthBook) : List Nat :=
  let (buySum, sellSum) := preMatchProcessing book
  let (maxExecution, execution) := execRule0 buySum sellSum
  execRule1 maxExecution execution

/-- The levels that rule 2 leaves of them, and the imbalances of the rule 1 levels. -/
def rule2Levels (book : DepthBook) : List Nat × List Int :=
  let (buySum, sellSum) := preMatchProcessing book
  execRule2 buySum sellSum (rule1Levels book)

/-- The imbalance at the price of a level. -/
def levelImbalance (book : DepthBook) (i : Nat) : Int :=
  (book[i]?).elim 0 fun it => imbalance book it.price

theorem levelImbalance_of_get {i : Nat} {it : DepthBookItem} (hit : book[i]? = some it) :
    levelImbalance book i = imbalance book it.price := by
  unfold levelImbalance
  rw [hit]
  rfl

theorem levelImbalance_mono (hd : DepthBook.Descending book) (hn : NonNeg book) {i j : Nat}
    {hi lo : DepthBookItem} (hij : i ≤ j) (hhi : book[i]? = some hi) (hlo : book[j]? = some lo) :
    levelImbalance book i ≤ levelImbalance book j := by
  rw [levelImbalance_of_get hhi, levelImbalance_of_get hlo]
  exact imbalance_anti hn (price_le_of_le hd hij hhi hlo)

theorem exists_rule1Level {i : Nat} (hi : i ∈ rule1Levels book) : ∃ it, book[i]? = some it :=
  exists_item hi

theorem rule1Levels_convex (hn : NonNeg book) :
    ∀ i ∈ rule1Levels book, ∀ j ∈ rule1Levels book, ∀ k, i ≤ k → k ≤ j → k ∈ rule1Levels book :=
  fun _ hi _ hj _ hik hkj => mem_execRule1_of_between hn hik hkj (le_foldl_max _ 0).2 hi hj

/-- **The levels that execute the maximal volume are consecutive.** -/
theorem rule1Levels_range (hn : NonNeg book) :
    rule1Levels book = List.range' ((rule1Levels book).headD 0) (rule1Levels book).length :=
  eq_range'_of_convex (sorted_execRule1 _ _) (rule1Levels_convex hn)

/-- The imbalances that the source keeps are those at the prices of the rule 1 levels. -/
theorem rule2Levels_snd (hd : DepthBook.Descending book) (hn : NonNeg book) :
    (rule2Levels book).2 = (rule1Levels book).map (levelImbalance book) := by
  refine List.map_congr_left fun i hi => ?_
  obtain ⟨it, hit⟩ := exists_rule1Level hi
  rw [levelImbalance_of_get hit, List.getD_eq_getElem?_getD, List.getD_eq_getElem?_getD,
    getElem?_buyAmountSum hd 0 hit, getElem?_sellAmountSum hd hn hit, zero_add]
  rfl

theorem foldl_min_le (l : List Int) (a : Int) :
    l.foldl min a ≤ a ∧ ∀ x ∈ l, l.foldl min a ≤ x := by
  induction l generalizing a with
  | nil => exact ⟨le_rfl, fun x hx => absurd hx List.not_mem_nil⟩
  | cons y l ih =>
    obtain ⟨h1, h2⟩ := ih (min a y)
    rw [List.foldl_cons]
    refine ⟨h1.trans (min_le_left a y), fun x hx => ?_⟩
    rcases List.mem_cons.mp hx with rfl | hx
    · exact h1.trans (min_le_right a x)
    · exact h2 x hx

/-- Rule 2 keeps the levels with the smallest imbalance. -/
theorem mem_execRule2 (buySum sellSum : List Int) {l : List Nat} {i : Nat} :
    i ∈ (execRule2 buySum sellSum l).1 ↔ i ∈ l ∧ ∀ j ∈ l,
      |buySum.getD i 0 - sellSum.getD i 0| ≤ |buySum.getD j 0 - sellSum.getD j 0| := by
  set f : Nat → Int := fun i => buySum.getD i 0 - sellSum.getD i 0 with hf
  unfold execRule2
  rw [List.mem_filter, beq_iff_eq]
  refine and_congr_right fun hi => ?_
  obtain ⟨a, l, rfl⟩ := List.exists_cons_of_ne_nil (List.ne_nil_of_mem hi)
  -- the smallest imbalance is at most each, and it is the imbalance of some level
  have hleast : ∀ j ∈ a :: l, ((l.map f).map fun x => |x|).foldl min |f a| ≤ |f j| := by
    obtain ⟨hhead, hrest⟩ := foldl_min_le ((l.map f).map fun x => |x|) |f a|
    intro j hj
    rcases List.mem_cons.mp hj with rfl | hj
    · exact hhead
    · exact hrest _ (List.mem_map_of_mem (List.mem_map_of_mem hj))
  have hattained : ∃ k ∈ a :: l, |f k| = ((l.map f).map fun x => |x|).foldl min |f a| := by
    rcases foldl_choice (fun a b : Int => min_choice a b) ((l.map f).map fun x => |x|) |f a|
      with h | h
    · exact ⟨a, List.mem_cons_self, h.symm⟩
    · obtain ⟨y, hy, he⟩ := List.mem_map.mp h
      obtain ⟨k, hk, rfl⟩ := List.mem_map.mp hy
      exact ⟨k, List.mem_cons_of_mem _ hk, he⟩
  show |f i| = ((l.map f).map fun x => |x|).foldl min |f a| ↔ ∀ j ∈ a :: l, |f i| ≤ |f j|
  refine ⟨fun h j hj => h.trans_le (hleast j hj), fun h => le_antisymm ?_ (hleast i hi)⟩
  obtain ⟨k, hk, he⟩ := hattained
  exact he ▸ h k hk

theorem mem_rule2Levels (hd : DepthBook.Descending book) (hn : NonNeg book) {i : Nat} :
    i ∈ (rule2Levels book).1 ↔ i ∈ rule1Levels book ∧
      ∀ j ∈ rule1Levels book, |levelImbalance book i| ≤ |levelImbalance book j| := by
  have hsum : ∀ j ∈ rule1Levels book,
      (buyAmountSum 0 book).getD j 0 - (sellAmountSum book).getD j 0 = levelImbalance book j :=
    List.map_inj_left.mp (rule2Levels_snd hd hn)
  refine (mem_execRule2 _ _).trans (and_congr_right fun hi => forall₂_congr fun j hj => ?_)
  rw [hsum i hi, hsum j hj]

theorem rule2Levels_sublist (book : DepthBook) :
    (rule2Levels book).1.Sublist (rule1Levels book) := execRule2_subset _ _ _

/-- **The levels with the smallest imbalance are consecutive**: the imbalances are sorted, so one
between two of the same size is not larger. -/
theorem rule2Levels_convex (hd : DepthBook.Descending book) (hn : NonNeg book) :
    ∀ i ∈ (rule2Levels book).1, ∀ j ∈ (rule2Levels book).1, ∀ k, i ≤ k → k ≤ j →
      k ∈ (rule2Levels book).1 := by
  intro i hi j hj k hik hkj
  obtain ⟨hi1, hileast⟩ := (mem_rule2Levels hd hn).mp hi
  obtain ⟨hj1, hjleast⟩ := (mem_rule2Levels hd hn).mp hj
  have hk1 := rule1Levels_convex hn i hi1 j hj1 k hik hkj
  obtain ⟨it, hit⟩ := exists_rule1Level hi1
  obtain ⟨jt, hjt⟩ := exists_rule1Level hj1
  obtain ⟨kt, hkt⟩ := exists_rule1Level hk1
  have hlow := levelImbalance_mono hd hn hik hit hkt
  have hhigh := levelImbalance_mono hd hn hkj hkt hjt
  refine (mem_rule2Levels hd hn).mpr ⟨hk1, fun m hm => ?_⟩
  have hbetween := abs_le_max_abs_abs hlow hhigh
  exact hbetween.trans (max_le (hileast m hm) (hjleast m hm))

/-- The reference price after the market pressure: five percent up if there are more buyers at every
level that is left, five percent down if there are more sellers at every one. -/
def pressedRefPrice (env : Env B) (book : DepthBook) (refPrice pricePrecision : Int) : Int :=
  if ∀ i ∈ (rule2Levels book).1, 0 < levelImbalance book i then
    env.roundDecimal (Dec.mul refPrice 1050000000000000000) pricePrecision
  else if ∀ i ∈ (rule2Levels book).1, levelImbalance book i < 0 then
    env.roundDecimal (Dec.mul refPrice 950000000000000000) pricePrecision
  else env.roundDecimal refPrice pricePrecision

/-- The price is moved into the interval, and no further. -/
theorem bestPriceFromRefPrice_closest {hi lo : Int} (ref : Int) (h : lo ≤ hi) :
    bestPriceFromRefPrice hi lo ref ∈ Set.Icc lo hi ∧
      ∀ x ∈ Set.Icc lo hi, |bestPriceFromRefPrice hi lo ref - ref| ≤ |x - ref| := by
  obtain ⟨h1, h2, -⟩ := bestPriceFromRefPrice_between ref h
  refine ⟨⟨h1, h2⟩, fun x ⟨hlo, hhi⟩ => ?_⟩
  unfold bestPriceFromRefPrice
  split_ifs with hup hdown
  · rw [abs_of_nonpos (by omega), abs_of_nonpos (by omega)]
    omega
  · rw [abs_of_nonneg (by omega), abs_of_nonneg (by omega)]
    omega
  · rw [sub_self, abs_zero]
    exact abs_nonneg _

/-! ## The ends of the levels that are left -/

section Ends

variable {first last : Nat} (hd : DepthBook.Descending book) (hn : NonNeg book)
  (hfirst : (rule2Levels book).1.head? = some first)
  (hlast : (rule2Levels book).1.getLast? = some last)

include hfirst in
theorem first_le {i : Nat} (hi : i ∈ (rule2Levels book).1) : first ≤ i := by
  have hsorted := (sorted_execRule1 _ _).sublist (rule2Levels_sublist book)
  obtain ⟨l, hl⟩ := List.head?_eq_some_iff.mp hfirst
  rw [hl] at hsorted hi
  rcases List.mem_cons.mp hi with rfl | hi
  · exact le_rfl
  · exact ((List.pairwise_cons.mp hsorted).1 i hi).le

include hlast in
theorem le_last {i : Nat} (hi : i ∈ (rule2Levels book).1) : i ≤ last := by
  have hsorted := (sorted_execRule1 _ _).sublist (rule2Levels_sublist book)
  obtain ⟨l, hl⟩ := List.getLast?_eq_some_iff.mp hlast
  rw [hl] at hsorted hi
  rcases List.mem_append.mp hi with hi | hi
  · exact ((List.pairwise_append.mp hsorted).2.2 i hi last List.mem_cons_self).le
  · exact (List.mem_singleton.mp hi).le

include hd hn hfirst in
theorem levelImbalance_first_le {i : Nat} (hi : i ∈ (rule2Levels book).1) :
    levelImbalance book first ≤ levelImbalance book i := by
  have hsub := (rule2Levels_sublist book).subset
  obtain ⟨hi', hhi⟩ := exists_rule1Level (hsub (List.mem_of_mem_head? hfirst))
  obtain ⟨it, hit⟩ := exists_rule1Level (hsub hi)
  exact levelImbalance_mono hd hn (first_le hfirst hi) hhi hit

include hd hn hlast in
theorem levelImbalance_le_last {i : Nat} (hi : i ∈ (rule2Levels book).1) :
    levelImbalance book i ≤ levelImbalance book last := by
  have hsub := (rule2Levels_sublist book).subset
  obtain ⟨lo, hlo⟩ := exists_rule1Level (hsub (List.mem_of_mem_getLast? hlast))
  obtain ⟨it, hit⟩ := exists_rule1Level (hsub hi)
  exact levelImbalance_mono hd hn (le_last hlast hi) hit hlo

include hd hn hfirst in
/-- There are more buyers at every level if there are at the first. -/
theorem first_pos_iff : 0 < levelImbalance book first ↔
    ∀ i ∈ (rule2Levels book).1, 0 < levelImbalance book i :=
  ⟨fun h _ hi => h.trans_le (levelImbalance_first_le hd hn hfirst hi),
    fun h => h first (List.mem_of_mem_head? hfirst)⟩

include hd hn hlast in
/-- There are more sellers at every level if there are at the last. -/
theorem last_neg_iff : levelImbalance book last < 0 ↔
    ∀ i ∈ (rule2Levels book).1, levelImbalance book i < 0 :=
  ⟨fun h _ hi => (levelImbalance_le_last hd hn hlast hi).trans_lt h,
    fun h => h last (List.mem_of_mem_getLast? hlast)⟩

/-- The imbalance of a level is read at its distance from the first level. -/
theorem getElem?_imbalance (hd : DepthBook.Descending book) (hn : NonNeg book) {i : Nat}
    (hi : i ∈ rule1Levels book) :
    (rule2Levels book).2[i - (rule1Levels book).headD 0]? = some (levelImbalance book i) := by
  rw [rule2Levels_snd hd hn, List.getElem?_map, getElem?_sub_head (rule1Levels_range hn) hi]
  rfl

include hd hn hfirst hlast in
/-- The third rule moves the reference price between the first and the last level. -/
theorem execRule3_eq (env : Env B) {hi lo : DepthBookItem} (hhi : book[first]? = some hi)
    (hlo : book[last]? = some lo) (refPrice pricePrecision : Int) :
    execRule3 env book ((rule1Levels book).headD 0) refPrice pricePrecision (rule2Levels book).1
        (rule2Levels book).2 =
      some (bestPriceFromRefPrice hi.price lo.price
        (pressedRefPrice env book refPrice pricePrecision)) := by
  have hsub := (rule2Levels_sublist book).subset
  have hx := getElem?_imbalance hd hn (hsub (List.mem_of_mem_head? hfirst))
  have hy := getElem?_imbalance hd hn (hsub (List.mem_of_mem_getLast? hlast))
  unfold execRule3 pressedRefPrice
  simp only [hfirst, hlast, hx, hy, hhi, hlo, Option.bind_eq_bind, Option.bind_some,
    Option.map_some, ← first_pos_iff hd hn hfirst, ← last_neg_iff hd hn hlast]
  split_ifs <;> rfl

end Ends

/-! ## The price -/

/-- **The price lies between the levels that are left**, and the third rule chooses it there. -/
theorem periodicAuctionMatchPrice_price {env : Env B} (hd : DepthBook.Descending book)
    (hn : NonNeg book) {prec refPrice price volume : Int}
    (h : periodicAuctionMatchPrice env book prec refPrice = some (price, volume))
    (hpos : 0 < volume) :
    ∃ first last hi lo, (rule2Levels book).1.head? = some first ∧
      (rule2Levels book).1.getLast? = some last ∧ book[first]? = some hi ∧ book[last]? = some lo ∧
      price ∈ Set.Icc lo.price hi.price ∧ (1 < (rule2Levels book).1.length →
        price = bestPriceFromRefPrice hi.price lo.price (pressedRefPrice env book refPrice prec)) := by
  have hvolume := periodicAuctionMatchPrice_volume h
  have hne1 : rule1Levels book ≠ [] := by
    have hmem := (foldl_choice (fun a b : Int => max_choice a b)
      (List.zipWith min (buyAmountSum 0 book) (sellAmountSum book)) 0).resolve_left (by omega)
    obtain ⟨i, hi⟩ := List.mem_iff_getElem?.mp hmem
    exact List.ne_nil_of_mem (mem_execRule1.mpr hi)
  have hne2 : (rule2Levels book).1 ≠ [] := execRule2_ne_nil _ _ hne1
  have hsub := rule2Levels_sublist book
  -- a rule that leaves one level takes its price
  have hone : ∀ l : List Nat, (rule2Levels book).1.Sublist l → l.length = 1 →
      ((book[l.headD 0]?).map fun it => (it.price, volume)) = some (price, volume) →
      ∃ i it, (rule2Levels book).1 = [i] ∧ book[i]? = some it ∧ it.price = price := by
    intro l hl hlen hprice
    obtain ⟨i, rfl⟩ := List.length_eq_one_iff.mp hlen
    obtain ⟨it, hit, heq⟩ := Option.map_eq_some_iff.mp hprice
    refine ⟨i, it, hl.eq_of_length_le ?_, hit, congrArg Prod.fst heq⟩
    rw [List.length_singleton]
    exact List.length_pos_iff.mpr hne2
  unfold periodicAuctionMatchPrice at h
  dsimp only at h
  split_ifs at h with hnil hzero h1 h2
  · cases h
    exact absurd hpos (lt_irrefl _)
  · cases h
    exact absurd hzero hpos.ne'
  · obtain ⟨i, it, hrule2, hit, rfl⟩ := hone (rule1Levels book) hsub h1 (hvolume.symm ▸ h)
    rw [hrule2]
    exact ⟨i, i, it, it, rfl, rfl, hit, hit, ⟨le_rfl, le_rfl⟩, fun h => absurd h (lt_irrefl 1)⟩
  · obtain ⟨i, it, hrule2, hit, rfl⟩ :=
      hone (rule2Levels book).1 (List.Sublist.refl _) h2 (hvolume.symm ▸ h)
    rw [hrule2]
    exact ⟨i, i, it, it, rfl, rfl, hit, hit, ⟨le_rfl, le_rfl⟩, fun h => absurd h (lt_irrefl 1)⟩
  · obtain ⟨best, hbest, heq⟩ := Option.map_eq_some_iff.mp h
    obtain rfl : best = price := congrArg Prod.fst heq
    obtain ⟨first, hfirst⟩ : ∃ first, (rule2Levels book).1.head? = some first :=
      ⟨_, List.head?_eq_some_head hne2⟩
    obtain ⟨last, hlast⟩ : ∃ last, (rule2Levels book).1.getLast? = some last :=
      ⟨_, List.getLast?_eq_some_getLast hne2⟩
    have hlmem := List.mem_of_mem_getLast? hlast
    obtain ⟨hi, hhi⟩ := exists_rule1Level (hsub.subset (List.mem_of_mem_head? hfirst))
    obtain ⟨lo, hlo⟩ := exists_rule1Level (hsub.subset hlmem)
    have hrule3 := execRule3_eq hd hn hfirst hlast env hhi hlo refPrice prec
    have heq : best = bestPriceFromRefPrice hi.price lo.price
        (pressedRefPrice env book refPrice prec) := Option.some.inj (hbest.symm.trans hrule3)
    have hle := price_le_of_le hd (first_le hfirst hlmem) hhi hlo
    refine ⟨first, last, hi, lo, hfirst, hlast, hhi, hlo, ?_, fun _ => heq⟩
    rw [heq]
    exact (bestPriceFromRefPrice_closest _ hle).1

/-- The prices of the levels that are left after rule 2. -/
def remainingPrices (book : DepthBook) : Set Int :=
  { p | ∃ i ∈ (rule2Levels book).1, ∃ it, book[i]? = some it ∧ it.price = p }

/-- What the rules promise about the price of an auction. -/
structure TiesBroken (env : Env B) (book : DepthBook) (refPrice pricePrecision price volume : Int) :
    Prop where
  /-- The levels of rule 1 are consecutive. -/
  rule1 : rule1Levels book = List.range' ((rule1Levels book).headD 0) (rule1Levels book).length
  /-- So are those of rule 2, and there are some. -/
  rule2 : (rule2Levels book).1 =
    List.range' ((rule2Levels book).1.headD 0) (rule2Levels book).1.length
  some_left : (rule2Levels book).1 ≠ []
  /-- A level's imbalance is found at the distance from the first level. -/
  lookup : ∀ i ∈ rule1Levels book, ∃ it, book[i]? = some it ∧
    (rule2Levels book).2[i - (rule1Levels book).headD 0]? = some (imbalance book it.price)
  first_sign : ∀ first, (rule2Levels book).1.head? = some first →
    (0 < levelImbalance book first ↔ ∀ i ∈ (rule2Levels book).1, 0 < levelImbalance book i)
  last_sign : ∀ last, (rule2Levels book).1.getLast? = some last →
    (levelImbalance book last < 0 ↔ ∀ i ∈ (rule2Levels book).1, levelImbalance book i < 0)
  /-- No level that executes the volume has a smaller imbalance than the price. -/
  least : ∀ it ∈ book,
    min (bookLiquidity book .buy it.price) (bookLiquidity book .sell it.price) = volume →
      |imbalance book price| ≤ |imbalance book it.price|
  /-- Of the prices between the levels that are left, none is closer to the reference price. -/
  closest : 1 < (rule2Levels book).1.length → ∃ lo hi, IsLeast (remainingPrices book) lo ∧
    IsGreatest (remainingPrices book) hi ∧ price ∈ Set.Icc lo hi ∧
    ∀ x ∈ Set.Icc lo hi, |price - pressedRefPrice env book refPrice pricePrecision| ≤
      |x - pressedRefPrice env book refPrice pricePrecision|

/-- **Ties are broken as documented**, in every auction that executes anything. -/
theorem ties_broken (env : Env B) {book : DepthBook} (hd : DepthBook.Descending book)
    (hn : NonNeg book) (prec refPrice : Int) :
    ∃ price volume, periodicAuctionMatchPrice env book prec refPrice = some (price, volume) ∧
      (0 < volume → TiesBroken env book refPrice prec price volume) := by
  obtain ⟨price, volume, heq, -, -⟩ := periodicAuctionMatchPrice_spec env hd hn prec refPrice
  refine ⟨price, volume, heq, fun hpos => ?_⟩
  obtain ⟨first, last, hi, lo, hfirst, hlast, hhi, hlo, ⟨hlow, hhigh⟩, hbest⟩ :=
    periodicAuctionMatchPrice_price hd hn heq hpos
  have hfmem := List.mem_of_mem_head? hfirst
  have hlmem := List.mem_of_mem_getLast? hlast
  have hsub := rule2Levels_sublist book
  refine {
    rule1 := rule1Levels_range hn
    rule2 := eq_range'_of_convex ((sorted_execRule1 _ _).sublist hsub) (rule2Levels_convex hd hn)
    some_left := List.ne_nil_of_mem hfmem
    lookup := fun i hi => ?_
    first_sign := fun _ => first_pos_iff hd hn
    last_sign := fun _ => last_neg_iff hd hn
    least := fun it hit hvolume => ?_
    closest := fun hlen => ?_ }
  · obtain ⟨it, hit⟩ := exists_rule1Level hi
    exact ⟨it, hit, levelImbalance_of_get hit ▸ getElem?_imbalance hd hn hi⟩
  · -- the imbalance of the price lies between those of the two ends, which are the smallest
    obtain ⟨i, hi'⟩ := List.mem_iff_getElem?.mp hit
    have hrule1 : i ∈ rule1Levels book := by
      refine mem_execRule1.mpr (List.getElem?_zipWith_eq_some.mpr ⟨_, _,
        getElem?_buyAmountSum hd 0 hi', getElem?_sellAmountSum hd hn hi', ?_⟩)
      rw [zero_add, hvolume]
      exact periodicAuctionMatchPrice_volume heq
    have hleft := ((mem_rule2Levels hd hn).mp hfmem).2 i hrule1
    have hright := ((mem_rule2Levels hd hn).mp hlmem).2 i hrule1
    rw [levelImbalance_of_get hi'] at hleft hright
    rw [levelImbalance_of_get hhi] at hleft
    rw [levelImbalance_of_get hlo] at hright
    exact (abs_le_max_abs_abs (imbalance_anti hn hhigh) (imbalance_anti hn hlow)).trans
      (max_le hleft hright)
  · have hle := price_le_of_le hd (first_le hfirst hlmem) hhi hlo
    rw [hbest hlen]
    refine ⟨lo.price, hi.price, ⟨⟨last, hlmem, lo, hlo, rfl⟩, ?_⟩, ⟨⟨first, hfmem, hi, hhi, rfl⟩, ?_⟩,
      bestPriceFromRefPrice_closest _ hle⟩
    · rintro _ ⟨i, hi', it, hit, rfl⟩
      exact price_le_of_le hd (le_last hlast hi') hit hlo
    · rintro _ ⟨i, hi', it, hit, rfl⟩
      exact price_le_of_le hd (first_le hfirst hi') hhi hit

/-- Four levels are left, two with more sellers and two with more buyers; the reference price lies
between the last two. -/
theorem ties_broken_crossedBook :
    rule2Levels crossedBook = ([0, 1, 2, 3], [-35, -35, 35, 35]) ∧
      periodicAuctionMatchPrice simpleEnv crossedBook 18 96 = some (96, 25) ∧
      TiesBroken simpleEnv crossedBook 96 18 96 25 := by
  have hrun : periodicAuctionMatchPrice simpleEnv crossedBook 18 96 = some (96, 25) := by
    decide +kernel
  obtain ⟨price, volume, heq, hties⟩ :=
    ties_broken simpleEnv descending_crossedBook nonNeg_crossedBook 18 96
  rw [hrun] at heq
  cases heq
  exact ⟨by decide +kernel, hrun, hties (by decide)⟩

end Okexchain
