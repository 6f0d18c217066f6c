import Okexchain.Order.EndBlocker

/-!
# The order in which products are matched

`matchOrders` (`x/order/match/periodicauction/match.go`) collects the names of products by ranging
over Go maps, which yields them in any order, and has `SortProducts` (`x/dex/keeper/keeper.go`) sort
them before `executeMatch` goes through them. This makes nodes agree if the comparison
`TokenPair.IsGT` (`x/dex/types/pair.go`) is a strict total order on the pairs that are listed.

It compares deposits, then heights, and then says that one symbol or the other is smaller. Two pairs
can each be greater than the other: of pairs with the same deposits and height, such as those that a
genesis or one block lists without deposits, one has the smaller base symbol and the other the
smaller quote symbol (`TokenPair.Crosses`). Sorting these two leaves the order of the input
reversed.

* `TokenPair.strictWeakOn_isGT`: on pairs of which no two cross, the comparison is a strict weak
  order, and pairs that it does not tell apart have the same symbols.

**Results.** `State.executeMatch_order_free_iff`: **`SortProducts` gives the same list for all
permutations of listed names, and `executeMatch` the same state, if and only if no two listed pairs
cross.**
-/

namespace Okexchain

namespace TokenPair

/-- Each of the pairs is greater than the other. -/
def Crosses (tp other : TokenPair) : Prop :=
  tp.deposits = other.deposits ∧ tp.blockHeight = other.blockHeight ∧
    tp.baseAssetSymbol < other.baseAssetSymbol ∧ other.quoteAssetSymbol < tp.quoteAssetSymbol

/-- The comparison, as a lexicographic one. -/
theorem isGT_iff {tp other : TokenPair} : tp.isGT other = true ↔
    other.deposits < tp.deposits ∨ tp.deposits = other.deposits ∧
      (tp.blockHeight < other.blockHeight ∨ tp.blockHeight = other.blockHeight ∧
        (tp.baseAssetSymbol < other.baseAssetSymbol ∨
          tp.quoteAssetSymbol < other.quoteAssetSymbol)) := by
  unfold isGT
  split_ifs with hlt hne hbefore hafter
  · simp only [false_iff]
    omega
  · simp only [true_iff]
    omega
  · simp only [true_iff]
    omega
  · simp only [false_iff]
    omega
  · rw [Bool.or_eq_true, decide_eq_true_eq, decide_eq_true_eq]
    have hequal : tp.deposits = other.deposits := by omega
    have hheight : tp.blockHeight = other.blockHeight := by omega
    simp only [hequal, hheight, lt_irrefl, false_or, true_and]

/-- Without crossing pairs the smaller symbol is on one side. -/
theorem isGT_iff_of_not_crosses {tp other : TokenPair} (h : ¬ tp.Crosses other)
    (h' : ¬ other.Crosses tp) : tp.isGT other = true ↔
    other.deposits < tp.deposits ∨ tp.deposits = other.deposits ∧
      (tp.blockHeight < other.blockHeight ∨ tp.blockHeight = other.blockHeight ∧
        (tp.baseAssetSymbol ≤ other.baseAssetSymbol ∧ tp.quoteAssetSymbol ≤ other.quoteAssetSymbol ∧
          (tp.baseAssetSymbol < other.baseAssetSymbol ∨
            tp.quoteAssetSymbol < other.quoteAssetSymbol))) := by
  rw [isGT_iff]
  refine or_congr_right (and_congr_right fun hdeposits => or_congr_right
    (and_congr_right fun hheight => ⟨fun hless => ⟨?_, ?_, hless⟩, fun hless => hless.2.2⟩))
  · rcases hless with hbase | hquote
    · exact hbase.le
    · exact not_lt.mp fun hbase => h' ⟨hdeposits.symm, hheight.symm, hbase, hquote⟩
  · rcases hless with hbase | hquote
    · exact not_lt.mp fun hquote => h ⟨hdeposits, hheight, hbase, hquote⟩
    · exact hquote.le

/-- **Without crossing pairs the comparison is a strict weak order.** -/
theorem strictWeakOn_isGT {l : List TokenPair} (h : ∀ a ∈ l, ∀ b ∈ l, ¬ a.Crosses b) :
    StrictWeakOn isGT l where
  irrefl a ha := by
    rw [← Bool.not_eq_true, isGT_iff]
    simp only [lt_irrefl, or_self, and_false, not_false_eq_true]
  trans a ha b hb c hc hab hbc := by
    rw [isGT_iff_of_not_crosses (h a ha b hb) (h b hb a ha)] at hab
    rw [isGT_iff_of_not_crosses (h b hb c hc) (h c hc b hb)] at hbc
    rw [isGT_iff]
    grind
  notLess_trans a ha b hb c hc hab hbc := by
    rw [← Bool.not_eq_true, isGT_iff] at hab hbc ⊢
    grind

/-- Pairs that the comparison does not tell apart have the same symbols. -/
theorem name_eq_of_not_isGT {a b : TokenPair} (hab : a.isGT b = false) (hba : b.isGT a = false) :
    a.name = b.name := by
  rw [← Bool.not_eq_true, isGT_iff] at hab hba
  have hbase : a.baseAssetSymbol = b.baseAssetSymbol := by grind
  have hquote : a.quoteAssetSymbol = b.quoteAssetSymbol := by grind
  unfold name
  rw [hbase, hquote]

/-- Of two pairs that cross, each is greater. -/
theorem Crosses.isGT {a b : TokenPair} (h : a.Crosses b) : a.isGT b = true ∧ b.isGT a = true := by
  obtain ⟨hdeposits, hheight, hbase, hquote⟩ := h
  exact ⟨isGT_iff.mpr (.inr ⟨hdeposits, .inr ⟨hheight, .inl hbase⟩⟩),
    isGT_iff.mpr (.inr ⟨hdeposits.symm, .inr ⟨hheight.symm, .inr hquote⟩⟩)⟩

end TokenPair

namespace Dex

variable {dex : Dex}

theorem listed_of_mem {products : List String} {tp : TokenPair}
    (h : tp ∈ products.filterMap dex.getTokenPair) : dex.getTokenPair tp.name = some tp := by
  obtain ⟨product, -, hget⟩ := List.mem_filterMap.mp h
  rw [name_of_getTokenPair hget]
  exact hget

/-- On listed names the slice is overwritten completely. -/
theorem sortProducts_of_listed (srt : Sorter) {l : List String}
    (hlisted : ∀ p ∈ l, (dex.getTokenPair p).isSome) :
    dex.sortProducts srt l =
      (srt.sort TokenPair.isGT (l.filterMap dex.getTokenPair)).map TokenPair.name := by
  have hlen : (srt.sort TokenPair.isGT (l.filterMap dex.getTokenPair)).length = l.length := by
    rw [(srt.perm _ _).length_eq, length_filterMap hlisted]
  unfold sortProducts
  simp only [hlen, List.drop_length, List.append_nil]

/-- Without crossing pairs the order of the names does not matter. -/
theorem sortProducts_eq_of_perm (srt : Sorter)
    (hno : ∀ p q a b, dex.getTokenPair p = some a → dex.getTokenPair q = some b → ¬ a.Crosses b)
    {l l' : List String} (hperm : l.Perm l') (hlisted : ∀ p ∈ l, (dex.getTokenPair p).isSome) :
    dex.sortProducts srt l = dex.sortProducts srt l' := by
  have hlisted' : ∀ p ∈ l', (dex.getTokenPair p).isSome := fun p hp =>
    hlisted p (hperm.mem_iff.mpr hp)
  have hsort : srt.sort TokenPair.isGT (l.filterMap dex.getTokenPair) =
      srt.sort TokenPair.isGT (l'.filterMap dex.getTokenPair) := by
    refine srt.sort_eq_of_perm (TokenPair.strictWeakOn_isGT fun a ha b hb =>
      hno _ _ a b (listed_of_mem ha) (listed_of_mem hb)) (fun a ha b hb hab hba => ?_)
      (hperm.filterMap _)
    have hname := TokenPair.name_eq_of_not_isGT hab hba
    have hget := listed_of_mem ha
    rw [hname, listed_of_mem hb] at hget
    exact (Option.some.inj hget).symm
  rw [sortProducts_of_listed srt hlisted, sortProducts_of_listed srt hlisted', hsort]

/-- Two pairs that cross are left in reverse. -/
theorem sortProducts_ne_of_crosses (srt : Sorter) {p q : String} {a b : TokenPair}
    (ha : dex.getTokenPair p = some a) (hb : dex.getTokenPair q = some b) (h : a.Crosses b) :
    dex.sortProducts srt [p, q] ≠ dex.sortProducts srt [q, p] := by
  have hpair : ∀ {p q a b}, dex.getTokenPair p = some a → dex.getTokenPair q = some b →
      b.isGT a = true → dex.sortProducts srt [p, q] = [b.name, a.name] := by
    intro p q a b ha hb hgt
    unfold sortProducts
    simp only [List.filterMap_cons, ha, hb, List.filterMap_nil, srt.two, hgt, if_true]
    rfl
  rw [hpair ha hb h.isGT.2, hpair hb ha h.isGT.1]
  intro heq
  -- one name is one pair, which does not cross itself
  have hname : b.name = a.name := (List.cons.inj heq).1
  rw [name_of_getTokenPair ha, name_of_getTokenPair hb] at hname
  rw [hname, ha] at hb
  cases hb
  exact lt_irrefl _ h.2.2.1

end Dex

namespace State

variable {B : Type}

/-- **Matching does not depend on the order of map iteration if and only if no two listed pairs
cross**: then `SortProducts` gives the same list for all permutations of listed names, and
`executeMatch`, with any limit of deals, the same state, match results and locks. -/
theorem executeMatch_order_free_iff (env : Env B) (dex : Dex) :
    (∀ l l' : List String, l.Perm l' → (∀ p ∈ l, (dex.getTokenPair p).isSome) →
        dex.sortProducts env.sorter l = dex.sortProducts env.sorter l' ∧
          ∀ (s : State B) (height : Nat) (results : KVStore String MatchResult)
            (lockMap : KVStore String ProductLock),
            s.executeMatch env height (dex.sortProducts env.sorter l) results lockMap =
              s.executeMatch env height (dex.sortProducts env.sorter l') results lockMap) ↔
      ∀ p q a b, dex.getTokenPair p = some a → dex.getTokenPair q = some b → ¬ a.Crosses b := by
  constructor
  · intro h p q a b ha hb hcross
    have hlisted : ∀ r ∈ [p, q], (dex.getTokenPair r).isSome := by
      intro r hr
      rcases List.mem_pair.mp hr with rfl | rfl
      · rw [ha]
        rfl
      · rw [hb]
        rfl
    exact Dex.sortProducts_ne_of_crosses env.sorter ha hb hcross
      (h [p, q] [q, p] (List.Perm.swap q p []) hlisted).1
  · intro hno l l' hperm hlisted
    have heq := Dex.sortProducts_eq_of_perm env.sorter hno hperm hlisted
    refine ⟨heq, fun s height results lockMap => ?_⟩
    rw [heq]

end State

/-- A pair that `handleMsgList` lists in the first block. -/
def firstPair (base quote : String) : TokenPair where
  baseAssetSymbol := base
  quoteAssetSymbol := quote
  initPrice := Dec.one
  maxPriceDigit := 4
  maxQuantityDigit := 4
  minQuantity := 10000000000
  delisting := false
  owner := "owner"
  deposits := 0
  blockHeight := 1

/-- Two pairs of one block. -/
def crossedDex : Dex where
  tokenPairs := (TokenPairStore.save ⟨∅, fun _ _ h => (by cases h)⟩ (firstPair "abc" "usdk")).save
    (firstPair "btc" "okt")
  operators := ∅
  productLocks := ∅

/-- The two names are sorted in both orders. -/
theorem sortProducts_crossed :
    crossedDex.sortProducts insertionSorter ["abc_usdk", "btc_okt"] = ["btc_okt", "abc_usdk"] ∧
      crossedDex.sortProducts insertionSorter ["btc_okt", "abc_usdk"] = ["abc_usdk", "btc_okt"] := by
  decide +kernel

end Okexchain
