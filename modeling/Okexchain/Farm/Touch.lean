import Okexchain.Farm.References
import Okexchain.Farm.Yield

/-!
# A pool that is touched at several heights

Every handler that touches a pool first calls `CalculateAmountYieldedBetween`, then
`IncrementPoolPeriod`, and stores the pool (`x/farm/keeper/calc.go`). So the yield of a pool is
computed in parts, from the last touch to the present one, and the source stops a yield that has run
out by resetting its record. What a pool has yielded by some height does not depend on the parts.

* `YieldedTokenInfo.yield_eq`: a yield in terms of the number of blocks that count.
* `YieldedTokenInfo.yield_yield`: two parts one after the other are the whole.
* `YieldedTokenInfo.Proper`: amounts are not negative, and the start height zero, which the source
  takes for "no yield", only stands where nothing is left. `keeps_properYields` and
  `FarmReach.startedBy`: this is so in every run, and the current period of a pool has always begun.

**Results.** `FarmBooks.yield_path_independent`: **after touching a pool at any heights, its yields
and its total are as after touching it at the last one**, and the total of a yield is `min A (r *
max 0 (hₙ - max s start))`.
-/

namespace Okexchain

/-! ## One yield -/

namespace YieldedTokenInfo

/-- A yield that is not negative; one that never starts has nothing left. -/
structure Proper (info : YieldedTokenInfo) : Prop extends info.NonNeg where
  starts : info.startBlockHeightToYield = 0 → info.remainingAmount.amount = 0

/-- What a yield gives in some blocks. -/
def yieldFor (info : YieldedTokenInfo) (blocks : Nat) : YieldedTokenInfo × Coins :=
  if info.startBlockHeightToYield = 0 ∨ blocks = 0 then (info, 0)
  else if blocks * info.amountYieldedPerBlock < info.remainingAmount.amount then
    ({ info with remainingAmount := { info.remainingAmount with
        amount := info.remainingAmount.amount - blocks * info.amountYieldedPerBlock } },
      coin info.remainingAmount.denom (blocks * info.amountYieldedPerBlock))
  else (⟨⟨info.remainingAmount.denom, 0⟩, 0, 0⟩, info.remainingAmount.toCoins)

/-- The blocks that count are those after the start of the period and of the yield. -/
theorem yield_eq (start height : Nat) (info : YieldedTokenInfo) :
    info.yield start height =
      info.yieldFor (height - max start info.startBlockHeightToYield) := by
  unfold yield yieldFor
  rw [show (if start ≤ info.startBlockHeightToYield then info.startBlockHeightToYield else start) =
    max start info.startBlockHeightToYield from (max_def _ _).symm]
  generalize max start info.startBlockHeightToYield = first
  dsimp only
  rw [Dec.mulTruncate_newDec]
  by_cases hnone : info.startBlockHeightToYield = 0 ∨ height ≤ first
  · rw [if_pos hnone, if_pos (hnone.imp_right Nat.sub_eq_zero_of_le)]
  · have hblocks : ((height - first : Nat) : Int) = (height : Int) - first := by omega
    rw [if_neg hnone, if_neg (hnone ∘ Or.imp_right Nat.le_of_sub_eq_zero), hblocks]
    rfl

/-- What a yield comes to. -/
theorem Proper.yieldFor {info : YieldedTokenInfo} (h : info.Proper) (blocks : Nat) :
    (info.yieldFor blocks).2 = coin info.remainingAmount.denom
      (min info.remainingAmount.amount (info.amountYieldedPerBlock * blocks)) := by
  have hremaining := h.remaining
  unfold YieldedTokenInfo.yieldFor
  rw [Int.mul_comm]
  split_ifs with hnone hlt
  · rcases hnone with hzero | rfl
    · rw [h.starts hzero, min_eq_left (Int.mul_nonneg h.perBlock (Int.natCast_nonneg _)), coin_zero]
    · rw [Int.natCast_zero, Int.mul_zero, min_eq_right hremaining, coin_zero]
  · rw [min_eq_right hlt.le]
  · rw [min_eq_left (not_lt.mp hlt)]
    rfl

/-- A yield that has run out, or never starts, gives nothing in any number of blocks. -/
theorem yieldFor_of_zero {info : YieldedTokenInfo} (h : info.startBlockHeightToYield = 0)
    (blocks : Nat) : info.yieldFor blocks = (info, 0) := if_pos (.inl h)

/-- A yield keeps its start height, or runs out. -/
theorem start_yieldFor (info : YieldedTokenInfo) (blocks : Nat) :
    (info.yieldFor blocks).1.startBlockHeightToYield = info.startBlockHeightToYield ∨
      (info.yieldFor blocks).1.startBlockHeightToYield = 0 := by
  unfold yieldFor
  split_ifs
  · exact .inl rfl
  · exact .inl rfl
  · exact .inr rfl

/-- The blocks of two parts add up. -/
theorem yieldFor_add (info : YieldedTokenInfo) (hrate : 0 ≤ info.amountYieldedPerBlock) (m n : Nat) :
    (((info.yieldFor m).1.yieldFor n).1, (info.yieldFor m).2 + ((info.yieldFor m).1.yieldFor n).2) =
      info.yieldFor (m + n) := by
  by_cases hzero : info.startBlockHeightToYield = 0
  · simp only [yieldFor_of_zero hzero, add_zero]
  rcases Nat.eq_zero_or_pos m with rfl | hm
  · have hnone : info.yieldFor 0 = (info, 0) := if_pos (.inr rfl)
    rw [hnone, zero_add, Nat.zero_add]
  have hcast : ((m + n : Nat) : Int) * info.amountYieldedPerBlock =
      m * info.amountYieldedPerBlock + n * info.amountYieldedPerBlock := by
    rw [Int.natCast_add, Int.add_mul]
  have hn : 0 ≤ n * info.amountYieldedPerBlock := Int.mul_nonneg (Int.natCast_nonneg _) hrate
  have hm' : ¬ (info.startBlockHeightToYield = 0 ∨ m = 0) := by omega
  have hmn : ¬ (info.startBlockHeightToYield = 0 ∨ m + n = 0) := by omega
  by_cases hleft : m * info.amountYieldedPerBlock < info.remainingAmount.amount
  · have hrun : info.yieldFor m = ({ info with remainingAmount := { info.remainingAmount with
        amount := info.remainingAmount.amount - m * info.amountYieldedPerBlock } },
        coin info.remainingAmount.denom (m * info.amountYieldedPerBlock)) := by
      unfold yieldFor
      rw [if_neg hm', if_pos hleft]
    rw [hrun]
    unfold yieldFor
    rw [if_neg hmn, hcast]
    dsimp only
    rcases Nat.eq_zero_or_pos n with rfl | hn'
    · rw [if_pos (.inr rfl), if_pos (by omega), Int.natCast_zero, Int.zero_mul, add_zero, add_zero]
    · rw [if_neg (by omega)]
      by_cases hrest : m * info.amountYieldedPerBlock + n * info.amountYieldedPerBlock <
          info.remainingAmount.amount
      · rw [if_pos hrest, if_pos (by omega), sub_sub, coin_add]
      · rw [if_neg hrest, if_neg (by omega), DecCoin.toCoins, DecCoin.toCoins, ← coin_add,
          add_sub_cancel]
  · -- it has run out in the first part, and gives nothing in the second
    have hrun : info.yieldFor m = (⟨⟨info.remainingAmount.denom, 0⟩, 0, 0⟩,
        info.remainingAmount.toCoins) := by
      unfold yieldFor
      rw [if_neg hm', if_neg hleft]
    have hall : info.yieldFor (m + n) = (⟨⟨info.remainingAmount.denom, 0⟩, 0, 0⟩,
        info.remainingAmount.toCoins) := by
      unfold yieldFor
      rw [if_neg hmn, if_neg (by omega)]
    rw [hrun, hall]
    show ((YieldedTokenInfo.yieldFor _ n).1, _ + (YieldedTokenInfo.yieldFor _ n).2) = _
    rw [yieldFor_of_zero rfl, add_zero]

/-- **Two parts of a yield are the whole.** -/
theorem yield_yield {start mid height : Nat} (info : YieldedTokenInfo)
    (hrate : 0 ≤ info.amountYieldedPerBlock) (hmid : start ≤ mid) (hheight : mid ≤ height) :
    (((info.yield start mid).1.yield mid height).1,
      (info.yield start mid).2 + ((info.yield start mid).1.yield mid height).2) =
        info.yield start height := by
  rw [yield_eq start mid, yield_eq start height]
  set first := info.yieldFor (mid - max start info.startBlockHeightToYield) with hfirst
  have hsecond : first.1.yield mid height =
      first.1.yieldFor (height - max mid info.startBlockHeightToYield) := by
    rw [yield_eq]
    rcases info.start_yieldFor (mid - max start info.startBlockHeightToYield) with hs | hs
    · rw [← hfirst] at hs
      rw [hs]
    · rw [yieldFor_of_zero hs, yieldFor_of_zero hs]
  rw [hsecond, hfirst, yieldFor_add info hrate]
  congr 1
  omega

end YieldedTokenInfo

/-! ## A pool -/

namespace FarmPool

variable {pool : FarmPool}

/-- What a yield keeps, the yields of a pool keep. -/
theorem infos_afterYield {P : YieldedTokenInfo → Prop} {start height : Nat}
    (hyield : ∀ info, P info → P (info.yield start height).1)
    (h : ∀ info ∈ pool.yieldedTokenInfos, P info) :
    ∀ info ∈ (pool.afterYield start height).yieldedTokenInfos, P info := by
  intro info' hinfo'
  obtain ⟨entry, hentry, rfl⟩ := List.mem_map.mp hinfo'
  obtain ⟨info, hinfo, rfl⟩ := List.mem_map.mp hentry
  exact hyield info (h info hinfo)

/-- Two parts of the yields of a pool are the whole. -/
theorem afterYield_afterYield (h : ∀ info ∈ pool.yieldedTokenInfos, info.NonNeg)
    {start mid height : Nat} (hmid : start ≤ mid) (hheight : mid ≤ height) :
    (pool.afterYield start mid).afterYield mid height = pool.afterYield start height ∧
      pool.yielded start mid + (pool.afterYield start mid).yielded mid height =
        pool.yielded start height := by
  have hparts : ∀ info ∈ pool.yieldedTokenInfos,
      (((info.yield start mid).1.yield mid height).1,
        (info.yield start mid).2 + ((info.yield start mid).1.yield mid height).2) =
          info.yield start height := fun info hinfo =>
    info.yield_yield (h info hinfo).perBlock hmid hheight
  have hsum : pool.yielded start mid + (pool.afterYield start mid).yielded mid height =
      pool.yielded start height := by
    unfold yielded yields afterYield yields
    simp only [List.map_map]
    rw [← List.sum_map_add]
    exact congrArg List.sum (List.map_congr_left fun info hinfo =>
      congrArg Prod.snd (hparts info hinfo))
  refine ⟨?_, hsum⟩
  have hinfos : ((pool.afterYield start mid).yields mid height).map Prod.fst =
      (pool.yields start height).map Prod.fst := by
    unfold afterYield yields
    simp only [List.map_map]
    have hfst : ∀ info ∈ pool.yieldedTokenInfos,
        ((info.yield start mid).1.yield mid height).1 = (info.yield start height).1 :=
      fun info hinfo => (Prod.ext_iff.mp (hparts info hinfo)).1
    exact List.map_congr_left hfst
  have hrewards : (pool.afterYield start mid).totalAccumulatedRewards +
      (pool.afterYield start mid).yielded mid height =
        pool.totalAccumulatedRewards + pool.yielded start height := by
    rw [← hsum, ← add_assoc]
    rfl
  show ({ pool with
    yieldedTokenInfos := ((pool.afterYield start mid).yields mid height).map Prod.fst
    totalAccumulatedRewards := (pool.afterYield start mid).totalAccumulatedRewards +
      (pool.afterYield start mid).yielded mid height } : FarmPool) = _
  rw [hinfos, hrewards]
  rfl

end FarmPool

/-! ## Touches -/

namespace FarmBooks

/-- A touch of a pool: what it has yielded is computed, the period ends, and the pool is stored. -/
def touch (height : Nat) (b : FarmBooks) (poolName : PoolName) :
    Except FarmError (FarmBooks × Coins) := do
  let pool ← orThrow (b.getFarmPool poolName) (.noFarmPoolFound poolName)
  let (updatedPool, yieldedTokens) ← b.calculateAmountYieldedBetween height pool
  let (b, _) ← b.incrementPoolPeriod height pool.name pool.totalValueLocked yieldedTokens
  return (b.setFarmPool updatedPool, yieldedTokens)

/-- Touches at several heights, with all that is yielded. -/
def touchAll (poolName : PoolName) : FarmBooks → List Nat → Except FarmError (FarmBooks × Coins)
  | b, [] => .ok (b, 0)
  | b, height :: heights => do
    let (b, yieldedTokens) ← b.touch height poolName
    let (b, rest) ← touchAll poolName b heights
    return (b, yieldedTokens + rest)

variable {b : FarmBooks} {pool : FarmPool} {cur : PoolCurrentRewards}
  {hist : PoolHistoricalRewards}

/-- A touch succeeds, and the pool can be touched again. -/
theorem Settles.touch (h : b.Settles pool cur hist) (height : Nat) :
    ∃ b' hist', b.touch height pool.name = .ok (b', pool.yielded cur.startBlockHeight height) ∧
      b'.Settles (pool.afterYield cur.startBlockHeight height) ⟨height, cur.period + 1, 0⟩ hist' := by
  refine ⟨(b.settle height pool cur hist).setFarmPool (pool.afterYield cur.startBlockHeight height),
    ⟨hist.cumulativeRewardRatio +
      currentRatio (cur.rewards + pool.yielded cur.startBlockHeight height) pool.totalValueLocked, 1⟩,
    ?_, ?_⟩
  · unfold FarmBooks.touch
    simp only [bind_eq_ok, orThrow_eq_ok, pure_eq_ok, Prod.exists]
    exact ⟨pool, h.get_pool, _, _, calculateAmountYieldedBetween_eq_ok.mpr ⟨cur, h.get_cur, rfl⟩, _, _,
      h.incrementPoolPeriod height, rfl⟩
  · constructor
    case get_pool => exact KeyedStore.get_put_self
    case get_cur => exact KVStore.get_set_self
    case get_hist => exact KVStore.get_set_self
    case referenced => exact one_ne_zero

/-- **Touches at several heights are as one at the last.** -/
theorem Settles.touchAll (h : b.Settles pool cur hist)
    (hinfos : ∀ info ∈ pool.yieldedTokenInfos, info.NonNeg) {heights : List Nat}
    (hne : heights ≠ []) (hsorted : (cur.startBlockHeight :: heights).Pairwise (· ≤ ·)) :
    ∃ b', b.touchAll pool.name heights =
        .ok (b', pool.yielded cur.startBlockHeight (heights.getLast hne)) ∧
      b'.getFarmPool pool.name =
        some (pool.afterYield cur.startBlockHeight (heights.getLast hne)) := by
  induction heights generalizing b pool cur hist with
  | nil => exact absurd rfl hne
  | cons height heights ih =>
    obtain ⟨b₁, hist₁, htouch, hsettles⟩ := h.touch height
    obtain ⟨hstart, hrest⟩ := List.pairwise_cons.mp hsorted
    unfold FarmBooks.touchAll
    simp only [bind_eq_ok, pure_eq_ok, Prod.exists, Prod.mk.injEq]
    by_cases hnil : heights = []
    · subst hnil
      exact ⟨b₁, ⟨b₁, _, htouch, b₁, 0, rfl, rfl, add_zero _⟩, hsettles.get_pool⟩
    · have hinfos' := FarmPool.infos_afterYield
        (fun info (hinfo : info.NonNeg) => (hinfo.yield cur.startBlockHeight height).1) hinfos
      obtain ⟨b', hall, hpool⟩ := ih hsettles hinfos' hnil hrest
      have hlast : height ≤ heights.getLast hnil :=
        (List.pairwise_cons.mp hrest).1 _ (List.getLast_mem hnil)
      obtain ⟨hafter, hyielded⟩ :=
        FarmPool.afterYield_afterYield hinfos (hstart height List.mem_cons_self) hlast
      rw [List.getLast_cons hnil]
      refine ⟨b', ⟨b₁, _, htouch, b', _, hall, rfl, hyielded⟩, ?_⟩
      rw [← hafter]
      exact hpool

end FarmBooks

/-! ## Runs -/

theorem YieldedTokenInfo.Proper.yield {info : YieldedTokenInfo} (h : info.Proper)
    (start height : Nat) : (info.yield start height).1.Proper where
  toNonNeg := (h.toNonNeg.yield start height).1
  starts := by
    rw [YieldedTokenInfo.yield_eq]
    unfold YieldedTokenInfo.yieldFor
    split_ifs with hnone hlt
    · exact h.starts
    · exact fun hzero => absurd (.inl hzero) hnone
    · exact fun _ => rfl

/-- Every pool has proper yields. -/
def ProperYields (pools : KeyedStore FarmPool.name) : Prop :=
  ∀ p pool, pools.get p = some pool → ∀ info ∈ pool.yieldedTokenInfos, info.Proper

theorem ProperYields.put {pools : KeyedStore FarmPool.name} {pool : FarmPool} (h : ProperYields pools)
    (hpool : ∀ info ∈ pool.yieldedTokenInfos, info.Proper) : ProperYields (pools.put pool) := by
  intro p pool' hget
  rw [KeyedStore.get_put] at hget
  split_ifs at hget
  · cases hget
    exact hpool
  · exact h p pool' hget

theorem MsgProvide.start_ne_zero {m : MsgProvide} (h : m.validateBasic = none) :
    m.startHeightToYield ≠ 0 := by
  unfold validateBasic at h
  split_ifs at h
  assumption

theorem keeps_properYields (createOK : FarmBooks → PoolName → Prop) :
    FarmKeeps createOK fun _ l => ProperYields l.books.farmPools where
  genesis := fun _ _ h => (by cases h)
  effect height history l evs l' he h := by
    cases he with
    | create params msg hcreate _ _ =>
      rw [hcreate.books]
      refine h.put fun info hinfo => ?_
      obtain rfl := List.mem_singleton.mp hinfo
      exact ⟨⟨le_rfl, le_rfl⟩, fun _ => rfl⟩
    | destroy pool cur hdestroy =>
      rw [hdestroy.books]
      intro p pool' hget
      have hget : (l.books.farmPools.delete pool.name).get p = some pool' := hget
      rw [KeyedStore.get_delete] at hget
      split_ifs at hget
      exact h p pool' hget
    | provide pool cur hist info msg hprovide hbasic =>
      obtain ⟨hamount, hperBlock⟩ := MsgProvide.amount_pos hbasic
      rw [hprovide.stores]
      refine h.put fun info' hinfo => ?_
      obtain rfl := List.mem_singleton.mp hinfo
      exact ⟨⟨hamount.le, hperBlock.le⟩, fun hzero => absurd hzero (MsgProvide.start_ne_zero hbasic)⟩
    | relock pool cur hist addr old change rewards hrelock _ =>
      rw [hrelock.stores]
      have hinfos := h _ pool hrelock.settles.get_pool
      exact h.put (FarmPool.infos_afterYield
        (fun info hinfo => YieldedTokenInfo.Proper.yield hinfo cur.startBlockHeight height) hinfos)
    | credit pool cur amount hpool _ _ => exact h.put (h _ pool hpool)
    | enlist pool _ => exact h
    | delist p => exact h

/-- No period starts after a height. -/
def StartedBy (height : Nat) (l : FarmLedger) : Prop :=
  ∀ p cur, l.books.currentRewards.get p = some cur → cur.startBlockHeight ≤ height

theorem StartedBy.set {height : Nat} {l l' : FarmLedger} {p : PoolName} {cur : PoolCurrentRewards}
    (h : StartedBy height l) (hcur : cur.startBlockHeight ≤ height)
    (hset : l'.books.currentRewards = l.books.currentRewards.set p cur) : StartedBy height l' := by
  intro q cur' hget
  rw [hset, KVStore.get_set] at hget
  split_ifs at hget
  · cases hget
    exact hcur
  · exact h q cur' hget

theorem FarmEffect.startedBy {height : Nat} {createOK : FarmBooks → PoolName → Prop}
    {l l' : FarmLedger} {evs : List FarmEvent} (he : FarmEffect height createOK l evs l')
    (h : StartedBy height l) : StartedBy height l' := by
  cases he with
  | create params msg hcreate _ _ => exact h.set le_rfl (by rw [hcreate.books]; rfl)
  | destroy pool cur hdestroy =>
    intro p cur' hget
    rw [hdestroy.books] at hget
    have hget : (l.books.currentRewards.delete pool.name).get p = some cur' := hget
    rw [KVStore.get_delete] at hget
    split_ifs at hget
    exact h p cur' hget
  | provide pool cur hist info msg hprovide _ => exact h.set le_rfl (by rw [hprovide.stores])
  | relock pool cur hist addr old change rewards hrelock _ =>
    exact h.set le_rfl (by rw [hrelock.stores])
  | credit pool cur amount _ hcur _ =>
    have hset : (l.books.credit pool cur amount).currentRewards = l.books.currentRewards.set pool.name
        { cur with rewards := cur.rewards + coin bondDenom amount } := rfl
    refine h.set ?_ hset
    exact h _ cur hcur
  | enlist pool _ => exact h
  | delist p => exact h

/-- **The current period of a pool has begun**, at every node of every run. -/
theorem FarmReach.startedBy {B : Type} {sk : SupplyKeeper B}
    {createOK : FarmBooks → PoolName → Prop} {n : FarmNode B} (hn : FarmReach sk createOK n) :
    StartedBy n.height (n.state.ledger sk) := by
  induction hn with
  | @genesis height s h =>
    intro p cur hget
    have hbooks : (s.ledger sk).books = ⟨∅, ∅, ∅, ∅, ∅, ∅⟩ := h.books
    rw [hbooks] at hget
    cases hget
  | @step n a hn ha ih =>
    obtain ⟨evs, heffs, hheight, -⟩ | rfl := FarmNode.step_effects ha
    · rw [hheight]
      generalize (n.step sk a).state.ledger sk = l' at heffs
      generalize n.state.ledger sk = l at ih heffs
      clear hheight
      induction heffs with
      | refl => exact ih
      | head he _ ih' => exact ih' (he.startedBy ih)
    · exact fun p cur hget => (ih p cur hget).trans (Nat.le_succ _)

/-- **A pool of a run can be touched**, if the names of its pools are apart. -/
theorem FarmReach.touchable {B : Type} {sk : SupplyKeeper B} {n : FarmNode B}
    (hn : FarmReach sk NamesApart n) {p : PoolName} {pool : FarmPool}
    (hpool : n.state.books.getFarmPool p = some pool) :
    ∃ cur hist, n.state.books.Settles pool cur hist ∧ cur.startBlockHeight ≤ n.height ∧
      ∀ info ∈ pool.yieldedTokenInfos, info.Proper := by
  obtain ⟨-, hreferences⟩ := keeps_references.reach hn
  obtain ⟨cur, hist, hsettles⟩ := hreferences.settles hpool
  exact ⟨cur, hist, hsettles, hn.startedBy _ cur hsettles.get_cur,
    (keeps_properYields NamesApart).reach hn p pool hpool⟩

/-! ## The result -/

namespace FarmBooks

variable {b : FarmBooks} {pool : FarmPool} {cur : PoolCurrentRewards}
  {hist : PoolHistoricalRewards}

/-- **Yield does not depend on when a pool is touched.** The pool's yields and its total after the
touches are those after one touch at the last height. -/
theorem yield_path_independent (h : b.Settles pool cur hist)
    (hproper : ∀ info ∈ pool.yieldedTokenInfos, info.Proper) {heights : List Nat}
    (hne : heights ≠ []) (hincreasing : heights.Pairwise (· < ·))
    (hstarted : ∀ height ∈ heights, cur.startBlockHeight ≤ height) :
    ∃ b' b₁ pool' total, b.touchAll pool.name heights = .ok (b', total) ∧
      b.touch (heights.getLast hne) pool.name = .ok (b₁, total) ∧
      b'.getFarmPool pool.name = some pool' ∧ b₁.getFarmPool pool.name = some pool' ∧
      total = (pool.yieldedTokenInfos.map fun info => coin info.remainingAmount.denom
        (min info.remainingAmount.amount (info.amountYieldedPerBlock *
          max 0 ((heights.getLast hne : Int) -
            max cur.startBlockHeight info.startBlockHeightToYield)))).sum := by
  obtain ⟨b', hall, hpool'⟩ := h.touchAll (fun info hinfo => (hproper info hinfo).toNonNeg) hne
    (List.pairwise_cons.mpr ⟨hstarted, hincreasing.imp le_of_lt⟩)
  obtain ⟨b₁, hist₁, htouch, hsettles⟩ := h.touch (heights.getLast hne)
  refine ⟨b', b₁, _, _, hall, htouch, hpool', hsettles.get_pool, ?_⟩
  unfold FarmPool.yielded FarmPool.yields
  rw [List.map_map]
  refine congrArg List.sum (List.map_congr_left fun info hinfo => ?_)
  show (info.yield cur.startBlockHeight (heights.getLast hne)).2 = _
  rw [YieldedTokenInfo.yield_eq, (hproper info hinfo).yieldFor]
  congr 3
  omega

/-- The pool of Alice, which yields 1 a block from height 2 on, has run out by height 200. -/
theorem yield_path_independent_poolA : ∃ b' b₁ pool',
    poolAOpen.state.books.touchAll poolA [5, 200] = .ok (b', coin bondDenom (Dec.newDec 100)) ∧
      poolAOpen.state.books.touch 200 poolA = .ok (b₁, coin bondDenom (Dec.newDec 100)) ∧
      b'.getFarmPool poolA = some pool' ∧ b₁.getFarmPool poolA = some pool' := by
  have hapart : NamesApart farmStart.state.books poolA := fun q hq => (by cases hq)
  have hrun : (poolAOpen.state.books.getFarmPool poolA).map (fun pool =>
      (pool.name, pool.yieldedTokenInfos)) =
        some (poolA, [⟨⟨bondDenom, Dec.newDec 100⟩, 2, Dec.newDec 1⟩]) := by
    decide +kernel
  obtain ⟨pool, hpool, hfields⟩ := Option.map_eq_some_iff.mp hrun
  obtain ⟨hname, hinfos⟩ := Prod.mk.inj hfields
  obtain ⟨cur, hist, hsettles, hstart, hproper⟩ := (reach_poolAOpen hapart).touchable hpool
  have hheight : poolAOpen.height = 1 := by decide +kernel
  obtain ⟨b', b₁, pool', total, hall, hone, hpool', hpool₁, htotal⟩ :=
    yield_path_independent hsettles hproper (List.cons_ne_nil 5 [200]) (by decide) (by
      intro height hmem
      rcases List.mem_pair.mp hmem with rfl | rfl <;> omega)
  rw [hname] at hall hone hpool' hpool₁
  have hmax : max cur.startBlockHeight 2 = 2 := max_eq_right (by omega)
  have htotal : total = coin bondDenom (Dec.newDec 100) := by
    rw [htotal, hinfos, List.map_singleton, List.sum_singleton]
    dsimp only
    rw [hmax]
    rfl
  exact ⟨b', b₁, pool', htotal ▸ hall, htotal ▸ hone, hpool', hpool₁⟩

end FarmBooks

end Okexchain
