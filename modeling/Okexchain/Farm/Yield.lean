import Okexchain.Farm.Run

/-!
# What the pools yield

The yield farming account holds, for every pool, what is left of its provided tokens and the rewards
that have accumulated. Time moves tokens from the first to the second
(`CalculateAmountYieldedBetween`), claims and the destruction of a pool take from the second, and
`BeginBlocker` adds to it.

* `FarmPool.holdings` is both together. `holdings_afterYield`: crediting what a pool has yielded
  does not change it, at any heights.
* `YieldBacked` is the invariant: the balance of the account, what was paid into and out of each
  pool, and that nothing is negative.

**Results.** `yield_conserved`: in every run the account holds what the pools have, and of every
pool name, what was ever paid in is what was paid out and what its pool has now. No rounding is
involved: the part of a yield that cannot be divided among the lockers stays in the pool.
-/

namespace Okexchain

/-! ## Holdings -/

/-- What is left of the provided tokens. -/
def FarmPool.remaining (pool : FarmPool) : Coins :=
  (pool.yieldedTokenInfos.map fun info => info.remainingAmount.toCoins).sum

/-- What a pool has: what is left to yield, and what has accumulated. -/
def FarmPool.holdings (pool : FarmPool) : Coins := pool.totalAccumulatedRewards + pool.remaining

/-- What all pools have. -/
def FarmBooks.totalHoldings (b : FarmBooks) : Coins :=
  b.farmPools.store.sumBy fun _ pool => pool.holdings

/-- What the pool of a name has, nothing if there is none. -/
def FarmBooks.holdings (b : FarmBooks) (p : PoolName) : Coins :=
  (b.getFarmPool p).elim 0 FarmPool.holdings

/-- What an event pays into a pool. -/
def FarmEvent.paidIn (p : PoolName) : FarmEvent → Coins
  | .provided q c => if q = p then c else 0
  | .allocated q c => if q = p then c else 0
  | _ => 0

/-- What an event pays out of a pool. -/
def FarmEvent.paidOut (p : PoolName) : FarmEvent → Coins
  | .claimed q _ c => if q = p then c else 0
  | .returned q c => if q = p then c else 0
  | _ => 0

/-! ## Yield -/

namespace YieldedTokenInfo

/-- A yield that is not negative, nor will be. -/
structure NonNeg (info : YieldedTokenInfo) : Prop where
  remaining : 0 ≤ info.remainingAmount.amount
  perBlock : 0 ≤ info.amountYieldedPerBlock

/-- What is yielded: nothing, the amount of some blocks, or all the rest. -/
theorem yield_cases (start height : Nat) (info : YieldedTokenInfo) :
    let denom := info.remainingAmount.denom
    let rest := info.remainingAmount.amount
    info.yield start height = (info, 0) ∨
    (∃ blocks : Nat, blocks * info.amountYieldedPerBlock < rest ∧ info.yield start height =
      ({ info with remainingAmount := ⟨denom, rest - blocks * info.amountYieldedPerBlock⟩ },
        coin denom (blocks * info.amountYieldedPerBlock))) ∨
    info.yield start height = (⟨⟨denom, 0⟩, 0, 0⟩, coin denom rest) := by
  intro denom rest
  unfold yield
  generalize (if start ≤ info.startBlockHeightToYield then info.startBlockHeightToYield
    else start) = first
  dsimp only
  rw [Dec.mulTruncate_newDec]
  split_ifs with hnone hlt
  · exact .inl rfl
  · have hblocks : ((height - first : Nat) : Int) = (height : Int) - first := by
      have := (not_or.mp hnone).2
      omega
    rw [← hblocks] at hlt ⊢
    exact .inr (.inl ⟨_, hlt, rfl⟩)
  · exact .inr (.inr rfl)

/-- What is yielded is taken from what remains. -/
theorem yield_conserves (start height : Nat) (info : YieldedTokenInfo) :
    (info.yield start height).2 + (info.yield start height).1.remainingAmount.toCoins =
      info.remainingAmount.toCoins := by
  obtain hnone | ⟨blocks, -, hsome⟩ | hall := info.yield_cases start height
  · rw [hnone, zero_add]
  · rw [hsome]
    show coin _ _ + coin _ _ = coin _ _
    rw [← coin_add, add_sub_cancel]
  · rw [hall]
    show coin _ _ + coin _ 0 = coin _ _
    rw [coin_zero, add_zero]

theorem NonNeg.yield {info : YieldedTokenInfo} (h : info.NonNeg) (start height : Nat) :
    (info.yield start height).1.NonNeg ∧ ∀ d, 0 ≤ (info.yield start height).2 d := by
  obtain hnone | ⟨blocks, hlt, hsome⟩ | hall := info.yield_cases start height
  · rw [hnone]
    exact ⟨h, fun _ => le_rfl⟩
  · rw [hsome]
    exact ⟨⟨by show 0 ≤ _ - _; omega, h.perBlock⟩,
      coin_nonneg (Int.mul_nonneg (Int.natCast_nonneg _) h.perBlock) _⟩
  · rw [hall]
    exact ⟨⟨le_rfl, le_rfl⟩, coin_nonneg h.remaining _⟩

end YieldedTokenInfo

namespace FarmPool

/-- A pool without negative amounts. -/
structure NonNeg (pool : FarmPool) : Prop where
  accumulated : ∀ d, 0 ≤ pool.totalAccumulatedRewards d
  infos : ∀ info ∈ pool.yieldedTokenInfos, info.NonNeg

variable {pool : FarmPool}

/-- **Crediting a yield moves it** from what remains to what has accumulated. -/
theorem holdings_afterYield (pool : FarmPool) (start height : Nat) :
    (pool.afterYield start height).holdings = pool.holdings := by
  have hmoved : pool.yielded start height + (pool.afterYield start height).remaining =
      pool.remaining := by
    unfold yielded remaining
    show ((pool.yields start height).map Prod.snd).sum +
      (((pool.yields start height).map Prod.fst).map _).sum = _
    unfold yields
    rw [List.map_map, List.map_map, List.map_map, ← List.sum_map_add]
    exact congrArg List.sum (List.map_congr_left fun info _ => info.yield_conserves start height)
  unfold holdings
  rw [← hmoved, ← add_assoc]
  rfl

theorem NonNeg.yielded (h : pool.NonNeg) (start height : Nat) (d : String) :
    0 ≤ pool.yielded start height d := by
  refine Coins.sum_nonneg (fun c hc => ?_) d
  obtain ⟨entry, hentry, rfl⟩ := List.mem_map.mp hc
  obtain ⟨info, hinfo, rfl⟩ := List.mem_map.mp hentry
  exact ((h.infos info hinfo).yield start height).2

theorem NonNeg.afterYield (h : pool.NonNeg) (start height : Nat) :
    (pool.afterYield start height).NonNeg where
  accumulated d := by
    show 0 ≤ (pool.totalAccumulatedRewards + pool.yielded start height) d
    rw [DFinsupp.add_apply]
    exact add_nonneg (h.accumulated d) (h.yielded start height d)
  infos info' hinfo' := by
    obtain ⟨entry, hentry, rfl⟩ := List.mem_map.mp hinfo'
    obtain ⟨info, hinfo, rfl⟩ := List.mem_map.mp hentry
    exact ((h.infos info hinfo).yield start height).1

theorem NonNeg.remaining (h : pool.NonNeg) (d : String) : 0 ≤ pool.remaining d := by
  refine Coins.sum_nonneg (fun c hc => ?_) d
  obtain ⟨info, hinfo, rfl⟩ := List.mem_map.mp hc
  exact coin_nonneg (h.infos info hinfo).remaining _

/-- A pool that has finished has nothing left to yield. -/
theorem NonNeg.remaining_of_finished (h : pool.NonNeg) (hfinished : pool.finished) :
    pool.remaining = 0 := by
  unfold finished at hfinished
  rw [Bool.and_eq_true, List.all_eq_true] at hfinished
  unfold FarmPool.remaining
  refine List.sum_eq_zero fun c hc => ?_
  obtain ⟨info, hinfo, rfl⟩ := List.mem_map.mp hc
  have hle := of_decide_eq_true (hfinished.1 info hinfo)
  rw [DecCoin.toCoins, le_antisymm hle (h.infos info hinfo).remaining, coin_zero]

end FarmPool

/-! ## The invariant -/

/-- The yield account holds what the pools have, and of each name, what was paid in is what was paid
out and what its pool has. -/
structure YieldBacked (history : List FarmEvent) (l : FarmLedger) : Prop where
  account : l.yield = l.books.totalHoldings
  names : ∀ p, (history.map (FarmEvent.paidIn p)).sum =
    (history.map (FarmEvent.paidOut p)).sum + l.books.holdings p
  pools : ∀ p pool, l.books.farmPools.get p = some pool → pool.NonNeg

variable {height : Nat} {history evs : List FarmEvent} {l l' : FarmLedger} {pool pool' : FarmPool}
  {cur : PoolCurrentRewards} {change : Coins}

/-- The events pay a pool a sum, which may be negative. -/
def Pays (evs : List FarmEvent) (p : PoolName) (change : Coins) : Prop :=
  ∀ q, (evs.map (FarmEvent.paidIn q)).sum =
    (evs.map (FarmEvent.paidOut q)).sum + if q = p then change else 0

theorem pays_in {e : FarmEvent} {p : PoolName} (hin : ∀ q, e.paidIn q = if p = q then change else 0)
    (hout : ∀ q, e.paidOut q = 0) : Pays [e] p change := by
  intro q
  rw [List.map_singleton, List.map_singleton, List.sum_singleton, List.sum_singleton, hin, hout,
    zero_add]
  exact if_congr eq_comm rfl rfl

theorem pays_out {e : FarmEvent} {p : PoolName} (hin : ∀ q, e.paidIn q = 0)
    (hout : ∀ q, e.paidOut q = if p = q then change else 0) : Pays [e] p (-change) := by
  intro q
  rw [List.map_singleton, List.map_singleton, List.sum_singleton, List.sum_singleton, hin, hout]
  obtain rfl | hq := eq_or_ne p q
  · rw [if_pos rfl, if_pos rfl, add_neg_cancel]
  · rw [if_neg hq, if_neg hq.symm, add_zero]

/-- What is paid is what the pool has more: then the invariant is kept. -/
theorem YieldBacked.names_of_pays {p : PoolName} (h : YieldBacked history l)
    (hpays : Pays evs p change)
    (hheld : ∀ q, l'.books.holdings q = l.books.holdings q + if q = p then change else 0) (q : PoolName) :
    ((history ++ evs).map (FarmEvent.paidIn q)).sum =
      ((history ++ evs).map (FarmEvent.paidOut q)).sum + l'.books.holdings q := by
  rw [List.map_append, List.sum_append, List.map_append, List.sum_append, h.names q, hpays q, hheld]
  abel

/-- A pool is rewritten, and has as much more as the events pay it. -/
theorem YieldBacked.put (h : YieldBacked history l)
    (hget : l.books.farmPools.get pool.name = some pool)
    (hpools : l'.books.farmPools = l.books.farmPools.put pool') (hname : pool'.name = pool.name)
    (hheld : pool'.holdings = pool.holdings + change) (hyield : l'.yield = l.yield + change)
    (hpays : Pays evs pool.name change) (hnonneg : pool'.NonNeg) :
    YieldBacked (history ++ evs) l' where
  account := by
    unfold FarmBooks.totalHoldings
    rw [hyield, h.account, hpools]
    show _ = (l.books.farmPools.store.set pool'.name pool').sumBy _
    rw [hname, KVStore.sumBy_set_old _ hget, hheld]
    unfold FarmBooks.totalHoldings
    abel
  names := by
    refine h.names_of_pays hpays fun q => ?_
    unfold FarmBooks.holdings FarmBooks.getFarmPool
    rw [hpools, KeyedStore.get_put, hname]
    split_ifs with hq
    · rw [hq, hget]
      exact hheld
    · rw [add_zero]
  pools p q hq := by
    rw [hpools, KeyedStore.get_put] at hq
    split_ifs at hq
    · cases hq
      exact hnonneg
    · exact h.pools p q hq

/-! ## The effects -/

theorem YieldBacked.create {params : FarmParams} {msg : MsgCreatePool} (h : YieldBacked history l)
    (hcreate : FarmState.Created height l params msg l') : YieldBacked history l' := by
  have hpools : l'.books.farmPools = l.books.farmPools.put (FarmState.newFarmPool params msg) := by
    rw [hcreate.books]
    rfl
  have hzero : (FarmState.newFarmPool params msg).holdings = 0 := by
    show 0 + ([coin msg.yieldedSymbol 0] : List Coins).sum = 0
    rw [List.sum_singleton, coin_zero, add_zero]
  refine ⟨?_, fun q => ?_, fun p q hq => ?_⟩
  · unfold FarmBooks.totalHoldings
    rw [hcreate.yield, h.account, hpools]
    show _ = (l.books.farmPools.store.set msg.poolName _).sumBy _
    rw [KVStore.sumBy_set_new _ hcreate.fresh, hzero, add_zero]
    rfl
  · rw [h.names q]
    unfold FarmBooks.holdings FarmBooks.getFarmPool
    rw [hpools, KeyedStore.get_put]
    split_ifs with hq
    · rw [show q = msg.poolName from hq, hcreate.fresh]
      exact congrArg _ hzero.symm
    · rfl
  · rw [hpools, KeyedStore.get_put] at hq
    split_ifs at hq
    · cases hq
      refine ⟨fun _ => le_rfl, fun info hinfo => ?_⟩
      obtain rfl := List.mem_singleton.mp hinfo
      exact ⟨le_rfl, le_rfl⟩
    · exact h.pools p q hq

theorem YieldBacked.destroy (h : YieldBacked history l)
    (hdestroy : FarmState.Destroyed height l pool cur l') : YieldBacked (history ++
      [.returned pool.name (pool.afterYield cur.startBlockHeight height).totalAccumulatedRewards])
      l' := by
  have hget := hdestroy.get_pool
  have hpools : l'.books.farmPools = l.books.farmPools.delete pool.name := by
    rw [hdestroy.books]
    rfl
  -- all that a finished pool has, has accumulated
  have hheld : (pool.afterYield cur.startBlockHeight height).totalAccumulatedRewards =
      pool.holdings := by
    have hrest := ((h.pools _ pool hget).afterYield cur.startBlockHeight
      height).remaining_of_finished hdestroy.finished
    rw [← pool.holdings_afterYield cur.startBlockHeight height, FarmPool.holdings, hrest, add_zero]
  rw [hheld]
  refine ⟨?_, h.names_of_pays (pays_out (fun _ => rfl) fun _ => rfl) fun q => ?_, fun p q hq => ?_⟩
  · unfold FarmBooks.totalHoldings
    rw [hdestroy.yield, hheld, h.account, hpools]
    show _ = (l.books.farmPools.store.delete pool.name).sumBy _
    rw [KVStore.sumBy_delete, KVStore.valAt_of_get _ hget]
    rfl
  · unfold FarmBooks.holdings FarmBooks.getFarmPool
    rw [hpools, KeyedStore.get_delete]
    split_ifs with hq
    · rw [hq, hget]
      exact (add_neg_cancel pool.holdings).symm
    · rw [add_zero]
  · rw [hpools, KeyedStore.get_delete] at hq
    split_ifs at hq
    exact h.pools p q hq

theorem YieldBacked.provide {hist : PoolHistoricalRewards} {info : YieldedTokenInfo}
    {msg : MsgProvide} (h : YieldBacked history l)
    (hprovide : FarmState.Provided height l pool cur hist info msg l')
    (hbasic : msg.validateBasic = none) :
    YieldBacked (history ++ [.provided pool.name msg.amount.toCoins]) l' := by
  have hget := hprovide.settles.get_pool
  have hnonneg := (h.pools _ pool hget).afterYield cur.startBlockHeight height
  obtain ⟨hamount, hperBlock⟩ := MsgProvide.amount_pos hbasic
  -- the old yield is used up, so nothing is lost when the new one takes its place
  have hrest : (pool.afterYield cur.startBlockHeight height).remaining = 0 := by
    show (((pool.yieldedTokenInfos.map _).map Prod.fst).map _).sum = _
    rw [hprovide.only]
    show ([(info.yield cur.startBlockHeight height).1.remainingAmount.toCoins] : List Coins).sum = 0
    rw [List.sum_singleton, DecCoin.toCoins, hprovide.spent, coin_zero]
  have hpools : l'.books.farmPools =
      l.books.farmPools.put (pool.provided cur.startBlockHeight height msg) := by
    rw [hprovide.stores]
  refine h.put hget hpools rfl ?_ hprovide.yield
    (pays_in (fun _ => rfl) fun _ => rfl) ⟨hnonneg.accumulated, fun info' hinfo => ?_⟩
  · rw [← pool.holdings_afterYield cur.startBlockHeight height, FarmPool.holdings,
      FarmPool.holdings, hrest, add_zero]
    show _ + ([msg.amount.toCoins] : List Coins).sum = _
    rw [List.sum_singleton]
    rfl
  · obtain rfl := List.mem_singleton.mp hinfo
    exact ⟨hamount.le, hperBlock.le⟩

theorem YieldBacked.relock {hist : PoolHistoricalRewards} {addr : Address} {old : Option LockInfo}
    {change : Int} {rewards : Coins} (h : YieldBacked history l)
    (hrelock : FarmState.Relock height l pool cur hist addr old change rewards l') :
    YieldBacked (history ++ [.claimed pool.name addr rewards]) l' := by
  have hget := hrelock.settles.get_pool
  have hnonneg := (h.pools _ pool hget).afterYield cur.startBlockHeight height
  have hpools : l'.books.farmPools = l.books.farmPools.put
      (pool.relocked cur.startBlockHeight height change rewards) := by rw [hrelock.stores]
  refine h.put hget hpools rfl ?_ (hrelock.yield.trans (sub_eq_add_neg _ _))
    (pays_out (fun _ => rfl) fun _ => rfl) ⟨fun d => ?_, hnonneg.infos⟩
  · rw [← pool.holdings_afterYield cur.startBlockHeight height]
    show _ - rewards + _ = _ + _ + -rewards
    abel
  · show 0 ≤ ((pool.afterYield _ _).totalAccumulatedRewards - rewards) d
    rw [DFinsupp.sub_apply]
    cases hold : old with
    | none =>
      rw [hrelock.rewards_new hold]
      exact sub_nonneg.mpr (hnonneg.accumulated d)
    | some li => exact sub_nonneg.mpr (hrelock.covered li hold d)

theorem YieldBacked.credit {amount : Int} (h : YieldBacked history l)
    (hget : l.books.farmPools.get pool.name = some pool) (hamount : 0 ≤ amount) :
    YieldBacked (history ++ [.allocated pool.name (coin bondDenom amount)])
      ⟨l.books.credit pool cur amount, l.farm, l.yield + coin bondDenom amount⟩ := by
  have hnonneg := h.pools _ pool hget
  have hpools : (l.books.credit pool cur amount).farmPools = l.books.farmPools.put { pool with
      totalAccumulatedRewards := pool.totalAccumulatedRewards + coin bondDenom amount } := rfl
  refine h.put hget hpools rfl ?_ rfl (pays_in (fun _ => rfl) fun _ => rfl)
    ⟨fun d => ?_, hnonneg.infos⟩
  · show _ + _ + pool.remaining = _ + pool.remaining + _
    abel
  · show 0 ≤ (pool.totalAccumulatedRewards + coin bondDenom amount) d
    rw [DFinsupp.add_apply]
    exact add_nonneg (hnonneg.accumulated d) (coin_nonneg hamount _ d)

/-! ## Runs -/

theorem keeps_yieldBacked (createOK : FarmBooks → PoolName → Prop) :
    FarmKeeps createOK YieldBacked where
  genesis := ⟨rfl, fun _ => rfl, fun _ _ h => (by cases h)⟩
  effect height history l evs l' he h := by
    cases he with
    | create params msg hcreate _ _ =>
      rw [List.append_nil]
      exact h.create hcreate
    | destroy pool cur hdestroy => exact h.destroy hdestroy
    | provide pool cur hist info msg hprovide hbasic => exact h.provide hprovide hbasic
    | relock pool cur hist addr old change rewards hrelock _ => exact h.relock hrelock
    | credit pool cur amount hpool _ hnonneg => exact h.credit hpool hnonneg
    | enlist pool _ =>
      rw [List.append_nil]
      exact ⟨h.account, h.names, h.pools⟩
    | delist p =>
      rw [List.append_nil]
      exact ⟨h.account, h.names, h.pools⟩

end Okexchain
