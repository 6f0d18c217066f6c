import Okexchain.Farm.Rewards

/-!
# Claims are paid

What the invariants give to the handlers: a pool can be settled, the rewards of a locker can be
computed and paid, and what is left is what the pool still has.

* `withdrawRewards_ends`: the only error of a withdrawal is that there is no lock info.
* A claim never fails for an account with a lock info, so all lockers can claim in one block, in any
  order. `accrued` is what the pool has for them; each claim takes its payment from it and nothing
  else does, until the next block.

**Results.** In the runs whose pool names are apart: `references_exact`, every record of historical
rewards is there as long as it is referred to, and no handler misses one; `rewards_payable`, what
all lockers of a pool may claim is there, and no handler that pays a reward panics or lacks the
funds; `earnings_are_claimable`, what the query of the earnings shows is what a claim pays.
-/

namespace Okexchain

variable {B : Type} {sk : SupplyKeeper B} {height : Nat} {history : List FarmEvent}
  {s : FarmState B} {pool : FarmPool} {cur : PoolCurrentRewards} {hist : PoolHistoricalRewards}
  {addr : Address}

/-! ## A withdrawal -/

/-- What the yield account holds covers what a pool has accumulated. -/
theorem FarmSound.accumulated_le (h : FarmSound history (s.ledger sk))
    (hsettles : s.books.Settles pool cur hist) (height : Nat) (d : String) :
    (pool.afterYield cur.startBlockHeight height).totalAccumulatedRewards d ≤
      sk.moduleCoins s.bank yieldFarmingAccount d := by
  have hheld : ∀ q : FarmPool, q.NonNeg → 0 ≤ q.holdings d := by
    intro q hq
    unfold FarmPool.holdings
    rw [DFinsupp.add_apply]
    exact add_nonneg (hq.accumulated d) (hq.remaining d)
  have hyield : sk.moduleCoins s.bank yieldFarmingAccount d =
      s.books.farmPools.store.sumBy fun _ q => q.holdings d := by
    have haccount : sk.moduleCoins s.bank yieldFarmingAccount = s.books.totalHoldings :=
      h.yield.account
    rw [haccount]
    exact sumBy_apply _ _ d
  have hpool : pool.holdings d ≤ s.books.farmPools.store.sumBy fun _ q => q.holdings d :=
    KVStore.le_sumBy (fun _ q => FarmPool.holdings q d)
      (fun p q hq => hheld q (h.yield.pools p q hq)) hsettles.get_pool
  have hrest := ((h.yield.pools _ pool hsettles.get_pool).afterYield cur.startBlockHeight
    height).remaining d
  rw [hyield]
  refine le_trans ?_ hpool
  rw [← pool.holdings_afterYield cur.startBlockHeight height]
  unfold FarmPool.holdings
  rw [DFinsupp.add_apply]
  omega

/-- What the lockers of a pool would be paid if it was settled now: each at most its part of the
debt, and all together at most what the pool has accumulated. -/
theorem FarmSound.sum_rewards_le {l : FarmLedger} (h : FarmSound history l)
    (hsettles : l.books.Settles pool cur hist) (height : Nat) (reward : LockInfo → Int) {d : String}
    (hreward : ∀ a li, l.books.getLockInfo a pool.name = some li → ∃ rewards,
      (l.books.settle height pool cur hist).calculateRewards height pool.name cur.period li =
        .ok rewards ∧ reward li = rewards d) :
    (l.books.lockInfos.store.sumBy fun _ li => if li.poolName = pool.name then reward li else 0) ≤
      (pool.afterYield cur.startBlockHeight height).totalAccumulatedRewards d := by
  obtain ⟨hbound, hratios⟩ := h.settle hsettles height
  have hscale : Dec.one * (l.books.lockInfos.store.sumBy fun _ li =>
      if li.poolName = pool.name then reward li else 0) =
      l.books.lockInfos.store.sumBy fun _ li =>
        Dec.one * if li.poolName = pool.name then reward li else 0 :=
    KVStore.map_sumBy _ (AddMonoidHom.mulLeft Dec.one)
  refine le_of_mul_le_mul_left (le_trans ?_ (hbound d)) Dec.one_pos
  rw [hscale]
  refine KVStore.sumBy_le_sumBy _ _ fun key li hli => ?_
  split_ifs with hp
  · have hkey : toLex (li.owner, li.poolName) = key := l.books.lockInfos.keyed key li hli
    rw [← hkey, hp] at hli
    obtain ⟨rewards, hrewards, heq⟩ := hreward li.owner li hli
    obtain ⟨q, -, hok⟩ := h.principal.locks li.owner _ li hli
    rw [heq]
    exact (calculateRewards_le hrewards hok.pos.le (hratios li.owner li hli) d).2
  · rw [mul_zero]

theorem FarmSound.calculateRewards_ok {l : FarmLedger} (h : FarmSound history l)
    (hsettles : l.books.Settles pool cur hist) (height : Nat) {li : LockInfo}
    (hli : l.books.getLockInfo addr pool.name = some li) :
    ∃ rewards, (l.books.settle height pool cur hist).calculateRewards height pool.name cur.period
      li = .ok rewards ∧ ∀ d, 0 ≤ rewards d := by
  obtain ⟨-, hratios⟩ := h.settle hsettles height
  obtain ⟨q, -, hok⟩ := h.principal.locks addr _ li hli
  have hbefore := h.references.before addr _ li cur hli hsettles.get_cur
  obtain ⟨starting, hstarting⟩ :=
    Option.isSome_iff_exists.mp (h.ratio_ref hsettles height hli).1
  have hending : (l.books.settle height pool cur hist).historicalRewards.get
      (toLex (pool.name, cur.period)) = some _ := KVStore.get_set_self
  have hle := hratios addr li hli
  obtain ⟨rewards, hrewards⟩ : ∃ rewards, (l.books.settle height pool cur hist).calculateRewards
      height pool.name cur.period li = .ok rewards := by
    unfold FarmBooks.calculateRewards
    split_ifs
    · exact ⟨0, rfl⟩
    · refine ⟨_, calculateLockRewardsBetween_eq_ok.mpr
        ⟨hbefore.le, hok.pos.le, starting, _, hstarting, hending, fun d => ?_, rfl⟩⟩
      have := hle d
      rwa [ratio_eq hstarting, ratio_eq hending] at this
  exact ⟨rewards, hrewards, fun d => (calculateRewards_le hrewards hok.pos.le hle d).1⟩

/-- What one locker is paid has accumulated. -/
theorem FarmSound.reward_le {l : FarmLedger} (h : FarmSound history l)
    (hsettles : l.books.Settles pool cur hist) {li : LockInfo} {rewards : Coins}
    (hli : l.books.getLockInfo addr pool.name = some li)
    (hrewards : (l.books.settle height pool cur hist).calculateRewards height pool.name cur.period
      li = .ok rewards) (d : String) :
    rewards d ≤ (pool.afterYield cur.startBlockHeight height).totalAccumulatedRewards d := by
  obtain ⟨hbound, hratios⟩ := h.settle hsettles height
  obtain ⟨q, -, hok⟩ := h.principal.locks addr _ li hli
  have hpaid := (calculateRewards_le hrewards hok.pos.le (hratios addr li hli) d).2
  -- the part of one locker is one of the terms of the debt, and none is negative
  have hpart := KVStore.le_sumBy (m := l.books.lockInfos.store) (fun _ li' =>
    if li'.poolName = pool.name then li'.amount.amount *
      ((l.books.settle height pool cur hist).ratio pool.name cur.period d -
        (l.books.settle height pool cur hist).ratio pool.name li'.referencePeriod d) else 0)
    (fun key li' hli' => ?_) hli
  · rw [if_pos (FarmBooks.lockInfo_key hli).2] at hpart
    exact le_of_mul_le_mul_left (hpaid.trans (hpart.trans (hbound d))) Dec.one_pos
  · split_ifs with hp
    · have hkey : toLex (li'.owner, li'.poolName) = key := l.books.lockInfos.keyed key li' hli'
      rw [← hkey, hp] at hli'
      obtain ⟨q', -, hok'⟩ := h.principal.locks li'.owner _ li' hli'
      exact Int.mul_nonneg hok'.pos.le (sub_nonneg.mpr (hratios li'.owner li' hli' d))
    · exact le_rfl

/-- **A withdrawal fails only for want of a lock info.** -/
theorem withdrawRewards_ends (h : FarmSound history (s.ledger sk))
    (hsettles : s.books.Settles pool cur hist) (height : Nat) (addr : Address) :
    Ends (s.withdrawRewards sk height pool.name pool.totalValueLocked
        (pool.yielded cur.startBlockHeight height) addr)
      (fun r => ∃ li, s.books.getLockInfo addr pool.name = some li ∧
        (s.books.settle height pool cur hist).calculateRewards height pool.name cur.period li =
          .ok r.2 ∧
        r.1.books = (s.books.settle height pool cur hist).release pool.name li.referencePeriod ∧
        ∀ d, 0 ≤ r.2 d ∧
          r.2 d ≤ (pool.afterYield cur.startBlockHeight height).totalAccumulatedRewards d)
      (fun e => e = .noLockInfoFound addr pool.name ∧ s.books.getLockInfo addr pool.name = none) := by
  unfold FarmState.withdrawRewards
  refine (Ends.orThrow fun hnone => ⟨rfl, hnone⟩).bind fun li _ hli => ?_
  refine (Ends.eq_ok (hsettles.incrementPoolPeriod height)).bind fun r _ hr => ?_
  subst hr
  obtain ⟨rewards, hrewards, hnonneg⟩ := h.calculateRewards_ok hsettles height hli
  have hle := h.reward_le hsettles hli hrewards
  refine (Ends.eq_ok hrewards).bind fun r _ hr => ?_
  subst hr
  have hpaid : ∃ bank, FarmState.payUnless (r = 0) sk s.bank yieldFarmingAccount addr r
      .rewardNotPaid = .ok bank := by
    unfold FarmState.payUnless
    split_ifs
    · exact ⟨s.bank, rfl⟩
    · obtain ⟨bank, hbank⟩ := Option.isSome_iff_exists.mp (sk.sendCoins_isSome hnonneg
        fun d => (hle d).trans (h.accumulated_le hsettles height d))
      exact ⟨bank, orThrow_eq_ok.mpr hbank⟩
  obtain ⟨bank, hbank⟩ := hpaid
  refine (Ends.eq_ok hbank).bind fun b _ _ => ?_
  obtain ⟨starting, hstarting⟩ :=
    Option.isSome_iff_exists.mp (h.ratio_ref hsettles height hli).1
  have hcount := (h.references.counts_settle height hsettles).count_of_get hstarting
  have hdecrement : (s.books.settle height pool cur hist).decrementReferenceCount pool.name
      li.referencePeriod = .ok _ :=
    FarmBooks.decrementReferenceCount_eq_ok.mpr ⟨⟨starting, hstarting, hcount.2⟩, rfl⟩
  refine (Ends.eq_ok hdecrement).bind fun b' _ hb' => ?_
  subst hb'
  exact ⟨li, hli, hrewards, rfl, fun d => ⟨hnonneg d, hle d⟩⟩

/-- After a withdrawal the lock info can be updated. -/
theorem updateLockInfo_ends {P : FarmError → Prop} {s' : FarmState B} {li : LockInfo}
    (h : FarmSound history (s.ledger sk)) (hsettles : s.books.Settles pool cur hist)
    (hli : s.books.getLockInfo addr pool.name = some li)
    (hbooks : s'.books = (s.books.settle height pool cur hist).release pool.name li.referencePeriod)
    (change : Int) :
    Ends (s'.books.updateLockInfo height addr pool.name change) (fun _ => True) P := by
  obtain ⟨hcur, hlocks⟩ :=
    FarmState.settled_release height s.books pool cur hist li.referencePeriod
  have hcounts := h.references.counts_settled height hsettles hli
  have hbefore := h.references.before addr _ li cur hli hsettles.get_cur
  have hone : s.books.lockRefs pool.name cur.period +
      (if pool.name = pool.name then (if cur.period = cur.period then 1 else 0)
        else s.books.currentRef pool.name cur.period) -
      markAt pool.name li.referencePeriod pool.name cur.period = 1 := by
    have hzero : s.books.lockRefs pool.name cur.period = 0 :=
      h.references.lockRefs_current hsettles.get_cur le_rfl
    rw [if_pos rfl, if_pos rfl, markAt, if_neg (by omega), hzero]
  obtain ⟨last, hlast, hcount⟩ := hcounts.get_of_pos
    (show s.books.lockRefs pool.name cur.period + _ - _ ≠ 0 from fun he => by
      have hne := hone.symm.trans he
      cases hne)
  have hlocked : s'.books.getLockInfo addr pool.name = some li := by
    rw [hbooks]
    exact (congrArg (KeyedStore.get · _) hlocks).trans hli
  rw [hbooks] at hlocked ⊢
  have hok : FarmBooks.updateLockInfo height _ addr pool.name change = .ok _ :=
    FarmBooks.updateLockInfo_ok hcur hlocked hlast
      (by rw [hcount]; exact le_trans (le_of_eq hone) (by decide))
  exact (Ends.eq_ok hok).mono (fun _ _ => trivial) fun _ he => he

theorem subRewards_ends {P : FarmError → Prop} {pool : FarmPool} {rewards : Coins}
    (h : ∀ d, 0 ≤ rewards d ∧ rewards d ≤ pool.totalAccumulatedRewards d) :
    Ends (pool.subRewards rewards) (fun _ => True) P := by
  have hbelow := Coins.isAllLT_eq_false (fun d => (h d).2) fun d => (h d).1
  have hsub := Coins.subCoins_eq_some fun d => (h d).2
  unfold FarmPool.subRewards
  refine (Ends.require fun hn => absurd hbelow hn).bind fun _ _ _ => ?_
  exact (Ends.orThrow fun hn => by rw [hsub] at hn; cases hn).bind fun _ _ _ => trivial

/-! ## The handlers -/

/-- An error that refuses a message: no panic, and no lack of funds for a reward. -/
def Refusal (e : FarmError) : Prop := e ≠ .rewardNotPaid ∧ ∀ p, e ≠ .panic p

/-- A stored pool can be settled, and what it has yielded computed. -/
theorem FarmSound.settles (h : FarmSound history (s.ledger sk)) (height : Nat) {p : PoolName}
    (hpool : s.books.getFarmPool p = some pool) :
    pool.name = p ∧ ∃ cur hist, s.books.Settles pool cur hist ∧
      s.books.calculateAmountYieldedBetween height pool =
        .ok (pool.afterYield cur.startBlockHeight height,
          pool.yielded cur.startBlockHeight height) := by
  obtain ⟨cur, hist, hsettles⟩ := h.references.settles hpool
  exact ⟨KeyedStore.key_of_get hpool, cur, hist, hsettles,
    FarmBooks.calculateAmountYieldedBetween_eq_ok.mpr ⟨cur, hsettles.get_cur, rfl⟩⟩

/-- **A claim fails only for want of a pool or a lock info.** -/
theorem handleMsgClaim_ends (h : FarmSound history (s.ledger sk)) (height : Nat) (msg : MsgClaim) :
    Ends (s.handleMsgClaim sk height msg)
      (fun r => ∃ pool cur hist li, pool.name = msg.poolName ∧ s.books.Settles pool cur hist ∧
        s.books.getLockInfo msg.address pool.name = some li ∧
        (s.books.settle height pool cur hist).calculateRewards height pool.name cur.period li =
          .ok r.2)
      (fun e => (e = .noFarmPoolFound msg.poolName ∧ s.books.getFarmPool msg.poolName = none) ∨
        (e = .noLockInfoFound msg.address msg.poolName ∧
          s.books.getLockInfo msg.address msg.poolName = none)) := by
  unfold FarmState.handleMsgClaim
  refine (Ends.orThrow fun hnone => .inl ⟨rfl, hnone⟩).bind fun pool _ hpool => ?_
  obtain ⟨hname, cur, hist, hsettles, hyield⟩ := h.settles height hpool
  refine (Ends.eq_ok hyield).bind fun r _ hr => ?_
  subst hr
  refine ((withdrawRewards_ends h hsettles height msg.address).mono (fun _ hr => hr)
    fun e he => .inr (hname ▸ he)).bind fun r _ hr => ?_
  obtain ⟨li, hli, hrewards, hbooks, hcovered⟩ := hr
  refine (updateLockInfo_ends h hsettles hli hbooks 0).bind fun b _ _ => ?_
  refine (subRewards_ends hcovered).bind fun upd _ _ => ?_
  exact ⟨pool, cur, hist, li, hname, hsettles, hli, hrewards⟩

theorem handleMsgUnlock_ends (h : FarmSound history (s.ledger sk)) (height : Nat) (msg : MsgLock) :
    Ends (s.handleMsgUnlock sk height msg) (fun _ => True) Refusal := by
  unfold FarmState.handleMsgUnlock
  refine (Ends.orThrow fun _ => ⟨by simp, by simp⟩).bind fun li _ hli => ?_
  refine (Ends.require fun _ => ⟨by simp, by simp⟩).bind fun _ _ hdenom => ?_
  refine (Ends.require fun _ => ⟨by simp, by simp⟩).bind fun _ _ hle => ?_
  refine (Ends.orThrow fun _ => ⟨by simp, by simp⟩).bind fun pool _ hpool => ?_
  refine (Ends.require fun _ => ⟨by simp, by simp⟩).bind fun _ _ _ => ?_
  refine (Ends.require fun _ => ⟨by simp, by simp⟩).bind fun _ _ _ => ?_
  obtain ⟨hname, cur, hist, hsettles, hyield⟩ := h.settles height hpool
  rw [← hname] at hli ⊢
  refine (Ends.eq_ok hyield).bind fun r _ hr => ?_
  subst hr
  refine ((withdrawRewards_ends h hsettles height msg.address).mono (fun _ hr => hr)
    fun e he => ?_).bind fun r _ hr => ?_
  · rw [he.1]
    exact ⟨by simp, by simp⟩
  obtain ⟨li', hli', -, hbooks, hcovered⟩ := hr
  refine (updateLockInfo_ends h hsettles hli' hbooks _).bind fun b _ _ => ?_
  refine (Ends.orThrow fun _ => ⟨by simp, by simp⟩).bind fun bank _ _ => ?_
  -- what the account has locked is part of the pool's total
  have htotal : msg.amount.amount ≤ pool.totalValueLocked.amount := by
    have hsum : li.amount.amount ≤ s.books.lockedIn pool.name := by
      refine le_trans (le_of_eq ?_) (KVStore.le_sumBy (m := s.books.lockInfos.store)
        (fun _ li => if li.poolName = pool.name then li.amount.amount else 0)
        (fun key li' hli' => ?_) hli)
      · rw [if_pos (FarmBooks.lockInfo_key hli).2]
      · obtain ⟨q, -, hok⟩ := h.principal.locks (ofLex key).1 (ofLex key).2 li' hli'
        have := hok.pos
        split_ifs <;> omega
    rw [(h.principal.pools _ pool hsettles.get_pool).locked]
    exact hle.trans hsum
  refine (Ends.require fun hn => absurd htotal hn).bind fun _ _ _ => ?_
  show Ends (FarmPool.subRewards _ _ >>= _) _ _
  refine Ends.bind (subRewards_ends ?_) fun upd _ _ => ?_
  · exact hcovered
  · exact trivial

/-- What is done for an account that locks. -/
theorem openLock_ends (h : FarmSound history (s.ledger sk))
    (hsettles : s.books.Settles pool cur hist) (height : Nat) (addr : Address) (change : Int) :
    Ends (s.openLock sk height pool (pool.afterYield cur.startBlockHeight height)
        (pool.yielded cur.startBlockHeight height) addr
        (s.books.getLockInfo addr pool.name).isSome)
      (fun r => Ends (r.1.books.updateLockInfo height addr pool.name change) (fun _ => True) Refusal)
      Refusal := by
  unfold FarmState.openLock
  cases hli : s.books.getLockInfo addr pool.name with
  | none =>
    rw [Option.isSome_none, if_neg (by decide)]
    refine (Ends.eq_ok (hsettles.incrementPoolPeriod height)).bind fun r _ hr => ?_
    subst hr
    have hlast : (s.books.settle height pool cur hist).historicalRewards.get
        (toLex (pool.name, cur.period)) = some _ := KVStore.get_set_self
    have hok : (((s.books.settle height pool cur hist).setLockInfo
        (FarmState.emptyLock pool addr height)).setAddressInFarmPool pool.name addr).updateLockInfo
          height addr pool.name change = .ok _ :=
      FarmBooks.updateLockInfo_ok (FarmState.settle_get_cur height s.books pool cur hist)
        KeyedStore.get_put_self hlast (show 1 ≤ 2 by decide)
    exact (Ends.eq_ok hok).mono (fun _ _ => trivial) fun _ he => he
  | some li =>
    rw [Option.isSome_some, if_pos rfl]
    refine ((withdrawRewards_ends h hsettles height addr).mono (fun _ hr => hr)
      fun e he => ?_).bind fun r _ hr => ?_
    · rw [he.1]
      exact ⟨by simp, by simp⟩
    obtain ⟨li', hli', -, hbooks, hcovered⟩ := hr
    refine (subRewards_ends hcovered).bind fun upd _ _ => ?_
    exact updateLockInfo_ends h hsettles hli' hbooks change

theorem handleMsgLock_ends (h : FarmSound history (s.ledger sk)) (height : Nat) (msg : MsgLock) :
    Ends (s.handleMsgLock sk height msg) (fun _ => True) Refusal := by
  unfold FarmState.handleMsgLock
  refine (Ends.orThrow fun _ => ⟨by simp, by simp⟩).bind fun pool _ hpool => ?_
  refine (Ends.require fun _ => ⟨by simp, by simp⟩).bind fun _ _ _ => ?_
  refine (Ends.require fun _ => ⟨by simp, by simp⟩).bind fun _ _ _ => ?_
  obtain ⟨hname, cur, hist, hsettles, hyield⟩ := h.settles height hpool
  rw [← hname]
  refine (Ends.eq_ok hyield).bind fun r _ hr => ?_
  subst hr
  refine (openLock_ends h hsettles height msg.address msg.amount.amount).bind fun r _ hr => ?_
  refine Ends.bind hr fun b _ _ => ?_
  refine (Ends.orThrow fun _ => ⟨by simp, by simp⟩).bind fun bank _ _ => ?_
  exact trivial

/-! ## Claims in one block -/

namespace FarmNode

/-- What a pool has accumulated, the tokens it has yielded so far included. -/
def accrued (n : FarmNode B) (p : PoolName) : Coins :=
  match n.state.books.getFarmPool p, n.state.books.currentRewards.get p with
  | some pool, some cur => (pool.afterYield cur.startBlockHeight n.height).totalAccumulatedRewards
  | _, _ => 0

/-- What an account would be paid if it claimed now. -/
def claimable (sk : SupplyKeeper B) (n : FarmNode B) (p : PoolName) (addr : Address) : Coins :=
  match n.state.handleMsgClaim sk n.height ⟨p, addr⟩ with
  | .ok (_, rewards) => rewards
  | .error _ => 0

end FarmNode

variable {n : FarmNode B} {p : PoolName}

theorem accrued_eq (hpool : n.state.books.getFarmPool p = some pool)
    (hcur : n.state.books.currentRewards.get p = some cur) : n.accrued p =
      (pool.afterYield cur.startBlockHeight n.height).totalAccumulatedRewards := by
  unfold FarmNode.accrued
  rw [hpool, hcur]

/-- What a locker would be paid is what `calculateRewards` finds when the pool is settled. -/
theorem claimable_spec (h : FarmSound history (n.state.ledger sk))
    (hsettles : n.state.books.Settles pool cur hist) {li : LockInfo}
    (hli : n.state.books.getLockInfo addr pool.name = some li) :
    (n.state.books.settle n.height pool cur hist).calculateRewards n.height pool.name cur.period
      li = .ok (n.claimable sk pool.name addr) := by
  have hends := handleMsgClaim_ends h n.height ⟨pool.name, addr⟩
  unfold FarmNode.claimable
  cases hclaim : n.state.handleMsgClaim sk n.height ⟨pool.name, addr⟩ with
  | error e =>
    obtain ⟨-, hnone⟩ | ⟨-, hnone⟩ := hends.of_error hclaim
    · cases hnone.symm.trans hsettles.get_pool
    · cases hnone.symm.trans hli
  | ok r =>
    obtain ⟨pool', cur', hist', li', hname, hsettles', hli', hrewards⟩ := hends.of_ok hclaim
    have hname : pool'.name = pool.name := hname
    obtain ⟨hpool', hcur', hhist', -⟩ := hsettles'
    rw [hname] at hpool' hcur' hhist' hli' hrewards
    obtain rfl := Option.some.inj (hsettles.get_pool.symm.trans hpool')
    obtain rfl := Option.some.inj (hsettles.get_cur.symm.trans hcur')
    obtain rfl := Option.some.inj (hsettles.get_hist.symm.trans hhist')
    obtain rfl := Option.some.inj (hli.symm.trans hli')
    exact hrewards

theorem accrued_nonneg (h : FarmSound history (n.state.ledger sk)) (p : PoolName) (d : String) :
    0 ≤ n.accrued p d := by
  unfold FarmNode.accrued
  split
  · rename_i pool cur hpool _
    exact ((h.yield.pools p pool hpool).afterYield _ _).accumulated d
  · exact le_rfl

theorem yielded_self (pool : FarmPool) (height : Nat) : pool.yielded height height = 0 := by
  unfold FarmPool.yielded
  refine List.sum_eq_zero fun c hc => ?_
  obtain ⟨entry, hentry, rfl⟩ := List.mem_map.mp hc
  obtain ⟨info, -, rfl⟩ := List.mem_map.mp hentry
  unfold YieldedTokenInfo.yield
  dsimp only
  rw [if_pos]
  right
  split_ifs <;> omega

/-- A claim takes its payment from what the pool has accrued, and no lock info goes. -/
theorem claim_step (hn : FarmReach sk NamesApart n)
    (ha : FarmAllowed sk NamesApart n (.claim ⟨p, addr⟩)) :
    let n' := n.step sk (.claim ⟨p, addr⟩)
    ∃ evs, n'.history = n.history ++ evs ∧
      n'.accrued p + (evs.map (FarmEvent.paidOut p)).sum = n.accrued p ∧
      ((n.state.books.getLockInfo addr p).isSome → ∃ rewards, .claimed p addr rewards ∈ evs) ∧
      ∀ a, (n.state.books.getLockInfo a p).isSome → (n'.state.books.getLockInfo a p).isSome := by
  intro n'
  have h : FarmSound n.history (n.state.ledger sk) := keeps_farmSound.reach hn
  have hends := handleMsgClaim_ends h n.height ⟨p, addr⟩
  cases hclaim : n.state.handleMsgClaim sk n.height ⟨p, addr⟩ with
  | error e =>
    have hsame : n' = n := by
      show n.deliver (n.state.handleMsgClaim sk n.height ⟨p, addr⟩) _ = n
      rw [hclaim]
      rfl
    have hnone : n.state.books.getLockInfo addr p = none := by
      obtain ⟨-, hpool⟩ | ⟨-, hli⟩ := hends.of_error hclaim
      · exact h.principal.no_lock_of_fresh hpool addr
      · exact hli
    refine ⟨[], by rw [hsame, List.append_nil], ?_, fun hsome => ?_, fun a ha => hsame ▸ ha⟩
    · rw [hsame]
      exact add_zero _
    · rw [hnone] at hsome
      cases hsome
  | ok r =>
    obtain ⟨s', rewards⟩ := r
    have hstep : n' = { n with
        state := s', history := n.history ++ [.claimed p addr rewards] } := by
      show n.deliver (n.state.handleMsgClaim sk n.height ⟨p, addr⟩) _ = _
      rw [hclaim]
      rfl
    obtain ⟨pool, cur, hist, li, hname, hrelock⟩ := FarmState.handleMsgClaim_relock ha.2 hclaim
    have hname : pool.name = p := hname
    subst hname
    have hsettles := hrelock.settles
    have hpool : s'.books.getFarmPool pool.name =
        some (pool.relocked cur.startBlockHeight n.height 0 rewards) := by
      have hpools : s'.books.farmPools = n.state.books.farmPools.put _ :=
        (congrArg FarmBooks.farmPools hrelock.stores)
      unfold FarmBooks.getFarmPool
      rw [hpools]
      exact KeyedStore.get_put_self
    have hcur : s'.books.currentRewards.get pool.name = some ⟨n.height, cur.period + 1, 0⟩ := by
      have hcurrent : s'.books.currentRewards = n.state.books.currentRewards.set _ _ :=
        (congrArg FarmBooks.currentRewards hrelock.stores)
      rw [hcurrent]
      exact KVStore.get_set_self
    refine ⟨[.claimed pool.name addr rewards], by rw [hstep], ?_,
      fun _ => ⟨rewards, List.mem_singleton_self _⟩, fun a hsome => ?_⟩
    · have hafter : n'.accrued pool.name =
          (pool.afterYield cur.startBlockHeight n.height).totalAccumulatedRewards - rewards := by
        rw [hstep]
        refine (accrued_eq hpool hcur).trans ?_
        show _ + FarmPool.yielded _ n.height n.height = _
        rw [yielded_self, add_zero]
        rfl
      rw [hafter, accrued_eq hsettles.get_pool hsettles.get_cur]
      show _ - rewards + ([if pool.name = pool.name then rewards else 0] : List Coins).sum = _
      rw [if_pos rfl, List.sum_singleton, sub_add_cancel]
    · have hget : s'.books.getLockInfo a pool.name = _ := hrelock.getLockInfo a pool.name
      rw [hstep]
      show (s'.books.getLockInfo a pool.name).isSome
      rw [hget]
      obtain ⟨q, -, hok⟩ := h.principal.locks addr _ li hrelock.get_old
      have hne : (FarmState.changedLock n.height pool cur addr (some li) 0).amount.amount ≠ 0 := by
        show li.amount.amount + 0 ≠ 0
        have := hok.pos
        omega
      dsimp only
      rw [if_neg hne]
      split_ifs
      · rfl
      · exact hsome

/-- **All lockers can claim in one block**, in any order and as often as they like. -/
theorem claims_run (hn : FarmReach sk NamesApart n) (addrs : List Address)
    (haddrs : ∀ a ∈ addrs, FarmAllowed sk NamesApart n (.claim ⟨p, a⟩)) :
    let n' := n.run sk (addrs.map fun a => .claim ⟨p, a⟩)
    FarmReach sk NamesApart n' ∧ ∃ evs, n'.history = n.history ++ evs ∧
      n'.accrued p + (evs.map (FarmEvent.paidOut p)).sum = n.accrued p ∧
      ∀ a ∈ addrs, (n.state.books.getLockInfo a p).isSome →
        ∃ rewards, .claimed p a rewards ∈ evs := by
  induction addrs generalizing n with
  | nil =>
    refine ⟨hn, [], (List.append_nil _).symm, add_zero _, fun a ha => ?_⟩
    cases ha
  | cons addr addrs ih =>
    obtain ⟨hfirst, hrest⟩ := List.forall_mem_cons.mp haddrs
    obtain ⟨evs, hhistory, hpaid, hclaimed, hkept⟩ := claim_step hn hfirst
    obtain ⟨hreach, evs', hhistory', hpaid', hclaimed'⟩ := ih (hn.step hfirst) hrest
    refine ⟨hreach, evs ++ evs', ?_, ?_, fun a ha hsome => ?_⟩
    · rw [← List.append_assoc, ← hhistory]
      exact hhistory'
    · rw [List.map_append, List.sum_append, ← hpaid, ← hpaid']
      show FarmNode.accrued (FarmNode.run sk (n.step sk _) _) p + _ = _
      abel
    · obtain rfl | ha := List.mem_cons.mp ha
      · obtain ⟨rewards, hmem⟩ := hclaimed hsome
        exact ⟨rewards, List.mem_append_left _ hmem⟩
      · obtain ⟨rewards, hmem⟩ := hclaimed' a ha (hkept a hsome)
        exact ⟨rewards, List.mem_append_right _ hmem⟩

/-- **Rewards are payable.** In every run whose pool names are apart, and for every pool: what its
lockers would be paid if each claimed now is together at most what the pool has accrued; if lockers
claim one after the other, in any order, each is paid, and all payments together are at most that.
And no lock, unlock or claim panics or fails for lack of funds for the reward. -/
theorem rewards_payable (hn : FarmReach sk NamesApart n) :
    (∀ p d, (n.state.books.lockInfos.store.sumBy fun _ li =>
        if li.poolName = p then n.claimable sk p li.owner d else 0) ≤ n.accrued p d) ∧
    (∀ p (addrs : List Address), (∀ a ∈ addrs, FarmAllowed sk NamesApart n (.claim ⟨p, a⟩)) →
      ∃ evs, (n.run sk (addrs.map fun a => .claim ⟨p, a⟩)).history = n.history ++ evs ∧
        (∀ a ∈ addrs, (n.state.books.getLockInfo a p).isSome →
          ∃ rewards, .claimed p a rewards ∈ evs) ∧
        ∀ d, (evs.map (FarmEvent.paidOut p)).sum d ≤ n.accrued p d) ∧
    (∀ msg e, n.state.handleMsgClaim sk n.height msg = .error e → Refusal e) ∧
    (∀ msg e, n.state.handleMsgUnlock sk n.height msg = .error e → Refusal e) ∧
    (∀ msg e, n.state.handleMsgLock sk n.height msg = .error e → Refusal e) := by
  have h : FarmSound n.history (n.state.ledger sk) := keeps_farmSound.reach hn
  refine ⟨fun p d => ?_, fun p addrs haddrs => ?_, fun msg e he => ?_,
    fun msg e he => (handleMsgUnlock_ends h n.height msg).of_error he,
    fun msg e he => (handleMsgLock_ends h n.height msg).of_error he⟩
  · cases hpool : n.state.books.getFarmPool p with
    | none =>
      -- there are no lockers either
      have hzero : (n.state.books.lockInfos.store.sumBy fun _ li =>
          if li.poolName = p then n.claimable sk p li.owner d else 0) = 0 := by
        refine (KVStore.sumBy_congr _ fun key li hli => if_neg fun hp => ?_).trans
          KVStore.sumBy_zero
        have hkey : toLex (li.owner, li.poolName) = key :=
          n.state.books.lockInfos.keyed key li hli
        rw [← hkey, hp] at hli
        cases hli.symm.trans (h.principal.no_lock_of_fresh hpool li.owner)
      rw [hzero]
      exact accrued_nonneg h p d
    | some pool =>
      obtain ⟨hname, cur, hist, hsettles, -⟩ := h.settles n.height hpool
      subst hname
      rw [accrued_eq hpool hsettles.get_cur]
      refine h.sum_rewards_le hsettles n.height (fun li => n.claimable sk pool.name li.owner d)
        fun a li hli => ⟨_, claimable_spec h hsettles ?_, rfl⟩
      rw [(FarmBooks.lockInfo_key hli).1]
      exact hli
  · obtain ⟨hreach, evs, hhistory, hpaid, hclaimed⟩ := claims_run hn addrs haddrs
    refine ⟨evs, hhistory, hclaimed, fun d => ?_⟩
    have hnonneg := accrued_nonneg (keeps_farmSound.reach hreach) p d
    rw [← hpaid, DFinsupp.add_apply]
    omega
  · obtain ⟨rfl, -⟩ | ⟨rfl, -⟩ := (handleMsgClaim_ends h n.height msg).of_error he
    · exact ⟨by simp, by simp⟩
    · exact ⟨by simp, by simp⟩

/-- Bob has locked 30 and Carol 10 when 10 have been yielded, and Carol claims first. -/
theorem rewards_payable_bob_carol :
    let n := poolAOpen.wait 11
    n.accrued poolA bondDenom = Dec.newDec 10 ∧
    n.claimable simpleSupply poolA "bob" bondDenom = 7500000000000000000 ∧
    n.claimable simpleSupply poolA "carol" bondDenom = 2500000000000000000 ∧
    ∃ evs, (n.run simpleSupply [.claim ⟨poolA, "carol"⟩, .claim ⟨poolA, "bob"⟩]).history =
        n.history ++ evs ∧
      (∃ rewards, .claimed poolA "carol" rewards ∈ evs) ∧
      (∃ rewards, .claimed poolA "bob" rewards ∈ evs) ∧
      ∀ d, (evs.map (FarmEvent.paidOut poolA)).sum d ≤ n.accrued poolA d := by
  intro n
  have hbob : simpleSupply.IsUser "bob" := isUser_simpleSupply (by decide)
  have hcarol : simpleSupply.IsUser "carol" := isUser_simpleSupply (by decide)
  have hapart : NamesApart farmStart.state.books poolA := fun q hq => by cases hq
  have hn : FarmReach simpleSupply NamesApart n := (reach_poolAOpen hapart).wait 11
  have hclaims : ∀ a ∈ ["carol", "bob"],
      FarmAllowed simpleSupply NamesApart n (.claim ⟨poolA, a⟩) := by
    intro a ha
    obtain rfl | rfl := List.mem_pair.mp ha
    · exact ⟨by decide, hcarol⟩
    · exact ⟨by decide, hbob⟩
  obtain ⟨evs, hhistory, hclaimed, hle⟩ :=
    (rewards_payable hn).2.1 poolA ["carol", "bob"] hclaims
  exact ⟨by decide +kernel, by decide +kernel, by decide +kernel, evs, hhistory,
    hclaimed "carol" (by decide) (by decide +kernel),
    hclaimed "bob" (by decide) (by decide +kernel), hle⟩

/-- **The earnings that are shown are paid.** In every run whose pool names are apart the query does
not panic, and shows a locker what a claim would pay now. -/
theorem earnings_are_claimable (hn : FarmReach sk NamesApart n) (p : PoolName) (a : Address) :
    n.state.books.getEarnings n.height p a =
      (orThrow (n.state.books.getLockInfo a p) (.noLockInfoFound a p)).map fun li =>
        ⟨n.height, li.amount, n.claimable sk p a⟩ := by
  have h : FarmSound n.history (n.state.ledger sk) := keeps_farmSound.reach hn
  unfold FarmBooks.getEarnings
  cases hli : n.state.books.getLockInfo a p with
  | none => rfl
  | some li =>
    cases hpool : n.state.books.getFarmPool p with
    | none => cases hli.symm.trans (h.principal.no_lock_of_fresh hpool a)
    | some pool =>
      obtain ⟨rfl, cur, hist, hsettles, hyield⟩ := h.settles n.height hpool
      refine bind_eq_ok.mpr ⟨li, rfl, bind_eq_ok.mpr ⟨pool, rfl, bind_eq_ok.mpr ⟨_, hyield, ?_⟩⟩⟩
      refine bind_eq_ok.mpr ⟨_, hsettles.incrementPoolPeriod n.height, ?_⟩
      exact bind_eq_ok.mpr ⟨_, claimable_spec h hsettles hli, rfl⟩

theorem earnings_are_claimable_bob :
    let n := poolAOpen.wait 11
    (n.state.books.getEarnings n.height poolA "bob").toOption.map (·.amountYielded bondDenom) =
      some 7500000000000000000 := by
  dsimp only
  rw [earnings_are_claimable ((reach_poolAOpen fun q hq => by cases hq).wait 11)]
  decide +kernel

/-! ## No record is missed -/

/-- An error that is neither a panic over a count nor over a missing record. -/
def NoReferencePanic (e : FarmError) : Prop :=
  e ≠ .panic .referenceCountExceeded ∧ e ≠ .panic .negativeReferenceCount ∧
    e ≠ .panic .missingRecord

theorem Refusal.noReferencePanic {e : FarmError} (h : Refusal e) : NoReferencePanic e :=
  ⟨h.2 _, h.2 _, h.2 _⟩

theorem handleMsgCreatePool_ends (height : Nat) (msg : MsgCreatePool) :
    Ends (s.handleMsgCreatePool sk height msg) (fun _ => True) Refusal := by
  unfold FarmState.handleMsgCreatePool
  refine (Ends.require fun _ => ⟨by simp, by simp⟩).bind fun _ _ _ => ?_
  refine (Ends.require fun _ => ⟨by simp, by simp⟩).bind fun _ _ _ => ?_
  refine (Ends.require fun _ => ⟨by simp, by simp⟩).bind fun _ _ _ => ?_
  refine (Ends.orThrow fun _ => ⟨by simp, by simp⟩).bind fun _ _ _ => ?_
  refine (Ends.orThrow fun _ => ⟨by simp, by simp⟩).bind fun _ _ _ => ?_
  exact trivial

theorem payUnless_ends {skip : Prop} [Decidable skip] {bank : B} {m : String} {c : Coins}
    {e : FarmError} (he : Refusal e) :
    Ends (FarmState.payUnless skip sk bank m addr c e) (fun _ => True) Refusal := by
  unfold FarmState.payUnless
  refine Ends.ite (fun _ => trivial) fun _ => ?_
  exact (Ends.orThrow fun _ => he).mono (fun _ _ => trivial) fun _ h => h

theorem handleMsgDestroyPool_ends (h : FarmSound history (s.ledger sk)) (height : Nat)
    (msg : MsgDestroyPool) :
    Ends (s.handleMsgDestroyPool sk height msg) (fun _ => True) Refusal := by
  unfold FarmState.handleMsgDestroyPool
  refine (Ends.orThrow fun _ => ⟨by simp, by simp⟩).bind fun pool _ hpool => ?_
  refine (Ends.require fun _ => ⟨by simp, by simp⟩).bind fun _ _ _ => ?_
  obtain ⟨-, cur, hist, hsettles, hyield⟩ := h.settles height hpool
  refine (Ends.eq_ok hyield).bind fun r _ hr => ?_
  subst hr
  refine (Ends.require fun _ => ⟨by simp, by simp⟩).bind fun _ _ _ => ?_
  refine (payUnless_ends ⟨by simp, by simp⟩).bind fun _ _ _ => ?_
  refine (payUnless_ends ⟨by simp, by simp⟩).bind fun _ _ _ => ?_
  exact trivial

theorem handleMsgProvide_ends (h : FarmSound history (s.ledger sk)) (height : Nat)
    (msg : MsgProvide) :
    Ends (s.handleMsgProvide sk height msg) (fun _ => True) NoReferencePanic := by
  unfold FarmState.handleMsgProvide
  refine (Ends.require fun _ => ⟨by simp, by simp, by simp⟩).bind fun _ _ _ => ?_
  refine (Ends.orThrow fun _ => ⟨by simp, by simp, by simp⟩).bind fun pool _ hpool => ?_
  refine (Ends.require fun _ => ⟨by simp, by simp, by simp⟩).bind fun _ _ _ => ?_
  obtain ⟨hname, cur, hist, hsettles, hyield⟩ := h.settles height hpool
  have honly : Ends pool.onlyYield (fun _ => True) NoReferencePanic := by
    unfold FarmPool.onlyYield
    split
    · exact trivial
    · exact ⟨by simp, by simp, by simp⟩
  refine honly.bind fun info _ _ => ?_
  refine (Ends.require fun _ => ⟨by simp, by simp, by simp⟩).bind fun _ _ _ => ?_
  refine (Ends.eq_ok hyield).bind fun r _ hr => ?_
  subst hr
  refine (Ends.require fun _ => ⟨by simp, by simp, by simp⟩).bind fun _ _ _ => ?_
  refine (Ends.eq_ok (hsettles.incrementPoolPeriod height)).bind fun r _ hr => ?_
  subst hr
  refine (Ends.orThrow fun _ => ⟨by simp, by simp, by simp⟩).bind fun _ _ _ => ?_
  exact trivial

theorem splitPoolToken_ends {P : String × String → Prop} (denom : String)
    (hP : ∀ r, P r) : Ends (FarmState.splitPoolToken denom) P NoReferencePanic := by
  unfold FarmState.splitPoolToken
  split
  · exact hP _
  · exact ⟨by simp, by simp, by simp⟩

theorem getPoolLockedValue_ends (pool : FarmPool) :
    Ends (s.getPoolLockedValue pool) (fun _ => True) NoReferencePanic := by
  unfold FarmState.getPoolLockedValue
  refine Ends.ite (fun _ => trivial) fun _ => Ends.ite (fun _ => ?_) fun _ => trivial
  unfold FarmState.calculateLockedLPTValue
  refine (splitPoolToken_ends pool.minLockAmount.denom fun _ => trivial).bind fun r _ _ => ?_
  obtain ⟨token0, token1⟩ := r
  dsimp only
  split <;> exact trivial

theorem calculateAllocateInfo_ends (names : List PoolName) :
    Ends (s.calculateAllocateInfo names) (fun _ => True) NoReferencePanic := by
  induction names with
  | nil => exact trivial
  | cons name names ih =>
    unfold FarmState.calculateAllocateInfo
    refine (Ends.orThrow fun _ => ⟨by simp, by simp, by simp⟩).bind fun pool _ _ => ?_
    refine (getPoolLockedValue_ends pool).bind fun value _ _ => ?_
    refine ih.bind fun pools _ _ => ?_
    exact trivial

/-- The loop of `BeginBlocker` finds the current rewards of every pool. -/
theorem allocate_ends {yielded total remaining : Int} {pools : List (FarmPool × Int)}
    {b : FarmBooks} (hpools : ∀ e ∈ pools, (b.currentRewards.get e.1.name).isSome) :
    Ends (FarmState.allocate yielded total pools remaining b) (fun _ => True) NoReferencePanic := by
  induction pools generalizing remaining b with
  | nil => exact trivial
  | cons e pools ih =>
    obtain ⟨pool, value⟩ := e
    obtain ⟨hfirst, hrest⟩ := List.forall_mem_cons.mp hpools
    unfold FarmState.allocate
    refine (Ends.require fun _ => ⟨by simp, by simp, by simp⟩).bind fun _ _ _ => ?_
    refine (Ends.orThrow fun hnone => ?_).bind fun cur _ hcur => ?_
    · have hfirst : (b.currentRewards.get pool.name).isSome := hfirst
      rw [hnone] at hfirst
      cases hfirst
    refine (ih fun e he => ?_).bind fun r _ _ => trivial
    show ((b.currentRewards.set pool.name _).get e.1.name).isSome
    rw [KVStore.get_set]
    by_cases hname : e.1.name = pool.name
    · rw [if_pos hname]
      rfl
    · rw [if_neg hname]
      exact hrest e he

theorem beginBlocker_ends (h : FarmSound history (s.ledger sk)) :
    Ends (s.beginBlocker sk) (fun _ => True) NoReferencePanic := by
  unfold FarmState.beginBlocker
  refine Ends.ite (fun _ => trivial) fun _ => Ends.ite (fun _ => ?_) fun _ => ?_
  · exact (Ends.orThrow fun _ => ⟨by simp, by simp, by simp⟩).bind fun _ _ _ => trivial
  · refine (calculateAllocateInfo_ends _).bind fun pools hpools _ => ?_
    refine Ends.ite (fun _ => trivial) fun _ => ?_
    obtain ⟨hall, -⟩ := FarmState.calculateAllocateInfo_cases hpools
    refine (allocate_ends fun e he => ?_).bind fun r _ _ => ?_
    · exact (h.references.current _).mpr (Option.isSome_iff_exists.mpr ⟨e.1, (hall e he).1⟩)
    refine (Ends.require fun _ => ⟨by simp, by simp, by simp⟩).bind fun _ _ _ => ?_
    exact (Ends.orThrow fun _ => ⟨by simp, by simp, by simp⟩).bind fun _ _ _ => trivial

theorem handleManageWhiteListProposal_ends (proposal : ManageWhiteListProposal) :
    Ends (s.handleManageWhiteListProposal proposal) (fun _ => True) NoReferencePanic := by
  have hadmit : ∀ pool, Ends (s.satisfyWhiteListAdmittance pool) (fun _ => True)
      NoReferencePanic := by
    intro pool
    unfold FarmState.satisfyWhiteListAdmittance
    refine Ends.ite (fun _ => trivial) fun _ => Ends.ite (fun _ => ?_) fun _ => ?_
    · exact (Ends.require fun _ => ⟨by simp, by simp, by simp⟩).mono (fun _ _ => trivial)
        fun _ he => he
    · refine (splitPoolToken_ends _ fun _ => trivial).bind fun r _ _ => ?_
      refine Ends.ite (fun _ => ?_) fun _ => ?_
      · exact (Ends.require fun _ => ⟨by simp, by simp, by simp⟩).mono (fun _ _ => trivial)
          fun _ he => he
      · refine (Ends.require fun _ => ⟨by simp, by simp, by simp⟩).bind fun _ _ _ => ?_
        exact (Ends.require fun _ => ⟨by simp, by simp, by simp⟩).mono (fun _ _ => trivial)
          fun _ he => he
  have hcheck : Ends (s.checkMsgManageWhiteListProposal proposal) (fun _ => True)
      NoReferencePanic := by
    unfold FarmState.checkMsgManageWhiteListProposal
    refine Ends.ite (fun _ => ?_) fun _ => ?_
    · exact (Ends.orThrow fun _ => ⟨by simp, by simp, by simp⟩).bind fun pool _ _ => hadmit pool
    · exact (Ends.require fun _ => ⟨by simp, by simp, by simp⟩).mono (fun _ _ => trivial)
        fun _ he => he
  unfold FarmState.handleManageWhiteListProposal
  refine hcheck.bind fun _ _ _ => ?_
  exact Ends.ite (fun _ => trivial) fun _ => trivial

/-- **No action misses a record or a reference.** -/
theorem failure_noReferencePanic (h : FarmSound history (n.state.ledger sk)) (a : FarmAction B)
    {e : FarmError} (he : n.failure sk a = some e) : NoReferencePanic e := by
  cases a with
  | createPool msg =>
    exact ((handleMsgCreatePool_ends n.height msg).of_error
      (failure_eq_some.mp he)).noReferencePanic
  | destroyPool msg =>
    exact ((handleMsgDestroyPool_ends h n.height msg).of_error
      (failure_eq_some.mp he)).noReferencePanic
  | provide msg => exact (handleMsgProvide_ends h n.height msg).of_error (failure_eq_some.mp he)
  | lock msg =>
    exact ((handleMsgLock_ends h n.height msg).of_error (failure_eq_some.mp he)).noReferencePanic
  | unlock msg =>
    exact ((handleMsgUnlock_ends h n.height msg).of_error (failure_eq_some.mp he)).noReferencePanic
  | claim msg =>
    obtain ⟨rfl, -⟩ | ⟨rfl, -⟩ :=
      (handleMsgClaim_ends h n.height msg).of_error (failure_eq_some.mp he)
    · exact ⟨by simp, by simp, by simp⟩
    · exact ⟨by simp, by simp, by simp⟩
  | manageWhiteList proposal =>
    exact (handleManageWhiteListProposal_ends proposal).of_error (failure_eq_some.mp he)
  | beginBlock => exact (beginBlocker_ends h).of_error (failure_eq_some.mp he)
  | nextBlock => cases he
  | outside c => cases he

theorem lockRefs_ne_zero {b : FarmBooks} {k : Nat} : b.lockRefs p k ≠ 0 ↔
    ∃ addr li, b.getLockInfo addr p = some li ∧ li.referencePeriod = k := by
  constructor
  · intro hne
    by_contra hno
    refine hne (lockRefs_eq_zero fun addr li hli hk => hno ⟨addr, li, hli, hk⟩)
  · rintro ⟨addr, li, hli, rfl⟩
    have := lockRefs_pos hli
    omega

/-- **References are counted exactly.** In every run whose pool names are apart, and for every pool
and period: a record of historical rewards is stored when the current period follows it or a lock
info refers to it; its count is the number of such lock infos, and one if the current period follows
it, and never above two; names without a pool have no records. Every lock info refers to a record,
and no action panics over a count or misses a record. -/
theorem references_exact (hn : FarmReach sk NamesApart n) :
    let b := n.state.books
    (∀ p pool, b.getFarmPool p = some pool → ∃ cur, b.currentRewards.get p = some cur ∧ ∀ k,
      ((b.historicalRewards.get (toLex (p, k))).isSome ↔ k + 1 = cur.period ∨
        ∃ addr li, b.getLockInfo addr p = some li ∧ li.referencePeriod = k) ∧
      ∀ hist, b.historicalRewards.get (toLex (p, k)) = some hist →
        hist.referenceCount =
          b.lockInfos.store.count (fun _ li => li.poolName = p ∧ li.referencePeriod = k) +
            (if k + 1 = cur.period then 1 else 0) ∧
        hist.referenceCount ≤ 2) ∧
    (∀ p k, b.getFarmPool p = none → b.historicalRewards.get (toLex (p, k)) = none) ∧
    (∀ addr p li, b.getLockInfo addr p = some li →
      (b.historicalRewards.get (toLex (p, li.referencePeriod))).isSome) ∧
    (∀ a e, n.failure sk a = some e → NoReferencePanic e) := by
  intro b
  have h : FarmSound n.history (n.state.ledger sk) := keeps_farmSound.reach hn
  have href : References b := h.references
  refine ⟨fun p pool hpool => ?_, fun p k hpool => ?_, fun addr p li hli => ?_,
    fun a e he => failure_noReferencePanic h a he⟩
  · obtain ⟨cur, hist, hsettles⟩ := href.settles hpool
    have hname : pool.name = p := KeyedStore.key_of_get hpool
    subst hname
    have hcur := hsettles.get_cur
    refine ⟨cur, hcur, fun k => ⟨?_, fun hist hget => ?_⟩⟩
    · rw [href.counts.isSome_iff, ← lockRefs_ne_zero, currentRef_eq hcur]
      split_ifs with hk
      · exact ⟨fun _ => .inl hk.symm, fun _ => by omega⟩
      · rw [add_zero]
        exact ⟨.inr, fun hor => hor.resolve_left (Ne.symm hk)⟩
    · obtain ⟨hcount, -⟩ := href.counts.count_of_get hget
      have hone : b.currentRef pool.name k = if k + 1 = cur.period then 1 else 0 := by
        rw [currentRef_eq hcur]
        exact if_congr eq_comm rfl rfl
      have hle := href.single pool.name k
      have hcount : hist.referenceCount = b.lockRefs pool.name k + b.currentRef pool.name k := hcount
      rw [hone] at hcount
      refine ⟨hcount, ?_⟩
      split_ifs at hcount <;> omega
  · refine href.counts.get_of_zero ?_
    have hnone : b.currentRewards.get p = none := by
      have hiff := href.current p
      rw [hpool, Option.isSome_none, Bool.false_eq_true, iff_false] at hiff
      exact Option.not_isSome_iff_eq_none.mp hiff
    have hzero : b.lockRefs p k = 0 := lockRefs_eq_zero fun addr li hli =>
      absurd (h.principal.no_lock_of_fresh hpool addr) (by
        rw [show (n.state.ledger sk).books.getLockInfo addr p = some li from hli]
        exact Option.some_ne_none li)
    rw [hzero, FarmBooks.currentRef, hnone]
    rfl
  · have hpos := lockRefs_pos hli
    exact href.counts.isSome_iff.mpr (show b.lockRefs p li.referencePeriod + _ ≠ 0 by omega)

/-- The first pool, when Bob and Carol have locked: the record that Carol and the current period
refer to. -/
theorem references_exact_poolA :
    (poolAOpen.state.books.historicalRewards.get (toLex (poolA, 3))).map
      PoolHistoricalRewards.referenceCount = some 2 ∧
    poolAOpen.state.books.lockInfos.store.count
      (fun _ li => li.poolName = poolA ∧ li.referencePeriod = 3) = 1 ∧
    ∀ a e, poolAOpen.failure simpleSupply a = some e → NoReferencePanic e := by
  have hapart : NamesApart farmStart.state.books poolA := fun q hq => by cases hq
  have hn : FarmReach simpleSupply NamesApart poolAOpen := reach_poolAOpen hapart
  exact ⟨by decide +kernel, by decide +kernel, (references_exact hn).2.2.2⟩

end Okexchain
