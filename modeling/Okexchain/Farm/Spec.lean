import Okexchain.Farm.Handler

/-!
# What the farm keeper does

The functions of the keeper and the handlers as relations: when they succeed, and what the books are
then. Nothing later unfolds them.

* `release` and `retain` take away and add a reference to a record of historical rewards.
* `closePeriod` ends the current period of a pool, `FarmPool.afterYield` credits the tokens yielded
  since its start, and `settle` does both at a pool's own figures.
* `putLock` stores a lock info, or drops it when nothing is left in it.

**Results.** `handleMsgLock`, `handleMsgUnlock` and `handleMsgClaim` all settle a pool, pay the
account its rewards and change its lock info: each success is a `Relock`. The other handlers have
their own: `Create`, `Destroy`, `Provide`.
-/

namespace Okexchain

/-! ## Yield -/

namespace FarmPool

/-- The yields of a pool from the start of a period to a height. -/
def yields (pool : FarmPool) (start height : Nat) : List (YieldedTokenInfo × Coins) :=
  pool.yieldedTokenInfos.map (YieldedTokenInfo.yield start height)

/-- The tokens a pool yields. -/
def yielded (pool : FarmPool) (start height : Nat) : Coins :=
  ((pool.yields start height).map Prod.snd).sum

/-- The pool after they are credited. -/
def afterYield (pool : FarmPool) (start height : Nat) : FarmPool :=
  { pool with
    yieldedTokenInfos := (pool.yields start height).map Prod.fst
    totalAccumulatedRewards := pool.totalAccumulatedRewards + pool.yielded start height }

/-- The pool after an account has been paid its rewards and its lock has changed. -/
def relocked (pool : FarmPool) (start height : Nat) (change : Int) (rewards : Coins) : FarmPool :=
  let updatedPool := pool.afterYield start height
  { updatedPool with
    totalValueLocked := { pool.totalValueLocked with
      amount := pool.totalValueLocked.amount + change }
    totalAccumulatedRewards := updatedPool.totalAccumulatedRewards - rewards }

/-- The pool after a new yield has been provided. -/
def provided (pool : FarmPool) (start height : Nat) (msg : MsgProvide) : FarmPool :=
  { pool.afterYield start height with
    yieldedTokenInfos := [⟨msg.amount, msg.startHeightToYield, msg.amountYieldedPerBlock⟩] }

theorem subRewards_eq_ok {pool pool' : FarmPool} {rewards : Coins}
    (h : pool.subRewards rewards = .ok pool') :
    (∀ d, rewards d ≤ pool.totalAccumulatedRewards d) ∧
      pool' = { pool with totalAccumulatedRewards := pool.totalAccumulatedRewards - rewards } := by
  obtain ⟨-, -, h⟩ := bind_eq_ok.mp h
  obtain ⟨acc, hacc, h⟩ := bind_eq_ok.mp h
  obtain ⟨rfl, hle⟩ := Coins.subCoins_cases (orThrow_eq_ok.mp hacc)
  exact ⟨hle, (pure_eq_ok.mp h).symm⟩

end FarmPool

namespace FarmBooks

variable {b b' : FarmBooks} {height : Nat} {p : PoolName} {k : Nat}

theorem calculateAmountYieldedBetween_eq_ok {pool : FarmPool} {r : FarmPool × Coins} :
    b.calculateAmountYieldedBetween height pool = .ok r ↔
      ∃ cur, b.currentRewards.get pool.name = some cur ∧
        r = (pool.afterYield cur.startBlockHeight height,
          pool.yielded cur.startBlockHeight height) := by
  unfold calculateAmountYieldedBetween
  rw [bind_eq_ok]
  refine exists_congr fun cur => and_congr orThrow_eq_ok ?_
  rw [pure_eq_ok]
  exact eq_comm

/-! ## References -/

/-- Take a reference away; the last one takes the record along. -/
def release (b : FarmBooks) (p : PoolName) (k : Nat) : FarmBooks :=
  match b.historicalRewards.get (toLex (p, k)) with
  | none => b
  | some h =>
    if h.referenceCount = 1 then b.deletePoolHistoricalReward p k
    else b.setPoolHistoricalRewards p k { h with referenceCount := h.referenceCount - 1 }

/-- Add a reference. -/
def retain (b : FarmBooks) (p : PoolName) (k : Nat) : FarmBooks :=
  match b.historicalRewards.get (toLex (p, k)) with
  | none => b
  | some h => b.setPoolHistoricalRewards p k { h with referenceCount := h.referenceCount + 1 }

theorem release_fields (b : FarmBooks) (p : PoolName) (k : Nat) :
    b.release p k = { b with historicalRewards := (b.release p k).historicalRewards } := by
  unfold release
  cases b.historicalRewards.get (toLex (p, k)) with
  | none => rfl
  | some h =>
    simp only
    split_ifs <;> rfl

theorem retain_fields (b : FarmBooks) (p : PoolName) (k : Nat) :
    b.retain p k = { b with historicalRewards := (b.retain p k).historicalRewards } := by
  unfold retain
  cases b.historicalRewards.get (toLex (p, k)) <;> rfl

theorem getPoolHistoricalRewards_eq_ok {h : PoolHistoricalRewards} :
    b.getPoolHistoricalRewards p k = .ok h ↔ b.historicalRewards.get (toLex (p, k)) = some h :=
  orThrow_eq_ok

theorem getPoolCurrentRewards_eq_ok {cur : PoolCurrentRewards} :
    b.getPoolCurrentRewards p = .ok cur ↔ b.currentRewards.get p = some cur :=
  orThrow_eq_ok

theorem decrementReferenceCount_eq_ok : b.decrementReferenceCount p k = .ok b' ↔
    (∃ h, b.historicalRewards.get (toLex (p, k)) = some h ∧ h.referenceCount ≠ 0) ∧
      b' = b.release p k := by
  unfold decrementReferenceCount
  simp only [bind_eq_ok, getPoolHistoricalRewards_eq_ok, require_eq_ok]
  constructor
  · rintro ⟨h, hget, -, hne, hb⟩
    refine ⟨⟨h, hget, hne⟩, ?_⟩
    simp only [release, hget]
    split_ifs at hb ⊢ <;> exact (pure_eq_ok.mp hb).symm
  · rintro ⟨⟨h, hget, hne⟩, rfl⟩
    refine ⟨h, hget, (), hne, ?_⟩
    simp only [release, hget]
    split_ifs <;> rfl

theorem incrementReferenceCount_eq_ok : b.incrementReferenceCount p k = .ok b' ↔
    (∃ h, b.historicalRewards.get (toLex (p, k)) = some h ∧ h.referenceCount ≤ 2) ∧
      b' = b.retain p k := by
  unfold incrementReferenceCount
  simp only [bind_eq_ok, getPoolHistoricalRewards_eq_ok, require_eq_ok, pure_eq_ok]
  constructor
  · rintro ⟨h, hget, -, hle, hb⟩
    refine ⟨⟨h, hget, hle⟩, ?_⟩
    simp only [retain, hget]
    exact hb.symm
  · rintro ⟨⟨h, hget, hle⟩, rfl⟩
    refine ⟨h, hget, (), hle, ?_⟩
    simp only [retain, hget]

/-! ## Periods -/

/-- End the current period of a pool, with the cumulative ratio it has reached. -/
def closePeriod (height : Nat) (b : FarmBooks) (p : PoolName) (cur : PoolCurrentRewards)
    (ratio : Coins) : FarmBooks :=
  ((b.release p (cur.period - 1)).setPoolHistoricalRewards p cur.period
    ⟨ratio, 1⟩).setPoolCurrentRewards p ⟨height, cur.period + 1, 0⟩

theorem closePeriod_fields (height : Nat) (b : FarmBooks) (p : PoolName)
    (cur : PoolCurrentRewards) (ratio : Coins) :
    b.closePeriod height p cur ratio = { b with
      historicalRewards := (b.release p (cur.period - 1)).historicalRewards.set
        (toLex (p, cur.period)) ⟨ratio, 1⟩
      currentRewards := b.currentRewards.set p ⟨height, cur.period + 1, 0⟩ } := by
  unfold closePeriod
  rw [release_fields]
  rfl

/-- The records a pool's period is closed with. -/
structure Settles (b : FarmBooks) (pool : FarmPool) (cur : PoolCurrentRewards)
    (hist : PoolHistoricalRewards) : Prop where
  get_pool : b.farmPools.get pool.name = some pool
  get_cur : b.currentRewards.get pool.name = some cur
  get_hist : b.historicalRewards.get (toLex (pool.name, cur.period - 1)) = some hist
  referenced : hist.referenceCount ≠ 0

/-- Close the period of a pool and distribute what it has gathered over what is locked. -/
def settle (height : Nat) (b : FarmBooks) (pool : FarmPool) (cur : PoolCurrentRewards)
    (hist : PoolHistoricalRewards) : FarmBooks :=
  let rewards := cur.rewards + pool.yielded cur.startBlockHeight height
  b.closePeriod height pool.name cur
    (hist.cumulativeRewardRatio + currentRatio rewards pool.totalValueLocked)

/-- The same, with the reference of the account's lock info taken away if it had one. -/
def settled (height : Nat) (b : FarmBooks) (pool : FarmPool) (cur : PoolCurrentRewards)
    (hist : PoolHistoricalRewards) (old : Option LockInfo) : FarmBooks :=
  let b := b.settle height pool cur hist
  match old with
  | none => b
  | some li => b.release pool.name li.referencePeriod

theorem incrementPoolPeriod_eq_ok {tvl : DecCoin} {yielded : Coins} {period : Nat} :
    b.incrementPoolPeriod height p tvl yielded = .ok (b', period) ↔
      ∃ cur hist, b.currentRewards.get p = some cur ∧
        b.historicalRewards.get (toLex (p, cur.period - 1)) = some hist ∧
        hist.referenceCount ≠ 0 ∧ period = cur.period ∧
        b' = b.closePeriod height p cur
          (hist.cumulativeRewardRatio + currentRatio (cur.rewards + yielded) tvl) := by
  unfold incrementPoolPeriod
  simp only [bind_eq_ok, getPoolHistoricalRewards_eq_ok, getPoolCurrentRewards_eq_ok,
    decrementReferenceCount_eq_ok, pure_eq_ok, Prod.mk.injEq]
  constructor
  · rintro ⟨cur, hcur, hist, hhist, b₁, ⟨⟨hist', hhist', hne⟩, rfl⟩, rfl, rfl⟩
    rw [hhist] at hhist'
    cases hhist'
    exact ⟨cur, hist, hcur, hhist, hne, rfl, rfl⟩
  · rintro ⟨cur, hist, hcur, hhist, hne, rfl, rfl⟩
    exact ⟨cur, hcur, hist, hhist, _, ⟨⟨hist, hhist, hne⟩, rfl⟩, rfl, rfl⟩

/-- Closing the period of a pool that can be settled, at its own figures, settles it. -/
theorem Settles.incrementPoolPeriod {pool : FarmPool} {cur : PoolCurrentRewards}
    {hist : PoolHistoricalRewards} (h : b.Settles pool cur hist) (height : Nat) :
    b.incrementPoolPeriod height pool.name pool.totalValueLocked
      (pool.yielded cur.startBlockHeight height) = .ok (b.settle height pool cur hist, cur.period) :=
  incrementPoolPeriod_eq_ok.mpr ⟨cur, hist, h.get_cur, h.get_hist, h.referenced, rfl, rfl⟩

/-! ## Lock infos -/

/-- Store a lock info with a reference to its period, or drop an empty one. -/
def putLock (b : FarmBooks) (li : LockInfo) : FarmBooks :=
  if li.amount.amount = 0 then
    (b.deleteLockInfo li.owner li.poolName).deleteAddressInFarmPool li.poolName li.owner
  else
    ((b.retain li.poolName li.referencePeriod).setLockInfo li).setAddressInFarmPool
      li.poolName li.owner

end FarmBooks

/-- A lock info from a new period on, with a change of its amount. -/
def LockInfo.move (li : LockInfo) (height period : Nat) (change : Int) : LockInfo :=
  { li with
    startBlockHeight := height
    referencePeriod := period
    amount := { li.amount with amount := li.amount.amount + change } }

namespace FarmBooks

variable {b b' : FarmBooks} {height : Nat} {p : PoolName} {addr : Address}

theorem lockInfo_key {li : LockInfo} (h : b.getLockInfo addr p = some li) :
    li.owner = addr ∧ li.poolName = p := by
  have hkey : li.key = toLex (addr, p) := KeyedStore.key_of_get h
  exact Prod.mk.inj (toLex.injective hkey)

theorem historicalRewards_retain (b : FarmBooks) (p : PoolName) (k : Nat) {b' : FarmBooks}
    (h : b'.historicalRewards = b.historicalRewards) :
    (b'.retain p k).historicalRewards = (b.retain p k).historicalRewards := by
  unfold retain
  rw [h]
  cases b.historicalRewards.get (toLex (p, k)) with
  | none => exact h
  | some hist => exact congrArg (fun m : KVStore _ _ => m.set _ _) h

/-- A lock info takes the place of the one that was put there before it. -/
theorem putLock_over {e li : LockInfo} (howner : e.owner = li.owner)
    (hpool : e.poolName = li.poolName) (hne : li.amount.amount ≠ 0) :
    ((b.setLockInfo e).setAddressInFarmPool e.poolName e.owner).putLock li = b.putLock li := by
  have hkey : li.key = e.key := by rw [LockInfo.key, LockInfo.key, howner, hpool]
  have hlocks : (b.lockInfos.put e).put li = b.lockInfos.put li := KeyedStore.put_put hkey
  have haddrs : (b.addressInFarmPool.set (toLex (e.poolName, e.owner)) ()).set
      (toLex (li.poolName, li.owner)) () =
      b.addressInFarmPool.set (toLex (li.poolName, li.owner)) () := by
    rw [howner, hpool, KVStore.set_set]
  unfold putLock
  rw [if_neg hne, if_neg hne, retain_fields, retain_fields b]
  unfold setLockInfo setAddressInFarmPool
  simp only [hlocks, haddrs]
  congr 1
  exact historicalRewards_retain b li.poolName li.referencePeriod rfl

theorem updateLockInfo_eq_ok {change : Int} (h : b.updateLockInfo height addr p change = .ok b') :
    ∃ cur li, b.currentRewards.get p = some cur ∧ b.getLockInfo addr p = some li ∧
      b' = b.putLock (li.move height (cur.period - 1) change) := by
  unfold updateLockInfo at h
  simp only [bind_eq_ok, getPoolCurrentRewards_eq_ok, orThrow_eq_ok] at h
  obtain ⟨cur, hcur, li, hli, h⟩ := h
  refine ⟨cur, li, hcur, hli, ?_⟩
  obtain ⟨-, rfl⟩ := lockInfo_key hli
  show b' = if li.amount.amount + change = 0 then _ else _
  split_ifs at h ⊢
  · exact (pure_eq_ok.mp h).symm
  · simp only [bind_eq_ok, incrementReferenceCount_eq_ok, pure_eq_ok] at h
    obtain ⟨b₁, ⟨-, rfl⟩, hb⟩ := h
    exact hb.symm

/-- With a record for the new period a lock info can be updated. -/
theorem updateLockInfo_ok {change : Int} {cur : PoolCurrentRewards} {li : LockInfo}
    {hist : PoolHistoricalRewards} (hcur : b.currentRewards.get p = some cur)
    (hli : b.getLockInfo addr p = some li)
    (hhist : b.historicalRewards.get (toLex (p, cur.period - 1)) = some hist)
    (hcount : hist.referenceCount ≤ 2) :
    b.updateLockInfo height addr p change =
      .ok (b.putLock (li.move height (cur.period - 1) change)) := by
  unfold updateLockInfo
  simp only [bind_eq_ok, getPoolCurrentRewards_eq_ok, orThrow_eq_ok]
  refine ⟨cur, hcur, li, hli, ?_⟩
  obtain ⟨-, rfl⟩ := lockInfo_key hli
  show (if li.amount.amount + change = 0 then _ else _) = Except.ok (if _ then _ else _)
  split_ifs with hzero h0 h0
  · rfl
  · exact absurd hzero h0
  · exact absurd h0 hzero
  · simp only [bind_eq_ok, incrementReferenceCount_eq_ok, pure_eq_ok]
    exact ⟨_, ⟨⟨hist, hhist, hcount⟩, rfl⟩, rfl⟩

end FarmBooks

/-! ## Handlers -/

namespace FarmBooks

/-- The books with a new pool. -/
def create (height : Nat) (b : FarmBooks) (pool : FarmPool) : FarmBooks :=
  ((b.setFarmPool pool).setPoolHistoricalRewards pool.name 0 ⟨0, 1⟩).setPoolCurrentRewards
    pool.name ⟨height, 1, 0⟩

/-- The books without the records `handleMsgDestroyPool` deletes. -/
def destroy (b : FarmBooks) (p : PoolName) : FarmBooks :=
  { b.deleteFarmPool p with
    historicalRewards := (b.iteratePoolHistoricalRewards p).foldl KVStore.delete b.historicalRewards
    currentRewards := b.currentRewards.delete p }

/-- Credit a pool with native tokens. -/
def credit (b : FarmBooks) (pool : FarmPool) (cur : PoolCurrentRewards) (amount : Int) :
    FarmBooks :=
  (b.setPoolCurrentRewards pool.name
    { cur with rewards := cur.rewards + coin bondDenom amount }).setFarmPool
      { pool with
        totalAccumulatedRewards := pool.totalAccumulatedRewards + coin bondDenom amount }

end FarmBooks

/-- The books and the balances of the two accounts they account for. -/
structure FarmLedger where
  books : FarmBooks
  farm : Coins
  yield : Coins

namespace FarmState

variable {B : Type} {sk : SupplyKeeper B} {height : Nat} {s s' : FarmState B} {p : PoolName}
  {addr : Address} {rewards : Coins}

/-- The ledger of a state. -/
def ledger (sk : SupplyKeeper B) (s : FarmState B) : FarmLedger :=
  ⟨s.books, sk.moduleCoins s.bank farmModuleName, sk.moduleCoins s.bank yieldFarmingAccount⟩

theorem payUnless_moved {skip : Prop} [Decidable skip] {bank bank' : B} {m : String} {c : Coins}
    {e : FarmError} (hskip : skip → c = 0)
    (h : payUnless skip sk bank m addr c e = .ok bank') :
    sk.Moved bank (sk.moduleAddress m) addr c bank' := by
  unfold payUnless at h
  split_ifs at h with hzero
  · cases h
    rw [hskip hzero]
    exact .zero bank _ _
  · exact .of_send (orThrow_eq_ok.mp h)

theorem withdrawRewards_cases {tvl : DecCoin} {yielded : Coins}
    (h : s.withdrawRewards sk height p tvl yielded addr = .ok (s', rewards)) :
    ∃ li cur hist bank, s.books.getLockInfo addr p = some li ∧
      s.books.currentRewards.get p = some cur ∧
      s.books.historicalRewards.get (toLex (p, cur.period - 1)) = some hist ∧
      hist.referenceCount ≠ 0 ∧
      let b := s.books.closePeriod height p cur
        (hist.cumulativeRewardRatio + FarmBooks.currentRatio (cur.rewards + yielded) tvl)
      b.calculateRewards height p cur.period li = .ok rewards ∧
      sk.Moved s.bank (sk.moduleAddress yieldFarmingAccount) addr rewards bank ∧
      s' = { s with books := b.release p li.referencePeriod, bank := bank } := by
  unfold withdrawRewards at h
  simp only [bind_eq_ok, orThrow_eq_ok, Prod.exists, FarmBooks.incrementPoolPeriod_eq_ok,
    FarmBooks.decrementReferenceCount_eq_ok, pure_eq_ok, Prod.mk.injEq] at h
  obtain ⟨li, hli, -, -, ⟨cur, hist, hcur, hhist, hne, rfl, rfl⟩, r, hr, bank, hbank, -,
    ⟨-, rfl⟩, rfl, rfl⟩ := h
  refine ⟨li, cur, hist, bank, hli, hcur, hhist, hne, hr, ?_, rfl⟩
  exact payUnless_moved (fun hzero => hzero) hbank

/-- **A settled lock**: the pool is settled, the account is paid the rewards of the lock info it
had, and its lock info is changed. -/
structure Relock (height : Nat) (l : FarmLedger) (pool : FarmPool) (cur : PoolCurrentRewards)
    (hist : PoolHistoricalRewards) (addr : Address) (old : Option LockInfo) (change : Int)
    (rewards : Coins) (l' : FarmLedger) : Prop where
  settles : l.books.Settles pool cur hist
  get_old : l.books.getLockInfo addr pool.name = old
  rewards_new : old = none → rewards = 0
  rewards_old : ∀ li, old = some li →
    (l.books.settle height pool cur hist).calculateRewards height pool.name cur.period li =
      .ok rewards
  covered : ∀ li, old = some li →
    ∀ d, rewards d ≤ (pool.afterYield cur.startBlockHeight height).totalAccumulatedRewards d
  books : l'.books = ((l.books.settled height pool cur hist old).putLock
    ((old.getD (emptyLock pool addr height)).move height cur.period change)).setFarmPool
      (pool.relocked cur.startBlockHeight height change rewards)
  farm : l'.farm = l.farm + coin pool.minLockAmount.denom change
  yield : l'.yield = l.yield - rewards

theorem settle_fields (height : Nat) (b : FarmBooks) (pool : FarmPool) (cur : PoolCurrentRewards)
    (hist : PoolHistoricalRewards) : b.settle height pool cur hist = { b with
      historicalRewards := (b.settle height pool cur hist).historicalRewards
      currentRewards := b.currentRewards.set pool.name ⟨height, cur.period + 1, 0⟩ } := by
  unfold FarmBooks.settle
  rw [FarmBooks.closePeriod_fields]

/-- A withdrawal settles the pool and takes the account's reference away. -/
theorem withdrawRewards_settles {pool : FarmPool} {cur : PoolCurrentRewards}
    (hpool : s.books.getFarmPool pool.name = some pool)
    (hcur : s.books.currentRewards.get pool.name = some cur)
    (h : s.withdrawRewards sk height pool.name pool.totalValueLocked
      (pool.yielded cur.startBlockHeight height) addr = .ok (s', rewards)) :
    ∃ li hist bank, s.books.Settles pool cur hist ∧
      s.books.getLockInfo addr pool.name = some li ∧
      (s.books.settle height pool cur hist).calculateRewards height pool.name cur.period li =
        .ok rewards ∧
      sk.Moved s.bank (sk.moduleAddress yieldFarmingAccount) addr rewards bank ∧
      s' = { s with
        books := (s.books.settle height pool cur hist).release pool.name li.referencePeriod
        bank := bank } := by
  obtain ⟨li, cur', hist, bank, hli, hcur', hhist, hne, hr, hbank, rfl⟩ := withdrawRewards_cases h
  rw [hcur] at hcur'
  cases hcur'
  exact ⟨li, hist, bank, ⟨hpool, hcur, hhist, hne⟩, hli, hr, hbank, rfl⟩

theorem settle_get_cur (height : Nat) (b : FarmBooks) (pool : FarmPool) (cur : PoolCurrentRewards)
    (hist : PoolHistoricalRewards) : (b.settle height pool cur hist).currentRewards.get pool.name =
      some ⟨height, cur.period + 1, 0⟩ := by
  rw [settle_fields]
  exact KVStore.get_set_self

/-- Updating a lock info after a period has been closed. -/
theorem updateLockInfo_settled {b b' : FarmBooks} {change : Int} {period : Nat} {li : LockInfo}
    (h : b.updateLockInfo height addr p change = .ok b')
    (hcur : b.currentRewards.get p = some ⟨height, period + 1, 0⟩)
    (hli : b.getLockInfo addr p = some li) : b' = b.putLock (li.move height period change) := by
  obtain ⟨cur, li', hcur', hli', rfl⟩ := FarmBooks.updateLockInfo_eq_ok h
  obtain rfl := Option.some.inj (hcur.symm.trans hcur')
  obtain rfl := Option.some.inj (hli.symm.trans hli')
  rfl

/-- The books after a withdrawal still have the lock info, and the new period. -/
theorem settled_release (height : Nat) (b : FarmBooks) (pool : FarmPool)
    (cur : PoolCurrentRewards) (hist : PoolHistoricalRewards) (k : Nat) :
    ((b.settle height pool cur hist).release pool.name k).currentRewards.get pool.name =
      some ⟨height, cur.period + 1, 0⟩ ∧
    ((b.settle height pool cur hist).release pool.name k).lockInfos = b.lockInfos := by
  rw [FarmBooks.release_fields]
  refine ⟨settle_get_cur height b pool cur hist, ?_⟩
  rw [settle_fields]

theorem handleMsgClaim_relock {msg : MsgClaim} (huser : sk.IsUser msg.address)
    (h : s.handleMsgClaim sk height msg = .ok (s', rewards)) :
    ∃ pool cur hist li, pool.name = msg.poolName ∧
      Relock height (s.ledger sk) pool cur hist msg.address (some li) 0 rewards
        (s'.ledger sk) := by
  unfold handleMsgClaim at h
  simp only [bind_eq_ok, orThrow_eq_ok, Prod.exists,
    FarmBooks.calculateAmountYieldedBetween_eq_ok, pure_eq_ok, Prod.mk.injEq] at h
  obtain ⟨pool, hpool, -, -, ⟨cur, hcur, rfl, rfl⟩, s₁, r, hwithdraw, b, hupdate, pool', hsub,
    rfl, rfl⟩ := h
  have hname : pool.name = msg.poolName := KeyedStore.key_of_get hpool
  rw [← hname] at hpool
  obtain ⟨li, hist, bank, hsettles, hli, hr, hbank, rfl⟩ :=
    withdrawRewards_settles hpool hcur hwithdraw
  obtain ⟨hle, rfl⟩ := FarmPool.subRewards_eq_ok hsub
  obtain ⟨hcur', hlocks⟩ := settled_release height s.books pool cur hist li.referencePeriod
  have hb := updateLockInfo_settled hupdate hcur' ((congrArg (KeyedStore.get · _) hlocks).trans hli)
  exact ⟨pool, cur, hist, li, hname, {
    settles := hsettles
    get_old := hli
    rewards_new := fun he => (by cases he)
    rewards_old := fun li' he => (by cases he; exact hr)
    covered := fun _ _ => hle
    books := by
      have hsame : pool.relocked cur.startBlockHeight height 0 r = { pool.afterYield
          cur.startBlockHeight height with totalAccumulatedRewards :=
            (pool.afterYield cur.startBlockHeight height).totalAccumulatedRewards - r } := by
        simp only [FarmPool.relocked, add_zero]
        rfl
      rw [hsame]
      exact congrArg (FarmBooks.setFarmPool · _) hb
    farm := by
      show sk.moduleCoins bank farmModuleName = _
      rw [coin_zero, add_zero, hbank.of_module huser, if_neg (by decide), sub_zero]
      rfl
    yield := by
      show sk.moduleCoins bank yieldFarmingAccount = _
      rw [hbank.of_module huser, if_pos rfl]
      rfl }⟩

theorem handleMsgUnlock_relock {msg : MsgLock} (huser : sk.IsUser msg.address)
    (h : s.handleMsgUnlock sk height msg = .ok (s', rewards)) :
    ∃ pool cur hist li, pool.name = msg.poolName ∧
      Relock height (s.ledger sk) pool cur hist msg.address (some li) (-msg.amount.amount) rewards
        (s'.ledger sk) ∧
      msg.amount.amount ≤ li.amount.amount ∧
      (li.amount.amount - msg.amount.amount = 0 ∨
        pool.minLockAmount.amount ≤ li.amount.amount - msg.amount.amount) := by
  unfold handleMsgUnlock at h
  simp only [bind_eq_ok, orThrow_eq_ok, require_eq_ok, exists_const, Prod.exists,
    FarmBooks.calculateAmountYieldedBetween_eq_ok, pure_eq_ok, Prod.mk.injEq] at h
  obtain ⟨li, hli, -, hle, pool, hpool, hdenom, hmin, -, -, ⟨cur, hcur, rfl, rfl⟩, s₁, r,
    hwithdraw, b, hupdate, bank', hsend, -, pool', hsub, rfl, rfl⟩ := h
  have hname : pool.name = msg.poolName := KeyedStore.key_of_get hpool
  rw [← hname] at hpool hli hupdate
  obtain ⟨li', hist, bank, hsettles, hli', hr, hbank, rfl⟩ :=
    withdrawRewards_settles hpool hcur hwithdraw
  obtain rfl : li = li' := Option.some.inj (hli.symm.trans hli')
  obtain ⟨hcovered, rfl⟩ := FarmPool.subRewards_eq_ok hsub
  obtain ⟨hcur', hlocks⟩ := settled_release height s.books pool cur hist li.referencePeriod
  have hb := updateLockInfo_settled hupdate hcur' ((congrArg (KeyedStore.get · _) hlocks).trans hli)
  have hsent : sk.Moved bank (sk.moduleAddress farmModuleName) msg.address msg.amount.toCoins bank' :=
    .of_send hsend
  refine ⟨pool, cur, hist, li, hname, {
    settles := hsettles
    get_old := hli
    rewards_new := fun he => (by cases he)
    rewards_old := fun li' he => (by cases he; exact hr)
    covered := fun _ _ => hcovered
    books := congrArg (FarmBooks.setFarmPool · _) hb
    farm := by
      have hneg : coin pool.minLockAmount.denom (-msg.amount.amount) = -msg.amount.toCoins := by
        rw [DecCoin.toCoins, hdenom, ← zero_sub, coin_sub, coin_zero, zero_sub]
      show sk.moduleCoins bank' farmModuleName = _
      rw [hsent.of_module huser, if_pos rfl, hbank.of_module huser, if_neg (by decide), sub_zero,
        hneg, sub_eq_add_neg]
      rfl
    yield := by
      show sk.moduleCoins bank' yieldFarmingAccount = _
      rw [hsent.of_module huser, if_neg (by decide), sub_zero, hbank.of_module huser, if_pos rfl]
      rfl }, hle, hmin⟩

/-- What is done for an account that locks, before its lock info is updated. -/
theorem openLock_cases {pool updatedPool upd : FarmPool} {cur : PoolCurrentRewards}
    (hpool : s.books.getFarmPool pool.name = some pool)
    (hcur : s.books.currentRewards.get pool.name = some cur)
    (h : s.openLock sk height pool updatedPool (pool.yielded cur.startBlockHeight height) addr
      (s.books.getLockInfo addr pool.name).isSome = .ok (s', upd, rewards)) :
    ∃ hist bank, s.books.Settles pool cur hist ∧
      (s.books.getLockInfo addr pool.name = none → rewards = 0) ∧
      (∀ li, s.books.getLockInfo addr pool.name = some li →
        (s.books.settle height pool cur hist).calculateRewards height pool.name cur.period li =
          .ok rewards) ∧
      sk.Moved s.bank (sk.moduleAddress yieldFarmingAccount) addr rewards bank ∧
      (∀ li, s.books.getLockInfo addr pool.name = some li →
        ∀ d, rewards d ≤ updatedPool.totalAccumulatedRewards d) ∧
      upd = { updatedPool with
        totalAccumulatedRewards := updatedPool.totalAccumulatedRewards - rewards } ∧
      s' = { s with
        books := (s.books.getLockInfo addr pool.name).elim
          (((s.books.settle height pool cur hist).setLockInfo
            (emptyLock pool addr height)).setAddressInFarmPool pool.name addr)
          (fun li => (s.books.settle height pool cur hist).release pool.name li.referencePeriod)
        bank := bank } := by
  unfold openLock at h
  cases hli : s.books.getLockInfo addr pool.name with
  | none =>
    rw [hli, Option.isSome_none, if_neg (by decide)] at h
    simp only [bind_eq_ok, Prod.exists, FarmBooks.incrementPoolPeriod_eq_ok, pure_eq_ok,
      Prod.mk.injEq] at h
    obtain ⟨-, -, ⟨cur', hist, hcur', hhist, hne, rfl, rfl⟩, rfl, rfl, rfl⟩ := h
    rw [hcur] at hcur'
    cases hcur'
    exact ⟨hist, s.bank, ⟨hpool, hcur, hhist, hne⟩, fun _ => rfl, fun li he => (by cases he),
      .zero s.bank _ _, fun li he => (by cases he), (by rw [sub_zero]), rfl⟩
  | some li =>
    rw [hli, Option.isSome_some, if_pos rfl] at h
    simp only [bind_eq_ok, Prod.exists, pure_eq_ok, Prod.mk.injEq] at h
    obtain ⟨s₁, r, hwithdraw, upd', hsub, rfl, rfl, rfl⟩ := h
    obtain ⟨li', hist, bank, hsettles, hli', hr, hbank, rfl⟩ :=
      withdrawRewards_settles hpool hcur hwithdraw
    rw [hli] at hli'
    cases hli'
    obtain ⟨hle, rfl⟩ := FarmPool.subRewards_eq_ok hsub
    exact ⟨hist, bank, hsettles, fun he => (by cases he), fun li' he => (by cases he; exact hr),
      hbank, fun _ _ => hle, rfl, rfl⟩

theorem handleMsgLock_relock {msg : MsgLock} (huser : sk.IsUser msg.address)
    (hpos : 0 < msg.amount.amount) (h : s.handleMsgLock sk height msg = .ok (s', rewards)) :
    ∃ pool cur hist old, pool.name = msg.poolName ∧
      Relock height (s.ledger sk) pool cur hist msg.address old msg.amount.amount rewards
        (s'.ledger sk) ∧
      (old = none → pool.minLockAmount.amount ≤ msg.amount.amount) := by
  unfold handleMsgLock at h
  simp only [bind_eq_ok, orThrow_eq_ok, require_eq_ok, exists_const, Prod.exists,
    FarmBooks.calculateAmountYieldedBetween_eq_ok, pure_eq_ok, Prod.mk.injEq] at h
  obtain ⟨pool, hpool, hdenom, hmin, -, -, ⟨cur, hcur, rfl, rfl⟩, s₁, upd, r, hopen, b, hupdate,
    bank', hsend, rfl, rfl⟩ := h
  have hname : pool.name = msg.poolName := KeyedStore.key_of_get hpool
  rw [← hname] at hpool hmin hopen hupdate
  obtain ⟨hist, bank, hsettles, hnew, hold, hbank, hcovered, rfl, rfl⟩ :=
    openLock_cases hpool hcur hopen
  have hsent : sk.Moved bank msg.address (sk.moduleAddress farmModuleName) msg.amount.toCoins bank' :=
    .of_send hsend
  refine ⟨pool, cur, hist, s.books.getLockInfo msg.address pool.name, hname, {
    settles := hsettles
    get_old := rfl
    rewards_new := hnew
    rewards_old := hold
    covered := hcovered
    books := ?_
    farm := by
      show sk.moduleCoins bank' farmModuleName = _
      rw [hsent.to_module huser, if_pos rfl, hbank.of_module huser, if_neg (by decide), sub_zero,
        DecCoin.toCoins, hdenom]
      rfl
    yield := by
      show sk.moduleCoins bank' yieldFarmingAccount = _
      rw [hsent.to_module huser, if_neg (by decide), add_zero, hbank.of_module huser, if_pos rfl]
      rfl }, fun he => ?_⟩
  · cases hli : s.books.getLockInfo msg.address pool.name with
    | none =>
      rw [hli] at hupdate
      -- the empty lock info of a new locker is written over
      have hget : (((s.books.settle height pool cur hist).setLockInfo
          (emptyLock pool msg.address height)).setAddressInFarmPool pool.name
            msg.address).getLockInfo msg.address pool.name =
          some (emptyLock pool msg.address height) := KeyedStore.get_put_self
      have hne : (0 : Int) + msg.amount.amount ≠ 0 := by omega
      have hb : b = (s.books.settle height pool cur hist).putLock
          ((emptyLock pool msg.address height).move height cur.period msg.amount.amount) :=
        (updateLockInfo_settled hupdate (settle_get_cur height s.books pool cur hist) hget).trans
          (FarmBooks.putLock_over rfl rfl hne)
      exact congrArg (FarmBooks.setFarmPool · _) hb
    | some li =>
      rw [hli] at hupdate
      obtain ⟨hcur', hlocks⟩ := settled_release height s.books pool cur hist li.referencePeriod
      have hb := updateLockInfo_settled hupdate hcur'
        ((congrArg (KeyedStore.get · _) hlocks).trans hli)
      exact congrArg (FarmBooks.setFarmPool · _) hb
  · rw [he] at hmin
    exact hmin.resolve_left (by decide)

/-- **A new yield** of a pool that has nothing left of the old one. -/
structure Provided (height : Nat) (l : FarmLedger) (pool : FarmPool) (cur : PoolCurrentRewards)
    (hist : PoolHistoricalRewards) (info : YieldedTokenInfo) (msg : MsgProvide)
    (l' : FarmLedger) : Prop where
  settles : l.books.Settles pool cur hist
  only : pool.yieldedTokenInfos = [info]
  spent : (info.yield cur.startBlockHeight height).1.remainingAmount.amount = 0
  denom : info.remainingAmount.denom = msg.amount.denom
  books : l'.books = (l.books.settle height pool cur hist).setFarmPool
    (pool.provided cur.startBlockHeight height msg)
  farm : l'.farm = l.farm
  yield : l'.yield = l.yield + msg.amount.toCoins

/-- **The books after a new yield**, store by store. -/
theorem Provided.stores {l l' : FarmLedger} {pool : FarmPool} {cur : PoolCurrentRewards}
    {hist : PoolHistoricalRewards} {info : YieldedTokenInfo} {msg : MsgProvide}
    (h : Provided height l pool cur hist info msg l') : l'.books = { l.books with
      farmPools := l.books.farmPools.put (pool.provided cur.startBlockHeight height msg)
      historicalRewards := (l.books.settle height pool cur hist).historicalRewards
      currentRewards := l.books.currentRewards.set pool.name ⟨height, cur.period + 1, 0⟩ } := by
  rw [h.books, FarmBooks.setFarmPool, settle_fields]

theorem onlyYield_eq_ok {pool : FarmPool} {info : YieldedTokenInfo}
    (h : pool.onlyYield = .ok info) : pool.yieldedTokenInfos = [info] := by
  unfold FarmPool.onlyYield at h
  split at h
  · rename_i heq
    cases h
    exact heq
  · cases h

theorem handleMsgProvide_provided {msg : MsgProvide} (huser : sk.IsUser msg.address)
    (h : s.handleMsgProvide sk height msg = .ok s') :
    ∃ pool cur hist info, pool.name = msg.poolName ∧
      Provided height (s.ledger sk) pool cur hist info msg (s'.ledger sk) := by
  unfold handleMsgProvide at h
  simp only [bind_eq_ok, orThrow_eq_ok, require_eq_ok, exists_const, Prod.exists,
    FarmBooks.calculateAmountYieldedBetween_eq_ok, FarmBooks.incrementPoolPeriod_eq_ok, pure_eq_ok,
    Prod.mk.injEq] at h
  obtain ⟨-, pool, hpool, -, info, hinfo, hdenom, -, -, ⟨cur, hcur, rfl, rfl⟩, hzero, -, -,
    ⟨cur', hist, hcur', hhist, hne, -, rfl⟩, bank, hsend, rfl⟩ := h
  have hname : pool.name = msg.poolName := KeyedStore.key_of_get hpool
  rw [← hname] at hpool
  obtain rfl := Option.some.inj (hcur.symm.trans hcur')
  have honly := onlyYield_eq_ok hinfo
  have hyields : (pool.afterYield cur.startBlockHeight height).yieldedTokenInfos =
      [(info.yield cur.startBlockHeight height).1] := by
    show (pool.yieldedTokenInfos.map _).map Prod.fst = _
    rw [honly]
    rfl
  have hsent : sk.Moved s.bank msg.address (sk.moduleAddress yieldFarmingAccount)
      msg.amount.toCoins bank := .of_send hsend
  refine ⟨pool, cur, hist, info, hname, {
    settles := ⟨hpool, hcur, hhist, hne⟩
    only := honly
    spent := by
      rw [hyields] at hzero
      exact hzero
    denom := hdenom
    books := by
      show FarmBooks.setFarmPool _ _ = _
      rw [hyields]
      rfl
    farm := by
      show sk.moduleCoins bank farmModuleName = _
      rw [hsent.to_module huser, if_neg (by decide), add_zero]
      rfl
    yield := by
      show sk.moduleCoins bank yieldFarmingAccount = _
      rw [hsent.to_module huser, if_pos rfl]
      rfl }⟩

/-- **A new pool.** -/
structure Created (height : Nat) (l : FarmLedger) (params : FarmParams) (msg : MsgCreatePool)
    (l' : FarmLedger) : Prop where
  fresh : l.books.farmPools.get msg.poolName = none
  books : l'.books = l.books.create height (newFarmPool params msg)
  farm : l'.farm = l.farm + params.createPoolDeposit.toCoins
  yield : l'.yield = l.yield

theorem handleMsgCreatePool_created {msg : MsgCreatePool} (huser : sk.IsUser msg.owner)
    (h : s.handleMsgCreatePool sk height msg = .ok s') :
    Created height (s.ledger sk) s.params msg (s'.ledger sk) := by
  unfold handleMsgCreatePool at h
  simp only [bind_eq_ok, orThrow_eq_ok, require_eq_ok, exists_const, pure_eq_ok] at h
  obtain ⟨hfresh, -, -, bank, hfee, bank', hdeposit, rfl⟩ := h
  have hpaid : sk.Moved s.bank msg.owner (sk.moduleAddress feeCollectorName)
      s.params.createPoolFee.toCoins bank := .of_send hfee
  have hdeposited : sk.Moved bank msg.owner (sk.moduleAddress farmModuleName)
      s.params.createPoolDeposit.toCoins bank' := .of_send hdeposit
  refine ⟨Option.isNone_iff_eq_none.mp hfresh, rfl, ?_, ?_⟩
  · show sk.moduleCoins bank' farmModuleName = _
    rw [hdeposited.to_module huser, if_pos rfl, hpaid.to_module huser, if_neg (by decide), add_zero]
    rfl
  · show sk.moduleCoins bank' yieldFarmingAccount = _
    rw [hdeposited.to_module huser, if_neg (by decide), add_zero, hpaid.to_module huser,
      if_neg (by decide), add_zero]
    rfl

/-- **A destroyed pool.** -/
structure Destroyed (height : Nat) (l : FarmLedger) (pool : FarmPool) (cur : PoolCurrentRewards)
    (l' : FarmLedger) : Prop where
  get_pool : l.books.farmPools.get pool.name = some pool
  get_cur : l.books.currentRewards.get pool.name = some cur
  finished : (pool.afterYield cur.startBlockHeight height).finished
  books : l'.books = l.books.destroy pool.name
  farm : l'.farm = l.farm - if pool.depositAmount.amount ≤ 0 then 0 else pool.depositAmount.toCoins
  yield : l'.yield =
    l.yield - (pool.afterYield cur.startBlockHeight height).totalAccumulatedRewards

/-- A pool that is destroyed has nothing locked. -/
theorem Destroyed.nothing_locked {l l' : FarmLedger} {pool : FarmPool} {cur : PoolCurrentRewards}
    (h : Destroyed height l pool cur l') : pool.totalValueLocked.amount = 0 := by
  have hfinished := h.finished
  unfold FarmPool.finished at hfinished
  rw [Bool.and_eq_true, decide_eq_true_eq] at hfinished
  exact hfinished.2

theorem handleMsgDestroyPool_destroyed {msg : MsgDestroyPool} {returned : Coins}
    (huser : sk.IsUser msg.owner) (h : s.handleMsgDestroyPool sk height msg = .ok (s', returned)) :
    ∃ pool cur, pool.name = msg.poolName ∧
      Destroyed height (s.ledger sk) pool cur (s'.ledger sk) ∧
      returned = (pool.afterYield cur.startBlockHeight height).totalAccumulatedRewards := by
  unfold handleMsgDestroyPool at h
  simp only [bind_eq_ok, orThrow_eq_ok, require_eq_ok, exists_const, Prod.exists,
    FarmBooks.calculateAmountYieldedBetween_eq_ok, pure_eq_ok, Prod.mk.injEq] at h
  obtain ⟨pool, hpool, -, upd, -, ⟨cur, hcur, rfl, rfl⟩, hfinished, bank, hpay, bank', hback, rfl,
    rfl⟩ := h
  have hname : pool.name = msg.poolName := KeyedStore.key_of_get hpool
  rw [← hname] at hpool
  have hpaid := payUnless_moved (fun hzero => hzero) hpay
  have hfarm : ∀ m, sk.moduleCoins bank' m = sk.moduleCoins bank m -
      if m = farmModuleName then
        (if pool.depositAmount.amount ≤ 0 then 0 else pool.depositAmount.toCoins) else 0 := by
    intro m
    unfold payUnless at hback
    split_ifs at hback with hskip
    · cases hback
      rw [if_pos hskip, ite_self, sub_zero]
    · rw [if_neg hskip]
      exact (SupplyKeeper.Moved.of_send (orThrow_eq_ok.mp hback)).of_module huser m
  refine ⟨pool, cur, hname, ⟨hpool, hcur, hfinished, ?_, ?_, ?_⟩, rfl⟩
  · rw [hname]
    rfl
  · show sk.moduleCoins bank' farmModuleName = _
    rw [hfarm, if_pos rfl, hpaid.of_module huser, if_neg (by decide), sub_zero]
    rfl
  · show sk.moduleCoins bank' yieldFarmingAccount = _
    rw [hfarm, if_neg (by decide), sub_zero, hpaid.of_module huser, if_pos rfl]
    rfl

/-! ## The stores after a settled lock -/

/-- The lock info a settled lock puts. -/
def changedLock (height : Nat) (pool : FarmPool) (cur : PoolCurrentRewards) (addr : Address)
    (old : Option LockInfo) (change : Int) : LockInfo :=
  (old.getD (emptyLock pool addr height)).move height cur.period change

theorem settled_fields (height : Nat) (b : FarmBooks) (pool : FarmPool) (cur : PoolCurrentRewards)
    (hist : PoolHistoricalRewards) (old : Option LockInfo) :
    b.settled height pool cur hist old = { b with
      historicalRewards := (b.settled height pool cur hist old).historicalRewards
      currentRewards := b.currentRewards.set pool.name ⟨height, cur.period + 1, 0⟩ } := by
  unfold FarmBooks.settled
  cases old with
  | none => exact settle_fields height b pool cur hist
  | some li =>
    simp only
    rw [FarmBooks.release_fields, settle_fields]

theorem putLock_fields (b : FarmBooks) (li : LockInfo) : b.putLock li = { b with
    lockInfos := if li.amount.amount = 0 then b.lockInfos.delete li.key else b.lockInfos.put li
    addressInFarmPool :=
      if li.amount.amount = 0 then b.addressInFarmPool.delete (toLex (li.poolName, li.owner))
      else b.addressInFarmPool.set (toLex (li.poolName, li.owner)) ()
    historicalRewards := (b.putLock li).historicalRewards } := by
  unfold FarmBooks.putLock
  split_ifs with hzero
  · rfl
  · rw [FarmBooks.retain_fields]
    rfl

namespace Relock

variable {l l' : FarmLedger} {pool : FarmPool} {cur : PoolCurrentRewards}
  {hist : PoolHistoricalRewards} {old : Option LockInfo} {change : Int}

/-- **The books after a settled lock**, store by store. -/
theorem stores (h : Relock height l pool cur hist addr old change rewards l') :
    let li := changedLock height pool cur addr old change
    l'.books = {
      farmPools := l.books.farmPools.put (pool.relocked cur.startBlockHeight height change rewards)
      addressInFarmPool := if li.amount.amount = 0 then
          l.books.addressInFarmPool.delete (toLex (li.poolName, li.owner))
        else l.books.addressInFarmPool.set (toLex (li.poolName, li.owner)) ()
      lockInfos :=
        if li.amount.amount = 0 then l.books.lockInfos.delete li.key else l.books.lockInfos.put li
      whitelist := l.books.whitelist
      historicalRewards :=
        ((l.books.settled height pool cur hist old).putLock li).historicalRewards
      currentRewards := l.books.currentRewards.set pool.name ⟨height, cur.period + 1, 0⟩ } := by
  intro li
  rw [h.books, FarmBooks.setFarmPool, putLock_fields, settled_fields]
  rfl

/-- The lock info is the account's own, in the pool's tokens. -/
theorem key_changedLock (h : Relock height l pool cur hist addr old change rewards l') :
    (changedLock height pool cur addr old change).owner = addr ∧
      (changedLock height pool cur addr old change).poolName = pool.name := by
  unfold changedLock
  cases hold : old with
  | none => exact ⟨rfl, rfl⟩
  | some li =>
    have hkey := FarmBooks.lockInfo_key (h.get_old.trans hold)
    exact hkey

end Relock

end FarmState

end Okexchain
