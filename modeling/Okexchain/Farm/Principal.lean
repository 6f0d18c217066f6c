import Okexchain.Farm.Run

/-!
# Deposits and locked tokens

The farm module's account holds the deposits of the pools and the tokens locked in them. The store
keeps the locked tokens three times: in the lock infos, in the total value locked of the pool, and
which accounts have any in the index by pool.

* `Principal` is the invariant.
* Only a new pool, a destroyed pool and a settled lock change any of it: `Principal.of_same` covers
  the other effects, `Relock.sum_locks` is the change of any total over the lock infos.

**Results.** `principal_backed`: in every run the account holds the deposits and the locked tokens,
the totals and the index agree with the lock infos, every lock info is at least its pool's minimum,
and a pool that is destroyed has no lock infos.
-/

namespace Okexchain

namespace FarmBooks

/-- The deposits of all pools. -/
def totalDeposits (b : FarmBooks) : Coins :=
  b.farmPools.store.sumBy fun _ pool => pool.depositAmount.toCoins

/-- The tokens locked in all pools. -/
def totalLocked (b : FarmBooks) : Coins :=
  b.lockInfos.store.sumBy fun _ li => li.amount.toCoins

/-- The amount locked in one pool. -/
def lockedIn (b : FarmBooks) (p : PoolName) : Int :=
  b.lockInfos.store.sumBy fun _ li => if li.poolName = p then li.amount.amount else 0

end FarmBooks

/-- The figures of a pool with an amount locked in it. -/
structure PoolTotals (amount : Int) (pool : FarmPool) : Prop where
  deposit : 0 ≤ pool.depositAmount.amount
  denom : pool.totalValueLocked.denom = pool.minLockAmount.denom
  locked : pool.totalValueLocked.amount = amount

/-- A lock info that its pool admits. -/
structure LockAdmitted (pool : FarmPool) (li : LockInfo) : Prop where
  denom : li.amount.denom = pool.minLockAmount.denom
  pos : 0 < li.amount.amount
  minimum : pool.minLockAmount.amount ≤ li.amount.amount

/-- The account holds the deposits and the locked tokens. -/
structure Principal (l : FarmLedger) : Prop where
  account : l.farm = l.books.totalDeposits + l.books.totalLocked
  pools : ∀ p pool, l.books.farmPools.get p = some pool → PoolTotals (l.books.lockedIn p) pool
  locks : ∀ addr p li, l.books.getLockInfo addr p = some li →
    ∃ pool, l.books.farmPools.get p = some pool ∧ LockAdmitted pool li
  index : ∀ p addr, (l.books.addressInFarmPool.get (toLex (p, addr))).isSome ↔
    (l.books.getLockInfo addr p).isSome

variable {height : Nat} {l l' : FarmLedger} {pool : FarmPool} {cur : PoolCurrentRewards}

/-! ## The lock infos of a pool -/

/-- A pool with nothing locked has no lock infos. -/
theorem Principal.no_lock (h : Principal l) {p : PoolName}
    (hget : l.books.farmPools.get p = some pool) (hzero : pool.totalValueLocked.amount = 0)
    (addr : Address) : l.books.getLockInfo addr p = none := by
  cases hli : l.books.getLockInfo addr p with
  | none => rfl
  | some li =>
    obtain ⟨-, hpool⟩ := FarmBooks.lockInfo_key hli
    obtain ⟨q, -, hok⟩ := h.locks addr p li hli
    have hle : (if li.poolName = p then li.amount.amount else 0) ≤ l.books.lockedIn p :=
      KVStore.le_sumBy (fun _ li => if li.poolName = p then li.amount.amount else 0)
        (fun key li' hli' => ?_) hli
    · rw [if_pos hpool, ← (h.pools p pool hget).locked, hzero] at hle
      have := hok.pos
      omega
    · obtain ⟨q', -, hok'⟩ := h.locks (ofLex key).1 (ofLex key).2 li' hli'
      have := hok'.pos
      split_ifs <;> omega

/-- Nobody has locked in a pool that is not there. -/
theorem Principal.no_lock_of_fresh (h : Principal l) {p : PoolName}
    (hfresh : l.books.farmPools.get p = none) (addr : Address) :
    l.books.getLockInfo addr p = none := by
  cases hli : l.books.getLockInfo addr p with
  | none => rfl
  | some li =>
    obtain ⟨q, hq, -⟩ := h.locks addr p li hli
    rw [hfresh] at hq
    cases hq

/-! ## Effects on other stores -/

/-- A pool rewritten with the same name, deposit, minimum and total value locked. -/
theorem Principal.of_same (pool' : FarmPool) (h : Principal l)
    (hget : l.books.farmPools.get pool.name = some pool)
    (hpools : l'.books.farmPools = l.books.farmPools.put pool')
    (hlocks : l'.books.lockInfos = l.books.lockInfos)
    (hindex : l'.books.addressInFarmPool = l.books.addressInFarmPool) (hfarm : l'.farm = l.farm)
    (hname : pool'.name = pool.name) (hdeposit : pool'.depositAmount = pool.depositAmount)
    (hmin : pool'.minLockAmount = pool.minLockAmount)
    (hlocked : pool'.totalValueLocked = pool.totalValueLocked) : Principal l' where
  account := by
    have hsum : l'.books.totalDeposits = l.books.totalDeposits := by
      unfold FarmBooks.totalDeposits
      rw [hpools]
      show (l.books.farmPools.store.set pool'.name pool').sumBy _ = _
      rw [hname, KVStore.sumBy_set_old _ hget, hdeposit, sub_add_cancel]
    rw [hfarm, h.account, hsum]
    unfold FarmBooks.totalLocked
    rw [hlocks]
  pools p q hq := by
    have hsame : l'.books.lockedIn p = l.books.lockedIn p := by
      unfold FarmBooks.lockedIn
      rw [hlocks]
    rw [hpools, KeyedStore.get_put] at hq
    split_ifs at hq with hp
    · cases hq
      obtain ⟨h1, h2, h3⟩ := h.pools pool.name pool hget
      rw [hp, hname] at hsame ⊢
      exact ⟨hdeposit ▸ h1, by rw [hlocked, hmin, h2], by rw [hlocked, h3, hsame]⟩
    · obtain ⟨h1, h2, h3⟩ := h.pools p q hq
      exact ⟨h1, h2, h3.trans hsame.symm⟩
  locks addr p li hli := by
    unfold FarmBooks.getLockInfo at hli
    rw [hlocks] at hli
    obtain ⟨q, hq, hok⟩ := h.locks addr p li hli
    rw [hpools, KeyedStore.get_put]
    split_ifs with hp
    · rw [hp, hname, hget] at hq
      cases hq
      exact ⟨pool', rfl, hmin ▸ hok.denom, hok.pos, hmin ▸ hok.minimum⟩
    · exact ⟨q, hq, hok⟩
  index p addr := by
    unfold FarmBooks.getLockInfo
    rw [hindex, hlocks]
    exact h.index p addr

/-! ## A settled lock -/

section Relocked

variable {hist : PoolHistoricalRewards} {addr : Address} {old : Option LockInfo} {change : Int}
  {rewards : Coins}

/-- The change of a total over the lock infos. -/
theorem FarmState.Relock.sum_locks {M : Type} [AddCommGroup M] (f : LockInfo → M)
    (h : FarmState.Relock height l pool cur hist addr old change rewards l') :
    l'.books.lockInfos.store.sumBy (fun _ li => f li) =
      l.books.lockInfos.store.sumBy (fun _ li => f li) - old.elim 0 f +
        let li := FarmState.changedLock height pool cur addr old change
        if li.amount.amount = 0 then 0 else f li := by
  obtain ⟨howner, hpool⟩ := h.key_changedLock
  rw [h.stores]
  generalize FarmState.changedLock height pool cur addr old change = li at howner hpool ⊢
  have hkey : li.key = toLex (addr, pool.name) := by rw [LockInfo.key, howner, hpool]
  have hval : l.books.lockInfos.store.valAt (fun _ li => f li) li.key = old.elim 0 f := by
    have hold : l.books.lockInfos.store.get (toLex (addr, pool.name)) = old := h.get_old
    unfold KVStore.valAt
    rw [hkey, hold]
  dsimp only
  split_ifs with hzero
  · show (l.books.lockInfos.store.delete li.key).sumBy _ = _
    rw [KVStore.sumBy_delete, hval, add_zero]
  · show (l.books.lockInfos.store.set li.key li).sumBy _ = _
    rw [KVStore.sumBy_set, hval]

/-- The same for a quantity that an empty lock info has none of. -/
theorem FarmState.Relock.sum_locks_of_zero {M : Type} [AddCommGroup M] (f : LockInfo → M)
    (hf : ∀ li, li.amount.amount = 0 → f li = 0)
    (h : FarmState.Relock height l pool cur hist addr old change rewards l') :
    l'.books.lockInfos.store.sumBy (fun _ li => f li) =
      l.books.lockInfos.store.sumBy (fun _ li => f li) - old.elim 0 f +
        f (FarmState.changedLock height pool cur addr old change) := by
  rw [h.sum_locks]
  congr 1
  exact ite_eq_right_iff.mpr fun hzero => (hf _ hzero).symm

/-- The lock info of the account after a settled lock. -/
theorem FarmState.Relock.getLockInfo
    (h : FarmState.Relock height l pool cur hist addr old change rewards l') (a : Address)
    (p : PoolName) : l'.books.getLockInfo a p =
      if a = addr ∧ p = pool.name then
        let li := FarmState.changedLock height pool cur addr old change
        if li.amount.amount = 0 then none else some li
      else l.books.getLockInfo a p := by
  obtain ⟨howner, hpool⟩ := h.key_changedLock
  unfold FarmBooks.getLockInfo
  rw [h.stores]
  generalize FarmState.changedLock height pool cur addr old change = li at howner hpool ⊢
  have hkey : li.key = toLex (addr, pool.name) := by rw [LockInfo.key, howner, hpool]
  have hiff : toLex (a, p) = li.key ↔ a = addr ∧ p = pool.name := by
    rw [hkey, toLex.injective.eq_iff, Prod.mk.injEq]
  dsimp only
  split_ifs with hzero hsame hsame
  · rw [KeyedStore.get_delete, if_pos (hiff.mpr hsame)]
  · rw [KeyedStore.get_delete, if_neg fun he => hsame (hiff.mp he)]
  · rw [KeyedStore.get_put, if_pos (hiff.mpr hsame)]
  · rw [KeyedStore.get_put, if_neg fun he => hsame (hiff.mp he)]

/-- The index after a settled lock. -/
theorem FarmState.Relock.addressInFarmPool
    (h : FarmState.Relock height l pool cur hist addr old change rewards l') (a : Address)
    (p : PoolName) : l'.books.addressInFarmPool.get (toLex (p, a)) =
      if a = addr ∧ p = pool.name then
        if (FarmState.changedLock height pool cur addr old change).amount.amount = 0 then none
        else some ()
      else l.books.addressInFarmPool.get (toLex (p, a)) := by
  obtain ⟨howner, hpool⟩ := h.key_changedLock
  rw [h.stores]
  generalize FarmState.changedLock height pool cur addr old change = li at howner hpool ⊢
  have hiff : toLex (p, a) = toLex (li.poolName, li.owner) ↔ a = addr ∧ p = pool.name := by
    rw [howner, hpool, toLex.injective.eq_iff, Prod.mk.injEq, and_comm]
  dsimp only
  split_ifs with hzero hsame hsame
  · rw [KVStore.get_delete, if_pos (hiff.mpr hsame)]
  · rw [KVStore.get_delete, if_neg fun he => hsame (hiff.mp he)]
  · rw [KVStore.get_set, if_pos (hiff.mpr hsame)]
  · rw [KVStore.get_set, if_neg fun he => hsame (hiff.mp he)]

/-- The lock info after a settled lock has the pool's denomination, and is empty or one the pool
admits. -/
theorem Principal.changedLock (h : Principal l)
    (hrelock : FarmState.Relock height l pool cur hist addr old change rewards l')
    (hchange : LockChange pool old change) :
    let li := FarmState.changedLock height pool cur addr old change
    li.amount = ⟨pool.minLockAmount.denom, old.elim 0 (fun li => li.amount.amount) + change⟩ ∧
      (li.amount.amount ≠ 0 → LockAdmitted pool li) := by
  cases old with
  | none =>
    refine ⟨rfl, fun _ => ⟨rfl, ?_, ?_⟩⟩
    · show 0 < 0 + change
      have := hchange.1
      omega
    · show _ ≤ 0 + change
      have := hchange.2
      omega
  | some li =>
    obtain ⟨q, hq, hok⟩ := h.locks addr pool.name li hrelock.get_old
    rw [hrelock.settles.get_pool] at hq
    cases hq
    have hdenom : li.amount.denom = pool.minLockAmount.denom := hok.denom
    refine ⟨congrArg (DecCoin.mk · _) hdenom, fun hne => ?_⟩
    obtain hzero | hok' := hchange hok.pos hok.minimum
    · exact absurd hzero hne
    · exact ⟨hdenom, hok'.1, hok'.2⟩

/-- The account's lock info before is in the pool's tokens. -/
theorem Principal.old_lock {li : LockInfo} (h : Principal l)
    (hrelock : FarmState.Relock height l pool cur hist addr (some li) change rewards l') :
    li.poolName = pool.name ∧
      li.amount.toCoins = coin pool.minLockAmount.denom li.amount.amount := by
  obtain ⟨q, hq, hok⟩ := h.locks addr pool.name li hrelock.get_old
  rw [hrelock.settles.get_pool] at hq
  cases hq
  exact ⟨(FarmBooks.lockInfo_key hrelock.get_old).2, congrArg (coin · _) hok.denom⟩

/-- A settled lock changes what is locked in its pool. -/
theorem Principal.lockedIn_relock (h : Principal l)
    (hrelock : FarmState.Relock height l pool cur hist addr old change rewards l')
    (hchange : LockChange pool old change) (p : PoolName) :
    l'.books.lockedIn p = l.books.lockedIn p + if p = pool.name then change else 0 := by
  obtain ⟨hamount, -⟩ := h.changedLock hrelock hchange
  obtain ⟨-, hname⟩ := hrelock.key_changedLock
  have hold : old.elim 0 (fun li => if li.poolName = p then li.amount.amount else 0) =
      if p = pool.name then old.elim 0 (fun li => li.amount.amount) else 0 := by
    cases old with
    | none => exact (ite_self 0).symm
    | some li =>
      refine if_congr ?_ rfl rfl
      rw [(h.old_lock hrelock).1, eq_comm]
  unfold FarmBooks.lockedIn
  rw [hrelock.sum_locks_of_zero (fun li => if li.poolName = p then li.amount.amount else 0)
    (fun li hzero => by rw [hzero, ite_self]), hname, hamount, hold]
  obtain rfl | hp := eq_or_ne p pool.name
  · simp only [if_true]
    ring
  · simp only [if_neg hp, if_neg hp.symm]
    ring

/-- And by as much what is locked in all pools. -/
theorem Principal.totalLocked_relock (h : Principal l)
    (hrelock : FarmState.Relock height l pool cur hist addr old change rewards l')
    (hchange : LockChange pool old change) :
    l'.books.totalLocked = l.books.totalLocked + coin pool.minLockAmount.denom change := by
  obtain ⟨hamount, -⟩ := h.changedLock hrelock hchange
  have hold : old.elim 0 (fun li => li.amount.toCoins) =
      coin pool.minLockAmount.denom (old.elim 0 fun li => li.amount.amount) := by
    cases old with
    | none => exact (coin_zero _).symm
    | some li => exact (h.old_lock hrelock).2
  unfold FarmBooks.totalLocked
  rw [hrelock.sum_locks_of_zero (fun li => li.amount.toCoins)
    (fun li hzero => by rw [DecCoin.toCoins, hzero, coin_zero]), hamount, hold, DecCoin.toCoins,
    coin_add]
  abel

theorem Principal.relock (h : Principal l)
    (hrelock : FarmState.Relock height l pool cur hist addr old change rewards l')
    (hchange : LockChange pool old change) : Principal l' := by
  obtain ⟨-, hadmitted⟩ := h.changedLock hrelock hchange
  have hlockedIn := h.lockedIn_relock hrelock hchange
  have hget := hrelock.settles.get_pool
  have hpools : l'.books.farmPools = l.books.farmPools.put
      (pool.relocked cur.startBlockHeight height change rewards) := by rw [hrelock.stores]
  refine ⟨?_, fun p q hq => ?_, fun a p li hli => ?_, fun p a => ?_⟩
  · have hdeposits : l'.books.totalDeposits = l.books.totalDeposits := by
      unfold FarmBooks.totalDeposits
      rw [hpools]
      show (l.books.farmPools.store.set pool.name _).sumBy _ = _
      rw [KVStore.sumBy_set_old _ hget]
      exact sub_add_cancel _ _
    rw [hrelock.farm, h.account, hdeposits, h.totalLocked_relock hrelock hchange, add_assoc]
  · rw [hpools, KeyedStore.get_put] at hq
    split_ifs at hq with hp
    · cases hq
      obtain ⟨h1, h2, h3⟩ := h.pools pool.name pool hget
      have hp : p = pool.name := hp
      refine ⟨h1, h2, ?_⟩
      rw [hlockedIn, if_pos hp, hp, ← h3]
      rfl
    · obtain ⟨h1, h2, h3⟩ := h.pools p q hq
      have hp : p ≠ pool.name := hp
      exact ⟨h1, h2, by rw [hlockedIn, if_neg hp, add_zero, h3]⟩
  · rw [hpools, KeyedStore.get_put]
    rw [hrelock.getLockInfo] at hli
    dsimp only at hli
    split_ifs at hli with hsame hzero
    · cases hli
      obtain ⟨hdenom, hpos, hmin⟩ := hadmitted hzero
      exact ⟨_, if_pos hsame.2, hdenom, hpos, hmin⟩
    · obtain ⟨q, hq, hok⟩ := h.locks a p li hli
      split_ifs with hp
      · rw [show p = pool.name from hp, hget] at hq
        cases hq
        exact ⟨_, rfl, hok.denom, hok.pos, hok.minimum⟩
      · exact ⟨q, hq, hok⟩
  · rw [hrelock.addressInFarmPool, hrelock.getLockInfo]
    dsimp only
    split_ifs
    · exact Iff.rfl
    · exact ⟨fun _ => rfl, fun _ => rfl⟩
    · exact h.index p a

end Relocked

/-! ## New and destroyed pools -/

theorem Principal.create {params : FarmParams} {msg : MsgCreatePool} (h : Principal l)
    (hcreate : FarmState.Created height l params msg l') : Principal l' := by
  have hfresh := hcreate.fresh
  have hpools : l'.books.farmPools = l.books.farmPools.put (FarmState.newFarmPool params msg) := by
    rw [hcreate.books]
    rfl
  have hlocks : l'.books.lockInfos = l.books.lockInfos := by
    rw [hcreate.books]
    rfl
  have hindex : l'.books.addressInFarmPool = l.books.addressInFarmPool := by
    rw [hcreate.books]
    rfl
  have hlockedIn : ∀ p, l'.books.lockedIn p = l.books.lockedIn p := by
    intro p
    unfold FarmBooks.lockedIn
    rw [hlocks]
  refine ⟨?_, fun p q hq => ?_, fun a p li hli => ?_, fun p a => ?_⟩
  · have hdeposits : l'.books.totalDeposits =
        l.books.totalDeposits + params.createPoolDeposit.toCoins := by
      unfold FarmBooks.totalDeposits
      rw [hpools]
      exact KVStore.sumBy_set_new _ hfresh
    have hlocked : l'.books.totalLocked = l.books.totalLocked := by
      unfold FarmBooks.totalLocked
      rw [hlocks]
    rw [hcreate.farm, h.account, hdeposits, hlocked]
    abel
  · rw [hpools, KeyedStore.get_put] at hq
    split_ifs at hq with hp
    · cases hq
      have hnone : l.books.lockedIn p = 0 := by
        unfold FarmBooks.lockedIn
        refine (KVStore.sumBy_congr _ fun key li hli => if_neg fun hp' => ?_).trans
          KVStore.sumBy_zero
        have hkey : toLex (li.owner, li.poolName) = key := l.books.lockInfos.keyed key li hli
        rw [← hkey, hp', show p = msg.poolName from hp] at hli
        cases hli.symm.trans (h.no_lock_of_fresh hfresh li.owner)
      exact ⟨params.createPoolDeposit_nonneg, rfl, by rw [hlockedIn, hnone]; rfl⟩
    · obtain ⟨h1, h2, h3⟩ := h.pools p q hq
      exact ⟨h1, h2, by rw [hlockedIn, h3]⟩
  · unfold FarmBooks.getLockInfo at hli
    rw [hlocks] at hli
    obtain ⟨q, hq, hok⟩ := h.locks a p li hli
    refine ⟨q, ?_, hok⟩
    rw [hpools, KeyedStore.get_put, if_neg, hq]
    intro hp
    rw [show p = msg.poolName from hp, hfresh] at hq
    cases hq
  · unfold FarmBooks.getLockInfo
    rw [hindex, hlocks]
    exact h.index p a

theorem Principal.destroy (h : Principal l) (hdestroy : FarmState.Destroyed height l pool cur l') :
    Principal l' := by
  have hget := hdestroy.get_pool
  have hpools : l'.books.farmPools = l.books.farmPools.delete pool.name := by
    rw [hdestroy.books]
    rfl
  have hlocks : l'.books.lockInfos = l.books.lockInfos := by
    rw [hdestroy.books]
    rfl
  have hindex : l'.books.addressInFarmPool = l.books.addressInFarmPool := by
    rw [hdestroy.books]
    rfl
  refine ⟨?_, fun p q hq => ?_, fun a p li hli => ?_, fun p a => ?_⟩
  · have hdeposits : l'.books.totalDeposits =
        l.books.totalDeposits - pool.depositAmount.toCoins := by
      unfold FarmBooks.totalDeposits
      rw [hpools]
      refine (KVStore.sumBy_delete _).trans ?_
      rw [KVStore.valAt_of_get _ hget]
    have hlocked : l'.books.totalLocked = l.books.totalLocked := by
      unfold FarmBooks.totalLocked
      rw [hlocks]
    -- a deposit that is not paid back is zero
    have hback : (if pool.depositAmount.amount ≤ 0 then 0 else pool.depositAmount.toCoins) =
        pool.depositAmount.toCoins := by
      split_ifs with hle
      · have hzero : pool.depositAmount.amount = 0 :=
          le_antisymm hle (h.pools pool.name pool hget).deposit
        rw [DecCoin.toCoins, hzero, coin_zero]
      · rfl
    rw [hdestroy.farm, h.account, hback, hdeposits, hlocked]
    abel
  · rw [hpools, KeyedStore.get_delete] at hq
    split_ifs at hq
    obtain ⟨h1, h2, h3⟩ := h.pools p q hq
    refine ⟨h1, h2, h3.trans ?_⟩
    unfold FarmBooks.lockedIn
    rw [hlocks]
  · unfold FarmBooks.getLockInfo at hli
    rw [hlocks] at hli
    obtain ⟨q, hq, hok⟩ := h.locks a p li hli
    refine ⟨q, ?_, hok⟩
    rw [hpools, KeyedStore.get_delete, if_neg, hq]
    rintro rfl
    have hnone := h.no_lock hget hdestroy.nothing_locked a
    rw [FarmBooks.getLockInfo, hli] at hnone
    cases hnone
  · unfold FarmBooks.getLockInfo
    rw [hindex, hlocks]
    exact h.index p a

/-! ## Runs -/

theorem keeps_principal (createOK : FarmBooks → PoolName → Prop) :
    FarmKeeps createOK fun _ l => Principal l where
  genesis := ⟨rfl, fun _ _ h => (by cases h), fun _ _ _ h => (by cases h), fun _ _ => Iff.rfl⟩
  effect height history l evs l' he h := by
    cases he with
    | create params msg hcreate _ _ => exact h.create hcreate
    | destroy pool cur hdestroy => exact h.destroy hdestroy
    | provide pool cur hist info msg hprovide _ =>
      exact h.of_same (pool.provided cur.startBlockHeight height msg) hprovide.settles.get_pool
        (by rw [hprovide.stores]) (by rw [hprovide.stores]) (by rw [hprovide.stores])
        hprovide.farm rfl rfl rfl rfl
    | relock pool cur hist addr old change rewards hrelock hchange =>
      exact h.relock hrelock hchange
    | credit pool cur amount hpool hcur _ =>
      exact h.of_same { pool with
        totalAccumulatedRewards := pool.totalAccumulatedRewards + coin bondDenom amount }
        hpool rfl rfl rfl rfl rfl rfl rfl rfl
    | enlist pool hpool => exact ⟨h.account, h.pools, h.locks, h.index⟩
    | delist p => exact ⟨h.account, h.pools, h.locks, h.index⟩

/-- **The principal is backed.** In every run: the farm account holds the deposits and what is
locked; the total value locked of a pool is what its lock infos have; every lock info is of a pool
that is there, in its tokens, positive and at least its minimum; the index by pool has the accounts
with a lock info; and a pool that is destroyed has none. -/
theorem principal_backed {B : Type} {sk : SupplyKeeper B}
    {createOK : FarmBooks → PoolName → Prop} {n : FarmNode B} (hn : FarmReach sk createOK n) :
    let b := n.state.books
    sk.moduleCoins n.state.bank farmModuleName = b.totalDeposits + b.totalLocked ∧
    (∀ p pool, b.getFarmPool p = some pool →
      pool.totalValueLocked = ⟨pool.minLockAmount.denom, b.lockedIn p⟩) ∧
    (∀ addr p li, b.getLockInfo addr p = some li →
      ∃ pool, b.getFarmPool p = some pool ∧ li.amount.denom = pool.minLockAmount.denom ∧
        0 < li.amount.amount ∧ pool.minLockAmount.amount ≤ li.amount.amount) ∧
    (∀ p addr, (b.addressInFarmPool.get (toLex (p, addr))).isSome ↔
      (b.getLockInfo addr p).isSome) ∧
    (∀ msg s' returned, FarmAllowed sk createOK n (.destroyPool msg) →
      n.state.handleMsgDestroyPool sk n.height msg = .ok (s', returned) →
      ∀ addr, b.getLockInfo addr msg.poolName = none) := by
  intro b
  have h : Principal (n.state.ledger sk) := (keeps_principal createOK).reach hn
  refine ⟨h.account, fun p pool hpool => ?_, fun addr p li hli => ?_, h.index, ?_⟩
  · obtain ⟨-, hdenom, hlocked⟩ := h.pools p pool hpool
    rw [← hdenom]
    exact congrArg (DecCoin.mk _) hlocked
  · obtain ⟨pool, hpool, hok⟩ := h.locks addr p li hli
    exact ⟨pool, hpool, hok.denom, hok.pos, hok.minimum⟩
  · intro msg s' returned hallowed hdestroy addr
    obtain ⟨pool, cur, hname, hdestroyed, -⟩ :=
      FarmState.handleMsgDestroyPool_destroyed hallowed.2 hdestroy
    rw [← hname]
    exact h.no_lock hdestroyed.get_pool hdestroyed.nothing_locked addr

theorem principal_backed_bob :
    poolAOpen.state.books.getLockInfo "bob" poolA =
      some ⟨"bob", poolA, ⟨"lpt", Dec.newDec 30⟩, 1, 2⟩ ∧
    simpleSupply.moduleCoins poolAOpen.state.bank farmModuleName =
      poolAOpen.state.books.totalDeposits + poolAOpen.state.books.totalLocked := by
  have hn : FarmReach simpleSupply (fun _ _ => True) poolAOpen := reach_poolAOpen trivial
  exact ⟨by decide +kernel, (principal_backed hn).1⟩

end Okexchain
