import Okexchain.Farm.References
import Okexchain.Farm.Yield

/-!
# Rewards are covered

A pool does not keep what it owes each locker. It keeps the cumulative ratio of rewards to locked
tokens at the periods that lock infos refer to, and pays a locker its amount times the growth of the
ratio since its own period. Ratios and payments are truncated.

* `owed` is the debt to all lockers of a pool at a ratio, exact and scaled by `Dec.one`.
* Closing a period raises the ratio by the truncated quotient of the gathered rewards and the locked
  tokens, so the debt grows by at most what was gathered (`currentRatio_mul_le`). A payment is at
  most the debt it settles (`calculateRewards_le`).
* `Covered` is the invariant: the debt and what the current period has gathered are at most what the
  pool has accumulated.

**Results.** `keeps_farmSound`: in the runs whose pool names are apart, every debt is covered.
-/

namespace Okexchain

namespace FarmBooks

/-- The cumulative ratio of a period. -/
def ratio (b : FarmBooks) (p : PoolName) (k : Nat) : Coins :=
  (b.historicalRewards.get (toLex (p, k))).elim 0 PoolHistoricalRewards.cumulativeRewardRatio

/-- What the lockers of a pool are owed of a token when the ratios are `ratios`, up to period
`k`. -/
def owed (b : FarmBooks) (p : PoolName) (ratios : Nat → Coins) (k : Nat) (d : String) : Int :=
  b.lockInfos.store.sumBy fun _ li =>
    if li.poolName = p then li.amount.amount * (ratios k d - ratios li.referencePeriod d) else 0

end FarmBooks

variable {height : Nat} {l l' : FarmLedger} {b b' : FarmBooks} {pool : FarmPool}
  {cur : PoolCurrentRewards} {hist : PoolHistoricalRewards} {p q : PoolName} {k j : Nat}

/-! ## Ratios -/

section Ratios

theorem ratio_eq (h : b.historicalRewards.get (toLex (p, k)) = some hist) :
    b.ratio p k = hist.cumulativeRewardRatio := by
  unfold FarmBooks.ratio
  rw [h]
  rfl

theorem ratio_of_store (h : b'.historicalRewards.get (toLex (q, j)) =
    b.historicalRewards.get (toLex (q, j))) : b'.ratio q j = b.ratio q j := by
  unfold FarmBooks.ratio
  rw [h]

theorem ratio_set (q : PoolName) (j : Nat) : (b.setPoolHistoricalRewards p k hist).ratio q j =
    if q = p ∧ j = k then hist.cumulativeRewardRatio else b.ratio q j := by
  unfold FarmBooks.ratio
  show ((b.historicalRewards.set (toLex (p, k)) hist).get (toLex (q, j))).elim 0 _ = _
  have hiff : toLex (q, j) = toLex (p, k) ↔ q = p ∧ j = k := by
    rw [toLex.injective.eq_iff, Prod.mk.injEq]
  rw [KVStore.get_set]
  by_cases hqj : q = p ∧ j = k
  · rw [if_pos (hiff.mpr hqj), if_pos hqj]
    rfl
  · rw [if_neg fun he => hqj (hiff.mp he), if_neg hqj]

/-- A record that is still there after a reference was taken away has its ratio. -/
theorem ratio_release
    (hsome : ((b.release p k).historicalRewards.get (toLex (q, j))).isSome) :
    (b.release p k).ratio q j = b.ratio q j := by
  cases hget : b.historicalRewards.get (toLex (p, k)) with
  | none =>
    have hsame : b.release p k = b := by
      unfold FarmBooks.release
      rw [hget]
    rw [hsame]
  | some hist =>
    unfold FarmBooks.release at hsome ⊢
    rw [hget] at hsome ⊢
    dsimp only at hsome ⊢
    split_ifs at hsome ⊢ with hone
    · refine ratio_of_store (KVStore.get_delete_ne fun heq => ?_)
      have hnone : (b.deletePoolHistoricalReward p k).historicalRewards.get (toLex (q, j)) = none :=
        KVStore.get_delete.trans (if_pos heq)
      rw [hnone] at hsome
      cases hsome
    · rw [ratio_set]
      split_ifs with hqj
      · rw [hqj.1, hqj.2, ratio_eq hget]
      · rfl

theorem ratio_retain (q : PoolName) (j : Nat) : (b.retain p k).ratio q j = b.ratio q j := by
  unfold FarmBooks.retain
  cases hget : b.historicalRewards.get (toLex (p, k)) with
  | none => rfl
  | some hist =>
    rw [ratio_set]
    split_ifs with hqj
    · rw [hqj.1, hqj.2, ratio_eq hget]
    · rfl

/-- Adding a reference stores no new record. -/
theorem isSome_retain : ((b.retain p k).historicalRewards.get (toLex (q, j))).isSome ↔
    (b.historicalRewards.get (toLex (q, j))).isSome := by
  unfold FarmBooks.retain
  cases hget : b.historicalRewards.get (toLex (p, k)) with
  | none => exact Iff.rfl
  | some hist =>
    show ((b.historicalRewards.set (toLex (p, k)) _).get _).isSome ↔ _
    rw [KVStore.get_set]
    split_ifs with heq
    · rw [heq, hget]
      exact Iff.rfl
    · exact Iff.rfl

/-- The ratio of the period that is closed. -/
theorem ratio_settle_new (height : Nat) (hsettles : b.Settles pool cur hist) :
    (b.settle height pool cur hist).ratio pool.name cur.period = b.ratio pool.name (cur.period - 1) +
      FarmBooks.currentRatio (cur.rewards + pool.yielded cur.startBlockHeight height)
        pool.totalValueLocked := by
  rw [ratio_eq hsettles.get_hist]
  unfold FarmBooks.settle FarmBooks.closePeriod
  refine (ratio_set pool.name cur.period).trans ?_
  rw [if_pos ⟨rfl, rfl⟩]

/-- The ratios of the records that are kept when a period is closed. -/
theorem ratio_settle_old
    (hsome : ((b.settle height pool cur hist).historicalRewards.get (toLex (q, j))).isSome)
    (hne : ¬ (q = pool.name ∧ j = cur.period)) :
    (b.settle height pool cur hist).ratio q j = b.ratio q j := by
  unfold FarmBooks.settle FarmBooks.closePeriod at hsome ⊢
  refine (ratio_set q j).trans ?_
  rw [if_neg hne]
  refine ratio_release ?_
  have hkey : toLex (q, j) ≠ toLex (pool.name, cur.period) := by
    rw [Ne, toLex.injective.eq_iff, Prod.mk.injEq]
    exact hne
  have hget := KVStore.get_set_ne (m := (b.release pool.name (cur.period - 1)).historicalRewards)
    (v := ⟨hist.cumulativeRewardRatio + FarmBooks.currentRatio (cur.rewards +
      pool.yielded cur.startBlockHeight height) pool.totalValueLocked, 1⟩) hkey
  rw [← hget]
  exact hsome

end Ratios

/-! ## Debts -/

section Debts

/-- A higher ratio raises the debt by the rise on everything that is locked. -/
theorem owed_raise {ratios ratios' : Nat → Coins} {k' : Nat} {d : String} {rise : Int}
    (hk : ratios' k' d = ratios k d + rise)
    (hrefs : ∀ addr li, b.getLockInfo addr p = some li →
      ratios' li.referencePeriod d = ratios li.referencePeriod d) :
    b.owed p ratios' k' d = b.owed p ratios k d + rise * b.lockedIn p := by
  have hscale : rise * b.lockedIn p = b.lockInfos.store.sumBy fun _ li =>
      rise * if li.poolName = p then li.amount.amount else 0 :=
    KVStore.map_sumBy _ (AddMonoidHom.mulLeft rise)
  unfold FarmBooks.owed
  rw [hscale, ← KVStore.sumBy_add]
  refine KVStore.sumBy_congr _ fun key li hli => ?_
  split_ifs with hp
  · have hkey : toLex (li.owner, li.poolName) = key := b.lockInfos.keyed key li hli
    rw [← hkey, hp] at hli
    rw [hk, hrefs li.owner li hli]
    ring
  · ring

theorem owed_congr {ratios ratios' : Nat → Coins} {d : String} (hk : ratios' k d = ratios k d)
    (hrefs : ∀ addr li, b.getLockInfo addr p = some li →
      ratios' li.referencePeriod d = ratios li.referencePeriod d) :
    b.owed p ratios' k d = b.owed p ratios k d := by
  have hraise : b.owed p ratios' k d = b.owed p ratios k d + 0 * b.lockedIn p :=
    owed_raise (by rw [hk, add_zero]) hrefs
  rw [hraise, zero_mul, add_zero]

theorem owed_of_locks (h : b'.lockInfos = b.lockInfos) (ratios : Nat → Coins) (d : String) :
    b'.owed p ratios k d = b.owed p ratios k d := by
  unfold FarmBooks.owed
  rw [h]

/-- A settled lock takes the account's part out of the debt; what it locks from the closed period on
adds none. -/
theorem owed_relock {addr : Address} {old : Option LockInfo} {change : Int} {rewards : Coins}
    (hrelock : FarmState.Relock height l pool cur hist addr old change rewards l')
    (ratios : Nat → Coins) (d : String) :
    l'.books.owed pool.name ratios cur.period d = l.books.owed pool.name ratios cur.period d -
      old.elim 0 fun li =>
        li.amount.amount * (ratios cur.period d - ratios li.referencePeriod d) := by
  have hsum := hrelock.sum_locks_of_zero
    (fun li => if li.poolName = pool.name then
      li.amount.amount * (ratios cur.period d - ratios li.referencePeriod d) else 0)
    (fun li hzero => by rw [hzero, zero_mul, ite_self])
  have hnew : (FarmState.changedLock height pool cur addr old change).referencePeriod = cur.period :=
    rfl
  rw [hnew, sub_self, mul_zero, ite_self, add_zero] at hsum
  refine hsum.trans (congrArg _ ?_)
  cases old with
  | none => rfl
  | some li => exact if_pos (FarmBooks.lockInfo_key hrelock.get_old).2

/-- The debts of other pools are not touched. -/
theorem owed_relock_other {addr : Address} {old : Option LockInfo} {change : Int} {rewards : Coins}
    (hrelock : FarmState.Relock height l pool cur hist addr old change rewards l')
    (hq : q ≠ pool.name) (ratios : Nat → Coins) (k : Nat) (d : String) :
    l'.books.owed q ratios k d = l.books.owed q ratios k d := by
  have hsum := hrelock.sum_locks_of_zero
    (fun li => if li.poolName = q then
      li.amount.amount * (ratios k d - ratios li.referencePeriod d) else 0)
    (fun li hzero => by rw [hzero, zero_mul, ite_self])
  rw [hrelock.key_changedLock.2, if_neg hq.symm, add_zero] at hsum
  refine hsum.trans ?_
  cases old with
  | none => exact sub_zero _
  | some li =>
    have hpool : li.poolName = pool.name := (FarmBooks.lockInfo_key hrelock.get_old).2
    show _ - (if li.poolName = q then _ else _) = _
    rw [hpool, if_neg hq.symm]
    exact sub_zero _

/-- **The ratio of a period distributes no more than it has gathered.** -/
theorem currentRatio_mul_le {rewards : Coins} {locked : DecCoin} {d : String}
    (hrewards : 0 ≤ rewards d) (hlocked : 0 ≤ locked.amount) :
    0 ≤ FarmBooks.currentRatio rewards locked d ∧
      FarmBooks.currentRatio rewards locked d * locked.amount ≤ Dec.one * rewards d := by
  unfold FarmBooks.currentRatio
  split_ifs with hzero
  · rw [hzero, mul_zero]
    exact ⟨le_rfl, Int.mul_nonneg Dec.one_pos.le hrewards⟩
  · have hpos : 0 < locked.amount := lt_of_le_of_ne hlocked (Ne.symm hzero)
    rw [Coins.quoDecTruncate_apply, mul_comm Dec.one]
    exact ⟨Dec.quoTruncate_nonneg hrewards hpos, Dec.quoTruncate_mul_le hrewards hpos⟩

theorem calculateLockRewardsBetween_eq_ok {startingPeriod endingPeriod : Nat} {amount : DecCoin}
    {rewards : Coins} : b.calculateLockRewardsBetween p startingPeriod endingPeriod amount =
      .ok rewards ↔
    startingPeriod ≤ endingPeriod ∧ 0 ≤ amount.amount ∧
      ∃ starting ending, b.historicalRewards.get (toLex (p, startingPeriod)) = some starting ∧
        b.historicalRewards.get (toLex (p, endingPeriod)) = some ending ∧
        (∀ d, starting.cumulativeRewardRatio d ≤ ending.cumulativeRewardRatio d) ∧
        rewards = (ending.cumulativeRewardRatio - starting.cumulativeRewardRatio).mulDecTruncate
          amount.amount := by
  unfold FarmBooks.calculateLockRewardsBetween
  simp only [bind_eq_ok, require_eq_ok, exists_const, FarmBooks.getPoolHistoricalRewards_eq_ok,
    orThrow_eq_ok, pure_eq_ok]
  refine and_congr Iff.rfl (and_congr Iff.rfl ⟨?_, ?_⟩)
  · rintro ⟨starting, hs, ending, he, difference, hsub, rfl⟩
    obtain ⟨rfl, hle⟩ := Coins.subCoins_cases hsub
    exact ⟨starting, ending, hs, he, hle, rfl⟩
  · rintro ⟨starting, ending, hs, he, hle, rfl⟩
    exact ⟨starting, hs, ending, he, _, Coins.subCoins_eq_some hle, rfl⟩

/-- **A payment is at most the debt it settles.** -/
theorem calculateRewards_le {li : LockInfo} {rewards : Coins}
    (h : b.calculateRewards height p k li = .ok rewards) (hamount : 0 ≤ li.amount.amount)
    (hratio : ∀ d, b.ratio p li.referencePeriod d ≤ b.ratio p k d) (d : String) :
    0 ≤ rewards d ∧
      Dec.one * rewards d ≤ li.amount.amount * (b.ratio p k d - b.ratio p li.referencePeriod d) := by
  have hgrowth : 0 ≤ b.ratio p k d - b.ratio p li.referencePeriod d := sub_nonneg.mpr (hratio d)
  unfold FarmBooks.calculateRewards at h
  split_ifs at h
  · cases h
    exact ⟨le_rfl, by simpa using Int.mul_nonneg hamount hgrowth⟩
  · obtain ⟨-, -, starting, ending, hs, he, -, rfl⟩ := calculateLockRewardsBetween_eq_ok.mp h
    rw [ratio_eq hs, ratio_eq he] at hgrowth ⊢
    rw [Coins.mulDecTruncate_apply, DFinsupp.sub_apply, mul_comm Dec.one, mul_comm li.amount.amount]
    exact ⟨Dec.mulTruncate_nonneg hgrowth hamount, Dec.mulTruncate_mul_one_le hgrowth hamount⟩

end Debts

/-! ## The invariant -/

/-- What a pool owes, with what its current period has gathered, has accumulated. -/
structure PoolCovered (b : FarmBooks) (p : PoolName) (accumulated : Coins)
    (cur : PoolCurrentRewards) : Prop where
  bound : ∀ d, b.owed p (b.ratio p) (cur.period - 1) d + Dec.one * cur.rewards d ≤
    Dec.one * accumulated d
  gathered : ∀ d, 0 ≤ cur.rewards d
  ratios : ∀ addr li, b.getLockInfo addr p = some li →
    ∀ d, b.ratio p li.referencePeriod d ≤ b.ratio p (cur.period - 1) d

/-- Every pool covers what it owes. -/
def Covered (b : FarmBooks) : Prop :=
  ∀ p pool cur, b.getFarmPool p = some pool → b.currentRewards.get p = some cur →
    PoolCovered b p pool.totalAccumulatedRewards cur

/-- All that is known of the books and the accounts in runs whose pool names are apart. -/
structure FarmSound (history : List FarmEvent) (l : FarmLedger) : Prop where
  principal : Principal l
  references : References l.books
  yield : YieldBacked history l
  covered : Covered l.books

variable {history : List FarmEvent}

/-- Records and lock infos of a pool are as they were. -/
theorem PoolCovered.of_same {accumulated : Coins} (h : PoolCovered b q accumulated cur)
    (hhist : ∀ j, b'.historicalRewards.get (toLex (q, j)) = b.historicalRewards.get (toLex (q, j)))
    (hlocks : ∀ addr, b'.getLockInfo addr q = b.getLockInfo addr q)
    (howed : ∀ ratios k d, b'.owed q ratios k d = b.owed q ratios k d) :
    PoolCovered b' q accumulated cur := by
  have hratio : ∀ j, b'.ratio q j = b.ratio q j := fun j => ratio_of_store (hhist j)
  have hfun : b'.ratio q = b.ratio q := funext hratio
  refine ⟨fun d => ?_, h.gathered, fun addr li hli d => ?_⟩
  · rw [howed, hfun]
    exact h.bound d
  · rw [hlocks] at hli
    rw [hratio, hratio]
    exact h.ratios addr li hli d

/-- The lock infos of a pool in books where it has been settled. -/
theorem FarmSound.ratio_ref (h : FarmSound history l) (hsettles : l.books.Settles pool cur hist)
    (height : Nat) {addr : Address} {li : LockInfo}
    (hli : l.books.getLockInfo addr pool.name = some li) :
    ((l.books.settle height pool cur hist).historicalRewards.get
      (toLex (pool.name, li.referencePeriod))).isSome ∧
    (l.books.settle height pool cur hist).ratio pool.name li.referencePeriod =
      l.books.ratio pool.name li.referencePeriod := by
  have hbefore := h.references.before addr _ li cur hli hsettles.get_cur
  have hpos := lockRefs_pos hli
  have hsome := (h.references.counts_settle height hsettles).isSome_iff.mpr
    (show l.books.lockRefs pool.name li.referencePeriod + _ ≠ 0 by omega)
  exact ⟨hsome, ratio_settle_old hsome fun he => by omega⟩

/-- **A settled pool covers what it owes**, and its ratio has not fallen. -/
theorem FarmSound.settle (h : FarmSound history l) (hsettles : l.books.Settles pool cur hist)
    (height : Nat) :
    let ratios := (l.books.settle height pool cur hist).ratio pool.name
    (∀ d, l.books.owed pool.name ratios cur.period d ≤
      Dec.one * (pool.afterYield cur.startBlockHeight height).totalAccumulatedRewards d) ∧
    (∀ addr li, l.books.getLockInfo addr pool.name = some li →
      ∀ d, ratios li.referencePeriod d ≤ ratios cur.period d) := by
  intro ratios
  have hcovered := h.covered _ pool cur hsettles.get_pool hsettles.get_cur
  have hlocked := (h.principal.pools _ pool hsettles.get_pool).locked
  have hyielded := (h.yield.pools _ pool hsettles.get_pool).yielded cur.startBlockHeight height
  have hgathered : ∀ d, 0 ≤ (cur.rewards + pool.yielded cur.startBlockHeight height) d := by
    intro d
    rw [DFinsupp.add_apply]
    exact add_nonneg (hcovered.gathered d) (hyielded d)
  have htotal : 0 ≤ pool.totalValueLocked.amount := by
    rw [hlocked]
    refine KVStore.sumBy_nonneg _ fun key li hli => ?_
    obtain ⟨q, -, hok⟩ := h.principal.locks (ofLex key).1 (ofLex key).2 li hli
    have := hok.pos
    split_ifs <;> omega
  have hrefs : ∀ addr li, l.books.getLockInfo addr pool.name = some li → ∀ d,
      ratios li.referencePeriod d = l.books.ratio pool.name li.referencePeriod d :=
    fun addr li hli d => congrArg (fun c : Coins => c d) (h.ratio_ref hsettles height hli).2
  have hnew := ratio_settle_new height hsettles
  refine ⟨fun d => ?_, fun addr li hli d => ?_⟩
  · obtain ⟨-, hrise⟩ := currentRatio_mul_le (hgathered d) htotal
    have howed := owed_raise (b := l.books) (p := pool.name) (k := cur.period - 1)
      (congrArg (fun c : Coins => c d) hnew) fun addr li hli => hrefs addr li hli d
    rw [show l.books.lockedIn pool.name = _ from hlocked.symm] at howed
    have hbound := hcovered.bound d
    show _ ≤ Dec.one * (pool.totalAccumulatedRewards + pool.yielded cur.startBlockHeight height) d
    rw [DFinsupp.add_apply] at hrise ⊢
    rw [howed]
    linarith
  · rw [hrefs addr li hli d, show ratios cur.period = _ from hnew, DFinsupp.add_apply]
    have hrise := (currentRatio_mul_le (hgathered d) htotal).1
    have := hcovered.ratios addr li hli d
    omega

/-! ## Records of other pools -/

section Others

theorem toLex_ne (hq : q ≠ p) : toLex (q, j) ≠ toLex (p, k) := fun he =>
  hq (Prod.mk.inj (toLex.injective he)).1

theorem get_release_other (hq : q ≠ p) : (b.release p k).historicalRewards.get (toLex (q, j)) =
    b.historicalRewards.get (toLex (q, j)) := by
  unfold FarmBooks.release
  cases b.historicalRewards.get (toLex (p, k)) with
  | none => rfl
  | some hist =>
    dsimp only
    split_ifs
    · exact KVStore.get_delete_ne (toLex_ne hq)
    · exact KVStore.get_set_ne (toLex_ne hq)

theorem get_retain_other (hq : q ≠ p) : (b.retain p k).historicalRewards.get (toLex (q, j)) =
    b.historicalRewards.get (toLex (q, j)) := by
  unfold FarmBooks.retain
  cases b.historicalRewards.get (toLex (p, k)) with
  | none => rfl
  | some hist => exact KVStore.get_set_ne (toLex_ne hq)

theorem get_settle_other (hq : q ≠ pool.name) :
    (b.settle height pool cur hist).historicalRewards.get (toLex (q, j)) =
      b.historicalRewards.get (toLex (q, j)) :=
  (KVStore.get_set_ne (toLex_ne hq)).trans (get_release_other hq)

theorem get_relock_other {addr : Address} {old : Option LockInfo} {change : Int} {rewards : Coins}
    (hrelock : FarmState.Relock height l pool cur hist addr old change rewards l')
    (hq : q ≠ pool.name) : l'.books.historicalRewards.get (toLex (q, j)) =
      l.books.historicalRewards.get (toLex (q, j)) := by
  have hstore : l'.books.historicalRewards = ((l.books.settled height pool cur hist old).putLock
      (FarmState.changedLock height pool cur addr old change)).historicalRewards := by
    rw [hrelock.stores]
  have hsettled : (l.books.settled height pool cur hist old).historicalRewards.get (toLex (q, j)) =
      l.books.historicalRewards.get (toLex (q, j)) := by
    cases old with
    | none => exact get_settle_other hq
    | some li => exact (get_release_other hq).trans (get_settle_other hq)
  rw [hstore, ← hsettled]
  unfold FarmBooks.putLock
  split_ifs
  · rfl
  · rw [hrelock.key_changedLock.2]
    exact get_retain_other hq

end Others

/-! ## The effects -/

/-- A pool is rewritten and covered, and the others are as they were. -/
theorem Covered.rewrite {pool' : FarmPool} {cur' : PoolCurrentRewards} (h : Covered b)
    (hpools : b'.farmPools = b.farmPools.put pool')
    (hcurrent : b'.currentRewards = b.currentRewards.set pool'.name cur')
    (hpool : PoolCovered b' pool'.name pool'.totalAccumulatedRewards cur')
    (hothers : ∀ q, q ≠ pool'.name → (b.getFarmPool q).isSome → ∀ accumulated cur,
      PoolCovered b q accumulated cur → PoolCovered b' q accumulated cur) : Covered b' := by
  intro q r c hr hc
  unfold FarmBooks.getFarmPool at hr
  rw [hpools, KeyedStore.get_put] at hr
  rw [hcurrent, KVStore.get_set] at hc
  by_cases hq : q = pool'.name
  · rw [if_pos hq] at hr hc
    cases hr
    cases hc
    rw [hq]
    exact hpool
  · rw [if_neg hq] at hr hc
    exact hothers q hq (Option.isSome_iff_exists.mpr ⟨r, hr⟩) _ _ (h q r c hr hc)

theorem Covered.provide {info : YieldedTokenInfo} {msg : MsgProvide} (h : FarmSound history l)
    (hprovide : FarmState.Provided height l pool cur hist info msg l') : Covered l'.books := by
  have hlocks : l'.books.lockInfos = l.books.lockInfos := by rw [hprovide.stores]
  have hstore : l'.books.historicalRewards =
      (l.books.settle height pool cur hist).historicalRewards := by rw [hprovide.stores]
  have hpools : l'.books.farmPools =
      l.books.farmPools.put (pool.provided cur.startBlockHeight height msg) := by
    rw [hprovide.stores]
  have hcurrent : l'.books.currentRewards =
      l.books.currentRewards.set pool.name ⟨height, cur.period + 1, 0⟩ := by rw [hprovide.stores]
  have hinfos : ∀ addr q, l'.books.getLockInfo addr q = l.books.getLockInfo addr q := by
    intro addr q
    unfold FarmBooks.getLockInfo
    rw [hlocks]
  have hratio : l'.books.ratio pool.name = (l.books.settle height pool cur hist).ratio pool.name :=
    funext fun j => ratio_of_store (by rw [hstore])
  obtain ⟨hbound, hratios⟩ := h.settle hprovide.settles height
  refine h.covered.rewrite hpools hcurrent ⟨fun d => ?_, fun d => le_rfl, fun addr li hli d => ?_⟩
    fun q hq _ accumulated c hc => hc.of_same (fun j => ?_) (fun addr => hinfos addr q)
      fun ratios k d => owed_of_locks hlocks ratios d
  · show l'.books.owed pool.name (l'.books.ratio pool.name) cur.period d + Dec.one * 0 ≤ _
    rw [owed_of_locks hlocks, hratio, mul_zero, add_zero]
    exact hbound d
  · rw [hinfos] at hli
    show l'.books.ratio pool.name _ d ≤ l'.books.ratio pool.name cur.period d
    rw [hratio]
    exact hratios addr li hli d
  · rw [hstore]
    exact get_settle_other hq

/-- The ratios of the records that are there after a settled lock are those of the settled pool. -/
theorem ratio_relock {addr : Address} {old : Option LockInfo} {change : Int} {rewards : Coins}
    (hrelock : FarmState.Relock height l pool cur hist addr old change rewards l')
    (hsome : (l'.books.historicalRewards.get (toLex (pool.name, j))).isSome) :
    l'.books.ratio pool.name j = (l.books.settle height pool cur hist).ratio pool.name j := by
  have hstore : l'.books.historicalRewards = ((l.books.settled height pool cur hist old).putLock
      (FarmState.changedLock height pool cur addr old change)).historicalRewards := by
    rw [hrelock.stores]
  have hsettled : ((l.books.settled height pool cur hist old).historicalRewards.get
      (toLex (pool.name, j))).isSome → (l.books.settled height pool cur hist old).ratio pool.name j =
        (l.books.settle height pool cur hist).ratio pool.name j := by
    cases old with
    | none => exact fun _ => rfl
    | some li => exact ratio_release
  have hratio : l'.books.ratio pool.name j = ((l.books.settled height pool cur hist old).putLock
      (FarmState.changedLock height pool cur addr old change)).ratio pool.name j :=
    ratio_of_store (by rw [hstore])
  rw [hstore] at hsome
  rw [hratio]
  unfold FarmBooks.putLock at hsome ⊢
  split_ifs at hsome ⊢
  · exact hsettled hsome
  · exact (ratio_retain _ _).trans (hsettled (isSome_retain.mp hsome))

/-- **A payment is covered, and leaves what the others are owed covered.** -/
theorem Covered.relock {addr : Address} {old : Option LockInfo} {change : Int} {rewards : Coins}
    (h : FarmSound history l) (h' : References l'.books)
    (hrelock : FarmState.Relock height l pool cur hist addr old change rewards l') :
    Covered l'.books := by
  have hsettles := hrelock.settles
  obtain ⟨hbound, hratios⟩ := h.settle hsettles height
  have hpools : l'.books.farmPools = l.books.farmPools.put
      (pool.relocked cur.startBlockHeight height change rewards) := by rw [hrelock.stores]
  have hcurrent : l'.books.currentRewards =
      l.books.currentRewards.set pool.name ⟨height, cur.period + 1, 0⟩ := by rw [hrelock.stores]
  -- what is referred to is stored, and has the ratio it had when the pool was settled
  have hlast : l'.books.ratio pool.name cur.period =
      (l.books.settle height pool cur hist).ratio pool.name cur.period := by
    refine ratio_relock hrelock (h'.counts.isSome_iff.mpr ?_)
    show _ + l'.books.currentRef pool.name cur.period ≠ 0
    rw [References.currentRef_closed hcurrent, if_pos rfl, if_pos rfl]
    omega
  have hrefs : ∀ a li, l'.books.getLockInfo a pool.name = some li →
      l'.books.ratio pool.name li.referencePeriod =
        (l.books.settle height pool cur hist).ratio pool.name li.referencePeriod := by
    intro a li hli
    have hpos := lockRefs_pos hli
    exact ratio_relock hrelock (h'.counts.isSome_iff.mpr
      (show l'.books.lockRefs pool.name li.referencePeriod + _ ≠ 0 by omega))
  refine h.covered.rewrite hpools hcurrent ⟨fun d => ?_, fun d => le_rfl, fun a li hli d => ?_⟩
    fun q hq _ accumulated c hc => hc.of_same (fun j => get_relock_other hrelock hq)
      (fun a => ?_) (owed_relock_other hrelock hq)
  · have hpaid : Dec.one * rewards d ≤ old.elim 0 fun li => li.amount.amount *
        ((l.books.settle height pool cur hist).ratio pool.name cur.period d -
          (l.books.settle height pool cur hist).ratio pool.name li.referencePeriod d) := by
      cases hold : old with
      | none =>
        rw [hrelock.rewards_new hold]
        exact le_of_eq (mul_zero _)
      | some li =>
        obtain ⟨q, -, hok⟩ := h.principal.locks addr _ li (hrelock.get_old.trans hold)
        exact (calculateRewards_le (hrelock.rewards_old li hold) hok.pos.le
          (hratios addr li (hrelock.get_old.trans hold)) d).2
    have howed : l'.books.owed pool.name (l'.books.ratio pool.name) cur.period d = _ :=
      (owed_congr (congrArg (fun c : Coins => c d) hlast)
        fun a li hli => congrArg (fun c : Coins => c d) (hrefs a li hli)).trans
        (owed_relock hrelock _ d)
    have := hbound d
    show l'.books.owed pool.name (l'.books.ratio pool.name) cur.period d + Dec.one * 0 ≤
      Dec.one * ((pool.afterYield cur.startBlockHeight height).totalAccumulatedRewards - rewards) d
    rw [DFinsupp.sub_apply, howed]
    linarith
  · show l'.books.ratio pool.name _ d ≤ l'.books.ratio pool.name cur.period d
    have hli' : l'.books.getLockInfo a pool.name = some li := hli
    rw [hrefs a li hli', hlast]
    rw [hrelock.getLockInfo] at hli'
    dsimp only at hli'
    split_ifs at hli'
    · cases hli'
      exact le_rfl
    · exact hratios a li hli' d
  · rw [hrelock.getLockInfo, if_neg fun he => hq he.2]

theorem Covered.credit {amount : Int} (h : Covered b)
    (hget : b.farmPools.get pool.name = some pool)
    (hcur : b.currentRewards.get pool.name = some cur) (hamount : 0 ≤ amount) :
    Covered (b.credit pool cur amount) := by
  have hpools : (b.credit pool cur amount).farmPools = b.farmPools.put { pool with
      totalAccumulatedRewards := pool.totalAccumulatedRewards + coin bondDenom amount } := rfl
  have hcurrent : (b.credit pool cur amount).currentRewards = b.currentRewards.set pool.name
      { cur with rewards := cur.rewards + coin bondDenom amount } := rfl
  have hcovered := h _ pool cur hget hcur
  refine h.rewrite hpools hcurrent ⟨fun d => ?_, fun d => ?_, hcovered.ratios⟩
    fun q _ _ _ _ hc => hc.of_same (fun _ => rfl) (fun _ => rfl) fun _ _ _ => rfl
  · have hbound : b.owed pool.name (b.ratio pool.name) (cur.period - 1) d + _ ≤ _ :=
      hcovered.bound d
    show b.owed pool.name (b.ratio pool.name) (cur.period - 1) d +
      Dec.one * (cur.rewards + coin bondDenom amount) d ≤
        Dec.one * (pool.totalAccumulatedRewards + coin bondDenom amount) d
    rw [DFinsupp.add_apply, DFinsupp.add_apply]
    linarith
  · show 0 ≤ (cur.rewards + coin bondDenom amount) d
    rw [DFinsupp.add_apply]
    exact add_nonneg (hcovered.gathered d) (coin_nonneg hamount _ d)

theorem Covered.create {params : FarmParams} {msg : MsgCreatePool} (h : FarmSound history l)
    (hcreate : FarmState.Created height l params msg l') : Covered l'.books := by
  rw [hcreate.books]
  have hno := h.principal.no_lock_of_fresh hcreate.fresh
  have hpools : (l.books.create height (FarmState.newFarmPool params msg)).farmPools =
      l.books.farmPools.put (FarmState.newFarmPool params msg) := rfl
  have hcurrent : (l.books.create height (FarmState.newFarmPool params msg)).currentRewards =
      l.books.currentRewards.set msg.poolName ⟨height, 1, 0⟩ := rfl
  refine h.covered.rewrite hpools hcurrent ⟨fun d => ?_, fun d => le_rfl, fun addr li hli d => ?_⟩
    fun q hq _ _ _ hc => hc.of_same (fun j => KVStore.get_set_ne (toLex_ne hq)) (fun _ => rfl)
      fun _ _ _ => rfl
  · have hzero : ∀ ratios, l.books.owed msg.poolName ratios 0 d = 0 := by
      intro ratios
      refine (KVStore.sumBy_congr _ fun key li hli => if_neg fun hp => ?_).trans KVStore.sumBy_zero
      have hkey : toLex (li.owner, li.poolName) = key := l.books.lockInfos.keyed key li hli
      rw [← hkey, hp] at hli
      have hnone : l.books.lockInfos.store.get (toLex (li.owner, msg.poolName)) = none :=
        hno li.owner
      rw [hnone] at hli
      cases hli
    show l.books.owed msg.poolName _ 0 d + Dec.one * 0 ≤ Dec.one * 0
    rw [hzero, zero_add]
  · have hli : l.books.getLockInfo addr msg.poolName = some li := hli
    rw [hno] at hli
    cases hli

theorem Covered.destroy (h : FarmSound history l)
    (hdestroy : FarmState.Destroyed height l pool cur l') : Covered l'.books := by
  rw [hdestroy.books]
  intro q r c hr hc
  have hr : (l.books.farmPools.delete pool.name).get q = some r := hr
  have hc : (l.books.currentRewards.delete pool.name).get q = some c := hc
  rw [KeyedStore.get_delete] at hr
  rw [KVStore.get_delete] at hc
  by_cases hq : q = pool.name
  · rw [if_pos hq] at hr
    cases hr
  · rw [if_neg hq] at hr hc
    refine (h.covered q r c hr hc).of_same (fun j => ?_) (fun _ => rfl) fun _ _ _ => rfl
    rw [FarmBooks.get_destroy, if_neg]
    intro hprefix
    have hap := h.references.apart pool.name
      (Option.isSome_iff_exists.mpr ⟨pool, hdestroy.get_pool⟩) q
      (Option.isSome_iff_exists.mpr ⟨r, hr⟩) hq
    exact (References.prefix_of_prefix_historicalKey hprefix).elim hap.1 hap.2

/-! ## Runs -/

/-- **Every pool covers what it owes** in the runs whose pool names are apart. -/
theorem keeps_farmSound : FarmKeeps NamesApart FarmSound where
  genesis := ⟨keeps_references.genesis.1, keeps_references.genesis.2,
    (keeps_yieldBacked NamesApart).genesis, fun _ _ _ hp _ => (by cases hp)⟩
  effect height history l evs l' he h := by
    obtain ⟨hprincipal, hreferences⟩ :=
      keeps_references.effect height history l evs l' he ⟨h.principal, h.references⟩
    refine ⟨hprincipal, hreferences,
      (keeps_yieldBacked NamesApart).effect height history l evs l' he h.yield, ?_⟩
    cases he with
    | create params msg hcreate _ _ => exact Covered.create h hcreate
    | destroy pool cur hdestroy => exact Covered.destroy h hdestroy
    | provide pool cur hist info msg hprovide _ => exact Covered.provide h hprovide
    | relock pool cur hist addr old change rewards hrelock _ =>
      exact Covered.relock h hreferences hrelock
    | credit pool cur amount hpool hcur hnonneg => exact h.covered.credit hpool hcur hnonneg
    | enlist pool _ =>
      exact fun p q c hq hc => (h.covered p q c hq hc).of_same (fun _ => rfl) (fun _ => rfl)
        fun _ _ _ => rfl
    | delist _ =>
      exact fun p q c hq hc => (h.covered p q c hq hc).of_same (fun _ => rfl) (fun _ => rfl)
        fun _ _ _ => rfl

end Okexchain
