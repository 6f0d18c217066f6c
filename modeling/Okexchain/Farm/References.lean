import Okexchain.Farm.Destroy

/-!
# References to historical rewards

A lock info refers to the record of historical rewards of the period in which it was last settled,
and the current period of a pool to the one before it. A record counts its references and goes with
the last one.

* `Counts b count` says what the records count. `release`, `retain` and `closePeriod` change the
  counts they name and no other.
* `References` is the invariant. It needs that destroying a pool leaves the records of others alone,
  so it holds in the runs whose pool names are apart (`NamesApart`): none is a prefix of another.

**Results.** `keeps_references`: in these runs a record counts the lock infos that refer to it, of
which there is at most one, and the current period of its pool; and records that nothing refers to
are not stored.
-/

namespace Okexchain

/-! ## Counted records -/

/-- One for the given pool and period. -/
def markAt (p : PoolName) (k : Nat) (q : PoolName) (j : Nat) : Nat := if q = p ∧ j = k then 1 else 0

/-- A count that is stored: not zero. -/
def storedCount (n : Nat) : Option Nat := if n = 0 then none else some n

/-- The records count what `count` says; what is not referred to is not stored. -/
def Counts (b : FarmBooks) (count : PoolName → Nat → Nat) : Prop :=
  ∀ p k, (b.historicalRewards.get (toLex (p, k))).map PoolHistoricalRewards.referenceCount =
    storedCount (count p k)

namespace Counts

variable {b : FarmBooks} {count : PoolName → Nat → Nat} {p : PoolName} {k : Nat}

theorem get_of_pos (h : Counts b count) (hpos : count p k ≠ 0) :
    ∃ hist, b.historicalRewards.get (toLex (p, k)) = some hist ∧
      hist.referenceCount = count p k := by
  have hpk := h p k
  rw [storedCount, if_neg hpos] at hpk
  exact Option.map_eq_some_iff.mp hpk

theorem get_of_zero (h : Counts b count) (hzero : count p k = 0) :
    b.historicalRewards.get (toLex (p, k)) = none := by
  have hpk := h p k
  rw [storedCount, if_pos hzero] at hpk
  exact Option.map_eq_none_iff.mp hpk

/-- Every record that is stored is referred to. -/
theorem count_of_get (h : Counts b count) {hist : PoolHistoricalRewards}
    (hget : b.historicalRewards.get (toLex (p, k)) = some hist) :
    hist.referenceCount = count p k ∧ hist.referenceCount ≠ 0 := by
  have hpk := h p k
  rw [hget, Option.map_some, storedCount] at hpk
  split_ifs at hpk with hzero
  have hcount := Option.some.inj hpk
  exact ⟨hcount, hcount ▸ hzero⟩

theorem isSome_iff (h : Counts b count) :
    (b.historicalRewards.get (toLex (p, k))).isSome ↔ count p k ≠ 0 := by
  have hpk := h p k
  constructor
  · rintro hsome hzero
    rw [h.get_of_zero hzero] at hsome
    cases hsome
  · intro hpos
    obtain ⟨hist, hget, -⟩ := h.get_of_pos hpos
    rw [hget]
    rfl

theorem congr {count' : PoolName → Nat → Nat} (h : Counts b count)
    (heq : ∀ q j, count' q j = count q j) : Counts b count' := by
  intro q j
  rw [heq]
  exact h q j

theorem of_store {b' : FarmBooks} (h : Counts b count)
    (heq : b'.historicalRewards = b.historicalRewards) : Counts b' count := by
  intro q j
  rw [heq]
  exact h q j

theorem set (h : Counts b count) {hist : PoolHistoricalRewards} (hpos : hist.referenceCount ≠ 0) :
    Counts (b.setPoolHistoricalRewards p k hist)
      fun q j => if q = p ∧ j = k then hist.referenceCount else count q j := by
  intro q j
  show ((b.historicalRewards.set (toLex (p, k)) hist).get (toLex (q, j))).map _ = _
  have hiff : toLex (q, j) = toLex (p, k) ↔ q = p ∧ j = k := by
    rw [toLex.injective.eq_iff, Prod.mk.injEq]
  rw [KVStore.get_set]
  dsimp only
  by_cases hqj : q = p ∧ j = k
  · rw [if_pos (hiff.mpr hqj), if_pos hqj, storedCount, if_neg hpos]
    rfl
  · rw [if_neg fun he => hqj (hiff.mp he), if_neg hqj]
    exact h q j

theorem delete (h : Counts b count) : Counts (b.deletePoolHistoricalReward p k)
    fun q j => if q = p ∧ j = k then 0 else count q j := by
  intro q j
  show ((b.historicalRewards.delete (toLex (p, k))).get (toLex (q, j))).map _ = _
  have hiff : toLex (q, j) = toLex (p, k) ↔ q = p ∧ j = k := by
    rw [toLex.injective.eq_iff, Prod.mk.injEq]
  rw [KVStore.get_delete]
  dsimp only
  by_cases hqj : q = p ∧ j = k
  · rw [if_pos (hiff.mpr hqj), if_pos hqj]
    rfl
  · rw [if_neg fun he => hqj (hiff.mp he), if_neg hqj]
    exact h q j

theorem release (h : Counts b count) (hpos : count p k ≠ 0) :
    Counts (b.release p k) fun q j => count q j - markAt p k q j := by
  obtain ⟨hist, hget, hcount⟩ := h.get_of_pos hpos
  unfold FarmBooks.release
  rw [hget]
  dsimp only
  split_ifs with hone
  · refine h.delete.congr fun q j => ?_
    unfold markAt
    split_ifs with hqj
    · rw [hqj.1, hqj.2, ← hcount, hone]
    · rfl
  · refine (h.set (by show hist.referenceCount - 1 ≠ 0; omega)).congr fun q j => ?_
    unfold markAt
    split_ifs with hqj
    · rw [hqj.1, hqj.2, ← hcount]
    · rfl

theorem retain (h : Counts b count) (hpos : count p k ≠ 0) :
    Counts (b.retain p k) fun q j => count q j + markAt p k q j := by
  obtain ⟨hist, hget, hcount⟩ := h.get_of_pos hpos
  unfold FarmBooks.retain
  rw [hget]
  refine (h.set (Nat.succ_ne_zero _)).congr fun q j => ?_
  unfold markAt
  split_ifs with hqj
  · rw [hqj.1, hqj.2, ← hcount]
  · rfl

/-- The reference of the current period moves on. -/
theorem closePeriod (h : Counts b count) {cur : PoolCurrentRewards} (height : Nat) (ratio : Coins)
    (hpos : count p (cur.period - 1) ≠ 0) (hnew : count p cur.period = 0) (hperiod : 1 ≤ cur.period) :
    Counts (b.closePeriod height p cur ratio)
      fun q j => count q j - markAt p (cur.period - 1) q j + markAt p cur.period q j := by
  have hset : Counts ((b.release p (cur.period - 1)).setPoolHistoricalRewards p cur.period
      ⟨ratio, 1⟩) _ := (h.release hpos).set Nat.one_ne_zero
  have hclosed : Counts (b.closePeriod height p cur ratio) _ := hset.of_store rfl
  refine hclosed.congr fun q j => ?_
  unfold markAt
  split_ifs with h1 h2 h2
  · omega
  · rfl
  · rw [h2.1, h2.2, hnew]
  · rfl

end Counts

/-! ## The references -/

/-- A pool may be created when its name and those of the other pools are apart. -/
def NamesApart (b : FarmBooks) (p : PoolName) : Prop :=
  ∀ q, (b.getFarmPool q).isSome → q ≠ p → ¬ p <+: q ∧ ¬ q <+: p

namespace FarmBooks

/-- The number of lock infos that refer to a period of a pool. -/
def lockRefs (b : FarmBooks) (p : PoolName) (k : Nat) : Nat :=
  b.lockInfos.store.count fun _ li => li.poolName = p ∧ li.referencePeriod = k

/-- The reference of a pool's current period. -/
def currentRef (b : FarmBooks) (p : PoolName) (k : Nat) : Nat :=
  (b.currentRewards.get p).elim 0 fun cur => if cur.period = k + 1 then 1 else 0

end FarmBooks

/-- The records count the references to them. -/
structure References (b : FarmBooks) : Prop where
  counts : Counts b fun p k => b.lockRefs p k + b.currentRef p k
  current : ∀ p, (b.currentRewards.get p).isSome ↔ (b.getFarmPool p).isSome
  period : ∀ p cur, b.currentRewards.get p = some cur → 1 ≤ cur.period
  before : ∀ addr p li cur, b.getLockInfo addr p = some li → b.currentRewards.get p = some cur →
    li.referencePeriod < cur.period
  single : ∀ p k, b.lockRefs p k ≤ 1
  apart : ∀ p, (b.getFarmPool p).isSome → NamesApart b p

variable {height : Nat} {l l' : FarmLedger} {b b' : FarmBooks} {pool : FarmPool}
  {cur : PoolCurrentRewards} {hist : PoolHistoricalRewards} {p : PoolName} {k : Nat}

theorem currentRef_eq (hcur : b.currentRewards.get p = some cur) :
    b.currentRef p k = if cur.period = k + 1 then 1 else 0 := by
  unfold FarmBooks.currentRef
  rw [hcur]
  rfl

/-- Only lock infos of a pool refer to its periods. -/
theorem lockRefs_eq_zero (h : ∀ addr li, b.getLockInfo addr p = some li → li.referencePeriod ≠ k) :
    b.lockRefs p k = 0 := by
  have hzero : (b.lockRefs p k : Int) = 0 := by
    unfold FarmBooks.lockRefs
    rw [KVStore.count_eq_sumBy]
    refine (KVStore.sumBy_congr _ fun key li hli => if_neg ?_).trans KVStore.sumBy_zero
    rintro ⟨rfl, hk⟩
    have hkey : toLex (li.owner, li.poolName) = key := b.lockInfos.keyed key li hli
    rw [← hkey] at hli
    exact h li.owner li hli hk
  exact_mod_cast hzero

/-- A lock info is one of the references to its period. -/
theorem lockRefs_pos {addr : Address} {li : LockInfo} (h : b.getLockInfo addr p = some li) :
    1 ≤ b.lockRefs p li.referencePeriod := by
  obtain ⟨-, hpool⟩ := FarmBooks.lockInfo_key h
  have hle : (1 : Int) ≤ b.lockRefs p li.referencePeriod := by
    unfold FarmBooks.lockRefs
    rw [KVStore.count_eq_sumBy]
    refine le_trans (le_of_eq ?_) (KVStore.le_sumBy _ (fun key li' _ => ?_) h)
    · rw [if_pos ⟨hpool, rfl⟩]
    · split_ifs <;> decide
  exact_mod_cast hle

namespace References

/-- No lock info refers to the current period of its pool. -/
theorem lockRefs_current (h : References b) (hcur : b.currentRewards.get p = some cur)
    (hk : cur.period ≤ k) : b.lockRefs p k = 0 := by
  refine lockRefs_eq_zero fun addr li hli => ?_
  have := h.before addr p li cur hli hcur
  omega

/-- The record that the current period refers to. -/
theorem previous (h : References b) (hcur : b.currentRewards.get p = some cur) :
    b.lockRefs p (cur.period - 1) + b.currentRef p (cur.period - 1) ≠ 0 := by
  have := h.period p cur hcur
  rw [currentRef_eq hcur, if_pos (by omega)]
  omega

/-- **A pool can be settled.** -/
theorem settles (h : References b) (hpool : b.getFarmPool p = some pool) :
    ∃ cur hist, b.Settles pool cur hist := by
  have hname : pool.name = p := KeyedStore.key_of_get hpool
  subst hname
  have hsome : (b.currentRewards.get pool.name).isSome := by
    rw [h.current, hpool]
    rfl
  obtain ⟨cur, hcur⟩ := Option.isSome_iff_exists.mp hsome
  obtain ⟨hist, hhist, hcount⟩ := h.counts.get_of_pos (h.previous hcur)
  exact ⟨cur, hist, hpool, hcur, hhist, hcount ▸ h.previous hcur⟩

theorem counts_settle (h : References b) (height : Nat) (hsettles : b.Settles pool cur hist) :
    Counts (b.settle height pool cur hist) fun q j => b.lockRefs q j +
      if q = pool.name then (if j = cur.period then 1 else 0) else b.currentRef q j := by
  have hcur := hsettles.get_cur
  have hperiod := h.period _ cur hcur
  have hnew : b.lockRefs pool.name cur.period + b.currentRef pool.name cur.period = 0 := by
    rw [h.lockRefs_current hcur le_rfl, currentRef_eq hcur, if_neg (by omega)]
  refine (h.counts.closePeriod height _ (h.previous hcur) hnew hperiod).congr fun q j => ?_
  unfold markAt
  by_cases hq : q = pool.name
  · subst hq
    rw [currentRef_eq hcur]
    simp only [if_true, true_and]
    split_ifs <;> omega
  · simp only [hq, if_false, false_and]
    omega

/-- The counts when the reference of an old lock info is taken away as well. -/
theorem counts_settled (h : References b) (height : Nat) (hsettles : b.Settles pool cur hist)
    {addr : Address} {old : Option LockInfo} (hold : b.getLockInfo addr pool.name = old) :
    Counts (b.settled height pool cur hist old) fun q j => b.lockRefs q j +
      (if q = pool.name then (if j = cur.period then 1 else 0) else b.currentRef q j) -
        old.elim 0 fun li => markAt pool.name li.referencePeriod q j := by
  have hsettle := h.counts_settle height hsettles
  cases old with
  | none => exact hsettle
  | some li =>
    have hpos := lockRefs_pos hold
    exact hsettle.release (by omega)

/-- A pool is rewritten under its name, and its current period may have moved on. -/
theorem rewrite {pool' : FarmPool} {cur' : PoolCurrentRewards} (h : References b)
    (hget : b.getFarmPool pool.name = some pool) (hcur : b.currentRewards.get pool.name = some cur)
    (hpools : b'.farmPools = b.farmPools.put pool') (hname : pool'.name = pool.name)
    (hcurrent : b'.currentRewards = b.currentRewards.set pool.name cur')
    (hperiod : cur.period ≤ cur'.period)
    (hcounts : Counts b' fun p k => b'.lockRefs p k + b'.currentRef p k)
    (hbefore : ∀ addr li, b'.getLockInfo addr pool.name = some li →
      li.referencePeriod < cur'.period)
    (hothers : ∀ addr q, q ≠ pool.name → b'.getLockInfo addr q = b.getLockInfo addr q)
    (hsingle : ∀ p k, b'.lockRefs p k ≤ 1) : References b' := by
  have hsome : ∀ q, (b'.getFarmPool q).isSome ↔ (b.getFarmPool q).isSome := by
    intro q
    unfold FarmBooks.getFarmPool at hget ⊢
    rw [hpools, KeyedStore.get_put, hname]
    split_ifs with hq
    · rw [hq, hget]
      exact Iff.rfl
    · exact Iff.rfl
  refine ⟨hcounts, fun q => ?_, fun q c hc => ?_, fun addr q li c hli hc => ?_, hsingle,
    fun q hq r hr hne => ?_⟩
  · rw [hcurrent, KVStore.get_set, hsome, ← h.current]
    split_ifs with hq
    · rw [hq, hcur]
      exact Iff.rfl
    · exact Iff.rfl
  · rw [hcurrent, KVStore.get_set] at hc
    split_ifs at hc
    · cases hc
      exact le_trans (h.period _ cur hcur) hperiod
    · exact h.period q c hc
  · rw [hcurrent, KVStore.get_set] at hc
    split_ifs at hc with hq
    · cases hc
      rw [hq] at hli
      exact hbefore addr li hli
    · rw [hothers addr q hq] at hli
      exact h.before addr q li c hli hc
  · exact h.apart q ((hsome q).mp hq) r ((hsome r).mp hr) hne

theorem currentRef_set {cur' : PoolCurrentRewards}
    (hcurrent : b'.currentRewards = b.currentRewards.set p cur') (q : PoolName) (j : Nat) :
    b'.currentRef q j =
      if q = p then (if cur'.period = j + 1 then 1 else 0) else b.currentRef q j := by
  unfold FarmBooks.currentRef
  rw [hcurrent, KVStore.get_set]
  by_cases hq : q = p
  · rw [if_pos hq, if_pos hq]
    rfl
  · rw [if_neg hq, if_neg hq]

/-- The reference of a new period, to the one just closed. -/
theorem currentRef_closed {period : Nat}
    (hcurrent : b'.currentRewards = b.currentRewards.set p ⟨height, period + 1, 0⟩)
    (q : PoolName) (j : Nat) :
    b'.currentRef q j = if q = p then (if j = period then 1 else 0) else b.currentRef q j := by
  rw [currentRef_set hcurrent]
  refine if_congr Iff.rfl (if_congr ?_ rfl rfl) rfl
  show period + 1 = j + 1 ↔ _
  omega

/-! ## The effects -/

theorem provide {info : YieldedTokenInfo} {msg : MsgProvide} (h : References l.books)
    (hprovide : FarmState.Provided height l pool cur hist info msg l') : References l'.books := by
  have hcurrent : l'.books.currentRewards =
      l.books.currentRewards.set pool.name ⟨height, cur.period + 1, 0⟩ := by rw [hprovide.stores]
  have hpools : l'.books.farmPools =
      l.books.farmPools.put (pool.provided cur.startBlockHeight height msg) := by
    rw [hprovide.stores]
  have hlocks : l'.books.lockInfos = l.books.lockInfos := by rw [hprovide.stores]
  have hrefs : ∀ q j, l'.books.lockRefs q j = l.books.lockRefs q j := by
    intro q j
    unfold FarmBooks.lockRefs
    rw [hlocks]
  have hinfos : ∀ addr q, l'.books.getLockInfo addr q = l.books.getLockInfo addr q := by
    intro addr q
    unfold FarmBooks.getLockInfo
    rw [hlocks]
  refine h.rewrite hprovide.settles.get_pool hprovide.settles.get_cur hpools rfl hcurrent
    (Nat.le_succ _) ?_ (fun addr li hli => ?_) (fun addr q _ => hinfos addr q) fun q j => ?_
  · have hstore : l'.books.historicalRewards =
        (l.books.settle height pool cur hist).historicalRewards := by rw [hprovide.stores]
    refine ((h.counts_settle height hprovide.settles).of_store hstore).congr fun q j => ?_
    rw [hrefs, currentRef_closed hcurrent]
  · rw [hinfos] at hli
    exact Nat.lt_succ_of_lt (h.before addr _ li cur hli hprovide.settles.get_cur)
  · rw [hrefs]
    exact h.single q j

theorem credit {amount : Int} (h : References l.books)
    (hget : l.books.farmPools.get pool.name = some pool)
    (hcur : l.books.currentRewards.get pool.name = some cur) :
    References (l.books.credit pool cur amount) := by
  have hcurrent : (l.books.credit pool cur amount).currentRewards =
      l.books.currentRewards.set pool.name
        { cur with rewards := cur.rewards + coin bondDenom amount } := rfl
  have hpools : (l.books.credit pool cur amount).farmPools = l.books.farmPools.put { pool with
      totalAccumulatedRewards := pool.totalAccumulatedRewards + coin bondDenom amount } := rfl
  refine h.rewrite hget hcur hpools rfl hcurrent le_rfl ?_
    (fun addr li hli => h.before addr _ li cur hli hcur) (fun _ _ _ => rfl) h.single
  have hsame : Counts (l.books.credit pool cur amount) _ := h.counts.of_store rfl
  refine hsame.congr fun q j => ?_
  rw [currentRef_set hcurrent]
  refine congrArg _ ?_
  split_ifs with hq hj
  · rw [hq, currentRef_eq hcur, if_pos hj]
  · rw [hq, currentRef_eq hcur, if_neg hj]
  · rfl

/-- The references after a settled lock: the old one is gone, the new one is there unless nothing is
left in the lock info. -/
theorem lockRefs_relock {addr : Address} {old : Option LockInfo} {change : Int} {rewards : Coins}
    (hrelock : FarmState.Relock height l pool cur hist addr old change rewards l')
    (q : PoolName) (j : Nat) :
    l'.books.lockRefs q j + (old.elim 0 fun li => markAt pool.name li.referencePeriod q j) =
      l.books.lockRefs q j +
        if (FarmState.changedLock height pool cur addr old change).amount.amount = 0 then 0
        else markAt pool.name cur.period q j := by
  have hmark : ∀ li : LockInfo, li.poolName = pool.name →
      (if li.poolName = q ∧ li.referencePeriod = j then (1 : Int) else 0) =
        markAt pool.name li.referencePeriod q j := by
    intro li hli
    unfold markAt
    rw [hli, Nat.cast_ite]
    exact if_congr (and_congr eq_comm eq_comm) rfl rfl
  have hsum := hrelock.sum_locks fun li =>
    if li.poolName = q ∧ li.referencePeriod = j then (1 : Int) else 0
  have hold : (old.elim 0 fun li => if li.poolName = q ∧ li.referencePeriod = j then (1 : Int) else 0)
      = (old.elim 0 fun li => markAt pool.name li.referencePeriod q j : Nat) := by
    cases old with
    | none => rfl
    | some li => exact hmark li (FarmBooks.lockInfo_key hrelock.get_old).2
  have hnew : (FarmState.changedLock height pool cur addr old change).referencePeriod = cur.period :=
    rfl
  rw [hold, ← KVStore.count_eq_sumBy, ← KVStore.count_eq_sumBy] at hsum
  dsimp only at hsum
  rw [hmark _ hrelock.key_changedLock.2, hnew] at hsum
  unfold FarmBooks.lockRefs
  split_ifs at hsum ⊢ <;> omega

theorem relock {addr : Address} {old : Option LockInfo} {change : Int} {rewards : Coins}
    (h : References l.books)
    (hrelock : FarmState.Relock height l pool cur hist addr old change rewards l') :
    References l'.books := by
  have hsettles := hrelock.settles
  have hrefs := lockRefs_relock hrelock
  have hcurrent : l'.books.currentRewards =
      l.books.currentRewards.set pool.name ⟨height, cur.period + 1, 0⟩ := by rw [hrelock.stores]
  have hpools : l'.books.farmPools = l.books.farmPools.put
      (pool.relocked cur.startBlockHeight height change rewards) := by rw [hrelock.stores]
  have hnone : l.books.lockRefs pool.name cur.period = 0 :=
    h.lockRefs_current hsettles.get_cur le_rfl
  -- the reference that is taken away is among those there are, and not the new one
  have hold : ∀ q j, (old.elim 0 fun li => markAt pool.name li.referencePeriod q j) ≤
      l.books.lockRefs q j := by
    intro q j
    cases old with
    | none => exact Nat.zero_le _
    | some li =>
      have hpos := lockRefs_pos hrelock.get_old
      show markAt _ _ _ _ ≤ _
      unfold markAt
      split_ifs with hqj
      · rw [hqj.1, hqj.2]
        exact hpos
      · exact Nat.zero_le _
  refine h.rewrite hsettles.get_pool hsettles.get_cur hpools rfl hcurrent (Nat.le_succ _) ?_
    (fun a li hli => ?_) (fun a q hq => ?_) fun q j => ?_
  · have hstore : l'.books.historicalRewards = ((l.books.settled height pool cur hist old).putLock
        (FarmState.changedLock height pool cur addr old change)).historicalRewards := by
      rw [hrelock.stores]
    have hsettled := h.counts_settled height hsettles hrelock.get_old
    by_cases hzero : (FarmState.changedLock height pool cur addr old change).amount.amount = 0
    · rw [FarmBooks.putLock, if_pos hzero] at hstore
      refine (hsettled.of_store hstore).congr fun q j => ?_
      have hq := hrefs q j
      have := hold q j
      rw [if_pos hzero] at hq
      rw [currentRef_closed hcurrent]
      omega
    · rw [FarmBooks.putLock, if_neg hzero, hrelock.key_changedLock.2] at hstore
      have hretained := hsettled.retain (p := pool.name) (k := cur.period) (by
        have := hold pool.name cur.period
        rw [if_pos rfl, if_pos rfl]
        omega)
      refine (hretained.of_store hstore).congr fun q j => ?_
      have hq := hrefs q j
      have := hold q j
      rw [if_neg hzero] at hq
      rw [currentRef_closed hcurrent]
      omega
  · rw [hrelock.getLockInfo] at hli
    dsimp only at hli
    split_ifs at hli
    · cases hli
      exact Nat.lt_succ_self cur.period
    · exact Nat.lt_succ_of_lt (h.before a _ li cur hli hsettles.get_cur)
  · rw [hrelock.getLockInfo, if_neg fun he => hq he.2]
  · have hq := hrefs q j
    have hsingle := h.single q j
    have hmark : l.books.lockRefs q j + markAt pool.name cur.period q j ≤ 1 := by
      unfold markAt
      split_ifs with hqj
      · rw [hqj.1, hqj.2, hnone]
      · exact hsingle
    split_ifs at hq <;> omega

theorem create {params : FarmParams} {msg : MsgCreatePool} (hprincipal : Principal l)
    (h : References l.books) (hcreate : FarmState.Created height l params msg l')
    (hapart : NamesApart l.books msg.poolName) : References l'.books := by
  have hfresh := hcreate.fresh
  have hbooks := hcreate.books
  have hpools : l'.books.farmPools = l.books.farmPools.put (FarmState.newFarmPool params msg) := by
    rw [hbooks]
    rfl
  have hcurrent : l'.books.currentRewards =
      l.books.currentRewards.set msg.poolName ⟨height, 1, 0⟩ := by
    rw [hbooks]
    rfl
  have hlocks : l'.books.lockInfos = l.books.lockInfos := by
    rw [hbooks]
    rfl
  have hrefs : ∀ q j, l'.books.lockRefs q j = l.books.lockRefs q j := by
    intro q j
    unfold FarmBooks.lockRefs
    rw [hlocks]
  -- the new name has neither lock infos nor a current period
  have hno := hprincipal.no_lock_of_fresh hfresh
  have hzero : ∀ j, l.books.lockRefs msg.poolName j = 0 := fun j =>
    lockRefs_eq_zero fun addr li hli => by rw [hno] at hli; cases hli
  have hsome : ∀ q, (l'.books.getFarmPool q).isSome ↔
      q = msg.poolName ∨ (l.books.getFarmPool q).isSome := by
    intro q
    unfold FarmBooks.getFarmPool
    rw [hpools, KeyedStore.get_put]
    split_ifs with hq
    · exact ⟨fun _ => .inl hq, fun _ => rfl⟩
    · exact ⟨.inr, fun hor => hor.resolve_left hq⟩
  refine ⟨?_, fun q => ?_, fun q c hc => ?_, fun addr q li c hli hc => ?_, fun q j => ?_,
    fun q hq r hr hne => ?_⟩
  · have hset : Counts (l.books.setPoolHistoricalRewards msg.poolName 0 ⟨0, 1⟩) _ :=
      h.counts.set Nat.one_ne_zero
    have hstore : l'.books.historicalRewards =
        (l.books.setPoolHistoricalRewards msg.poolName 0 ⟨0, 1⟩).historicalRewards := by
      rw [hbooks]
      rfl
    refine (hset.of_store hstore).congr fun q j => ?_
    rw [hrefs, currentRef_set hcurrent]
    have hnone : l.books.currentRewards.get msg.poolName = none := by
      have hiff := h.current msg.poolName
      rw [FarmBooks.getFarmPool, hfresh, Option.isSome_none, Bool.false_eq_true, iff_false] at hiff
      exact Option.not_isSome_iff_eq_none.mp hiff
    by_cases hq : q = msg.poolName
    · subst hq
      have hcur : l.books.currentRef msg.poolName j = 0 := by
        unfold FarmBooks.currentRef
        rw [hnone]
        rfl
      simp only [true_and, if_true, hzero, hcur]
      split_ifs <;> omega
    · rw [if_neg hq, if_neg fun he => hq he.1]
  · rw [hcurrent, KVStore.get_set, hsome, ← h.current]
    split_ifs with hq
    · exact ⟨fun _ => .inl hq, fun _ => rfl⟩
    · exact ⟨.inr, fun hor => hor.resolve_left hq⟩
  · rw [hcurrent, KVStore.get_set] at hc
    split_ifs at hc
    · cases hc
      exact le_rfl
    · exact h.period q c hc
  · unfold FarmBooks.getLockInfo at hli
    rw [hlocks] at hli
    rw [hcurrent, KVStore.get_set] at hc
    split_ifs at hc with hq
    · have hli : l.books.getLockInfo addr q = some li := hli
      rw [hq, hno] at hli
      cases hli
    · exact h.before addr q li c hli hc
  · rw [hrefs]
    exact h.single q j
  · obtain rfl | hq := (hsome q).mp hq
    · obtain rfl | hr := (hsome r).mp hr
      · exact absurd rfl hne
      · exact hapart r hr hne
    · obtain rfl | hr := (hsome r).mp hr
      · exact (hapart q hq hne.symm).symm
      · exact h.apart q hq r hr hne

/-- A key starts with a name only if one of the two names is a prefix of the other. -/
theorem prefix_of_prefix_historicalKey {p q : PoolName} {k : Nat} (h : p <+: historicalKey q k) :
    p <+: q ∨ q <+: p :=
  List.prefix_or_prefix_of_prefix h (List.prefix_append q _)

theorem destroy (hprincipal : Principal l) (h : References l.books)
    (hdestroy : FarmState.Destroyed height l pool cur l') : References l'.books := by
  have hget := hdestroy.get_pool
  have hbooks := hdestroy.books
  have hno := hprincipal.no_lock hget hdestroy.nothing_locked
  have hrefs : ∀ q j, l'.books.lockRefs q j = l.books.lockRefs q j := by
    intro q j
    rw [hbooks]
    rfl
  have hcurrent : l'.books.currentRewards = l.books.currentRewards.delete pool.name := by
    rw [hbooks]
    rfl
  have hpools : l'.books.farmPools = l.books.farmPools.delete pool.name := by
    rw [hbooks]
    rfl
  have hsome : ∀ q, (l'.books.getFarmPool q).isSome ↔
      q ≠ pool.name ∧ (l.books.getFarmPool q).isSome := by
    intro q
    unfold FarmBooks.getFarmPool
    rw [hpools, KeyedStore.get_delete]
    split_ifs with hq
    · exact ⟨fun hf => (by cases hf), fun hr => absurd hq hr.1⟩
    · exact ⟨fun hr => ⟨hq, hr⟩, fun hr => hr.2⟩
  refine ⟨fun q j => ?_, fun q => ?_, fun q c hc => ?_, fun addr q li c hli hc => ?_, fun q j => ?_,
    fun q hq r hr hne => ?_⟩
  · dsimp only
    rw [hrefs, hbooks, FarmBooks.get_destroy]
    have hcount := h.counts q j
    by_cases hq : q = pool.name
    · have hzero : l.books.lockRefs q j = 0 := lockRefs_eq_zero fun addr li hli => by
        rw [hq, hno] at hli
        cases hli
      have hcur : (l.books.destroy pool.name).currentRef q j = 0 := by
        unfold FarmBooks.currentRef
        show ((l.books.currentRewards.delete pool.name).get q).elim 0 _ = 0
        rw [KVStore.get_delete, if_pos hq]
        rfl
      rw [hzero, hcur, hq, if_pos (FarmBooks.prefix_historicalKey _ _)]
      rfl
    · have hcur : (l.books.destroy pool.name).currentRef q j = l.books.currentRef q j := by
        unfold FarmBooks.currentRef
        show ((l.books.currentRewards.delete pool.name).get q).elim 0 _ = _
        rw [KVStore.get_delete_ne hq]
      rw [hcur]
      split_ifs with hprefix
      · -- a key that starts with the name is of no pool there is, so it was not stored
        have habsent : ¬ (l.books.getFarmPool q).isSome := fun hq' => by
          have hap := h.apart pool.name (by rw [FarmBooks.getFarmPool, hget]; rfl) q hq' hq
          exact (prefix_of_prefix_historicalKey hprefix).elim hap.1 hap.2
        have hnone : l.books.currentRewards.get q = none := by
          rw [← h.current] at habsent
          exact Option.not_isSome_iff_eq_none.mp habsent
        have hzero : l.books.lockRefs q j = 0 := lockRefs_eq_zero fun addr li hli => by
          obtain ⟨q', hq', -⟩ := hprincipal.locks addr q li hli
          refine absurd ?_ habsent
          rw [FarmBooks.getFarmPool, hq']
          rfl
        rw [hzero, FarmBooks.currentRef, hnone]
        rfl
      · exact hcount
  · rw [hcurrent, KVStore.get_delete, hsome, ← h.current]
    split_ifs with hq
    · exact ⟨fun hf => (by cases hf), fun hr => absurd hq hr.1⟩
    · exact ⟨fun hr => ⟨hq, hr⟩, fun hr => hr.2⟩
  · rw [hcurrent, KVStore.get_delete] at hc
    split_ifs at hc
    exact h.period q c hc
  · rw [hcurrent, KVStore.get_delete] at hc
    split_ifs at hc
    rw [hbooks] at hli
    exact h.before addr q li c hli hc
  · rw [hrefs]
    exact h.single q j
  · exact h.apart q ((hsome q).mp hq).2 r ((hsome r).mp hr).2 hne

end References

/-! ## Runs -/

/-- **Records are counted exactly** in the runs whose pool names are apart. -/
theorem keeps_references : FarmKeeps NamesApart fun _ l => Principal l ∧ References l.books where
  genesis := by
    refine ⟨(keeps_principal NamesApart).genesis, fun _ _ => rfl, fun _ => Iff.rfl,
      fun _ _ hc => (by cases hc), fun _ _ _ _ hli _ => (by cases hli), fun _ _ => Nat.zero_le _,
      fun _ hp => (by cases hp)⟩
  effect height history l evs l' he h := by
    refine ⟨(keeps_principal NamesApart).effect height history l evs l' he h.1, ?_⟩
    obtain ⟨hprincipal, h⟩ := h
    cases he with
    | create params msg hcreate _ hok => exact h.create hprincipal hcreate hok
    | destroy pool cur hdestroy => exact h.destroy hprincipal hdestroy
    | provide pool cur hist info msg hprovide _ => exact h.provide hprovide
    | relock pool cur hist addr old change rewards hrelock _ => exact h.relock hrelock
    | credit pool cur amount hpool hcur _ => exact h.credit hpool hcur
    | enlist pool _ => exact ⟨h.counts, h.current, h.period, h.before, h.single, h.apart⟩
    | delist p => exact ⟨h.counts, h.current, h.period, h.before, h.single, h.apart⟩

end Okexchain
