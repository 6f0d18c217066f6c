import Okexchain.Farm.References
import Okexchain.Farm.Yield

/-!
# The farm genesis

Model of `x/farm/genesis.go` and `x/farm/types/genesis.go`: what `ExportGenesis` writes, what
`ValidateGenesis` checks of it, and what `InitGenesis` makes of it.

* Records are exported in the order of the store. Historical rewards are exported in the order of
  pool and period; in the source a period's bytes are in little-endian order. Nothing here depends
  on the order.
* `InitGenesis` gives coins to the two module accounts when they have none, which takes a keeper
  that can set them (`GenesisKeeper`).
* `ValidateGenesis` adds the reference counts up in 16 bits.

**Results.**

* `genesis_round_trip_iff`: an exported farm is imported as it was exactly when nothing is locked.
  All records come back (`initGenesis_books`), but not the index of accounts by pool, which no step
  of `InitGenesis` writes. The module accounts keep their coins (`initGenesis_coins`).
* `export_validates_iff`: an exported farm validates exactly when it has fewer than 65536 lock infos
  and pools, from the reference counts of every run.
-/

namespace Okexchain

variable {B : Type}

/-! ## Records -/

/-- `PoolHistoricalRewardsRecord`. -/
structure PoolHistoricalRewardsRecord where
  poolName : PoolName
  period : Nat
  rewards : PoolHistoricalRewards

/-- `PoolCurrentRewardsRecord`. -/
structure PoolCurrentRewardsRecord where
  poolName : PoolName
  rewards : PoolCurrentRewards

/-- `GenesisState` of the farm module. -/
structure FarmGenesisState where
  pools : List FarmPool
  lockInfos : List LockInfo
  poolHistoricalRewards : List PoolHistoricalRewardsRecord
  poolCurrentRewards : List PoolCurrentRewardsRecord
  whiteList : List PoolName
  params : FarmParams

/-- What `ValidateGenesis` refuses, with the counts of its messages. -/
inductive FarmGenesisError where
  /-- "count of pools(%d) is not equal to that of current rewards(%d)" -/
  | poolCount (pools currentRewards : Nat)
  /-- "actual reference count(%d) is not equal to expected reference count(%d)" -/
  | referenceCount (actual : Nat) (expected : UInt16)
deriving DecidableEq

namespace FarmGenesisState

/-- The sum of the reference counts, a `uint16`. -/
def expectedReferenceCount (data : FarmGenesisState) : UInt16 :=
  data.poolHistoricalRewards.foldl
    (fun count h => count + UInt16.ofNat h.rewards.referenceCount) 0

/-- `ValidateGenesis`. -/
def validateGenesis (data : FarmGenesisState) : Option FarmGenesisError :=
  if data.pools.length ≠ data.poolCurrentRewards.length then
    some (.poolCount data.pools.length data.poolCurrentRewards.length)
  else
    let actualReferenceCount := data.lockInfos.length + data.poolCurrentRewards.length
    if actualReferenceCount ≠ data.expectedReferenceCount.toNat then
      some (.referenceCount actualReferenceCount data.expectedReferenceCount)
    else none

/-- The coins of the farm account, the locked tokens and the deposits of all pools. -/
def moduleAccHoldings (data : FarmGenesisState) : Coins :=
  data.pools.foldl
    (fun c pool => c + pool.totalValueLocked.toCoins + pool.depositAmount.toCoins) 0

/-- The coins of the yield farming account, the rewards of all pools. -/
def yieldModuleAccHoldings (data : FarmGenesisState) : Coins :=
  data.pools.foldl (fun c pool => c + pool.totalAccumulatedRewards) 0

end FarmGenesisState

/-! ## Export and import -/

/-- A supply keeper that can also set the coins of a module's account, `SetModuleAccount`. -/
structure GenesisKeeper (B : Type) extends SupplyKeeper B where
  setModuleCoins : B → String → Coins → B
  getCoins_setModuleCoins : ∀ b m c a,
    getCoins (setModuleCoins b m c) a = if a = moduleAddress m then c else getCoins b a

namespace FarmState

/-- `ExportGenesis`. -/
def exportGenesis (s : FarmState B) : FarmGenesisState where
  pools := s.books.farmPools.values
  lockInfos := s.books.lockInfos.values
  poolHistoricalRewards := s.books.historicalRewards.entries.map
    fun e => ⟨(ofLex e.1).1, (ofLex e.1).2, e.2⟩
  poolCurrentRewards := s.books.currentRewards.entries.map fun e => ⟨e.1, e.2⟩
  whiteList := s.books.whitelist.keys
  params := s.params

/-- The module's account is given its holdings if it has no coins. -/
def initModuleAccount (gk : GenesisKeeper B) (bank : B) (m : String) (holdings : Coins) : B :=
  if gk.moduleCoins bank m = 0 then gk.setModuleCoins bank m holdings else bank

/-- `InitGenesis`. -/
def initGenesis (gk : GenesisKeeper B) (s : FarmState B) (data : FarmGenesisState) : FarmState B :=
  let b := data.pools.foldl FarmBooks.setFarmPool s.books
  let b := data.lockInfos.foldl FarmBooks.setLockInfo b
  let b := data.poolHistoricalRewards.foldl
    (fun b h => b.setPoolHistoricalRewards h.poolName h.period h.rewards) b
  let b := data.poolCurrentRewards.foldl
    (fun b current => b.setPoolCurrentRewards current.poolName current.rewards) b
  let b := data.whiteList.foldl FarmBooks.setWhitelist b
  let bank := initModuleAccount gk s.bank farmModuleName data.moduleAccHoldings
  let bank := initModuleAccount gk bank yieldFarmingAccount data.yieldModuleAccHoldings
  { s with books := b, params := data.params, bank := bank }

end FarmState

/-! ## The books come back

Every loop of `InitGenesis` writes one store. -/

namespace FarmBooks

theorem foldl_setFarmPool (l : List FarmPool) (b : FarmBooks) :
    l.foldl setFarmPool b = { b with farmPools := l.foldl KeyedStore.put b.farmPools } := by
  induction l generalizing b with
  | nil => rfl
  | cons pool l ih => exact ih _

theorem foldl_setLockInfo (l : List LockInfo) (b : FarmBooks) :
    l.foldl setLockInfo b = { b with lockInfos := l.foldl KeyedStore.put b.lockInfos } := by
  induction l generalizing b with
  | nil => rfl
  | cons li l ih => exact ih _

theorem foldl_setPoolHistoricalRewards (l : List ((PoolName ×ₗ Nat) × PoolHistoricalRewards))
    (b : FarmBooks) :
    (l.map fun e => (⟨(ofLex e.1).1, (ofLex e.1).2, e.2⟩ : PoolHistoricalRewardsRecord)).foldl
      (fun b h => b.setPoolHistoricalRewards h.poolName h.period h.rewards) b =
    { b with historicalRewards := l.foldl (fun m e => m.set e.1 e.2) b.historicalRewards } := by
  induction l generalizing b with
  | nil => rfl
  | cons e l ih => exact ih _

theorem foldl_setPoolCurrentRewards (l : List (PoolName × PoolCurrentRewards)) (b : FarmBooks) :
    (l.map fun e => (⟨e.1, e.2⟩ : PoolCurrentRewardsRecord)).foldl
      (fun b current => b.setPoolCurrentRewards current.poolName current.rewards) b =
    { b with currentRewards := l.foldl (fun m e => m.set e.1 e.2) b.currentRewards } := by
  induction l generalizing b with
  | nil => rfl
  | cons e l ih => exact ih _

theorem foldl_setWhitelist (l : List (PoolName × Unit)) (b : FarmBooks) :
    (l.map Prod.fst).foldl setWhitelist b =
    { b with whitelist := l.foldl (fun m e => m.set e.1 e.2) b.whitelist } := by
  induction l generalizing b with
  | nil => rfl
  | cons e l ih => exact ih _

end FarmBooks

namespace FarmState

variable {gk : GenesisKeeper B} {s s₀ : FarmState B}

/-- **What an import restores**: everything but the index of accounts by pool. -/
theorem initGenesis_books (h₀ : s₀.books = ⟨∅, ∅, ∅, ∅, ∅, ∅⟩) :
    (s₀.initGenesis gk s.exportGenesis).books = { s.books with addressInFarmPool := ∅ } := by
  unfold initGenesis exportGenesis KVStore.keys
  dsimp only
  rw [FarmBooks.foldl_setFarmPool, FarmBooks.foldl_setLockInfo,
    FarmBooks.foldl_setPoolHistoricalRewards, FarmBooks.foldl_setPoolCurrentRewards,
    FarmBooks.foldl_setWhitelist, h₀]
  dsimp only
  rw [KeyedStore.foldl_put_values, KeyedStore.foldl_put_values, KVStore.foldl_set_entries,
    KVStore.foldl_set_entries, KVStore.foldl_set_entries]

/-! ## The accounts keep their coins -/

theorem getCoins_initModuleAccount {bank : B} {m : String} {holdings : Coins}
    (h : gk.moduleCoins bank m = 0 → holdings = 0) (a : Address) :
    gk.getCoins (initModuleAccount gk bank m holdings) a = gk.getCoins bank a := by
  unfold initModuleAccount
  split_ifs with hzero
  · rw [gk.getCoins_setModuleCoins, h hzero]
    split_ifs with ha
    · rw [ha]
      exact hzero.symm
    · rfl
  · rfl

/-- The holdings of the farm account are what it has. -/
theorem moduleAccHoldings_exportGenesis {sk : SupplyKeeper B} (h : Principal (s.ledger sk)) :
    s.exportGenesis.moduleAccHoldings = sk.moduleCoins s.bank farmModuleName := by
  have hlocked : s.books.farmPools.store.sumBy (fun _ pool => pool.totalValueLocked.toCoins) =
      s.books.totalLocked := by
    unfold FarmBooks.totalLocked
    rw [KVStore.sumBy_sort (fun _ (li : LockInfo) => li.amount.toCoins) s.books.farmPools.store
      fun _ li => li.poolName]
    · refine KVStore.sumBy_congr _ fun p pool hpool => ?_
      obtain ⟨-, hdenom, hamount⟩ := h.pools p pool hpool
      have hcoin : pool.totalValueLocked.toCoins =
          DFinsupp.singleAddHom (fun _ => ℤ) pool.minLockAmount.denom (s.books.lockedIn p) := by
        rw [← hdenom]
        exact congrArg (coin _) hamount
      rw [hcoin]
      refine (KVStore.map_sumBy _ _).trans (KVStore.sumBy_congr _ fun key li hli => ?_)
      split_ifs with hname
      · have hkey : toLex (li.owner, li.poolName) = key := s.books.lockInfos.keyed key li hli
        rw [← hkey, hname] at hli
        obtain ⟨pool', hpool', hadmitted⟩ := h.locks li.owner p li hli
        cases hpool.symm.trans hpool'
        rw [DecCoin.toCoins, hadmitted.denom]
        rfl
      · exact map_zero _
    · intro key li hli
      have hkey : toLex (li.owner, li.poolName) = key := s.books.lockInfos.keyed key li hli
      rw [← hkey] at hli
      obtain ⟨pool, hpool, -⟩ := h.locks li.owner li.poolName li hli
      exact Option.isSome_iff_exists.mpr ⟨pool, hpool⟩
  have haccount : sk.moduleCoins s.bank farmModuleName =
      s.books.totalDeposits + s.books.totalLocked := h.account
  rw [haccount, ← hlocked, add_comm]
  unfold FarmGenesisState.moduleAccHoldings exportGenesis FarmBooks.totalDeposits
  simp only [add_assoc]
  rw [KeyedStore.foldl_add_values, zero_add, KVStore.sumBy_add]

/-- A yield farming account without coins has no rewards to hold. -/
theorem yieldModuleAccHoldings_exportGenesis {sk : SupplyKeeper B} {history : List FarmEvent}
    (h : YieldBacked history (s.ledger sk))
    (hzero : sk.moduleCoins s.bank yieldFarmingAccount = 0) :
    s.exportGenesis.yieldModuleAccHoldings = 0 := by
  have haccount : s.books.totalHoldings = 0 := h.account.symm.trans hzero
  unfold FarmGenesisState.yieldModuleAccHoldings exportGenesis
  rw [KeyedStore.foldl_add_values, zero_add]
  refine DFinsupp.ext fun d => ?_
  have hnonneg : ∀ p pool, s.books.farmPools.store.get p = some pool →
      0 ≤ pool.totalAccumulatedRewards d := fun p pool hpool => (h.pools p pool hpool).accumulated d
  have hle : ∀ p pool, s.books.farmPools.store.get p = some pool →
      pool.totalAccumulatedRewards d ≤ pool.holdings d := fun p pool hpool => by
    rw [FarmPool.holdings, DFinsupp.add_apply]
    exact le_add_of_nonneg_right ((h.pools p pool hpool).remaining d)
  have htotal : s.books.farmPools.store.sumBy (fun _ pool => pool.holdings d) = 0 := by
    rw [← sumBy_apply]
    exact DFunLike.congr_fun haccount d
  rw [sumBy_apply]
  exact le_antisymm ((KVStore.sumBy_le_sumBy _ _ hle).trans_eq htotal)
    (KVStore.sumBy_nonneg _ hnonneg)

/-- An import into the bank of the export leaves every account as it is. -/
theorem initGenesis_coins {history : List FarmEvent}
    (hprincipal : Principal (s.ledger gk.toSupplyKeeper))
    (hyield : YieldBacked history (s.ledger gk.toSupplyKeeper)) (hbank : s₀.bank = s.bank)
    (a : Address) :
    gk.getCoins (s₀.initGenesis gk s.exportGenesis).bank a = gk.getCoins s.bank a := by
  have hfarm : ∀ a, gk.getCoins (initModuleAccount gk s.bank farmModuleName
      s.exportGenesis.moduleAccHoldings) a = gk.getCoins s.bank a :=
    getCoins_initModuleAccount fun hzero =>
      (moduleAccHoldings_exportGenesis hprincipal).trans hzero
  show gk.getCoins (initModuleAccount gk (initModuleAccount gk s₀.bank farmModuleName
    s.exportGenesis.moduleAccHoldings) yieldFarmingAccount
    s.exportGenesis.yieldModuleAccHoldings) a = _
  rw [hbank, getCoins_initModuleAccount, hfarm]
  intro hzero
  exact yieldModuleAccHoldings_exportGenesis hyield ((hfarm _).symm.trans hzero)

end FarmState

/-! ## The round trip -/

/-- No account has a lock info, so the index by pool has none. -/
theorem Principal.index_empty {l : FarmLedger} (h : Principal l) :
    l.books.addressInFarmPool = ∅ ↔ ∀ addr p, l.books.getLockInfo addr p = none := by
  constructor
  · intro hempty addr p
    have hindex := h.index p addr
    rw [hempty] at hindex
    exact Option.not_isSome_iff_eq_none.mp fun hsome => (by cases hindex.mpr hsome)
  · refine fun hnone => KVStore.ext_get fun key => Option.not_isSome_iff_eq_none.mp fun hsome => ?_
    have hlock := (h.index (ofLex key).1 (ofLex key).2).mp hsome
    rw [hnone] at hlock
    cases hlock

/-- **The farm genesis round trip.** In every run, importing the export into an empty store restores
the store exactly when no account has locked anything: the index of accounts by pool is lost. The
parameters and the coins of all accounts come back in any case. -/
theorem genesis_round_trip_iff {gk : GenesisKeeper B} {createOK : FarmBooks → PoolName → Prop}
    {n : FarmNode B} {s₀ : FarmState B} (hn : FarmReach gk.toSupplyKeeper createOK n)
    (h₀ : s₀.books = ⟨∅, ∅, ∅, ∅, ∅, ∅⟩) (hbank : s₀.bank = n.state.bank) :
    let s := s₀.initGenesis gk n.state.exportGenesis
    (s.books = n.state.books ∧ s.params = n.state.params ∧
      ∀ a, gk.getCoins s.bank a = gk.getCoins n.state.bank a) ↔
    ∀ addr p, n.state.books.getLockInfo addr p = none := by
  intro s
  have hprincipal : Principal (n.state.ledger gk.toSupplyKeeper) :=
    (keeps_principal createOK).reach hn
  have hyield : YieldBacked n.history (n.state.ledger gk.toSupplyKeeper) :=
    (keeps_yieldBacked createOK).reach hn
  have hbooks : s.books = { n.state.books with addressInFarmPool := ∅ } :=
    FarmState.initGenesis_books h₀
  refine Iff.trans ⟨fun h => ?_, fun hempty => ⟨?_, rfl, ?_⟩⟩ hprincipal.index_empty
  · rw [hbooks] at h
    exact (congrArg FarmBooks.addressInFarmPool h.1).symm
  · rw [hbooks, ← hempty]
    rfl
  · exact FarmState.initGenesis_coins hprincipal hyield hbank

/-- The simple bank, with accounts that can be set. -/
def simpleGenesis : GenesisKeeper (KVStore Address Coins) where
  toSupplyKeeper := simpleSupply
  setModuleCoins := fun b m c => b.set (simpleSupply.moduleAddress m) c
  getCoins_setModuleCoins := fun b m c a => by
    show ((b.set (simpleSupply.moduleAddress m) c).get a).getD 0 = _
    rw [KVStore.get_set]
    split_ifs <;> rfl

/-- A farm module with an empty store and the given bank. -/
def emptyFarm (bank : KVStore Address Coins) : FarmState (KVStore Address Coins) :=
  { farmStart.state with bank := bank }

/-- Alice has created a pool and provided its yield; nothing is locked. -/
def poolAProvided : FarmNode (KVStore Address Coins) :=
  farmStart.run simpleSupply [.createPool ⟨"alice", poolA, ⟨"lpt", Dec.newDec 5⟩, bondDenom⟩,
    .provide ⟨poolA, "alice", ⟨bondDenom, Dec.newDec 100⟩, Dec.newDec 1, 2⟩]

/-- The pool that nobody has locked into comes back. -/
theorem genesis_round_trip_iff_provided :
    (poolAProvided.state.books.getFarmPool poolA).isSome ∧
    ((emptyFarm poolAProvided.state.bank).initGenesis simpleGenesis
      poolAProvided.state.exportGenesis).books = poolAProvided.state.books := by
  have halice : simpleSupply.IsUser "alice" := isUser_simpleSupply (by decide)
  have hn : FarmReach simpleGenesis.toSupplyKeeper (fun _ _ => True) poolAProvided :=
    .run (reach_farmStart _) ⟨⟨by decide, halice, trivial⟩, ⟨by decide, halice⟩, trivial⟩
  have hentries : poolAProvided.state.books.lockInfos.store.entries = [] := by decide +kernel
  have hnone : ∀ addr p, poolAProvided.state.books.getLockInfo addr p = none := by
    intro addr p
    refine Option.eq_none_iff_forall_ne_some.mpr fun li hli => ?_
    have hmem := KVStore.mem_entries.mpr hli
    rw [hentries] at hmem
    cases hmem
  have hempty : (emptyFarm poolAProvided.state.bank).books = ⟨∅, ∅, ∅, ∅, ∅, ∅⟩ := rfl
  exact ⟨by decide +kernel, ((genesis_round_trip_iff hn hempty rfl).mpr hnone).1⟩

/-- Bob has locked tokens in the pool; after an import the pool does not list Bob. -/
theorem import_loses_index :
    FarmReach simpleGenesis.toSupplyKeeper (fun _ _ => True) poolAOpen ∧
    (poolAOpen.state.books.addressInFarmPool.get (toLex (poolA, "bob"))).isSome ∧
    ((emptyFarm poolAOpen.state.bank).initGenesis simpleGenesis
      poolAOpen.state.exportGenesis).books.addressInFarmPool.get (toLex (poolA, "bob")) = none :=
  ⟨reach_poolAOpen trivial, by decide +kernel, by decide +kernel⟩

/-! ## The reference counts add up

The references to a record, as totals over the lock infos and over the current periods. -/

theorem lockRefs_eq_sumBy (b : FarmBooks) (p : PoolName) (k : Nat) :
    (b.lockRefs p k : ℤ) = b.lockInfos.store.sumBy fun _ li =>
      if toLex (li.poolName, li.referencePeriod) = toLex (p, k) then 1 else 0 := by
  unfold FarmBooks.lockRefs
  rw [KVStore.count_eq_sumBy]
  refine KVStore.sumBy_congr _ fun _ li _ => ?_
  by_cases href : li.poolName = p ∧ li.referencePeriod = k
  · rw [if_pos href, if_pos]
    rw [href.1, href.2]
  · rw [if_neg href, if_neg]
    exact fun he => href (Prod.mk.inj (toLex.injective he))

theorem References.currentRef_eq_sumBy {b : FarmBooks} (h : References b) (p : PoolName) (k : Nat) :
    (b.currentRef p k : ℤ) = b.currentRewards.sumBy fun q cur =>
      if toLex (q, cur.period - 1) = toLex (p, k) then 1 else 0 := by
  have hat : (b.currentRef p k : ℤ) = b.currentRewards.valAt
      (fun _ cur => if cur.period = k + 1 then (1 : ℤ) else 0) p := by
    unfold FarmBooks.currentRef KVStore.valAt
    cases b.currentRewards.get p with
    | none => rfl
    | some cur => exact Nat.cast_ite _ _ _
  rw [hat, ← KVStore.sumBy_single]
  refine KVStore.sumBy_congr _ fun q cur hcur => ?_
  have hperiod := h.period q cur hcur
  by_cases href : q = p ∧ cur.period = k + 1
  · rw [if_pos href.1, if_pos href.2, if_pos]
    rw [href.1, href.2]
    rfl
  · rw [if_neg (c := toLex (q, cur.period - 1) = toLex (p, k))]
    · split_ifs with hq hk
      · exact absurd ⟨hq, hk⟩ href
      · rfl
      · rfl
    · intro he
      obtain ⟨hq, hk⟩ := Prod.mk.inj (toLex.injective he)
      exact href ⟨hq, by omega⟩

/-- Every lock info and every current period is counted once. -/
theorem References.sum_referenceCount {b : FarmBooks} (h : References b) :
    b.historicalRewards.sumBy (fun _ hist => (hist.referenceCount : ℤ)) =
      b.lockInfos.store.entries.length + b.currentRewards.entries.length := by
  have hlocks : ∀ key li, b.lockInfos.store.get key = some li →
      (b.historicalRewards.get (toLex (li.poolName, li.referencePeriod))).isSome := by
    intro key li hli
    have hkey : toLex (li.owner, li.poolName) = key := b.lockInfos.keyed key li hli
    rw [← hkey] at hli
    have hpos := lockRefs_pos hli
    exact h.counts.isSome_iff.mpr (by omega)
  have hcurrents : ∀ p cur, b.currentRewards.get p = some cur →
      (b.historicalRewards.get (toLex (p, cur.period - 1))).isSome := fun p cur hcur =>
    h.counts.isSome_iff.mpr (h.previous hcur)
  rw [KVStore.length_entries, KVStore.length_entries, KVStore.sumBy_sort _ _ _ hlocks,
    KVStore.sumBy_sort _ _ _ hcurrents, ← KVStore.sumBy_add]
  refine KVStore.sumBy_congr _ fun key hist hget => ?_
  have hcount : hist.referenceCount = b.lockRefs (ofLex key).1 (ofLex key).2 +
    b.currentRef (ofLex key).1 (ofLex key).2 := (h.counts.count_of_get hget).1
  rw [hcount, Nat.cast_add, lockRefs_eq_sumBy, h.currentRef_eq_sumBy]
  -- the two sides decide the equality of keys differently
  congr!

/-- The sum in 16 bits. -/
theorem toNat_foldl_referenceCount (l : List PoolHistoricalRewardsRecord) (count : UInt16) :
    (l.foldl (fun count h => count + UInt16.ofNat h.rewards.referenceCount) count).toNat =
      (count.toNat + (l.map fun h => h.rewards.referenceCount).sum) % 65536 := by
  induction l generalizing count with
  | nil => exact (Nat.mod_eq_of_lt count.toNat_lt).symm
  | cons h l ih =>
    rw [List.foldl_cons, ih, UInt16.toNat_add, UInt16.toNat_ofNat', List.map_cons, List.sum_cons]
    omega

theorem References.expectedReferenceCount {s : FarmState B} (h : References s.books) :
    s.exportGenesis.expectedReferenceCount.toNat =
      (s.books.lockInfos.store.entries.length + s.books.currentRewards.entries.length) % 65536 := by
  have hsum : (((s.exportGenesis.poolHistoricalRewards.map
      fun h => h.rewards.referenceCount).sum : ℕ) : ℤ) =
        s.books.lockInfos.store.entries.length + s.books.currentRewards.entries.length := by
    rw [← h.sum_referenceCount]
    unfold FarmState.exportGenesis KVStore.sumBy Assoc.sum
    rw [List.map_map, Nat.cast_list_sum, List.map_map]
    rfl
  unfold FarmGenesisState.expectedReferenceCount
  rw [toNat_foldl_referenceCount]
  show (0 + _) % 65536 = _
  rw [Nat.zero_add]
  congr 1
  exact_mod_cast hsum

theorem References.validates_iff {s : FarmState B} (h : References s.books) :
    s.exportGenesis.validateGenesis = none ↔
      s.books.lockInfos.values.length + s.books.farmPools.values.length < 65536 := by
  have hpools : s.books.farmPools.store.entries.length = s.books.currentRewards.entries.length :=
    KVStore.length_entries_congr fun p => (h.current p).symm
  have hlen : s.exportGenesis.pools.length = s.exportGenesis.poolCurrentRewards.length := by
    unfold FarmState.exportGenesis KeyedStore.values
    rw [List.length_map, List.length_map, hpools]
  have hactual : s.exportGenesis.lockInfos.length + s.exportGenesis.poolCurrentRewards.length =
      s.books.lockInfos.store.entries.length + s.books.currentRewards.entries.length := by
    unfold FarmState.exportGenesis KeyedStore.values
    rw [List.length_map, List.length_map]
  unfold FarmGenesisState.validateGenesis KeyedStore.values
  rw [if_neg (not_not.mpr hlen), hactual, h.expectedReferenceCount, List.length_map,
    List.length_map, hpools]
  dsimp only
  split_ifs with hdiffer
  · exact iff_of_false nofun fun hlt => hdiffer (Nat.mod_eq_of_lt hlt).symm
  · rw [not_not] at hdiffer
    refine iff_of_true rfl ?_
    rw [hdiffer]
    exact Nat.mod_lt _ (by decide)

/-- **An exported farm genesis validates up to 65535 references.** In every run without a pool name
that begins another's, `ValidateGenesis` accepts the export exactly when there are fewer than 65536
lock infos and pools. -/
theorem export_validates_iff {sk : SupplyKeeper B} {n : FarmNode B}
    (hn : FarmReach sk NamesApart n) :
    n.state.exportGenesis.validateGenesis = none ↔
      n.state.books.lockInfos.values.length + n.state.books.farmPools.values.length < 65536 :=
  (keeps_references.reach hn).2.validates_iff

/-- `export_validates_iff` for the small farm: two lock infos and one pool. -/
theorem export_validates_iff_poolA :
    poolAOpen.state.books.lockInfos.values.length +
      poolAOpen.state.books.farmPools.values.length = 3 ∧
    poolAOpen.state.exportGenesis.validateGenesis = none := by
  have hapart : NamesApart farmStart.state.books poolA := fun q hq => (by cases hq)
  have hcount : poolAOpen.state.books.lockInfos.values.length +
      poolAOpen.state.books.farmPools.values.length = 3 := by decide +kernel
  refine ⟨hcount, (export_validates_iff (reach_poolAOpen hapart)).mpr ?_⟩
  rw [hcount]
  decide

/-! ## A farm with many pools

Pools that cost nothing, under names of three bytes. -/

/-- A farm where a new pool costs nothing. -/
def freeFarm : FarmNode (KVStore Address Coins) :=
  { farmStart with state := { farmStart.state with
      params := { farmParams with
        createPoolDeposit := ⟨bondDenom, 0⟩
        createPoolDeposit_nonneg := DecCoin.free_nonneg bondDenom }
      bank := ∅ } }

/-- One of many pools. -/
def createMany (k : Nat) : MsgCreatePool := ⟨"alice", leBytes 3 k, ⟨"lpt", 0⟩, bondDenom⟩

/-- A farm whose pools are the first `k` of many. -/
structure ManyPools (k : Nat) (n : FarmNode (KVStore Address Coins)) : Prop where
  reach : FarmReach simpleSupply NamesApart n
  params : n.state.params = freeFarm.state.params
  pools : ∀ p, (n.state.books.getFarmPool p).isSome ↔ ∃ j < k, p = leBytes 3 j
  count : n.state.books.farmPools.values.length = k
  funds : ∀ a d, 0 ≤ simpleSupply.getCoins n.state.bank a d

theorem send_nothing {b : KVStore Address Coins} (source : Address) (m : String)
    (h : ∀ a d, 0 ≤ simpleSupply.getCoins b a d) :
    ∃ b', simpleSupply.sendCoinsFromAccountToModule b source m 0 = some b' ∧
      ∀ a d, 0 ≤ simpleSupply.getCoins b' a d := by
  have hzero : (0 : Coins).isNegative = false := by decide
  have hsource : (simpleSupply.getCoins b source - 0).isNegative = false := by
    rw [sub_zero]
    exact Coins.isNegative_eq_false.mpr (h source)
  have hsome : ∃ b', simpleSupply.sendCoinsFromAccountToModule b source m 0 = some b' := by
    show ∃ b', move b source _ 0 = some b'
    unfold move
    rw [if_neg]
    · exact ⟨_, rfl⟩
    · rintro (hneg | hneg)
      · exact Bool.false_ne_true (hzero.symm.trans hneg)
      · exact Bool.false_ne_true (hsource.symm.trans hneg)
  obtain ⟨b', hb'⟩ := hsome
  refine ⟨b', hb', fun a d => ?_⟩
  rw [simpleSupply.getCoins_sendCoins hb', ite_self, ite_self, sub_zero, add_zero]
  exact h a d

/-- Names of three bytes are apart. -/
theorem namesApart_leBytes {b : FarmBooks} {k : Nat} (hk : k < 256 ^ 3)
    (hpools : ∀ p, (b.getFarmPool p).isSome ↔ ∃ j < k, p = leBytes 3 j) :
    NamesApart b (leBytes 3 k) ∧ b.getFarmPool (leBytes 3 k) = none := by
  have hne : ∀ j < k, leBytes 3 k ≠ leBytes 3 j := fun j hj he =>
    hj.ne' (leBytes_inj hk (hj.trans hk) he)
  refine ⟨fun q hq _ => ?_, ?_⟩
  · obtain ⟨j, hj, rfl⟩ := (hpools q).mp hq
    have hlen : (leBytes 3 k).length = (leBytes 3 j).length := by
      rw [length_leBytes, length_leBytes]
    exact ⟨fun hp => hne j hj (hp.eq_of_length hlen),
      fun hp => hne j hj (hp.eq_of_length hlen.symm).symm⟩
  · refine Option.not_isSome_iff_eq_none.mp fun hsome => ?_
    obtain ⟨j, hj, he⟩ := (hpools _).mp hsome
    exact hne j hj he

/-- A pool that costs nothing is created. -/
theorem createMany_ok {k : Nat} {n : FarmNode (KVStore Address Coins)} (h : ManyPools k n)
    (hnew : n.state.books.getFarmPool (leBytes 3 k) = none) :
    ∃ s', n.state.handleMsgCreatePool simpleSupply n.height (createMany k) = .ok s' ∧
      s'.books.farmPools =
        n.state.books.farmPools.put (FarmState.newFarmPool n.state.params (createMany k)) ∧
      s'.params = n.state.params ∧ ∀ a d, 0 ≤ simpleSupply.getCoins s'.bank a d := by
  obtain ⟨bank, hfee, hfunds⟩ := send_nothing "alice" feeCollectorName h.funds
  obtain ⟨bank', hdeposit, hfunds'⟩ := send_nothing "alice" farmModuleName hfunds
  have hfree : n.state.params.createPoolFee.toCoins = 0 ∧
      n.state.params.createPoolDeposit.toCoins = 0 := by
    rw [h.params]
    exact ⟨coin_zero _, coin_zero _⟩
  refine ⟨{ n.state with
    books := n.state.books.create n.height (FarmState.newFarmPool n.state.params (createMany k))
    bank := bank' }, ?_, rfl, rfl, hfunds'⟩
  unfold FarmState.handleMsgCreatePool
  simp only [bind_eq_ok, orThrow_eq_ok, require_eq_ok, exists_const, pure_eq_ok]
  rw [hfree.1, hfree.2]
  exact ⟨Option.isNone_iff_eq_none.mpr hnew, rfl, rfl, bank, hfee, bank', hdeposit, rfl⟩

theorem ManyPools.succ {k : Nat} {n : FarmNode (KVStore Address Coins)} (h : ManyPools k n)
    (hk : k < 256 ^ 3) : ∃ n', ManyPools (k + 1) n' := by
  obtain ⟨hapart, hnew⟩ := namesApart_leBytes hk h.pools
  obtain ⟨s', hok, hpools, hparams, hfunds⟩ := createMany_ok h hnew
  have hstate : (n.step simpleSupply (.createPool (createMany k))).state = s' := by
    show (n.deliver ((n.state.handleMsgCreatePool simpleSupply n.height (createMany k)).map
      fun s => (s, ())) fun _ => []).state = s'
    rw [hok]
    rfl
  have halice : simpleSupply.IsUser "alice" := isUser_simpleSupply (by decide)
  have hreach : FarmReach simpleSupply NamesApart (n.step simpleSupply (.createPool (createMany k))) :=
    h.reach.step ⟨rfl, halice, hapart⟩
  refine ⟨_, hreach, ?_, ?_, ?_, ?_⟩ <;> rw [hstate]
  · exact hparams.trans h.params
  · intro p
    unfold FarmBooks.getFarmPool
    rw [hpools, KeyedStore.get_put]
    split_ifs with hp
    · exact iff_of_true rfl ⟨k, k.lt_succ_self, hp⟩
    · rw [show (n.state.books.farmPools.get p).isSome ↔ _ from h.pools p]
      refine ⟨fun ⟨j, hj, hpj⟩ => ⟨j, hj.trans k.lt_succ_self, hpj⟩, fun ⟨j, hj, hpj⟩ => ?_⟩
      rcases Nat.lt_succ_iff_lt_or_eq.mp hj with hj | rfl
      · exact ⟨j, hj, hpj⟩
      · exact absurd hpj hp
  · have hlen : (s'.books.farmPools.store.entries.length : ℤ) = k + 1 := by
      have hcount := h.count
      unfold KeyedStore.values at hcount
      rw [List.length_map] at hcount
      rw [KVStore.length_entries, hpools]
      refine (KVStore.sumBy_set_new _ hnew).trans ?_
      rw [← KVStore.length_entries, hcount]
    unfold KeyedStore.values
    rw [List.length_map]
    exact_mod_cast hlen
  · exact hfunds

theorem exists_manyPools {k : Nat} (hk : k ≤ 256 ^ 3) : ∃ n, ManyPools k n := by
  induction k with
  | zero =>
    refine ⟨freeFarm, .genesis ⟨rfl, rfl, rfl⟩, rfl, fun p => ?_, rfl, fun a d => le_rfl⟩
    exact iff_of_false nofun fun ⟨j, hj, _⟩ => absurd hj j.not_lt_zero
  | succ k ih =>
    obtain ⟨n, hn⟩ := ih (by omega)
    exact hn.succ (by omega)

/-- With 65536 pools the 16-bit sum is zero, and the export is refused. -/
theorem export_refused : ∃ n, FarmReach simpleSupply NamesApart n ∧
    n.state.books.farmPools.values.length = 65536 ∧
    n.state.exportGenesis.validateGenesis ≠ none := by
  obtain ⟨n, hn⟩ := exists_manyPools (k := 65536) (by decide)
  refine ⟨n, hn.reach, hn.count, fun hnone => ?_⟩
  have href : References n.state.books := (keeps_references.reach hn.reach).2
  have hlt := href.validates_iff.mp hnone
  rw [hn.count] at hlt
  omega

end Okexchain
