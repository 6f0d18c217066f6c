import Okexchain.Farm.Types
import Okexchain.Swap.Types
import Mathlib.Data.Prod.Lex

/-!
# The farm keeper

Model of `x/farm/keeper/farm_pool.go`, `historical_reward.go`, `whitelist.go`, `calc.go`
and `earnings.go`.

* `FarmBooks` is the farm module's store, one field per key prefix. Keys are pairs: an account
  address has a fixed length and a period takes eight bytes, so the concatenated keys of the source
  can be split (`historicalKey_inj`).
* Historical rewards are also reached by iterating a byte prefix, and there the bytes matter:
  `iteratePoolHistoricalRewards` lists the keys whose bytes start with a pool's name, whichever pool
  they belong to.
* Reading a missing record of rewards panics: `MustUnmarshalBinaryLengthPrefixed` of no bytes.
* The pool given to `calculateAmountYieldedBetween` shares its list of yields with the caller in the
  source; no caller reads the list of the old pool afterwards.
* The value of locked tokens is read off the swap module, which is a parameter (`SwapView`).
-/

namespace Okexchain

/-! ## The store -/

/-- The `n` lowest bytes of a number, lowest first. -/
def leBytes : Nat → Nat → List (Fin 256)
  | 0, _ => []
  | n + 1, k => Fin.ofNat 256 k :: leBytes n (k / 256)

/-- The bytes of a pool's name and a period, `GetPoolHistoricalRewardsKey` behind its prefix. -/
def historicalKey (poolName : PoolName) (period : Nat) : List (Fin 256) :=
  poolName ++ leBytes 8 period

theorem length_leBytes (n k : Nat) : (leBytes n k).length = n := by
  induction n generalizing k with
  | zero => rfl
  | succ n ih => rw [leBytes, List.length_cons, ih]

theorem leBytes_inj {n k k' : Nat} (hk : k < 256 ^ n) (hk' : k' < 256 ^ n)
    (h : leBytes n k = leBytes n k') : k = k' := by
  induction n generalizing k k' with
  | zero =>
    rw [pow_zero] at hk hk'
    omega
  | succ n ih =>
    obtain ⟨hlow, hhigh⟩ := List.cons_eq_cons.mp h
    have hlow : k % 256 = k' % 256 := congrArg Fin.val hlow
    have hdiv : k / 256 = k' / 256 := by
      rw [pow_succ] at hk hk'
      exact ih (Nat.div_lt_of_lt_mul (by omega)) (Nat.div_lt_of_lt_mul (by omega)) hhigh
    omega

/-- Different pools or periods have different keys. -/
theorem historicalKey_inj {p q : PoolName} {k k' : Nat} (hk : k < 2 ^ 64) (hk' : k' < 2 ^ 64)
    (h : historicalKey p k = historicalKey q k') : p = q ∧ k = k' := by
  obtain ⟨hp, hperiod⟩ := List.append_inj' h (by rw [length_leBytes, length_leBytes])
  exact ⟨hp, leBytes_inj (by omega) (by omega) hperiod⟩

/-- The key of a lock info. -/
def LockInfo.key (lockInfo : LockInfo) : Address ×ₗ PoolName :=
  toLex (lockInfo.owner, lockInfo.poolName)

/-- The farm module's store. -/
structure FarmBooks where
  farmPools : KeyedStore FarmPool.name
  addressInFarmPool : KVStore (PoolName ×ₗ Address) Unit
  lockInfos : KeyedStore LockInfo.key
  whitelist : KVStore PoolName Unit
  historicalRewards : KVStore (PoolName ×ₗ Nat) PoolHistoricalRewards
  currentRewards : KVStore PoolName PoolCurrentRewards

namespace FarmBooks

/-- `GetFarmPool`. -/
def getFarmPool (b : FarmBooks) (poolName : PoolName) : Option FarmPool := b.farmPools.get poolName

/-- `SetFarmPool`. -/
def setFarmPool (b : FarmBooks) (pool : FarmPool) : FarmBooks :=
  { b with farmPools := b.farmPools.put pool }

/-- `DeleteFarmPool`: the pool and its place in the whitelist. -/
def deleteFarmPool (b : FarmBooks) (poolName : PoolName) : FarmBooks :=
  { b with
    whitelist := b.whitelist.delete poolName
    farmPools := b.farmPools.delete poolName }

/-- `GetLockInfo`. -/
def getLockInfo (b : FarmBooks) (addr : Address) (poolName : PoolName) : Option LockInfo :=
  b.lockInfos.get (toLex (addr, poolName))

/-- `SetLockInfo`. -/
def setLockInfo (b : FarmBooks) (lockInfo : LockInfo) : FarmBooks :=
  { b with lockInfos := b.lockInfos.put lockInfo }

/-- `DeleteLockInfo`. -/
def deleteLockInfo (b : FarmBooks) (addr : Address) (poolName : PoolName) : FarmBooks :=
  { b with lockInfos := b.lockInfos.delete (toLex (addr, poolName)) }

/-- `SetAddressInFarmPool`. -/
def setAddressInFarmPool (b : FarmBooks) (poolName : PoolName) (addr : Address) : FarmBooks :=
  { b with addressInFarmPool := b.addressInFarmPool.set (toLex (poolName, addr)) () }

/-- `DeleteAddressInFarmPool`. -/
def deleteAddressInFarmPool (b : FarmBooks) (poolName : PoolName) (addr : Address) : FarmBooks :=
  { b with addressInFarmPool := b.addressInFarmPool.delete (toLex (poolName, addr)) }

/-- `GetPoolHistoricalRewards`. -/
def getPoolHistoricalRewards (b : FarmBooks) (poolName : PoolName) (period : Nat) :
    Except FarmError PoolHistoricalRewards :=
  orThrow (b.historicalRewards.get (toLex (poolName, period))) (.panic .missingRecord)

/-- `SetPoolHistoricalRewards`. -/
def setPoolHistoricalRewards (b : FarmBooks) (poolName : PoolName) (period : Nat)
    (rewards : PoolHistoricalRewards) : FarmBooks :=
  { b with historicalRewards := b.historicalRewards.set (toLex (poolName, period)) rewards }

/-- `DeletePoolHistoricalReward`. -/
def deletePoolHistoricalReward (b : FarmBooks) (poolName : PoolName) (period : Nat) : FarmBooks :=
  { b with historicalRewards := b.historicalRewards.delete (toLex (poolName, period)) }

/-- The keys `IteratePoolHistoricalRewards` visits: all whose bytes start with the name. -/
def iteratePoolHistoricalRewards (b : FarmBooks) (poolName : PoolName) : List (PoolName ×ₗ Nat) :=
  b.historicalRewards.keys.filter fun key =>
    decide (poolName <+: historicalKey (ofLex key).1 (ofLex key).2)

/-- `GetPoolCurrentRewards`. -/
def getPoolCurrentRewards (b : FarmBooks) (poolName : PoolName) :
    Except FarmError PoolCurrentRewards :=
  orThrow (b.currentRewards.get poolName) (.panic .missingRecord)

/-- `SetPoolCurrentRewards`. -/
def setPoolCurrentRewards (b : FarmBooks) (poolName : PoolName) (rewards : PoolCurrentRewards) :
    FarmBooks :=
  { b with currentRewards := b.currentRewards.set poolName rewards }

/-- `DeletePoolCurrentRewards`. -/
def deletePoolCurrentRewards (b : FarmBooks) (poolName : PoolName) : FarmBooks :=
  { b with currentRewards := b.currentRewards.delete poolName }

/-- `SetWhitelist`. -/
def setWhitelist (b : FarmBooks) (poolName : PoolName) : FarmBooks :=
  { b with whitelist := b.whitelist.set poolName () }

/-- `DeleteWhiteList`. -/
def deleteWhiteList (b : FarmBooks) (poolName : PoolName) : FarmBooks :=
  { b with whitelist := b.whitelist.delete poolName }

end FarmBooks

/-! ## Yield -/

/-- One turn of the loop of `CalculateAmountYieldedBetween`: the rest of a yield and the tokens
yielded, from the start of the period or of the yield, whichever is later. -/
def YieldedTokenInfo.yield (startOfPeriod endBlockHeight : Nat) (info : YieldedTokenInfo) :
    YieldedTokenInfo × Coins :=
  let startBlockHeight :=
    if startOfPeriod ≤ info.startBlockHeightToYield then info.startBlockHeightToYield
    else startOfPeriod
  if info.startBlockHeightToYield = 0 ∨ endBlockHeight ≤ startBlockHeight then (info, 0)
  else
    let blockInterval := Dec.newDec (endBlockHeight - startBlockHeight)
    let amount := Dec.mulTruncate blockInterval info.amountYieldedPerBlock
    let remaining := info.remainingAmount
    if amount < remaining.amount then
      ({ info with remainingAmount := { remaining with amount := remaining.amount - amount } },
        coin remaining.denom amount)
    else (⟨⟨remaining.denom, 0⟩, 0, 0⟩, coin remaining.denom remaining.amount)

namespace FarmBooks

/-- `CalculateAmountYieldedBetween`. -/
def calculateAmountYieldedBetween (height : Nat) (b : FarmBooks) (pool : FarmPool) :
    Except FarmError (FarmPool × Coins) := do
  let currentPeriod ← b.getPoolCurrentRewards pool.name
  let yields := pool.yieldedTokenInfos.map (YieldedTokenInfo.yield currentPeriod.startBlockHeight height)
  let totalYieldedTokens := (yields.map Prod.snd).sum
  return ({ pool with
      yieldedTokenInfos := yields.map Prod.fst
      totalAccumulatedRewards := pool.totalAccumulatedRewards + totalYieldedTokens },
    totalYieldedTokens)

/-! ## Periods -/

/-- `incrementReferenceCount`. -/
def incrementReferenceCount (b : FarmBooks) (poolName : PoolName) (period : Nat) :
    Except FarmError FarmBooks := do
  let historical ← b.getPoolHistoricalRewards poolName period
  require (historical.referenceCount ≤ 2) (.panic .referenceCountExceeded)
  return b.setPoolHistoricalRewards poolName period
    { historical with referenceCount := historical.referenceCount + 1 }

/-- `decrementReferenceCount`. -/
def decrementReferenceCount (b : FarmBooks) (poolName : PoolName) (period : Nat) :
    Except FarmError FarmBooks := do
  let historical ← b.getPoolHistoricalRewards poolName period
  require (historical.referenceCount ≠ 0) (.panic .negativeReferenceCount)
  if historical.referenceCount = 1 then return b.deletePoolHistoricalReward poolName period
  else
    return b.setPoolHistoricalRewards poolName period
      { historical with referenceCount := historical.referenceCount - 1 }

/-- The ratio that `IncrementPoolPeriod` adds for the rewards of a period. -/
def currentRatio (rewards : Coins) (totalValueLocked : DecCoin) : Coins :=
  if totalValueLocked.amount = 0 then 0 else rewards.quoDecTruncate totalValueLocked.amount

/-- `IncrementPoolPeriod`. -/
def incrementPoolPeriod (height : Nat) (b : FarmBooks) (poolName : PoolName)
    (totalValueLocked : DecCoin) (yieldedTokens : Coins) : Except FarmError (FarmBooks × Nat) := do
  let rewards ← b.getPoolCurrentRewards poolName
  let ratio := currentRatio (rewards.rewards + yieldedTokens) totalValueLocked
  let historical ← b.getPoolHistoricalRewards poolName (rewards.period - 1)
  let b ← b.decrementReferenceCount poolName (rewards.period - 1)
  let b := b.setPoolHistoricalRewards poolName rewards.period
    ⟨historical.cumulativeRewardRatio + ratio, 1⟩
  let b := b.setPoolCurrentRewards poolName ⟨height, rewards.period + 1, 0⟩
  return (b, rewards.period)

/-- `calculateLockRewardsBetween`. -/
def calculateLockRewardsBetween (b : FarmBooks) (poolName : PoolName)
    (startingPeriod endingPeriod : Nat) (amount : DecCoin) : Except FarmError Coins := do
  require (startingPeriod ≤ endingPeriod) (.panic .startingAfterEnding)
  require (0 ≤ amount.amount) (.panic .negativeAmount)
  let starting ← b.getPoolHistoricalRewards poolName startingPeriod
  let ending ← b.getPoolHistoricalRewards poolName endingPeriod
  let difference ← orThrow (ending.cumulativeRewardRatio.subCoins starting.cumulativeRewardRatio)
    (.panic .negativeCoinAmount)
  return difference.mulDecTruncate amount.amount

/-- `calculateRewards`. -/
def calculateRewards (height : Nat) (b : FarmBooks) (poolName : PoolName) (endingPeriod : Nat)
    (lockInfo : LockInfo) : Except FarmError Coins :=
  if lockInfo.startBlockHeight = height then .ok 0
  else b.calculateLockRewardsBetween poolName lockInfo.referencePeriod endingPeriod lockInfo.amount

/-- `UpdateLockInfo`. -/
def updateLockInfo (height : Nat) (b : FarmBooks) (addr : Address) (poolName : PoolName)
    (changedAmount : Int) : Except FarmError FarmBooks := do
  let rewards ← b.getPoolCurrentRewards poolName
  let previousPeriod := rewards.period - 1
  let lockInfo ← orThrow (b.getLockInfo addr poolName) (.panic .lockInfoNotFound)
  let lockInfo := { lockInfo with
    startBlockHeight := height
    referencePeriod := previousPeriod
    amount := { lockInfo.amount with amount := lockInfo.amount.amount + changedAmount } }
  if lockInfo.amount.amount = 0 then
    return (b.deleteLockInfo lockInfo.owner lockInfo.poolName).deleteAddressInFarmPool
      lockInfo.poolName lockInfo.owner
  else
    let b ← b.incrementReferenceCount poolName previousPeriod
    return (b.setLockInfo lockInfo).setAddressInFarmPool lockInfo.poolName lockInfo.owner

/-- `GetEarnings`. What it writes is dropped with the context of the query. -/
def getEarnings (height : Nat) (b : FarmBooks) (poolName : PoolName) (accAddr : Address) :
    Except FarmError Earnings := do
  let lockInfo ← orThrow (b.getLockInfo accAddr poolName) (.noLockInfoFound accAddr poolName)
  let pool ← orThrow (b.getFarmPool poolName) (.noFarmPoolFound poolName)
  let (updatedPool, yieldedTokens) ← b.calculateAmountYieldedBetween height pool
  let (b, endingPeriod) ←
    b.incrementPoolPeriod height poolName updatedPool.totalValueLocked yieldedTokens
  let rewards ← b.calculateRewards height poolName endingPeriod lockInfo
  return ⟨height, lockInfo.amount, rewards⟩

end FarmBooks

/-! ## The state of the module -/

/-- What the farm module reads of the swap module: `GetSwapTokenPair` by the two symbols of a pair,
and `GetRedeemableAssets`. -/
structure SwapView where
  getSwapTokenPair : String → String → Option SwapTokenPair
  getRedeemableAssets : String → String → Int → Option (DecCoin × DecCoin)

/-- The farm module with what it reads and writes of others. -/
structure FarmState (B : Type) where
  books : FarmBooks
  params : FarmParams
  swap : SwapView
  bank : B

namespace FarmState

variable {B : Type}

/-- Pay out of a module account, unless there is nothing to pay. -/
def payUnless (skip : Prop) [Decidable skip] (sk : SupplyKeeper B) (bank : B) (m : String)
    (target : Address) (c : Coins) (e : FarmError) : Except FarmError B :=
  if skip then .ok bank else orThrow (sk.sendCoinsFromModuleToAccount bank m target c) e

/-- `WithdrawRewards`. -/
def withdrawRewards (sk : SupplyKeeper B) (height : Nat) (s : FarmState B) (poolName : PoolName)
    (totalValueLocked : DecCoin) (yieldedTokens : Coins) (addr : Address) :
    Except FarmError (FarmState B × Coins) := do
  let lockInfo ← orThrow (s.books.getLockInfo addr poolName) (.noLockInfoFound addr poolName)
  let (b, endingPeriod) ←
    s.books.incrementPoolPeriod height poolName totalValueLocked yieldedTokens
  let rewards ← b.calculateRewards height poolName endingPeriod lockInfo
  let bank ← payUnless (rewards = 0) sk s.bank yieldFarmingAccount addr rewards .rewardNotPaid
  let b ← b.decrementReferenceCount poolName lockInfo.referencePeriod
  return ({ s with books := b, bank := bank }, rewards)

/-! ## The value of locked tokens -/

/-- `IsPoolToken`. -/
def isPoolToken (denom : String) : Bool := "ammswap".toList.isPrefixOf denom.toList

/-- `SplitPoolToken`: the parts between the underscores, without the first. -/
def splitPoolToken (denom : String) : Except FarmError (String × String) :=
  match (denom.toList.splitOn '_').map String.ofList with
  | _ :: token0 :: token1 :: _ => .ok (token0, token1)
  | _ => .error (.panic (.splitPoolToken denom))

/-- `calculateBaseValueInQuote`. -/
def calculateBaseValueInQuote (s : FarmState B) (base : DecCoin) (quoteSymbol : String) : Int :=
  if base.denom = quoteSymbol then base.amount
  else
    match s.swap.getSwapTokenPair base.denom quoteSymbol with
    | none => 0
    | some tokenPair =>
      if tokenPair.basePooledCoin.amount = 0 ∨ tokenPair.quotePooledCoin.amount = 0 then 0
      else if tokenPair.quotePooledCoin.denom = quoteSymbol then
        Dec.quoTruncate (Dec.mulTruncate base.amount tokenPair.quotePooledCoin.amount)
          tokenPair.basePooledCoin.amount
      else
        Dec.quoTruncate (Dec.mulTruncate base.amount tokenPair.basePooledCoin.amount)
          tokenPair.quotePooledCoin.amount

/-- `calculateLockedLPTValue`. -/
def calculateLockedLPTValue (s : FarmState B) (pool : FarmPool) (quoteSymbol : String) :
    Except FarmError Int := do
  let (token0, token1) ← splitPoolToken pool.minLockAmount.denom
  match s.swap.getRedeemableAssets token0 token1 pool.totalValueLocked.amount with
  | none => return 0
  | some (amount0, amount1) =>
    return s.calculateBaseValueInQuote amount0 quoteSymbol +
      s.calculateBaseValueInQuote amount1 quoteSymbol

/-- `GetPoolLockedValue`. -/
def getPoolLockedValue (s : FarmState B) (pool : FarmPool) : Except FarmError Int :=
  if pool.totalValueLocked.amount ≤ 0 then .ok 0
  else if isPoolToken pool.minLockAmount.denom then
    s.calculateLockedLPTValue pool s.params.quoteSymbol
  else .ok (s.calculateBaseValueInQuote pool.totalValueLocked s.params.quoteSymbol)

/-- `isSwapTokenPairExisted`. -/
def isSwapTokenPairExisted (s : FarmState B) (token0 token1 : String) : Bool :=
  (s.swap.getSwapTokenPair token0 token1).isSome

/-- `satisfyWhiteListAdmittance`. -/
def satisfyWhiteListAdmittance (s : FarmState B) (pool : FarmPool) : Except FarmError Unit := do
  let quote := s.params.quoteSymbol
  let denom := pool.minLockAmount.denom
  if denom = quote then return ()
  else if !isPoolToken denom then
    require (s.isSwapTokenPairExisted denom quote) (.swapTokenPairNotExist denom quote)
  else
    let (token0, token1) ← splitPoolToken denom
    if token0 = quote ∨ token1 = quote then
      require (s.isSwapTokenPairExisted token0 token1) (.tokenNotExist denom)
    else
      require (s.isSwapTokenPairExisted token0 quote) (.swapTokenPairNotExist token0 quote)
      require (s.isSwapTokenPairExisted token1 quote) (.swapTokenPairNotExist token1 quote)

end FarmState

end Okexchain
