import Okexchain.Token.Coins

/-!
# Farm pools

Model of the types of `x/farm/types`: pools, lock infos, rewards, parameters, messages and errors.

* A pool name is a byte string, as the store keys are built from its bytes.
* Block heights and reward periods are natural numbers; the source's are 64-bit, and a chain does
  not live for that many blocks or messages.
* Of a message's coin the checks look at the amount. The form of denominations is checked by the
  SDK and not modelled, so more messages are admitted here than there.
-/

namespace Okexchain

/-- The bytes of a pool's name. -/
abbrev PoolName := List (Fin 256)

/-- `types.ModuleName`, the account of deposits and locked tokens. -/
def farmModuleName : String := "farm"

/-- `types.YieldFarmingAccount`, the account of what pools yield. -/
def yieldFarmingAccount : String := "yield_farming_account"

/-- `types.MintFarmingAccount`, the account of the native tokens minted for farming. -/
def mintFarmingAccount : String := "mint_farming_account"

/-- `YieldedTokenInfo`. -/
structure YieldedTokenInfo where
  remainingAmount : DecCoin
  startBlockHeightToYield : Nat
  amountYieldedPerBlock : Int
deriving DecidableEq, Repr

/-- `FarmPool`. -/
structure FarmPool where
  owner : Address
  name : PoolName
  minLockAmount : DecCoin
  depositAmount : DecCoin
  totalValueLocked : DecCoin
  yieldedTokenInfos : List YieldedTokenInfo
  totalAccumulatedRewards : Coins
deriving DecidableEq

/-- `Finished`. -/
def FarmPool.finished (pool : FarmPool) : Bool :=
  pool.yieldedTokenInfos.all (fun info => decide (info.remainingAmount.amount ≤ 0)) &&
    decide (pool.totalValueLocked.amount = 0)

/-- `LockInfo`. -/
structure LockInfo where
  owner : Address
  poolName : PoolName
  amount : DecCoin
  startBlockHeight : Nat
  referencePeriod : Nat
deriving DecidableEq, Repr

/-- `PoolHistoricalRewards`. -/
structure PoolHistoricalRewards where
  cumulativeRewardRatio : Coins
  referenceCount : Nat
deriving DecidableEq

/-- `PoolCurrentRewards`. -/
structure PoolCurrentRewards where
  startBlockHeight : Nat
  period : Nat
  rewards : Coins
deriving DecidableEq

/-- `Params`, as `ParamSetPairs` validates them. -/
structure FarmParams where
  quoteSymbol : String
  createPoolFee : DecCoin
  createPoolDeposit : DecCoin
  yieldNativeToken : Bool
  createPoolFee_nonneg : 0 ≤ createPoolFee.amount
  createPoolDeposit_nonneg : 0 ≤ createPoolDeposit.amount

/-- What stops a handler half-way: the panics of the source. -/
inductive FarmPanic where
  | shouldNotHappen
  /-- A coin list with a negative amount. -/
  | negativeCoinAmount
  | referenceCountExceeded
  | negativeReferenceCount
  /-- A record is read that the store does not have. -/
  | missingRecord
  | startingAfterEnding
  | negativeAmount
  | lockInfoNotFound
  | yieldedTokenInfosLength (n : Nat)
  | notAllocated (amount : Int)
  | burnFailed
  /-- The name of a pool token that has no two symbols. -/
  | splitPoolToken (denom : String)
deriving DecidableEq, Repr

/-- The errors of `x/farm/types/errors.go`, the errors of the supply keeper, and the panics. -/
inductive FarmError where
  | nilAddress
  | poolNameLength (poolName : PoolName)
  | invalidPoolName (poolName : PoolName)
  | invalidInput (msg : String)
  | invalidInputAmount (amount : DecCoin)
  | poolAlreadyExist (poolName : PoolName)
  | noFarmPoolFound (poolName : PoolName)
  | poolNameNotExistedInWhiteList (poolName : PoolName)
  | noLockInfoFound (addr : Address) (poolName : PoolName)
  | tokenNotExist (denom : String)
  | poolNotFinished (poolName : PoolName)
  | remainingAmountNotZero (amount : DecCoin)
  | invalidPoolOwner (addr : Address) (poolName : PoolName)
  | invalidDenom (locked denom : String)
  | insufficientAmount (amount inputAmount : DecCoin)
  | invalidStartHeight
  | lockAmountBelowMinimum (minLockAmount amount : Int)
  | swapTokenPairNotExist (token0 token1 : String)
  | sendCoinsFromAccountToModuleFailed
  | sendCoinsFromModuleToAccountFailed
  | insufficientCoins
  /-- The supply keeper's error when the yield farming account cannot pay a reward. -/
  | rewardNotPaid
  | panic (p : FarmPanic)
deriving DecidableEq, Repr

/-! ## Messages -/

/-- `MsgCreatePool`. -/
structure MsgCreatePool where
  owner : Address
  poolName : PoolName
  minLockAmount : DecCoin
  yieldedSymbol : String

/-- `MsgDestroyPool`. -/
structure MsgDestroyPool where
  owner : Address
  poolName : PoolName

/-- `MsgProvide`. -/
structure MsgProvide where
  poolName : PoolName
  address : Address
  amount : DecCoin
  amountYieldedPerBlock : Int
  startHeightToYield : Nat

/-- `MsgLock` and `MsgUnlock`, which have the same fields and the same checks. -/
structure MsgLock where
  poolName : PoolName
  address : Address
  amount : DecCoin

/-- `MsgClaim`. -/
structure MsgClaim where
  poolName : PoolName
  address : Address

/-- `ManageWhiteListProposal`. -/
structure ManageWhiteListProposal where
  poolName : PoolName
  isAdded : Bool

/-- `MaxPoolNameLength`. -/
def maxPoolNameLength : Nat := 128

/-- The length check every message makes. -/
def PoolName.invalidLength (name : PoolName) : Prop := name = [] ∨ maxPoolNameLength < name.length

instance (name : PoolName) : Decidable name.invalidLength :=
  inferInstanceAs (Decidable (_ ∨ _))

/-- `MsgCreatePool.ValidateBasic`. -/
def MsgCreatePool.validateBasic (m : MsgCreatePool) : Option FarmError :=
  if m.owner = "" then some .nilAddress
  else if m.poolName.invalidLength then some (.poolNameLength m.poolName)
  else if m.minLockAmount.amount < 0 then some (.invalidInputAmount m.minLockAmount)
  else if m.yieldedSymbol = "" then some (.invalidInput "yielded symbol is empty")
  else none

/-- `MsgDestroyPool.ValidateBasic`. -/
def MsgDestroyPool.validateBasic (m : MsgDestroyPool) : Option FarmError :=
  if m.owner = "" then some .nilAddress
  else if m.poolName.invalidLength then some (.poolNameLength m.poolName)
  else none

/-- `MsgProvide.ValidateBasic`. -/
def MsgProvide.validateBasic (m : MsgProvide) : Option FarmError :=
  if m.poolName.invalidLength then some (.invalidPoolName m.poolName)
  else if m.address = "" then some .nilAddress
  else if m.amount.amount ≤ 0 then some (.invalidInputAmount m.amount)
  else if m.amountYieldedPerBlock ≤ 0 then
    some (.invalidInput "amount yielded per block must be > 0")
  else if m.amount.amount < m.amountYieldedPerBlock then
    some (.invalidInput "provided amount must be bigger than amount_yielded_per_block")
  else if m.startHeightToYield = 0 then
    some (.invalidInput "start height to yield must be > 0")
  else none

/-- `MsgLock.ValidateBasic` and `MsgUnlock.ValidateBasic`. -/
def MsgLock.validateBasic (m : MsgLock) : Option FarmError :=
  if m.poolName.invalidLength then some (.invalidPoolName m.poolName)
  else if m.address = "" then some .nilAddress
  else if m.amount.amount ≤ 0 then some (.invalidInputAmount m.amount)
  else none

/-- `MsgClaim.ValidateBasic`. -/
def MsgClaim.validateBasic (m : MsgClaim) : Option FarmError :=
  if m.poolName.invalidLength then some (.invalidPoolName m.poolName)
  else if m.address = "" then some .nilAddress
  else none

/-- `Earnings`. -/
structure Earnings where
  targetBlockHeight : Nat
  amountLocked : DecCoin
  amountYielded : Coins

theorem MsgLock.amount_pos {m : MsgLock} (h : m.validateBasic = none) : 0 < m.amount.amount := by
  unfold validateBasic at h
  split_ifs at h
  omega

theorem MsgProvide.amount_pos {m : MsgProvide} (h : m.validateBasic = none) :
    0 < m.amount.amount ∧ 0 < m.amountYieldedPerBlock := by
  unfold validateBasic at h
  split_ifs at h
  omega

end Okexchain
