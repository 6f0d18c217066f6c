import Okexchain.Farm.Keeper

/-!
# The farm handlers

Model of `x/farm/handler.go`, `handler_lock.go`, `handler_pool.go`, `proposal_handler.go`, and of
`BeginBlocker` in `x/farm/abci.go`.

* A handler that returns an error or panics leaves no trace, because the transaction's writes are
  discarded; so the result is the new state or the error, panics included.
* The handlers that pay rewards return them, as the source tells its observers (`OnClaim`), and
  `handleMsgDestroyPool` returns what it gives back to the owner.
* The total value locked of a pool has the denomination of its minimal lock, so the source's sums
  and differences of the two do not meet different denominations.
* `calculateAllocateInfo` collects the whitelisted pools with a positive value in the order of the
  store. `allocate` is the loop of `BeginBlocker`; the last pool gets what is left.
-/

namespace Okexchain

/-- Take rewards out of what a pool has accumulated. -/
def FarmPool.subRewards (pool : FarmPool) (rewards : Coins) : Except FarmError FarmPool := do
  require (pool.totalAccumulatedRewards.isAllLT rewards = false) (.panic .shouldNotHappen)
  let accumulated ← orThrow (pool.totalAccumulatedRewards.subCoins rewards)
    (.panic .negativeCoinAmount)
  return { pool with totalAccumulatedRewards := accumulated }

/-- The single yield of a pool, `YieldedTokenInfos[0]`. -/
def FarmPool.onlyYield (pool : FarmPool) : Except FarmError YieldedTokenInfo :=
  match pool.yieldedTokenInfos with
  | [info] => .ok info
  | infos => .error (.panic (.yieldedTokenInfosLength infos.length))

namespace FarmState

variable {B : Type}

/-! ## Pools -/

/-- The pool `handleMsgCreatePool` makes. -/
def newFarmPool (params : FarmParams) (msg : MsgCreatePool) : FarmPool where
  owner := msg.owner
  name := msg.poolName
  minLockAmount := msg.minLockAmount
  depositAmount := params.createPoolDeposit
  totalValueLocked := ⟨msg.minLockAmount.denom, 0⟩
  yieldedTokenInfos := [⟨⟨msg.yieldedSymbol, 0⟩, 0, 0⟩]
  totalAccumulatedRewards := 0

/-- `handleMsgCreatePool`. -/
def handleMsgCreatePool (sk : SupplyKeeper B) (height : Nat) (s : FarmState B)
    (msg : MsgCreatePool) : Except FarmError (FarmState B) := do
  require ((s.books.getFarmPool msg.poolName).isNone) (.poolAlreadyExist msg.poolName)
  require (sk.tokenExist s.bank msg.minLockAmount.denom) (.tokenNotExist msg.minLockAmount.denom)
  require (sk.tokenExist s.bank msg.yieldedSymbol) (.tokenNotExist msg.yieldedSymbol)
  let bank ← orThrow (sk.sendCoinsFromAccountToModule s.bank msg.owner feeCollectorName
    s.params.createPoolFee.toCoins) .insufficientCoins
  let bank ← orThrow (sk.sendCoinsFromAccountToModule bank msg.owner farmModuleName
    s.params.createPoolDeposit.toCoins) .insufficientCoins
  let b := s.books.setFarmPool (newFarmPool s.params msg)
  let b := b.setPoolHistoricalRewards msg.poolName 0 ⟨0, 1⟩
  let b := b.setPoolCurrentRewards msg.poolName ⟨height, 1, 0⟩
  return { s with books := b, bank := bank }

/-- `handleMsgDestroyPool`. -/
def handleMsgDestroyPool (sk : SupplyKeeper B) (height : Nat) (s : FarmState B)
    (msg : MsgDestroyPool) : Except FarmError (FarmState B × Coins) := do
  let pool ← orThrow (s.books.getFarmPool msg.poolName) (.noFarmPoolFound msg.poolName)
  require (pool.owner = msg.owner) (.invalidPoolOwner msg.owner msg.poolName)
  let (updatedPool, _) ← s.books.calculateAmountYieldedBetween height pool
  require updatedPool.finished (.poolNotFinished msg.poolName)
  let bank ← payUnless (updatedPool.totalAccumulatedRewards = 0) sk s.bank yieldFarmingAccount
    msg.owner updatedPool.totalAccumulatedRewards .insufficientCoins
  let bank ← payUnless (pool.depositAmount.amount ≤ 0) sk bank farmModuleName msg.owner
    pool.depositAmount.toCoins .insufficientCoins
  let b := s.books.deleteFarmPool msg.poolName
  let visited := b.iteratePoolHistoricalRewards msg.poolName
  let b := { b with historicalRewards := visited.foldl KVStore.delete b.historicalRewards }
  let b := b.deletePoolCurrentRewards msg.poolName
  return ({ s with books := b, bank := bank }, updatedPool.totalAccumulatedRewards)

/-- `handleMsgProvide`. -/
def handleMsgProvide (sk : SupplyKeeper B) (height : Nat) (s : FarmState B) (msg : MsgProvide) :
    Except FarmError (FarmState B) := do
  require (height < msg.startHeightToYield) .invalidStartHeight
  let pool ← orThrow (s.books.getFarmPool msg.poolName) (.noFarmPoolFound msg.poolName)
  require (pool.owner = msg.address) (.invalidPoolOwner msg.address msg.poolName)
  let info ← pool.onlyYield
  require (info.remainingAmount.denom = msg.amount.denom)
    (.invalidDenom info.remainingAmount.denom msg.amount.denom)
  let (updatedPool, yieldedTokens) ← s.books.calculateAmountYieldedBetween height pool
  let remainingAmount := (updatedPool.yieldedTokenInfos.headD info).remainingAmount
  require (remainingAmount.amount = 0) (.remainingAmountNotZero remainingAmount)
  let (b, _) ← s.books.incrementPoolPeriod height pool.name pool.totalValueLocked yieldedTokens
  let bank ← orThrow (sk.sendCoinsFromAccountToModule s.bank msg.address yieldFarmingAccount
    msg.amount.toCoins) .sendCoinsFromAccountToModuleFailed
  let newInfo := ⟨msg.amount, msg.startHeightToYield, msg.amountYieldedPerBlock⟩
  let updatedPool := { updatedPool with
    yieldedTokenInfos := updatedPool.yieldedTokenInfos.set 0 newInfo }
  return { s with books := b.setFarmPool updatedPool, bank := bank }

/-! ## Locks -/

/-- The lock info of an account that has not locked in a pool. -/
def emptyLock (pool : FarmPool) (addr : Address) (height : Nat) : LockInfo :=
  ⟨addr, pool.name, ⟨pool.minLockAmount.denom, 0⟩, height, 0⟩

/-- What `handleMsgLock` does before it changes the lock info: an account that has locked before is
paid its rewards, another one gets an empty lock info. -/
def openLock (sk : SupplyKeeper B) (height : Nat) (s : FarmState B) (pool updatedPool : FarmPool)
    (yieldedTokens : Coins) (addr : Address) (hasLocked : Bool) :
    Except FarmError (FarmState B × FarmPool × Coins) :=
  if hasLocked then do
    let (s, rewards) ←
      s.withdrawRewards sk height pool.name pool.totalValueLocked yieldedTokens addr
    let updatedPool ← updatedPool.subRewards rewards
    return (s, updatedPool, rewards)
  else do
    let (b, _) ← s.books.incrementPoolPeriod height pool.name pool.totalValueLocked yieldedTokens
    let b := b.setLockInfo (emptyLock pool addr height)
    let b := b.setAddressInFarmPool pool.name addr
    return ({ s with books := b }, updatedPool, 0)

/-- `handleMsgLock`. -/
def handleMsgLock (sk : SupplyKeeper B) (height : Nat) (s : FarmState B) (msg : MsgLock) :
    Except FarmError (FarmState B × Coins) := do
  let pool ← orThrow (s.books.getFarmPool msg.poolName) (.noFarmPoolFound msg.poolName)
  require (pool.minLockAmount.denom = msg.amount.denom)
    (.invalidDenom pool.minLockAmount.denom msg.amount.denom)
  let hasLocked := (s.books.getLockInfo msg.address msg.poolName).isSome
  require (hasLocked ∨ pool.minLockAmount.amount ≤ msg.amount.amount)
    (.lockAmountBelowMinimum pool.minLockAmount.amount msg.amount.amount)
  let (updatedPool, yieldedTokens) ← s.books.calculateAmountYieldedBetween height pool
  let (s, updatedPool, rewards) ←
    s.openLock sk height pool updatedPool yieldedTokens msg.address hasLocked
  let b ← s.books.updateLockInfo height msg.address msg.poolName msg.amount.amount
  let bank ← orThrow (sk.sendCoinsFromAccountToModule s.bank msg.address farmModuleName
    msg.amount.toCoins) .sendCoinsFromAccountToModuleFailed
  let locked := updatedPool.totalValueLocked
  let updatedPool := { updatedPool with
    totalValueLocked := { locked with amount := locked.amount + msg.amount.amount } }
  return ({ s with books := b.setFarmPool updatedPool, bank := bank }, rewards)

/-- `handleMsgUnlock`. -/
def handleMsgUnlock (sk : SupplyKeeper B) (height : Nat) (s : FarmState B) (msg : MsgLock) :
    Except FarmError (FarmState B × Coins) := do
  let lockInfo ← orThrow (s.books.getLockInfo msg.address msg.poolName)
    (.noLockInfoFound msg.address msg.poolName)
  require (lockInfo.amount.denom = msg.amount.denom)
    (.invalidDenom lockInfo.amount.denom msg.amount.denom)
  require (msg.amount.amount ≤ lockInfo.amount.amount)
    (.insufficientAmount lockInfo.amount msg.amount)
  let pool ← orThrow (s.books.getFarmPool msg.poolName) (.noFarmPoolFound msg.poolName)
  require (pool.minLockAmount.denom = msg.amount.denom)
    (.invalidDenom pool.minLockAmount.denom msg.amount.denom)
  let remainAmount := lockInfo.amount.amount - msg.amount.amount
  require (remainAmount = 0 ∨ pool.minLockAmount.amount ≤ remainAmount)
    (.lockAmountBelowMinimum pool.minLockAmount.amount remainAmount)
  let (updatedPool, yieldedTokens) ← s.books.calculateAmountYieldedBetween height pool
  let (s, rewards) ←
    s.withdrawRewards sk height pool.name pool.totalValueLocked yieldedTokens msg.address
  let b ← s.books.updateLockInfo height msg.address msg.poolName (-msg.amount.amount)
  let bank ← orThrow (sk.sendCoinsFromModuleToAccount s.bank farmModuleName msg.address
    msg.amount.toCoins) .sendCoinsFromModuleToAccountFailed
  let locked := updatedPool.totalValueLocked
  require (msg.amount.amount ≤ locked.amount) (.panic .negativeCoinAmount)
  let updatedPool := { updatedPool with
    totalValueLocked := { locked with amount := locked.amount - msg.amount.amount } }
  let updatedPool ← updatedPool.subRewards rewards
  return ({ s with books := b.setFarmPool updatedPool, bank := bank }, rewards)

/-- `handleMsgClaim`. -/
def handleMsgClaim (sk : SupplyKeeper B) (height : Nat) (s : FarmState B) (msg : MsgClaim) :
    Except FarmError (FarmState B × Coins) := do
  let pool ← orThrow (s.books.getFarmPool msg.poolName) (.noFarmPoolFound msg.poolName)
  let (updatedPool, yieldedTokens) ← s.books.calculateAmountYieldedBetween height pool
  let (s, rewards) ←
    s.withdrawRewards sk height pool.name pool.totalValueLocked yieldedTokens msg.address
  let b ← s.books.updateLockInfo height msg.address pool.name 0
  let updatedPool ← updatedPool.subRewards rewards
  return ({ s with books := b.setFarmPool updatedPool }, rewards)

/-! ## The whitelist -/

/-- `CheckMsgManageWhiteListProposal`. -/
def checkMsgManageWhiteListProposal (s : FarmState B) (proposal : ManageWhiteListProposal) :
    Except FarmError Unit :=
  if proposal.isAdded then do
    let pool ← orThrow (s.books.getFarmPool proposal.poolName) (.noFarmPoolFound proposal.poolName)
    s.satisfyWhiteListAdmittance pool
  else
    require (s.books.whitelist.get proposal.poolName).isSome
      (.poolNameNotExistedInWhiteList proposal.poolName)

/-- `handleManageWhiteListProposal`. -/
def handleManageWhiteListProposal (s : FarmState B) (proposal : ManageWhiteListProposal) :
    Except FarmError (FarmState B) := do
  s.checkMsgManageWhiteListProposal proposal
  if proposal.isAdded then return { s with books := s.books.setWhitelist proposal.poolName }
  else return { s with books := s.books.deleteWhiteList proposal.poolName }

/-! ## The begin of a block -/

/-- The loop of `calculateAllocateInfo` over the whitelist: the pools with their values. -/
def calculateAllocateInfo (s : FarmState B) :
    List PoolName → Except FarmError (List (FarmPool × Int))
  | [] => .ok []
  | poolName :: rest => do
    let pool ← orThrow (s.books.getFarmPool poolName) (.panic .shouldNotHappen)
    let poolValue ← s.getPoolLockedValue pool
    let pools ← s.calculateAllocateInfo rest
    return if poolValue ≤ 0 then pools else (pool, poolValue) :: pools

/-- The loop of `BeginBlocker`: what is left of the native tokens, and what each pool got. -/
def allocate (yieldedNativeTokenAmt totalPoolsValue : Int) :
    List (FarmPool × Int) → Int → FarmBooks →
      Except FarmError (FarmBooks × Int × List (PoolName × Int))
  | [], remaining, b => .ok (b, remaining, [])
  | (pool, poolValue) :: rest, remaining, b => do
    let allocatedAmt :=
      if rest.isEmpty then remaining
      else Dec.quoTruncate (Dec.mulTruncate poolValue yieldedNativeTokenAmt) totalPoolsValue
    require (0 ≤ allocatedAmt) (.panic .negativeCoinAmount)
    let allocatedCoins := coin bondDenom allocatedAmt
    let current ← b.getPoolCurrentRewards pool.name
    let b := b.setPoolCurrentRewards pool.name
      { current with rewards := current.rewards + allocatedCoins }
    let b := b.setFarmPool { pool with
      totalAccumulatedRewards := pool.totalAccumulatedRewards + allocatedCoins }
    let (b, remaining, allocated) ←
      allocate yieldedNativeTokenAmt totalPoolsValue rest (remaining - allocatedAmt) b
    return (b, remaining, (pool.name, allocatedAmt) :: allocated)

/-- `BeginBlocker`. -/
def beginBlocker (sk : SupplyKeeper B) (s : FarmState B) :
    Except FarmError (FarmState B × List (PoolName × Int)) :=
  let yieldedNativeTokenAmt := sk.moduleCoins s.bank mintFarmingAccount bondDenom
  let yieldedNativeToken := coin bondDenom yieldedNativeTokenAmt
  if yieldedNativeTokenAmt ≤ 0 then .ok (s, [])
  else if s.params.yieldNativeToken = false then do
    let bank ← orThrow (sk.burnCoins s.bank (sk.moduleAddress mintFarmingAccount)
      yieldedNativeToken) (.panic .burnFailed)
    return ({ s with bank := bank }, [])
  else do
    let pools ← s.calculateAllocateInfo s.books.whitelist.keys
    let totalPoolsValue := (pools.map Prod.snd).sum
    if totalPoolsValue ≤ 0 then return (s, [])
    else
      let (b, remaining, allocated) ←
        allocate yieldedNativeTokenAmt totalPoolsValue pools yieldedNativeTokenAmt s.books
      require (remaining = 0) (.panic (.notAllocated remaining))
      let bank ← orThrow (sk.sendCoinsFromModuleToModule s.bank mintFarmingAccount
        yieldFarmingAccount yieldedNativeToken) (.panic .shouldNotHappen)
      return ({ s with books := b, bank := bank }, allocated)

end FarmState

end Okexchain
