import Okexchain.Staking.Types
import Okexchain.Lib.Checked

/-!
# The staking keeper

Model of `x/staking/keeper`: `validator.go`, `delegator.go`, `shares.go`, `proxy.go`,
`delegation.go`, `min_self_delegation.go`, and of `pool.go`.

* `StakingBooks` is the staking module's store, one field per key prefix. Addresses have a fixed
  length and times a sortable format, so keys are pairs.
* The validator cache of `GetValidator` answers what the store has, and is left out.
* Hooks change nothing in this store, and nothing in it reads what they change. The calls that the
  slashing module listens to are kept as a list, `hooks`; the distribution module's are left out.
* A validator that is read before a loop is written back inside it, as in the source: the loops of
  `updateShares`, `withdrawLastShares` and `addSharesToValidators` run over validators, not over
  their addresses.
* `bondedTokensToNotBonded` panics when the transfer between the pools fails.
-/

namespace Okexchain

/-! ## The store -/

/-- The staking module's store. -/
structure StakingBooks where
  validators : KeyedStore Validator.operatorAddress
  validatorsByConsAddr : KVStore Address Address
  validatorsByPowerIndex : KVStore (Nat ×ₗ Addressᵒᵈ) Address
  lastValidatorPower : KVStore Address Int
  lastTotalPower : Option Int
  validatorQueue : KVStore Int (List Address)
  abandonedValidatorAddrs : List Address
  delegators : KeyedStore Delegator.delegatorAddress
  /-- By validator and delegator. -/
  shares : KVStore (Address ×ₗ Address) Int
  /-- By proxy and delegator. -/
  proxyBinding : KVStore (Address ×ₗ Address) Unit
  undelegationInfos : KeyedStore UndelegationInfo.delegatorAddress
  /-- By completion time and delegator. -/
  undelegateQueue : KVStore (Int ×ₗ Address) Unit
  epoch : Option Nat
  theEndOfLastEpoch : Option Int
  /-- The hooks called so far. -/
  hooks : List StakingHook

namespace StakingBooks

/-- A hook is called. -/
def callHook (b : StakingBooks) (hook : StakingHook) : StakingBooks :=
  { b with hooks := b.hooks ++ [hook] }

/-! ### Validators -/

/-- `GetValidator`. -/
def getValidator (b : StakingBooks) (addr : Address) : Option Validator := b.validators.get addr

/-- `mustGetValidator`. -/
def mustGetValidator (b : StakingBooks) (addr : Address) : Except StakingError Validator :=
  orThrow (b.getValidator addr) (.panic (.validatorNotFound addr))

/-- `GetValidatorByConsAddr`. -/
def getValidatorByConsAddr (b : StakingBooks) (consAddr : Address) : Option Validator :=
  (b.validatorsByConsAddr.get consAddr).bind b.getValidator

/-- `mustGetValidatorByConsAddr`. -/
def mustGetValidatorByConsAddr (b : StakingBooks) (consAddr : Address) :
    Except StakingError Validator :=
  orThrow (b.getValidatorByConsAddr consAddr) (.panic (.consAddressNotFound consAddr))

/-- `SetValidator`. -/
def setValidator (b : StakingBooks) (v : Validator) : StakingBooks :=
  { b with validators := b.validators.put v }

/-- `SetValidatorByConsAddr`. -/
def setValidatorByConsAddr (b : StakingBooks) (v : Validator) : StakingBooks :=
  { b with validatorsByConsAddr := b.validatorsByConsAddr.set v.consAddress v.operatorAddress }

/-- `SetNewValidatorByPowerIndex`. -/
def setNewValidatorByPowerIndex (b : StakingBooks) (v : Validator) : StakingBooks :=
  { b with
    validatorsByPowerIndex := b.validatorsByPowerIndex.set v.powerIndexKey v.operatorAddress }

/-- `SetValidatorByPowerIndex`: jailed validators are not kept in the index. -/
def setValidatorByPowerIndex (b : StakingBooks) (v : Validator) : StakingBooks :=
  if v.jailed then b else b.setNewValidatorByPowerIndex v

/-- `DeleteValidatorByPowerIndex`. -/
def deleteValidatorByPowerIndex (b : StakingBooks) (v : Validator) : StakingBooks :=
  { b with validatorsByPowerIndex := b.validatorsByPowerIndex.delete v.powerIndexKey }

/-- `RemoveValidator`. -/
def removeValidator (b : StakingBooks) (addr : Address) : Except StakingError StakingBooks :=
  match b.getValidator addr with
  | none => .ok b
  | some v => do
    require (v.status = .unbonded) (.panic .removeNotUnbonded)
    require (v.tokens ≤ 0) (.panic .removeWithTokens)
    let b := { b with
      validators := b.validators.delete addr
      validatorsByConsAddr := b.validatorsByConsAddr.delete v.consAddress
      validatorsByPowerIndex := b.validatorsByPowerIndex.delete v.powerIndexKey }
    return b.callHook (.validatorRemoved v.consAddress)

/-- `AppendAbandonedValidatorAddrs`. -/
def appendAbandonedValidatorAddrs (b : StakingBooks) (consAddr : Address) :
    Except StakingError StakingBooks := do
  let v ← b.mustGetValidatorByConsAddr consAddr
  return { b with abandonedValidatorAddrs := b.abandonedValidatorAddrs ++ [v.operatorAddress] }

/-! ### Delegators and shares -/

/-- `GetDelegator`. -/
def getDelegator (b : StakingBooks) (delAddr : Address) : Option Delegator :=
  b.delegators.get delAddr

/-- `SetDelegator`. -/
def setDelegator (b : StakingBooks) (d : Delegator) : StakingBooks :=
  { b with delegators := b.delegators.put d }

/-- `DeleteDelegator`. -/
def deleteDelegator (b : StakingBooks) (delAddr : Address) : StakingBooks :=
  { b with delegators := b.delegators.delete delAddr }

/-- `GetShares`. -/
def getShares (b : StakingBooks) (delAddr valAddr : Address) : Option Int :=
  b.shares.get (toLex (valAddr, delAddr))

/-- `SetShares`. -/
def setShares (b : StakingBooks) (delAddr valAddr : Address) (shares : Int) : StakingBooks :=
  { b with shares := b.shares.set (toLex (valAddr, delAddr)) shares }

/-- `DeleteShares`. -/
def deleteShares (b : StakingBooks) (valAddr delAddr : Address) : StakingBooks :=
  { b with shares := b.shares.delete (toLex (valAddr, delAddr)) }

/-- `SetProxyBinding`. -/
def setProxyBinding (b : StakingBooks) (proxyAddress delegatorAddress : Address) (isRemove : Bool) :
    StakingBooks :=
  { b with
    proxyBinding :=
      if isRemove then b.proxyBinding.delete (toLex (proxyAddress, delegatorAddress))
      else b.proxyBinding.set (toLex (proxyAddress, delegatorAddress)) () }

/-- The delegators `IterateProxy` visits. -/
def boundDelegators (b : StakingBooks) (proxyAddr : Address) : List Address :=
  (b.proxyBinding.keys.filter fun key => (ofLex key).1 = proxyAddr).map fun key => (ofLex key).2

/-- One turn of `ClearProxy`, with the binding deleted. -/
def clearBinding (proxyAddr : Address) (b : StakingBooks) (delAddr : Address) : StakingBooks :=
  let b := match b.getDelegator delAddr with
    | none => b
    | some d => b.setDelegator d.unbindProxy
  b.setProxyBinding proxyAddr delAddr true

/-- `ClearProxy`. -/
def clearProxy (b : StakingBooks) (proxyAddr : Address) : StakingBooks :=
  (b.boundDelegators proxyAddr).foldl (clearBinding proxyAddr) b

/-- `GetLastValsAddedSharesExisted`. -/
def getLastValsAddedSharesExisted (b : StakingBooks) (delAddr : Address) : List Validator × Int :=
  match b.getDelegator delAddr with
  | none => ([], 0)
  | some d => (d.validatorAddresses.filterMap b.getValidator, d.shares)

/-- One turn of `UpdateShares`. -/
def updateShare (delAddr : Address) (lastShares shares : Int) (b : StakingBooks) (v : Validator) :
    Except StakingError StakingBooks := do
  require (v.minSelfDelegation ≠ 0) (.addSharesToDismission v.operatorAddress)
  let b := b.deleteValidatorByPowerIndex v
  let b := b.setShares delAddr v.operatorAddress shares
  let v := { v with delegatorShares := v.delegatorShares - lastShares + shares }
  return (b.setValidator v).setValidatorByPowerIndex v

/-- `UpdateShares`. -/
def updateShares (weight : Int → Int) (time : Int) (b : StakingBooks) (delAddr : Address)
    (tokens : Int) : Except StakingError StakingBooks := do
  let (vals, lastShares) := b.getLastValsAddedSharesExisted delAddr
  if vals = [] then return b
  else
    let shares := calculateWeight weight time tokens
    let delegator ← orThrow (b.getDelegator delAddr) (.noDelegatorExisted delAddr)
    let b ← vals.foldlM (updateShare delAddr lastShares shares) b
    return b.setDelegator { delegator with shares := shares }

/-- `withdrawShares`. -/
def withdrawShares (delAddr : Address) (shares : Int) (b : StakingBooks) (v : Validator) :
    Except StakingError StakingBooks :=
  let b := b.deleteShares v.operatorAddress delAddr
  let b := b.deleteValidatorByPowerIndex v
  let v := { v with delegatorShares := v.delegatorShares - shares }
  if v.status = .unbonded ∧ v.minSelfDelegation = 0 ∧ v.delegatorShares = 0 then
    b.removeValidator v.operatorAddress
  else .ok ((b.setValidator v).setValidatorByPowerIndex v)

/-- `WithdrawLastShares`. -/
def withdrawLastShares (b : StakingBooks) (delAddr : Address) (vals : List Validator)
    (lastShares : Int) : Except StakingError StakingBooks :=
  vals.foldlM (withdrawShares delAddr lastShares) b

/-- `addShares`. -/
def addShares (delAddr : Address) (shares : Int) (b : StakingBooks) (v : Validator) :
    StakingBooks :=
  let b := b.setShares delAddr v.operatorAddress shares
  let b := b.deleteValidatorByPowerIndex v
  let v := { v with delegatorShares := v.delegatorShares + shares }
  (b.setValidator v).setValidatorByPowerIndex v

/-- `AddSharesToValidators`. -/
def addSharesToValidators (weight : Int → Int) (time : Int) (b : StakingBooks) (delAddr : Address)
    (vals : List Validator) (tokens : Int) : StakingBooks × Int :=
  let shares := calculateWeight weight time tokens
  (vals.foldl (addShares delAddr shares) b, shares)

/-- `GetValidatorsToAddShares`. -/
def getValidatorsToAddShares (b : StakingBooks) (valAddrs : List Address) :
    Except StakingError (List Validator) :=
  valAddrs.mapM fun addr => orThrow (b.getValidator addr) (.noValidatorFound addr)

/-- `UpdateProxy`. -/
def updateProxy (weight : Int → Int) (time : Int) (b : StakingBooks) (delegator : Delegator)
    (tokens : Int) : Except StakingError StakingBooks :=
  match delegator.proxyAddress with
  | none => .ok b
  | some proxyAddr => do
    let proxy ← orThrow (b.getDelegator proxyAddr) (.invalidAddress proxyAddr)
    let proxy := { proxy with totalDelegatedTokens := proxy.totalDelegatedTokens + tokens }
    require (0 ≤ proxy.totalDelegatedTokens) .invalidProxyUpdating
    let finalTokens := proxy.totalDelegatedTokens + proxy.tokens
    (b.setDelegator proxy).updateShares weight time proxy.delegatorAddress finalTokens

/-! ### Undelegations -/

/-- `GetUndelegating`. -/
def getUndelegating (b : StakingBooks) (delAddr : Address) : Option UndelegationInfo :=
  b.undelegationInfos.get delAddr

/-- `SetUndelegating`. -/
def setUndelegating (b : StakingBooks) (info : UndelegationInfo) : StakingBooks :=
  { b with undelegationInfos := b.undelegationInfos.put info }

/-- `DeleteUndelegating`. -/
def deleteUndelegating (b : StakingBooks) (delAddr : Address) : StakingBooks :=
  { b with undelegationInfos := b.undelegationInfos.delete delAddr }

/-- `SetAddrByTimeKeyWithNilValue`. -/
def setAddrByTimeKey (b : StakingBooks) (time : Int) (delAddr : Address) : StakingBooks :=
  { b with undelegateQueue := b.undelegateQueue.set (toLex (time, delAddr)) () }

/-- `DeleteAddrByTimeKey`. -/
def deleteAddrByTimeKey (b : StakingBooks) (time : Int) (delAddr : Address) : StakingBooks :=
  { b with undelegateQueue := b.undelegateQueue.delete (toLex (time, delAddr)) }

/-- The end of `Withdraw`: a new undelegation, or a later completion of the one that is there. -/
def addUndelegation (b : StakingBooks) (delAddr : Address) (quantity completionTime : Int) :
    StakingBooks :=
  let (b, info) := match b.getUndelegating delAddr with
    | none => (b, UndelegationInfo.mk delAddr quantity completionTime)
    | some info => (b.deleteAddrByTimeKey info.completionTime delAddr,
        { info with quantity := info.quantity + quantity, completionTime := completionTime })
  (b.setUndelegating info).setAddrByTimeKey completionTime delAddr

end StakingBooks

/-! ## The state of the module -/

/-- `BondedPoolName`. -/
def bondedPoolName : String := "bonded_tokens_pool"

/-- `NotBondedPoolName`. -/
def notBondedPoolName : String := "not_bonded_tokens_pool"

/-- A supply keeper that never sends more than the sender has. -/
structure PoolKeeper (B : Type) extends SupplyKeeper B where
  sendCoins_covered : ∀ {b source target c b'}, sendCoins b source target c = some b' → ∀ d,
    0 ≤ c d ∧ c d ≤ getCoins b source d

/-- What the staking module reads and writes. -/
structure StakingState (B : Type) where
  books : StakingBooks
  params : StakingParams
  bank : B

namespace StakingState

variable {B : Type}

/-- `bondedTokensToNotBonded`. -/
def bondedTokensToNotBonded (sk : PoolKeeper B) (bank : B) (tokens : DecCoin) :
    Except StakingError B :=
  orThrow (sk.sendCoinsFromModuleToModule bank bondedPoolName notBondedPoolName tokens.toCoins)
    (.panic .poolTransfer)

/-- The tokens that count for a delegator's shares: a proxy's include those delegated to it. -/
def finalTokens (d : Delegator) : Int :=
  if d.isProxy then d.tokens + d.totalDelegatedTokens else d.tokens

/-- `Delegate`. -/
def delegate (sk : PoolKeeper B) (weight : Int → Int) (time : Int) (s : StakingState B)
    (delAddr : Address) (token : DecCoin) : Except StakingError (StakingState B) := do
  require (s.params.minDelegation ≤ token.amount)
    (.insufficientQuantity token.amount s.params.minDelegation)
  let bank ← orThrow (sk.sendCoinsFromAccountToModule s.bank delAddr bondedPoolName token.toCoins)
    .insufficientCoins
  let delegator := (s.books.getDelegator delAddr).getD (.new delAddr)
  let delegator := { delegator with tokens := delegator.tokens + token.amount }
  let b := s.books.setDelegator delegator
  let b ←
    if delegator.hasProxy then b.updateProxy weight time delegator token.amount
    else b.updateShares weight time delegator.delegatorAddress (finalTokens delegator)
  return { s with books := b, bank := bank }

/-- The books of `Withdraw` once the proxy is updated: the delegator is deleted, or set back. -/
def withdrawTokens (weight : Int → Int) (time : Int) (b : StakingBooks) (delegator : Delegator)
    (leftTokens : Int) : Except StakingError StakingBooks :=
  if leftTokens = 0 then do
    let (lastVals, lastShares) :=
      b.getLastValsAddedSharesExisted delegator.delegatorAddress
    let b ← b.withdrawLastShares delegator.delegatorAddress lastVals lastShares
    let b := match delegator.proxyAddress with
      | none => b
      | some proxyAddr => b.setProxyBinding proxyAddr delegator.delegatorAddress true
    return b.deleteDelegator delegator.delegatorAddress
  else
    let delegator := { delegator with tokens := leftTokens }
    let b := b.setDelegator delegator
    if delegator.hasProxy then .ok b
    else b.updateShares weight time delegator.delegatorAddress (finalTokens delegator)

/-- `Withdraw`. -/
def withdraw (sk : PoolKeeper B) (weight : Int → Int) (time : Int) (s : StakingState B)
    (delAddr : Address) (token : DecCoin) : Except StakingError (StakingState B × Int) := do
  let delegator ← orThrow (s.books.getDelegator delAddr) (.noDelegationToAddShares delAddr)
  require (s.params.minDelegation ≤ token.amount)
    (.insufficientQuantity token.amount s.params.minDelegation)
  require (token.amount ≤ delegator.tokens)
    (.insufficientDelegation token.amount delegator.tokens)
  let leftTokens := delegator.tokens - token.amount
  require (¬ (delegator.isProxy ∧ leftTokens = 0)) (.invalidProxyWithdrawTotal delAddr)
  let bank ← bondedTokensToNotBonded sk s.bank token
  let b ← s.books.updateProxy weight time delegator (-token.amount)
  let b ← withdrawTokens weight time b delegator leftTokens
  let completionTime := time + s.params.unbondingTime
  let b := b.addUndelegation delAddr token.amount completionTime
  return ({ s with books := b, bank := bank }, completionTime)

/-- `CompleteUndelegation`. -/
def completeUndelegation (sk : PoolKeeper B) (s : StakingState B) (delAddr : Address) :
    Except StakingError (StakingState B × Int) := do
  let ud ← orThrow (s.books.getUndelegating delAddr) (.notInDelegating delAddr)
  let bank ← orThrow (sk.sendCoinsFromModuleToAccount s.bank notBondedPoolName ud.delegatorAddress
    (coin s.params.bondDenom ud.quantity)) .insufficientCoins
  return ({ s with books := s.books.deleteUndelegating delAddr, bank := bank }, ud.quantity)

/-- `WithdrawMinSelfDelegation`: the undelegation is written over one that is there. -/
def withdrawMinSelfDelegation (sk : PoolKeeper B) (time : Int) (s : StakingState B)
    (delAddr : Address) (v : Validator) : Except StakingError (StakingState B × Int) := do
  require (v.minSelfDelegation ≠ 0) (.noMinSelfDelegation v.operatorAddress)
  let remainShares := v.delegatorShares - Dec.one
  require (0 ≤ remainShares) (.moreMinSelfDelegation v.operatorAddress)
  let bank ← bondedTokensToNotBonded sk s.bank ⟨bondDenom, v.minSelfDelegation⟩
  let completionTime := time + s.params.unbondingTime
  let b := s.books.setUndelegating ⟨delAddr, v.minSelfDelegation, completionTime⟩
  let b := b.setAddrByTimeKey completionTime delAddr
  let v := { v with minSelfDelegation := 0, jailed := true }
  let b := b.callHook (.validatorDestroyed v.consAddress)
  let b ← if v.status = .bonded then b.appendAbandonedValidatorAddrs v.consAddress else .ok b
  let b ←
    if v.status = .unbonded ∧ remainShares = 0 then b.removeValidator v.operatorAddress
    else
      let b := b.deleteValidatorByPowerIndex v
      .ok (b.setValidator { v with delegatorShares := remainShares })
  return ({ s with books := b, bank := bank }, completionTime)

/-- `AddSharesAsMinSelfDelegation`: any minimal self delegation gives one share. -/
def addSharesAsMinSelfDelegation (sk : PoolKeeper B) (s : StakingState B) (delAddr : Address)
    (v : Validator) (msd : DecCoin) : Except StakingError (StakingState B) := do
  let bank ← orThrow (sk.sendCoinsFromAccountToModule s.bank delAddr bondedPoolName msd.toCoins)
    .insufficientCoins
  let b := s.books.deleteValidatorByPowerIndex v
  let v := { v with delegatorShares := v.delegatorShares + Dec.one }
  let b := (b.setValidator v).setValidatorByPowerIndex v
  return { s with books := b, bank := bank }

end StakingState

end Okexchain
