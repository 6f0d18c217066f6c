import Okexchain.Staking.ValidatorSet

/-!
# The staking handlers

Model of `x/staking/handler.go` and `handler_shares.go`, and of what the slashing and evidence
modules do to the staking module: `handleMsgUnjail` and `HandleValidatorSignature` of `x/slashing`,
`HandleDoubleSign` of `x/evidence`.

* A handler that returns an error or panics leaves no trace, because the transaction's writes are
  discarded; so the result is the new state or the error, panics included.
* `EndBlocker` returns what it paid, as its events tell. An undelegation that fails is logged, and
  its place in the queue is lost.
* The queue of undelegations is iterated up to and including the time of the block.
* The slashing module's records say when a validator is punished, and whether one may leave jail.
  They are not part of the staking store: here a validator may be punished at any time, and
  `handleMsgUnjail` takes the answer of the records.
* The check of the key types that the consensus parameters admit is left out.
-/

namespace Okexchain

namespace StakingState

variable {B : Type}

/-! ## Validators -/

/-- `handleMsgCreateValidator`. -/
def handleMsgCreateValidator (sk : PoolKeeper B) (s : StakingState B) (msg : MsgCreateValidator) :
    Except StakingError (StakingState B) := do
  require ((s.books.getValidator msg.validatorAddress).isNone) .validatorOwnerExists
  require ((s.books.getValidatorByConsAddr msg.pubKey).isNone) .validatorPubKeyExists
  require (msg.minSelfDelegation.denom = s.params.bondDenom) .badDenom
  let _ ← msg.description.ensureLength
  let v := Validator.new msg.validatorAddress msg.pubKey msg.description s.params.minSelfDelegation
  let b := (s.books.setValidator v).setValidatorByConsAddr v
  let b := b.setNewValidatorByPowerIndex v
  let s ← addSharesAsMinSelfDelegation sk { s with books := b } msg.delegatorAddress v
    ⟨s.params.bondDenom, v.minSelfDelegation⟩
  return { s with books := s.books.callHook (.validatorCreated v.consAddress) }

/-- `handleMsgEditValidator`. -/
def handleMsgEditValidator (s : StakingState B) (msg : MsgEditValidator) :
    Except StakingError (StakingState B) := do
  let v ← orThrow (s.books.getValidator msg.validatorAddress)
    (.noValidatorFound msg.validatorAddress)
  let description ← v.description.updateDescription msg.description
  return { s with books := s.books.setValidator { v with description := description } }

/-- `handleMsgDestroyValidator`. -/
def handleMsgDestroyValidator (sk : PoolKeeper B) (time : Int) (s : StakingState B)
    (delAddr : Address) : Except StakingError (StakingState B × Int) := do
  let v ← orThrow (s.books.getValidator delAddr) (.noValidatorFound delAddr)
  s.withdrawMinSelfDelegation sk time delAddr v

/-! ## Deposits and shares -/

/-- `handleMsgDeposit`. -/
def handleMsgDeposit (sk : PoolKeeper B) (weight : Int → Int) (time : Int) (s : StakingState B)
    (msg : Staking.MsgDeposit) : Except StakingError (StakingState B) := do
  require (msg.amount.denom = s.params.bondDenom) .badDenom
  s.delegate sk weight time msg.delegatorAddress msg.amount

/-- `handleMsgWithdraw`. -/
def handleMsgWithdraw (sk : PoolKeeper B) (weight : Int → Int) (time : Int) (s : StakingState B)
    (msg : Staking.MsgDeposit) : Except StakingError (StakingState B × Int) := do
  require (msg.amount.denom = s.params.bondDenom) .badDenom
  s.withdraw sk weight time msg.delegatorAddress msg.amount

/-- `validateSharesAdding`, with `isDismissed`. -/
def validateSharesAdding (vals : List Validator) : Except StakingError Unit := do
  require (vals ≠ []) .emptyValidators
  match vals.find? fun v => v.minSelfDelegation = 0 with
  | none => return ()
  | some v => .error (.addSharesToDismission v.operatorAddress)

/-- `handleMsgAddShares`. -/
def handleMsgAddShares (weight : Int → Int) (time : Int) (s : StakingState B) (msg : MsgAddShares) :
    Except StakingError (StakingState B) := do
  require (msg.valAddrs ≠ []) .emptyValidators
  require (msg.valAddrs.length ≤ s.params.maxValsToAddShares)
    (.exceedValidatorAddrs s.params.maxValsToAddShares)
  let delegator ← orThrow (s.books.getDelegator msg.delAddr) (.noDelegationToAddShares msg.delAddr)
  require (delegator.tokens ≠ 0) (.noDelegationToAddShares msg.delAddr)
  require (delegator.proxyAddress = none)
    (.addSharesDuringProxy delegator.delegatorAddress (delegator.proxyAddress.getD ""))
  let (lastVals, lastShares) := s.books.getLastValsAddedSharesExisted msg.delAddr
  let b ← s.books.withdrawLastShares msg.delAddr lastVals lastShares
  let vals ← b.getValidatorsToAddShares msg.valAddrs
  validateSharesAdding vals
  let totalTokens := delegator.tokens + delegator.totalDelegatedTokens
  let (b, shares) := b.addSharesToValidators weight time msg.delAddr vals totalTokens
  let delegator := { delegator with
    validatorAddresses := vals.map Validator.operatorAddress
    shares := shares }
  return { s with books := b.setDelegator delegator }

/-! ## Proxies -/

/-- `unbindProxy`. -/
def unbindProxy (weight : Int → Int) (time : Int) (b : StakingBooks) (delAddr : Address) :
    Except StakingError StakingBooks := do
  let delegator ← orThrow (b.getDelegator delAddr) (.noDelegationToAddShares delAddr)
  let proxyAddr ← orThrow delegator.proxyAddress (.proxyNotFound delAddr)
  let _ ← orThrow (b.getDelegator proxyAddr) (.proxyNotFound delAddr)
  let b ← orThrow (b.updateProxy weight time delegator (-delegator.tokens)).toOption
    (.invalidDelegation delAddr)
  let b := b.setDelegator delegator.unbindProxy
  return b.setProxyBinding proxyAddr delegator.delegatorAddress true

/-- `handleMsgUnbindProxy`. -/
def handleMsgUnbindProxy (weight : Int → Int) (time : Int) (s : StakingState B)
    (delAddr : Address) : Except StakingError (StakingState B) := do
  let b ← unbindProxy weight time s.books delAddr
  return { s with books := b }

/-- The books of `handleMsgBindProxy` once the checks are passed. -/
def bindProxy (weight : Int → Int) (time : Int) (b : StakingBooks) (delegator proxy : Delegator) :
    Except StakingError StakingBooks :=
  if delegator.proxyAddress = some proxy.delegatorAddress then
    -- the same proxy: its shares are updated
    orThrow (b.updateShares weight time proxy.delegatorAddress
      (proxy.totalDelegatedTokens + proxy.tokens)).toOption
      (.invalidDelegation proxy.delegatorAddress)
  else do
    let b ← if delegator.hasProxy then unbindProxy weight time b delegator.delegatorAddress
      else .ok b
    let delegator := delegator.bindProxy proxy.delegatorAddress
    let proxy := { proxy with
      totalDelegatedTokens := proxy.totalDelegatedTokens + delegator.tokens }
    let b := (b.setDelegator delegator).setDelegator proxy
    let b := b.setProxyBinding proxy.delegatorAddress delegator.delegatorAddress false
    orThrow (b.updateShares weight time proxy.delegatorAddress
      (proxy.totalDelegatedTokens + proxy.tokens)).toOption
      (.invalidDelegation proxy.delegatorAddress)

/-- `handleMsgBindProxy`. -/
def handleMsgBindProxy (weight : Int → Int) (time : Int) (s : StakingState B) (msg : MsgBindProxy) :
    Except StakingError (StakingState B) := do
  let delegator ← orThrow (s.books.getDelegator msg.delAddr) (.noDelegationToAddShares msg.delAddr)
  require (delegator.tokens ≠ 0) (.noDelegationToAddShares msg.delAddr)
  require (delegator.shares = 0) (.alreadyAddedShares delegator.delegatorAddress)
  let proxy ← orThrow (s.books.getDelegator msg.proxyAddress) (.proxyNotFound msg.proxyAddress)
  require (proxy.tokens ≠ 0) (.proxyNotFound msg.proxyAddress)
  require (proxy.isProxy = true) (.proxyNotFound msg.proxyAddress)
  require (delegator.isProxy = false) (.doubleProxy delegator.delegatorAddress)
  let b ← bindProxy weight time s.books delegator proxy
  return { s with books := b }

/-- `regProxy`. -/
def regProxy (weight : Int → Int) (time : Int) (b : StakingBooks) (proxyAddr : Address) :
    Except StakingError StakingBooks := do
  let proxy ← orThrow (b.getDelegator proxyAddr) (.noDelegationToAddShares proxyAddr)
  require (proxy.isProxy = false) (.proxyAlreadyExist proxyAddr)
  require (proxy.proxyAddress = none) (.alreadyBound proxyAddr)
  let proxy := proxy.regProxy true
  let b := b.setDelegator proxy
  orThrow (b.updateShares weight time proxy.delegatorAddress proxy.tokens).toOption
    (.invalidDelegation proxy.delegatorAddress)

/-- `unregProxy`. -/
def unregProxy (weight : Int → Int) (time : Int) (b : StakingBooks) (proxyAddr : Address) :
    Except StakingError StakingBooks := do
  let proxy ← orThrow (b.getDelegator proxyAddr) (.proxyNotFound proxyAddr)
  require (proxy.isProxy = true) (.proxyNotFound proxyAddr)
  let proxy := { proxy.regProxy false with totalDelegatedTokens := 0 }
  let b := b.clearProxy proxy.delegatorAddress
  let b := b.setDelegator proxy
  orThrow (b.updateShares weight time proxy.delegatorAddress proxy.tokens).toOption
    (.invalidDelegation proxy.delegatorAddress)

/-- `handleRegProxy`. -/
def handleRegProxy (weight : Int → Int) (time : Int) (s : StakingState B) (msg : MsgRegProxy) :
    Except StakingError (StakingState B) := do
  let b ← if msg.reg then regProxy weight time s.books msg.proxyAddress
    else unregProxy weight time s.books msg.proxyAddress
  return { s with books := b }

/-! ## Slashing and evidence -/

/-- `handleMsgUnjail`, with `Unjail` of the slashing keeper; `allowed` is the answer of the signing
info. -/
def handleMsgUnjail (s : StakingState B) (valAddr : Address) (allowed : Bool) :
    Except StakingError (StakingState B) := do
  let v ← orThrow (s.books.getValidator valAddr) .noValidatorForAddress
  require (v.minSelfDelegation ≠ 0) .missingSelfDelegation
  require (v.jailed = true) .validatorNotJailed
  require (allowed = true) .signingInfoRefuses
  let b ← s.books.unjail v.consAddress
  return { s with books := b }

/-- `HandleValidatorSignature` when the validator has missed too many blocks. -/
def handleDowntime (s : StakingState B) (consAddr : Address) :
    Except StakingError (StakingState B) :=
  match s.books.getValidatorByConsAddr consAddr with
  | none => .ok s
  | some v =>
    if v.jailed then .ok s
    else do
      let b ← s.books.jail consAddr
      let b ← b.appendAbandonedValidatorAddrs consAddr
      return { s with books := b }

/-- `HandleDoubleSign` when the evidence counts. -/
def handleDoubleSign (s : StakingState B) (consAddr : Address) :
    Except StakingError (StakingState B) :=
  match s.books.getValidatorByConsAddr consAddr with
  | none => .ok s
  | some v =>
    if v.status = .unbonded then .ok s
    else do
      let b ← s.books.appendAbandonedValidatorAddrs consAddr
      let b ← if v.jailed then .ok b else b.jail consAddr
      return { s with books := b }

/-! ## The end of a block -/

/-- One entry of the queue of undelegations: it is deleted, and the undelegation completed. -/
def completeEntry (sk : PoolKeeper B) (r : StakingState B × List (Address × Int))
    (key : Int ×ₗ Address) : StakingState B × List (Address × Int) :=
  let s := { r.1 with
    books := r.1.books.deleteAddrByTimeKey (ofLex key).1 (ofLex key).2 }
  match s.completeUndelegation sk (ofLex key).2 with
  | .error _ => (s, r.2)
  | .ok (s, quantity) => (s, r.2 ++ [((ofLex key).2, quantity)])

/-- The entries `IterateKeysBeforeCurrentTime` visits. -/
def matureEntries (s : StakingState B) (time : Int) : List (Int ×ₗ Address) :=
  s.books.undelegateQueue.keys.filter fun key => (ofLex key).1 ≤ time

/-- `EndBlocker`. -/
def endBlocker (sk : PoolKeeper B) (height time : Int) (s : StakingState B) :
    Except StakingError (StakingState B × List ValidatorUpdate × List (Address × Int)) := do
  let (b, updates) ← s.books.updateValidatorSet height time s.params
  let b ← b.unbondAllMatureValidatorQueue time
  let s := { s with books := b }
  let (s, paid) := (s.matureEntries time).foldl (completeEntry sk) (s, [])
  return (s, updates, paid)

/-! ## Invariants -/

/-- `DelegatorAddSharesInvariant`: whether it is broken. -/
def delegatorAddSharesInvariant (s : StakingState B) : Bool :=
  s.books.validators.values.any fun v =>
    let own := if v.minSelfDelegation = 0 ∧ v.jailed then 0 else Dec.one
    let all := (s.books.shares.entries.filter fun e => (ofLex e.1).1 = v.operatorAddress).map Prod.snd
    v.delegatorShares ≠ all.foldl (fun total shares => total + shares) own

/-- `ModuleAccountInvariantsCustom`: whether it is broken. -/
def moduleAccountInvariantsCustom (sk : PoolKeeper B) (s : StakingState B) : Bool :=
  let bonded := s.books.validators.values.foldl (fun total v => total + v.minSelfDelegation) 0
  let bonded := s.books.delegators.values.foldl (fun total d => total + d.tokens) bonded
  let notBonded := s.books.undelegationInfos.values.foldl (fun total u => total + u.quantity) 0
  sk.moduleCoins s.bank bondedPoolName s.params.bondDenom ≠ bonded ||
    sk.moduleCoins s.bank notBondedPoolName s.params.bondDenom ≠ notBonded

end StakingState

end Okexchain
