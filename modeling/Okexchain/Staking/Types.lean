import Okexchain.Token.Supply
import Okexchain.Lib.Dec
import Mathlib.Data.Prod.Lex

/-!
# Staking: types and messages

Model of `x/staking/types`: `validator.go`, `validator_standardized.go`, `delegator.go`,
`delegation.go`, `params.go`, `msg.go`, `msg_shares.go`, and the errors of `errors.go`.

* An operator's address and its account's address have the same bytes, so both are an `Address`.
  A consensus key stands for the address that is its hash.
* Times are in nanoseconds since 1970, as integers.
* Commission rates are the same for all validators and are left out. `Tokens` of a validator stays
  zero in the source, where only `RemoveValidator` reads it.
* `sdk.Dec.Int64` takes the low 64 bits of the scaled number (`sharesToConsensusPower`).
-/

namespace Okexchain

/-! ## Validators -/

/-- `sdk.BondStatus`. -/
inductive BondStatus where
  | unbonded
  | unbonding
  | bonded
deriving DecidableEq, Repr

/-- `Description`. -/
structure Description where
  moniker : String
  identity : String
  website : String
  details : String
deriving DecidableEq, Repr

/-- `Validator`. -/
structure Validator where
  operatorAddress : Address
  consPubKey : Address
  jailed : Bool
  status : BondStatus
  tokens : Int
  delegatorShares : Int
  description : Description
  unbondingHeight : Int
  unbondingCompletionTime : Int
  minSelfDelegation : Int
deriving DecidableEq, Repr

/-- `sdk.PowerReduction`. -/
def powerReduction : Int := 1000000

/-- `sharesToConsensusPower`. -/
def sharesToConsensusPower (shares : Int) : Int := (shares.tdiv powerReduction).bmod (2 ^ 64)

namespace Validator

/-- `NewValidator`. -/
def new (operator consPubKey : Address) (description : Description) (minSelfDelegation : Int) :
    Validator where
  operatorAddress := operator
  consPubKey := consPubKey
  jailed := false
  status := .unbonded
  tokens := 0
  delegatorShares := 0
  description := description
  unbondingHeight := 0
  unbondingCompletionTime := 0
  minSelfDelegation := minSelfDelegation

/-- `ConsAddress`. -/
def consAddress (v : Validator) : Address := v.consPubKey

/-- `UpdateStatus`. -/
def updateStatus (v : Validator) (newStatus : BondStatus) : Validator := { v with status := newStatus }

/-- `PotentialConsensusPowerByShares`. -/
def potentialConsensusPowerByShares (v : Validator) : Int := sharesToConsensusPower v.delegatorShares

/-- `ConsensusPowerByShares`. -/
def consensusPowerByShares (v : Validator) : Int :=
  if v.status = .bonded then v.potentialConsensusPowerByShares else 0

/-- `GetValidatorsByPowerIndexKey`: the power as eight bytes, highest first, and the inverted
address, so that of equal powers the smaller address is the greater key. -/
def powerIndexKey (v : Validator) : Nat ×ₗ Addressᵒᵈ :=
  toLex ((v.potentialConsensusPowerByShares % 2 ^ 64).toNat, OrderDual.toDual v.operatorAddress)

end Validator

/-- `abci.ValidatorUpdate`. -/
structure ValidatorUpdate where
  pubKey : Address
  power : Int
deriving DecidableEq, Repr

/-- `ABCIValidatorUpdateByShares`. -/
def Validator.abciValidatorUpdateByShares (v : Validator) : ValidatorUpdate :=
  ⟨v.consPubKey, v.consensusPowerByShares⟩

/-- `ABCIValidatorUpdateZero`. -/
def Validator.abciValidatorUpdateZero (v : Validator) : ValidatorUpdate := ⟨v.consPubKey, 0⟩

/-- The calls of the staking hooks that the slashing module listens to, with the validator's
consensus address. -/
inductive StakingHook where
  | validatorCreated (consAddr : Address)
  | validatorBonded (consAddr : Address)
  | validatorRemoved (consAddr : Address)
  | validatorDestroyed (consAddr : Address)
deriving DecidableEq, Repr

/-! ## Delegators -/

/-- `Delegator`. -/
structure Delegator where
  delegatorAddress : Address
  validatorAddresses : List Address
  shares : Int
  tokens : Int
  isProxy : Bool
  totalDelegatedTokens : Int
  proxyAddress : Option Address
deriving DecidableEq, Repr

namespace Delegator

/-- `NewDelegator`. -/
def new (delAddr : Address) : Delegator := ⟨delAddr, [], 0, 0, false, 0, none⟩

/-- `UnbindProxy`. -/
def unbindProxy (d : Delegator) : Delegator := { d with proxyAddress := none }

/-- `RegProxy`. -/
def regProxy (d : Delegator) (reg : Bool) : Delegator :=
  let d := { d with isProxy := reg }
  if reg then d.unbindProxy else d

/-- `BindProxy`. -/
def bindProxy (d : Delegator) (proxyAddr : Address) : Delegator :=
  { d with proxyAddress := some proxyAddr, isProxy := false }

/-- `HasProxy`. -/
def hasProxy (d : Delegator) : Bool := d.proxyAddress.isSome

end Delegator

/-- `UndelegationInfo`. -/
structure UndelegationInfo where
  delegatorAddress : Address
  quantity : Int
  completionTime : Int
deriving DecidableEq, Repr

/-! ## Parameters and errors -/

/-- `Params`, as `ParamSetPairs` validates them. -/
structure StakingParams where
  unbondingTime : Int
  maxValidators : Nat
  epoch : Nat
  maxValsToAddShares : Nat
  bondDenom : String
  minDelegation : Int
  minSelfDelegation : Int
  unbondingTime_pos : 0 < unbondingTime
  maxValidators_pos : 0 < maxValidators
  epoch_pos : 0 < epoch
  maxValsToAddShares_pos : 0 < maxValsToAddShares
  bondDenom_ne : bondDenom ≠ ""
  minDelegation_pos : 0 < minDelegation
  minSelfDelegation_pos : 0 < minSelfDelegation

/-- `DefaultEpoch`. -/
def defaultEpoch : Nat := 252

/-- What stops a handler half-way: the panics of the source. -/
inductive StakingPanic where
  | validatorNotFound (addr : Address)
  | consAddressNotFound (addr : Address)
  | jailedInPowerStore
  | badStateTransition
  | alreadyJailed
  | alreadyUnjailed
  | removeNotUnbonded
  | removeWithTokens
  | candidateBonded
  /-- "Never occur" -/
  | noLastPower
  | queuedNotFound
  | queuedNotUnbonding
  /-- The transfer between the two pools fails. -/
  | poolTransfer
  /-- "Validator consensus-address … not found" -/
  | pubkeyNotFound (addr : Address)
  | signingInfoNotFound (addr : Address)
  | alreadyTombstoned
  /-- "only okt in …" -/
  | poolCoins (pool : String)
  /-- "coins in … don't match the token sum" -/
  | poolSum (pool : String)
deriving DecidableEq, Repr

/-- The errors of `x/staking/types/errors.go`, those of the slashing and supply keepers, and the
panics. -/
inductive StakingError where
  | noValidatorFound (addr : Address)
  | invalidDelegation (addr : Address)
  | nilValidatorAddr
  | badValidatorAddr
  | moreMinSelfDelegation (addr : Address)
  | proxyNotFound (addr : Address)
  | emptyValidators
  | proxyAlreadyExist (addr : Address)
  | descriptionIsEmpty
  | validatorOwnerExists
  | validatorPubKeyExists
  | descriptionLength (descriptor : String) (got max : Nat)
  | minSelfDelegationInvalid
  | nilDelegatorAddr
  | delegatorEqualToProxyAddr
  | badDenom
  | badDelegationAmount
  | addSharesToDismission (addr : Address)
  | addSharesDuringProxy (delegator proxy : Address)
  | doubleProxy (addr : Address)
  | exceedValidatorAddrs (max : Nat)
  | noDelegationToAddShares (addr : Address)
  | notInDelegating (addr : Address)
  | insufficientDelegation (quantity delegation : Int)
  | insufficientQuantity (quantity limit : Int)
  | noMinSelfDelegation (addr : Address)
  | badUnDelegationAmount
  | invalidProxyUpdating
  | invalidProxyWithdrawTotal (addr : Address)
  | alreadyAddedShares (addr : Address)
  | noDelegatorExisted (addr : Address)
  | targetValsDuplicate
  | alreadyBound (addr : Address)
  | invalidAddress (addr : Address)
  | insufficientCoins
  | noValidatorForAddress
  | missingSelfDelegation
  | validatorNotJailed
  /-- The signing info refuses: still jailed, tombstoned, or being destroyed. -/
  | signingInfoRefuses
  | panic (p : StakingPanic)
deriving DecidableEq, Repr

/-! ## Descriptions -/

namespace Description

/-- `DoNotModifyDesc`. -/
def doNotModifyDesc : String := "[do-not-modify]"

/-- `EnsureLength`. -/
def ensureLength (d : Description) : Except StakingError Description :=
  if 70 < d.moniker.utf8ByteSize then
    .error (.descriptionLength "moniker" d.moniker.utf8ByteSize 70)
  else if 3000 < d.identity.utf8ByteSize then
    .error (.descriptionLength "identity" d.identity.utf8ByteSize 3000)
  else if 140 < d.website.utf8ByteSize then
    .error (.descriptionLength "website" d.website.utf8ByteSize 140)
  else if 280 < d.details.utf8ByteSize then
    .error (.descriptionLength "details" d.details.utf8ByteSize 280)
  else .ok d

/-- `UpdateDescription`. -/
def updateDescription (d d2 : Description) : Except StakingError Description :=
  let keep (old new : String) := if new = doNotModifyDesc then old else new
  ensureLength ⟨keep d.moniker d2.moniker, keep d.identity d2.identity, keep d.website d2.website,
    keep d.details d2.details⟩

end Description

/-! ## Messages -/

/-- `MsgCreateValidator`. -/
structure MsgCreateValidator where
  description : Description
  minSelfDelegation : DecCoin
  delegatorAddress : Address
  validatorAddress : Address
  pubKey : Address

/-- `MsgEditValidator`. -/
structure MsgEditValidator where
  description : Description
  validatorAddress : Address

/-- `MsgDeposit` and `MsgWithdraw`, which have the same fields. -/
structure Staking.MsgDeposit where
  delegatorAddress : Address
  amount : DecCoin

/-- `MsgAddShares`. -/
structure MsgAddShares where
  delAddr : Address
  valAddrs : List Address

/-- `MsgBindProxy`. -/
structure MsgBindProxy where
  delAddr : Address
  proxyAddress : Address

/-- `MsgRegProxy`. -/
structure MsgRegProxy where
  proxyAddress : Address
  reg : Bool

/-- `MsgCreateValidator.ValidateBasic`. -/
def MsgCreateValidator.validateBasic (m : MsgCreateValidator) : Option StakingError :=
  if m.delegatorAddress = "" then some .nilDelegatorAddr
  else if m.validatorAddress = "" then some .nilValidatorAddr
  else if m.validatorAddress ≠ m.delegatorAddress then some .badValidatorAddr
  else if m.minSelfDelegation.amount ≤ 0 then some .minSelfDelegationInvalid
  else if m.description = ⟨"", "", "", ""⟩ then some .descriptionIsEmpty
  else none

/-- `MsgEditValidator.ValidateBasic`. -/
def MsgEditValidator.validateBasic (m : MsgEditValidator) : Option StakingError :=
  if m.validatorAddress = "" then some .nilValidatorAddr
  else if m.description = ⟨"", "", "", ""⟩ then some .nilValidatorAddr
  else none

/-- `MsgDeposit.ValidateBasic`. -/
def Staking.MsgDeposit.validateBasic (m : Staking.MsgDeposit) : Option StakingError :=
  if m.delegatorAddress = "" then some .nilDelegatorAddr
  else if m.amount.amount ≤ 0 then some .badDelegationAmount
  else none

/-- `MsgWithdraw.ValidateBasic`. -/
def Staking.MsgDeposit.validateBasicWithdraw (m : Staking.MsgDeposit) : Option StakingError :=
  if m.delegatorAddress = "" then some .nilDelegatorAddr
  else if m.amount.amount < 0 then some .badUnDelegationAmount
  else none

/-- `MsgAddShares.ValidateBasic`, with `isValsDuplicate`. -/
def MsgAddShares.validateBasic (m : MsgAddShares) : Option StakingError :=
  if m.delAddr = "" then some .nilDelegatorAddr
  else if m.valAddrs = [] then some .badValidatorAddr
  else if ¬ m.valAddrs.Nodup then some .targetValsDuplicate
  else none

/-- `MsgBindProxy.ValidateBasic`. -/
def MsgBindProxy.validateBasic (m : MsgBindProxy) : Option StakingError :=
  if m.delAddr = "" ∨ m.proxyAddress = "" then some .nilDelegatorAddr
  else if m.delAddr = m.proxyAddress then some .delegatorEqualToProxyAddr
  else none

/-- `MsgUnbindProxy.ValidateBasic`, `MsgRegProxy.ValidateBasic` and
`MsgDestroyValidator.ValidateBasic`: the address is there. -/
def validateAddress (addr : Address) : Option StakingError :=
  if addr = "" then some .nilDelegatorAddr else none

/-! ## Weight -/

/-- `blockTimestampEpoch` and `secondsPerWeek`: the week of a block time. -/
def weekOf (time : Int) : Int := (time / 1000000000 - 946684800).tdiv 604800

/-- `calculateWeight`: the source computes the weight of a week in floating point; here it is any
function of the week. -/
def calculateWeight (weight : Int → Int) (time tokens : Int) : Int :=
  Dec.mul tokens (weight (weekOf time))

end Okexchain
