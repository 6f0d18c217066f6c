import Okexchain.Lib.Checked
import Okexchain.Token.Coins
import Okexchain.Token.Supply

/-!
# The distribution module

Model of `x/distribution`: `BeginBlocker` (`abci.go`), `AllocateTokens` with its two loops
(`keeper/allocation.go`), the staking hooks (`keeper/hooks.go`), `WithdrawValidatorCommission` and
`SetWithdrawAddr` (`keeper/keeper.go`), the community pool (`keeper/proposal_handler.go`) and
`CanWithdrawInvariant` (`keeper/invariants.go`).

* What the module asks the staking keeper is a `StakingView`: the validator of a consensus address,
  and all validators in the order of the store.
* The supply keeper, the blacklist of `app.go` and the start height are outside of the module. The
  blacklist has the module's own account on it.
* A panic of `BeginBlocker` halts the chain; a panic of a hook or the error of a message drops the
  transaction. Either way there is no new state.
* `GetFeePool` and `GetPreviousProposerConsAddr` panic on a store that `InitGenesis` has not
  written; the state here is one it has.
* Events, log lines and the previous proposer's validator, which is only logged, are left out.
-/

namespace Okexchain

/-- What the module reads of a validator. -/
structure ValidatorView where
  operator : Address
  jailed : Bool
  delegatorShares : Int
deriving DecidableEq, Repr

/-- What the module asks the staking keeper. -/
structure StakingView where
  /-- `ValidatorByConsAddr`. -/
  validatorByConsAddr : Address → Option ValidatorView
  /-- The validators `IterateValidators` visits. -/
  validators : List ValidatorView

/-- A vote of the last commit: the consensus address and the power. -/
structure CommitVote where
  address : Address
  power : Int
deriving DecidableEq, Repr

/-- `types.ModuleName`. -/
def distrModuleName : String := "distribution"

/-- The supply keeper, the blacklist of `app.go` and `GetStartBlockHeight`. -/
structure DistrKeeper (B : Type) extends SupplyKeeper B where
  blacklistedAddrs : Address → Bool
  startBlockHeight : Int
  blacklisted_distr : blacklistedAddrs (moduleAddress distrModuleName) = true

/-- `Params`, as they are validated. -/
structure DistrParams where
  communityTax : Int
  withdrawAddrEnabled : Bool
  communityTax_nonneg : 0 ≤ communityTax
  communityTax_le_one : communityTax ≤ Dec.one

instance : DecidableEq DistrParams := fun p q =>
  decidable_of_iff
    (p.communityTax = q.communityTax ∧ p.withdrawAddrEnabled = q.withdrawAddrEnabled)
    ⟨fun h => by cases p; cases q; cases h.1; cases h.2; rfl, fun h => h ▸ ⟨rfl, rfl⟩⟩

/-- The store of the module and the bank. -/
structure DistrState (B : Type) where
  communityPool : Coins
  accumulatedCommissions : KVStore Address Coins
  delegatorWithdrawAddrs : KVStore Address Address
  previousProposer : Address
  params : DistrParams
  bank : B
deriving DecidableEq

/-- What goes wrong. -/
inductive DistrError where
  /-- A panic: the fees cannot be moved. -/
  | feesNotMoved
  /-- A panic: `Sub` of more than there is. -/
  | negativeCoins
  /-- A panic: `QuoTruncate` by zero. -/
  | divisionByZero
  | noValidatorCommission
  | sendCoinsFromModuleToAccountFailed
  | withdrawAddrInblacklist
  | setWithdrawAddrDisabled
  | blacklistedRecipient
  | badDistribution
deriving DecidableEq, Repr

/-- `TruncateDecimal`: the whole part of every coin, and the rest. -/
def Coins.truncateDecimal (c : Coins) : Coins × Coins :=
  let whole : Coins := c.mapRange (fun _ a => a.tdiv Dec.one * Dec.one) fun _ => by simp
  (whole, c - whole)

/-- `valPortion`. -/
def valPortion : Int := 250000000000000000

/-- `votePortion`. -/
def votePortion : Int := 750000000000000000

namespace DistrState

variable {B : Type}

/-! ## The store -/

/-- `GetValidatorAccumulatedCommission`. -/
def getCommission (s : DistrState B) (operator : Address) : Coins :=
  (s.accumulatedCommissions.get operator).getD 0

/-- `SetValidatorAccumulatedCommission`. -/
def setCommission (s : DistrState B) (operator : Address) (commission : Coins) : DistrState B :=
  { s with accumulatedCommissions := s.accumulatedCommissions.set operator commission }

/-- `GetDelegatorWithdrawAddr`. -/
def getWithdrawAddr (s : DistrState B) (delegator : Address) : Address :=
  (s.delegatorWithdrawAddrs.get delegator).getD delegator

/-! ## Allocation -/

/-- `AllocateTokensToValidator`. -/
def allocateTokensToValidator (s : DistrState B) (operator : Address) (tokens : Coins) :
    DistrState B :=
  s.setCommission operator (s.getCommission operator + tokens)

/-- The body of the loops of the two allocations: an operator gets its fraction of the rewards. -/
def allocateOne (rewards : Coins) (acc : DistrState B × Coins) (e : Address × Int) :
    Except DistrError (DistrState B × Coins) := do
  let reward := rewards.mulDecTruncate e.2
  let remaining ← orThrow (acc.2.subCoins reward) .negativeCoins
  return (acc.1.allocateTokensToValidator e.1 reward, remaining)

/-- The loop of the two allocations: every operator gets its fraction of the rewards, and what is
left comes back. -/
def allocate (rewards : Coins) (fractions : List (Address × Int)) (s : DistrState B) :
    Except DistrError (DistrState B × Coins) :=
  fractions.foldlM (allocateOne rewards) (s, rewards)

/-- The validators of the votes that are still there and not jailed. -/
def voters (view : StakingView) (previousVotes : List CommitVote) : List ValidatorView :=
  (previousVotes.filterMap fun vote => view.validatorByConsAddr vote.address).filter (!·.jailed)

/-- `allocateByEqual`. -/
def allocateByEqual (view : StakingView) (rewards : Coins) (previousVotes : List CommitVote)
    (s : DistrState B) : Except DistrError (DistrState B × Coins) := do
  let validators := voters view previousVotes
  require (validators.length ≠ 0) .divisionByZero
  let powerFraction := Dec.quoTruncate (Dec.newDec 1) (Dec.newDec validators.length)
  s.allocate rewards (validators.map fun val => (val.operator, powerFraction))

/-- The validators that are not jailed. -/
def unjailed (view : StakingView) : List ValidatorView := view.validators.filter (!·.jailed)

/-- The shares of all validators that are not jailed. -/
def totalVotes (view : StakingView) : Int := ((unjailed view).map (·.delegatorShares)).sum

/-- `allocateByShares`. The division is made for every validator, so there is none without one. -/
def allocateByShares (view : StakingView) (rewards : Coins) (s : DistrState B) :
    Except DistrError (DistrState B × Coins) := do
  let validators := unjailed view
  require (validators = [] ∨ totalVotes view ≠ 0) .divisionByZero
  s.allocate rewards
    (validators.map fun val => (val.operator, Dec.quoTruncate val.delegatorShares (totalVotes view)))

/-- The part of `AllocateTokens` after the fees have been moved: they are split. -/
def splitFees (view : StakingView) (feesCollected : Coins) (previousVotes : List CommitVote)
    (s : DistrState B) : Except DistrError (DistrState B) := do
  let feesToVals := feesCollected.mulDecTruncate (Dec.one - s.params.communityTax)
  let feeByEqual := feesToVals.mulDecTruncate valPortion
  let feeByVote := feesToVals.mulDecTruncate votePortion
  let feesToCommunity ← orThrow (feesCollected.subCoins (feeByEqual + feeByVote)) .negativeCoins
  let (s, remainByEqual) ← s.allocateByEqual view feeByEqual previousVotes
  let (s, remainByShare) ← s.allocateByShares view feeByVote
  let feesToCommunity := feesToCommunity + (remainByEqual + remainByShare)
  return { s with communityPool := s.communityPool + feesToCommunity }

/-- `AllocateTokens`. -/
def allocateTokens (dk : DistrKeeper B) (view : StakingView) (totalPreviousPower : Int)
    (previousVotes : List CommitVote) (s : DistrState B) : Except DistrError (DistrState B) := do
  let feesCollected := dk.moduleCoins s.bank feeCollectorName
  if feesCollected = 0 then return s
  else
    let bank ← orThrow
      (dk.sendCoinsFromModuleToModule s.bank feeCollectorName distrModuleName feesCollected)
      .feesNotMoved
    let s := { s with bank := bank }
    if totalPreviousPower = 0 then
      return { s with communityPool := s.communityPool + feesCollected }
    else s.splitFees view feesCollected previousVotes

/-- The power of the last commit. -/
def previousTotalPower (votes : List CommitVote) : Int := (votes.map (·.power)).sum

/-- The state after the fees of the previous block have been distributed. The first block has
none. -/
def allocated (dk : DistrKeeper B) (view : StakingView) (height : Int) (votes : List CommitVote)
    (s : DistrState B) : Except DistrError (DistrState B) :=
  if height > dk.startBlockHeight + 1 then
    s.allocateTokens dk view (previousTotalPower votes) votes
  else .ok s

/-- `BeginBlocker`. -/
def beginBlocker (dk : DistrKeeper B) (view : StakingView) (height : Int)
    (votes : List CommitVote) (proposer : Address) (s : DistrState B) :
    Except DistrError (DistrState B) := do
  let s ← s.allocated dk view height votes
  return { s with previousProposer := proposer }

/-! ## Commissions -/

/-- The bank after an operator has been paid, if there is something to pay. -/
def payOperator (dk : DistrKeeper B) (operator : Address) (coins : Coins) (s : DistrState B) :
    Except DistrError B :=
  if coins = 0 then .ok s.bank
  else
    orThrow
      (dk.sendCoinsFromModuleToAccount s.bank distrModuleName (s.getWithdrawAddr operator) coins)
      .sendCoinsFromModuleToAccountFailed

/-- `WithdrawValidatorCommission`. -/
def withdrawValidatorCommission (dk : DistrKeeper B) (operator : Address) (s : DistrState B) :
    Except DistrError (DistrState B) := do
  let accumCommission := s.getCommission operator
  require (accumCommission ≠ 0) .noValidatorCommission
  let (commission, remainder) := accumCommission.truncateDecimal
  let bank ← s.payOperator dk operator commission
  return { s.setCommission operator remainder with bank := bank }

/-- `AfterValidatorCreated`. -/
def afterValidatorCreated (operator : Address) (s : DistrState B) : DistrState B :=
  s.setCommission operator 0

/-- `AfterValidatorRemoved`; it panics where this is an error. -/
def afterValidatorRemoved (dk : DistrKeeper B) (operator : Address) (s : DistrState B) :
    Except DistrError (DistrState B) := do
  let commission := s.getCommission operator
  let (coins, remainder) := commission.truncateDecimal
  let bank ← s.payOperator dk operator coins
  return { s with
    communityPool := s.communityPool + remainder
    bank := bank
    accumulatedCommissions := s.accumulatedCommissions.delete operator }

/-- `SetWithdrawAddr`. -/
def setWithdrawAddr (dk : DistrKeeper B) (delegator withdrawAddr : Address) (s : DistrState B) :
    Except DistrError (DistrState B) := do
  require (dk.blacklistedAddrs withdrawAddr = false) .withdrawAddrInblacklist
  require s.params.withdrawAddrEnabled .setWithdrawAddrDisabled
  return { s with
    delegatorWithdrawAddrs := s.delegatorWithdrawAddrs.set delegator withdrawAddr }

/-- `HandleCommunityPoolSpendProposal`. -/
def handleCommunityPoolSpendProposal (dk : DistrKeeper B) (recipient : Address) (amount : Coins)
    (s : DistrState B) : Except DistrError (DistrState B) := do
  require (dk.blacklistedAddrs recipient = false) .blacklistedRecipient
  require ((s.communityPool - amount).isNegative = false) .badDistribution
  let bank ← orThrow (dk.sendCoinsFromModuleToAccount s.bank distrModuleName recipient amount)
    .sendCoinsFromModuleToAccountFailed
  return { s with bank := bank, communityPool := s.communityPool - amount }

/-- One turn of `CanWithdrawInvariant`. -/
def withdrawAny (dk : DistrKeeper B) (s : DistrState B) (val : ValidatorView) :
    Except DistrError (DistrState B) :=
  if s.getCommission val.operator = 0 then .ok s
  else s.withdrawValidatorCommission dk val.operator

/-- `CanWithdrawInvariant`: whether it is broken, by the first withdrawal that fails. -/
def canWithdrawInvariant (dk : DistrKeeper B) (view : StakingView) (s : DistrState B) : Bool :=
  !(view.validators.foldlM (withdrawAny dk) s).isOk

end DistrState

end Okexchain
