import Okexchain.Staking.Keeper

/-!
# The validator set

Model of `x/staking/keeper/val_state_change.go`, `val_state.go` and `slash.go`, and of the queue of
unbonding validators in `validator.go`.

* The power index is iterated from the highest key down. The loops write the index while they
  iterate it, but only entries they have passed, under the same keys; so they run over the index as
  it was.
* `getLastValidatorsByAddr` copies the last powers into a map, from which
  `ApplyAndReturnValidatorSetUpdates` deletes the validators it meets; what is left is sorted by
  address, which is the order of the store.
* The loops stop early, so they are recursive functions on the list they iterate.
-/

namespace Okexchain

namespace StakingBooks

/-! ## Transitions -/

/-- `bondValidator`, with `DeleteValidatorQueue`. -/
def bondValidator (b : StakingBooks) (v : Validator) : StakingBooks × Validator :=
  let b := b.deleteValidatorByPowerIndex v
  let v := v.updateStatus .bonded
  let b := (b.setValidator v).setValidatorByPowerIndex v
  let timeSlice := (b.validatorQueue.get v.unbondingCompletionTime).getD []
  let newTimeSlice := timeSlice.filter fun addr => addr ≠ v.operatorAddress
  let queue :=
    if newTimeSlice = [] then b.validatorQueue.delete v.unbondingCompletionTime
    else b.validatorQueue.set v.unbondingCompletionTime newTimeSlice
  (callHook { b with validatorQueue := queue } (.validatorBonded v.consAddress), v)

/-- `beginUnbondingValidator`, with `InsertValidatorQueue`. -/
def beginUnbondingValidator (height time : Int) (params : StakingParams) (b : StakingBooks)
    (v : Validator) : Except StakingError (StakingBooks × Validator) := do
  let b := b.deleteValidatorByPowerIndex v
  require (v.status = .bonded) (.panic .badStateTransition)
  let v := { v.updateStatus .unbonding with
    unbondingCompletionTime := time + params.unbondingTime
    unbondingHeight := height }
  let b := (b.setValidator v).setValidatorByPowerIndex v
  let timeSlice := (b.validatorQueue.get v.unbondingCompletionTime).getD []
  let b := { b with
    validatorQueue :=
      b.validatorQueue.set v.unbondingCompletionTime (timeSlice ++ [v.operatorAddress]) }
  return (b, v)

/-- `completeUnbondingValidator`. -/
def completeUnbondingValidator (b : StakingBooks) (v : Validator) : StakingBooks × Validator :=
  let v := v.updateStatus .unbonded
  (b.setValidator v, v)

/-- `Jail`, with `jailValidator`. -/
def jail (b : StakingBooks) (consAddr : Address) : Except StakingError StakingBooks := do
  let v ← b.mustGetValidatorByConsAddr consAddr
  require (v.jailed = false) (.panic .alreadyJailed)
  let v := { v with jailed := true }
  return (b.setValidator v).deleteValidatorByPowerIndex v

/-- `Unjail`, with `unjailValidator`. -/
def unjail (b : StakingBooks) (consAddr : Address) : Except StakingError StakingBooks := do
  let v ← b.mustGetValidatorByConsAddr consAddr
  require (v.jailed = true) (.panic .alreadyUnjailed)
  let v := { v with jailed := false }
  return (b.setValidator v).setValidatorByPowerIndex v

/-! ## The end of an epoch -/

/-- What the loop of `ApplyAndReturnValidatorSetUpdates` carries along. -/
structure Election where
  books : StakingBooks
  last : KVStore Address Int
  updates : List ValidatorUpdate
  totalPower : Int

/-- The loop of `ApplyAndReturnValidatorSetUpdates` over the power index, for at most `count` more
validators. -/
def elect : Nat → List Address → Election → Except StakingError Election
  | 0, _, e => .ok e
  | _ + 1, [], e => .ok e
  | count + 1, valAddr :: rest, e => do
    let v ← e.books.mustGetValidator valAddr
    require (v.jailed = false) (.panic .jailedInPowerStore)
    if v.potentialConsensusPowerByShares = 0 then return e
    else
      let (b, v) := if v.status = .bonded then (e.books, v) else e.books.bondValidator v
      let newPower := v.consensusPowerByShares
      let unchanged := e.last.get valAddr = some newPower
      let b := if unchanged then b else
        { b with lastValidatorPower := b.lastValidatorPower.set valAddr newPower }
      elect count rest {
        books := b
        last := e.last.delete valAddr
        updates := if unchanged then e.updates else e.updates ++ [v.abciValidatorUpdateByShares]
        totalPower := e.totalPower + newPower }

/-- The loop over the no-longer-bonded validators. -/
def retire (height time : Int) (params : StakingParams) (r : StakingBooks × List ValidatorUpdate)
    (valAddr : Address) : Except StakingError (StakingBooks × List ValidatorUpdate) := do
  let v ← r.1.mustGetValidator valAddr
  let (b, v) ← r.1.beginUnbondingValidator height time params v
  let b := { b with lastValidatorPower := b.lastValidatorPower.delete v.operatorAddress }
  return (b, r.2 ++ [v.abciValidatorUpdateZero])

/-- The addresses of the power index, highest power first. -/
def candidates (b : StakingBooks) : List Address :=
  (b.validatorsByPowerIndex.entries.map Prod.snd).reverse

/-- `ApplyAndReturnValidatorSetUpdates`. -/
def applyAndReturnValidatorSetUpdates (height time : Int) (params : StakingParams)
    (b : StakingBooks) : Except StakingError (StakingBooks × List ValidatorUpdate) := do
  let e ← elect params.maxValidators b.candidates ⟨b, b.lastValidatorPower, [], 0⟩
  let (b, updates) ← e.last.keys.foldlM (retire height time params) (e.books, e.updates)
  let b := if updates = [] then b else { b with lastTotalPower := some e.totalPower }
  return (b, updates)

/-! ## Inside an epoch -/

/-- What the loops of `KickOutAndReturnValidatorSetUpdates` carry along. -/
structure KickOut where
  books : StakingBooks
  updates : List ValidatorUpdate
  totalPower : Int

/-- The loop that promotes candidates, for at most `abandonedNum` more. -/
def promote (lastBondedVals : KVStore Address Int) :
    Nat → List Address → KickOut → Except StakingError KickOut
  | 0, _, r => .ok r
  | _ + 1, [], r => .ok r
  | abandonedNum + 1, valAddr :: rest, r =>
    if (lastBondedVals.get valAddr).isSome then
      promote lastBondedVals (abandonedNum + 1) rest r
    else do
      let v ← r.books.mustGetValidator valAddr
      if v.potentialConsensusPowerByShares = 0 then
        promote lastBondedVals (abandonedNum + 1) rest r
      else
        require (v.status ≠ .bonded) (.panic .candidateBonded)
        let (b, v) := r.books.bondValidator v
        let newPower := v.consensusPowerByShares
        promote lastBondedVals abandonedNum rest {
          books := { b with lastValidatorPower := b.lastValidatorPower.set valAddr newPower }
          updates := r.updates ++ [v.abciValidatorUpdateByShares]
          totalPower := r.totalPower + newPower }

/-- The loop that discharges the abandoned validators. -/
def discharge (height time : Int) (params : StakingParams) (lastBondedVals : KVStore Address Int)
    (r : KickOut) (valAddr : Address) : Except StakingError KickOut := do
  let v ← r.books.mustGetValidator valAddr
  if v.status ≠ .bonded then return r
  else
    let (b, _) ← r.books.beginUnbondingValidator height time params v
    let b := { b with lastValidatorPower := b.lastValidatorPower.delete v.operatorAddress }
    let oldPower ← orThrow (lastBondedVals.get valAddr) (.panic .noLastPower)
    return {
      books := b
      updates := r.updates ++ [v.abciValidatorUpdateZero]
      totalPower := r.totalPower - oldPower }

/-- `KickOutAndReturnValidatorSetUpdates`. -/
def kickOutAndReturnValidatorSetUpdates (height time : Int) (params : StakingParams)
    (b : StakingBooks) : Except StakingError (StakingBooks × List ValidatorUpdate) := do
  let lastBondedVals := b.lastValidatorPower
  let abandoned := b.abandonedValidatorAddrs
  let r ← promote lastBondedVals abandoned.length b.candidates ⟨b, [], b.lastTotalPower.getD 0⟩
  let r ← abandoned.foldlM (discharge height time params lastBondedVals) r
  return ({ r.books with lastTotalPower := some r.totalPower }, r.updates)

/-! ## The queue of unbonding validators -/

/-- One validator of a time slice of `UnbondAllMatureValidatorQueue`. -/
def unbondMature (b : StakingBooks) (valAddr : Address) : Except StakingError StakingBooks := do
  let v ← orThrow (b.getValidator valAddr) (.panic .queuedNotFound)
  require (v.status = .unbonding) (.panic .queuedNotUnbonding)
  let (b, v) := b.completeUnbondingValidator v
  if v.delegatorShares = 0 ∧ v.minSelfDelegation = 0 then b.removeValidator v.operatorAddress
  else return b

/-- One time slice. -/
def unbondSlice (b : StakingBooks) (slice : Int × List Address) :
    Except StakingError StakingBooks := do
  let b ← slice.2.foldlM unbondMature b
  return { b with validatorQueue := b.validatorQueue.delete slice.1 }

/-- `UnbondAllMatureValidatorQueue`. -/
def unbondAllMatureValidatorQueue (time : Int) (b : StakingBooks) :
    Except StakingError StakingBooks :=
  (b.validatorQueue.entries.filter fun slice => slice.1 ≤ time).foldlM unbondSlice b

/-! ## Epochs -/

/-- `GetEpoch`. -/
def getEpoch (b : StakingBooks) : Nat := b.epoch.getD defaultEpoch

/-- `IsEndOfEpoch`. -/
def isEndOfEpoch (height : Int) (b : StakingBooks) : Bool :=
  (height - b.theEndOfLastEpoch.getD 0).tmod b.getEpoch = 0

/-- The validator set at the end of a block: an election at the end of an epoch, and inside an epoch
when validators are to be kicked out. -/
def updateValidatorSet (height time : Int) (params : StakingParams) (b : StakingBooks) :
    Except StakingError (StakingBooks × List ValidatorUpdate) :=
  if b.isEndOfEpoch height then do
    let b := if b.getEpoch = params.epoch then b else { b with epoch := some params.epoch }
    let b := { b with theEndOfLastEpoch := some height }
    let (b, updates) ← b.applyAndReturnValidatorSetUpdates height time params
    return ({ b with abandonedValidatorAddrs := [] }, updates)
  else if b.abandonedValidatorAddrs ≠ [] then do
    let (b, updates) ← b.kickOutAndReturnValidatorSetUpdates height time params
    return ({ b with abandonedValidatorAddrs := [] }, updates)
  else .ok (b, [])

end StakingBooks

end Okexchain
