import Okexchain.Staking.Handler

/-!
# Slashing and evidence

Model of `x/slashing`: `internal/keeper/infractions.go`, `hooks.go`, `unjail.go`, `signing_info.go`,
`params.go`, `keeper_okexchain.go`, `genesis.go`; and of `HandleDoubleSign` in
`x/evidence/internal/keeper/infraction.go`.

* The slashing store has the keys it knows, the signing infos, and the bits of the missed blocks.
  The hooks of the staking module write it. They are the calls that `StakingBooks.hooks` lists, and
  nothing in staking reads what they write: so they are applied after the call that made them
  (`SlashingBooks.notify`).
* Nothing is slashed: the fractions are zero in the source and the calls are commented out.
* `allowsUnjail` is what `Unjail` asks of the signing info, `StakingState.handleMsgUnjail` the rest.
* A vote's power and an evidence's height only go to logs and events, and are left out.
* The `BeginBlocker`s call `HandleValidatorSignature` for every vote of the last commit and
  `HandleDoubleSign` for every equivocation, and nothing else; their loops are left to the runs.
-/

namespace Okexchain

/-! ## Types -/

/-- `ValStatus`. -/
inductive ValStatus where
  | created
  | destroying
  | destroyed
deriving DecidableEq, Repr

/-- `ValidatorSigningInfo`. -/
structure ValidatorSigningInfo where
  address : Address
  startHeight : Int
  indexOffset : Int
  jailedUntil : Int
  tombstoned : Bool
  missedBlocksCounter : Int
  validatorStatus : ValStatus
deriving DecidableEq, Repr

/-- `Params` of the slashing and of the evidence module, as `ParamSetPairs` validates them. -/
structure SlashingParams where
  signedBlocksWindow : Int
  minSignedPerWindow : Int
  downtimeJailDuration : Int
  maxEvidenceAge : Int
  signedBlocksWindow_pos : 0 < signedBlocksWindow
  minSignedPerWindow_le : minSignedPerWindow ≤ Dec.one
  minSignedPerWindow_nonneg : 0 ≤ minSignedPerWindow
  downtimeJailDuration_pos : 0 < downtimeJailDuration
  maxEvidenceAge_pos : 0 < maxEvidenceAge

/-- `MinSignedPerWindow`, as a number of blocks. -/
def SlashingParams.minSignedBlocks (p : SlashingParams) : Int :=
  Dec.chopPrecisionAndRound (p.minSignedPerWindow * p.signedBlocksWindow)

/-- `DoubleSignJailEndTime`. -/
def doubleSignJailEndTime : Int := 253402300799 * 1000000000

/-- `abci.VoteInfo`: a validator of the last block, and whether it has signed. -/
structure VoteInfo where
  address : Address
  signedLastBlock : Bool
deriving DecidableEq, Repr

/-- `Equivocation`. -/
structure Equivocation where
  consensusAddress : Address
  time : Int
deriving DecidableEq, Repr

/-! ## The store -/

/-- The slashing module's store. -/
structure SlashingBooks where
  pubkeys : KVStore Address Unit
  signingInfos : KVStore Address ValidatorSigningInfo
  /-- By consensus address and index. -/
  missedBlocks : KVStore (Address ×ₗ Int) Bool

namespace SlashingBooks

/-- `SetValidatorSigningInfo`. -/
def setValidatorSigningInfo (b : SlashingBooks) (address : Address) (info : ValidatorSigningInfo) :
    SlashingBooks :=
  { b with signingInfos := b.signingInfos.set address info }

/-- `GetValidatorMissedBlockBitArray`. -/
def getValidatorMissedBlockBitArray (b : SlashingBooks) (address : Address) (index : Int) : Bool :=
  (b.missedBlocks.get (toLex (address, index))).getD false

/-- `SetValidatorMissedBlockBitArray`. -/
def setValidatorMissedBlockBitArray (b : SlashingBooks) (address : Address) (index : Int)
    (missed : Bool) : SlashingBooks :=
  { b with missedBlocks := b.missedBlocks.set (toLex (address, index)) missed }

/-- `clearValidatorMissedBlockBitArray`. -/
def clearValidatorMissedBlockBitArray (b : SlashingBooks) (address : Address) : SlashingBooks :=
  { b with
    missedBlocks := (b.missedBlocks.keys.filter fun key => (ofLex key).1 = address).foldl
      KVStore.delete b.missedBlocks }

/-- `modifyValidatorStatus`. -/
def modifyValidatorStatus (b : SlashingBooks) (address : Address) (status : ValStatus) :
    SlashingBooks :=
  match b.signingInfos.get address with
  | none => b
  | some info => b.setValidatorSigningInfo address { info with validatorStatus := status }

/-! ## Hooks -/

/-- `AfterValidatorBonded`. -/
def afterValidatorBonded (height : Int) (b : SlashingBooks) (address : Address) : SlashingBooks :=
  match b.signingInfos.get address with
  | none => b.setValidatorSigningInfo address ⟨address, height, 0, 0, false, 0, .created⟩
  | some _ => b

/-- `AfterValidatorCreated`. -/
def afterValidatorCreated (b : SlashingBooks) (address : Address) : SlashingBooks :=
  ({ b with pubkeys := b.pubkeys.set address () } : SlashingBooks).modifyValidatorStatus address
    .created

/-- `AfterValidatorRemoved`. -/
def afterValidatorRemoved (b : SlashingBooks) (address : Address) : SlashingBooks :=
  ({ b with pubkeys := b.pubkeys.delete address } : SlashingBooks).modifyValidatorStatus address
    .destroyed

/-- `AfterValidatorDestroyed`. -/
def afterValidatorDestroyed (b : SlashingBooks) (address : Address) : SlashingBooks :=
  b.modifyValidatorStatus address .destroying

/-- A hook of the staking module. -/
def hook (height : Int) (b : SlashingBooks) : StakingHook → SlashingBooks
  | .validatorCreated consAddr => b.afterValidatorCreated consAddr
  | .validatorBonded consAddr => b.afterValidatorBonded height consAddr
  | .validatorRemoved consAddr => b.afterValidatorRemoved consAddr
  | .validatorDestroyed consAddr => b.afterValidatorDestroyed consAddr

/-- The hooks that the staking module has called since it had the `before` store. -/
def notify (height : Int) (b : SlashingBooks) (before after : StakingBooks) : SlashingBooks :=
  (after.hooks.drop before.hooks.length).foldl (hook height) b

/-! ## Jail -/

/-- What `Unjail` asks of the signing info. -/
def allowsUnjail (b : SlashingBooks) (time : Int) (consAddr : Address) : Bool :=
  match b.signingInfos.get consAddr with
  | none => false
  | some info =>
    info.validatorStatus ≠ .destroying ∧ info.tombstoned = false ∧ info.jailedUntil ≤ time

/-- `JailUntil`. -/
def jailUntil (b : SlashingBooks) (consAddr : Address) (jailTime : Int) :
    Except StakingError SlashingBooks := do
  let info ← orThrow (b.signingInfos.get consAddr) (.panic (.signingInfoNotFound consAddr))
  return b.setValidatorSigningInfo consAddr { info with jailedUntil := jailTime }

/-- `Tombstone`. -/
def tombstone (b : SlashingBooks) (consAddr : Address) : Except StakingError SlashingBooks := do
  let info ← orThrow (b.signingInfos.get consAddr) (.panic (.signingInfoNotFound consAddr))
  require (info.tombstoned = false) (.panic .alreadyTombstoned)
  return b.setValidatorSigningInfo consAddr { info with tombstoned := true }

/-- `IsTombstoned`. -/
def isTombstoned (b : SlashingBooks) (consAddr : Address) : Bool :=
  (b.signingInfos.get consAddr).elim false ValidatorSigningInfo.tombstoned

/-! ## Missed blocks -/

/-- The bit array and the counter of `HandleValidatorSignature`. -/
def countSignature (window : Int) (b : SlashingBooks) (consAddr : Address)
    (info : ValidatorSigningInfo) (signed : Bool) : SlashingBooks × ValidatorSigningInfo :=
  let index := info.indexOffset.tmod window
  let info := { info with indexOffset := info.indexOffset + 1 }
  let previous := b.getValidatorMissedBlockBitArray consAddr index
  let missed := !signed
  if ¬ previous ∧ missed then
    (b.setValidatorMissedBlockBitArray consAddr index true,
      { info with missedBlocksCounter := info.missedBlocksCounter + 1 })
  else if previous ∧ ¬ missed then
    (b.setValidatorMissedBlockBitArray consAddr index false,
      { info with missedBlocksCounter := info.missedBlocksCounter - 1 })
  else (b, info)

end SlashingBooks

/-! ## The begin of a block -/

variable {B : Type}

/-- The validator that has missed too many blocks, if it is there and not jailed. -/
def StakingState.absentee (s : StakingState B) (consAddr : Address) : Option Validator :=
  (s.books.getValidatorByConsAddr consAddr).filter fun v => v.jailed = false

/-- `HandleValidatorSignature`. -/
def handleValidatorSignature (params : SlashingParams) (height time : Int)
    (r : StakingState B × SlashingBooks) (vote : VoteInfo) :
    Except StakingError (StakingState B × SlashingBooks) := do
  let consAddr := vote.address
  let _ ← orThrow (r.2.pubkeys.get consAddr) (.panic (.pubkeyNotFound consAddr))
  let info ← orThrow (r.2.signingInfos.get consAddr) (.panic (.signingInfoNotFound consAddr))
  let (b, info) :=
    r.2.countSignature params.signedBlocksWindow consAddr info vote.signedLastBlock
  let minHeight := info.startHeight + params.signedBlocksWindow
  let maxMissed := params.signedBlocksWindow - params.minSignedBlocks
  if minHeight < height ∧ maxMissed < info.missedBlocksCounter ∧ (r.1.absentee consAddr).isSome then
    let s ← r.1.handleDowntime consAddr
    let info := { info with
      jailedUntil := time + params.downtimeJailDuration
      missedBlocksCounter := 0
      indexOffset := 0 }
    let b := b.clearValidatorMissedBlockBitArray consAddr
    return (s, b.setValidatorSigningInfo consAddr info)
  else return (r.1, b.setValidatorSigningInfo consAddr info)

/-- `HandleDoubleSign`. -/
def handleDoubleSign (params : SlashingParams) (time : Int) (r : StakingState B × SlashingBooks)
    (evidence : Equivocation) : Except StakingError (StakingState B × SlashingBooks) :=
  let consAddr := evidence.consensusAddress
  if (r.2.pubkeys.get consAddr).isNone then .ok r
  else if params.maxEvidenceAge < time - evidence.time then .ok r
  else
    match r.1.books.getValidatorByConsAddr consAddr with
    | none => .ok r
    | some v =>
      if v.status = .unbonded then .ok r
      else do
        let _ ← orThrow (r.2.signingInfos.get consAddr) (.panic (.signingInfoNotFound consAddr))
        if r.2.isTombstoned consAddr then return r
        else
          let s ← r.1.handleDoubleSign consAddr
          let b ← r.2.jailUntil consAddr doubleSignJailEndTime
          let b ← b.tombstone consAddr
          return (s, b)

/-! ## Genesis -/

/-- `GenesisState` of the slashing module. -/
structure SlashingGenesisState where
  signingInfos : List (Address × ValidatorSigningInfo)
  missedBlocks : List (Address × List (Int × Bool))

namespace SlashingBooks

/-- `IterateValidatorMissedBlockBitArray`: the bits of the window. -/
def missedBlocksOf (b : SlashingBooks) (window : Int) (address : Address) : List (Int × Bool) :=
  (List.range window.toNat).filterMap fun index =>
    (b.missedBlocks.get (toLex (address, (index : Int)))).map fun missed => ((index : Int), missed)

/-- `ExportGenesis`. -/
def exportGenesis (params : SlashingParams) (b : SlashingBooks) : SlashingGenesisState where
  signingInfos := b.signingInfos.entries
  missedBlocks := b.signingInfos.keys.map fun address =>
    (address, b.missedBlocksOf params.signedBlocksWindow address)

/-- `InitGenesis`, after that of the staking module. -/
def initGenesis (validators : List Validator) (data : SlashingGenesisState) : SlashingBooks :=
  let b : SlashingBooks := ⟨∅, ∅, ∅⟩
  let b := validators.foldl (fun b v => { b with pubkeys := b.pubkeys.set v.consAddress () }) b
  let b := data.signingInfos.foldl (fun b e => b.setValidatorSigningInfo e.1 e.2) b
  data.missedBlocks.foldl (fun b e =>
    e.2.foldl (fun b missed => b.setValidatorMissedBlockBitArray e.1 missed.1 missed.2) b) b

end SlashingBooks

end Okexchain
