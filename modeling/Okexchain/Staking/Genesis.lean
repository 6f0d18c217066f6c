import Okexchain.Staking.Agreement
import Okexchain.Staking.Pools
import Okexchain.Staking.Shares

/-!
# Staking: genesis

Model of `x/staking/genesis.go`, of `x/staking/types/genesis.go` and of `Validator.Export`.

* An export has the validators without their tokens, which are zero, and without their commission.
  It has none of the indexes: `InitGenesis` makes them again from the validators.
* A consensus key and its text are the same here, so `Import` does not fail.
* The pools always exist. `checkTokenSum` lets an empty pool pass, whatever the sum is.
* The list of hooks is not part of the store, so an import keeps it. An import of an exported
  genesis calls no hook.

**Results.** `initGenesis_exportGenesis`: an import of an export is what its checks of the pools
answer, with a store in which only the order inside the time slices, the epoch and the list of
abandoned validators may differ. `staking_genesis_round_trip`: when the pools match, the import
succeeds and restores everything. `exported_genesis_validates_iff`: an export at the end of a block
validates exactly when every destroyed validator still has votes.
-/

namespace Okexchain

/-! ## The genesis state -/

/-- `ValidatorExported`. -/
structure ValidatorExported where
  operatorAddress : Address
  consPubKey : Address
  jailed : Bool
  status : BondStatus
  delegatorShares : Int
  description : Description
  unbondingHeight : Int
  unbondingCompletionTime : Int
  minSelfDelegation : Int
deriving DecidableEq, Repr

/-- `Validator.Export`. -/
def Validator.exported (v : Validator) : ValidatorExported where
  operatorAddress := v.operatorAddress
  consPubKey := v.consPubKey
  jailed := v.jailed
  status := v.status
  delegatorShares := v.delegatorShares
  description := v.description
  unbondingHeight := v.unbondingHeight
  unbondingCompletionTime := v.unbondingCompletionTime
  minSelfDelegation := v.minSelfDelegation

namespace ValidatorExported

/-- `Import`. -/
def imported (ve : ValidatorExported) : Validator where
  operatorAddress := ve.operatorAddress
  consPubKey := ve.consPubKey
  jailed := ve.jailed
  status := ve.status
  tokens := 0
  delegatorShares := ve.delegatorShares
  description := ve.description
  unbondingHeight := ve.unbondingHeight
  unbondingCompletionTime := ve.unbondingCompletionTime
  minSelfDelegation := ve.minSelfDelegation

/-- `ConsAddress`. -/
def consAddress (ve : ValidatorExported) : Address := ve.consPubKey

/-- `IsBonded`. -/
def isBonded (ve : ValidatorExported) : Bool := ve.status = .bonded

end ValidatorExported

/-- `LastValidatorPower`. -/
structure LastValidatorPower where
  address : Address
  power : Int
deriving DecidableEq, Repr

/-- `SharesExported`. -/
structure SharesExported where
  delAddress : Address
  validatorAddress : Address
  shares : Int
deriving DecidableEq, Repr

/-- `ProxyDelegatorKeyExported`. -/
structure ProxyDelegatorKeyExported where
  delAddr : Address
  proxyAddr : Address
deriving DecidableEq, Repr

/-- `GenesisState`. -/
structure StakingGenesisState where
  params : StakingParams
  lastTotalPower : Int
  lastValidatorPowers : List LastValidatorPower
  validators : List ValidatorExported
  delegators : List Delegator
  unbondingDelegations : List UndelegationInfo
  allShares : List SharesExported
  proxyDelegatorKeys : List ProxyDelegatorKeyExported
  exported : Bool

/-! ## Export and import -/

namespace StakingBooks

/-- An empty store. -/
def fresh (hooks : List StakingHook) : StakingBooks :=
  ⟨∅, ∅, ∅, ∅, none, ∅, [], ∅, ∅, ∅, ∅, ∅, none, none, hooks⟩

/-- `InsertValidatorQueue`. -/
def insertValidatorQueue (b : StakingBooks) (v : Validator) : StakingBooks :=
  { b with validatorQueue := b.validatorQueue.push v.unbondingCompletionTime v.operatorAddress }

/-- `initValidator`, with the sum of the bonded tokens. -/
def initValidator (exported : Bool) (r : StakingBooks × Int) (valExported : ValidatorExported) :
    StakingBooks × Int :=
  let v := valExported.imported
  let b := r.1.setValidator v
  let b := b.setValidatorByConsAddr v
  let b := b.setValidatorByPowerIndex v
  let b := if exported then b else b.callHook (.validatorCreated v.consAddress)
  let b := if v.status = .unbonding then b.insertValidatorQueue v else b
  (b, r.2 + v.minSelfDelegation)

/-- `initDelegator`. -/
def initDelegator (r : StakingBooks × Int) (delegator : Delegator) : StakingBooks × Int :=
  (r.1.setDelegator delegator, r.2 + delegator.tokens)

/-- `initUnbondingDelegation`. -/
def initUnbondingDelegation (r : StakingBooks × Int) (ubd : UndelegationInfo) :
    StakingBooks × Int :=
  ((r.1.setUndelegating ubd).setAddrByTimeKey ubd.completionTime ubd.delegatorAddress,
    r.2 + ubd.quantity)

/-- The loops of `InitGenesis` up to the check of the pools, with the sums of the bonded and the
not-bonded tokens. -/
def initRecords (b : StakingBooks) (data : StakingGenesisState) : StakingBooks × Int × Int :=
  let b := { b with lastTotalPower := some data.lastTotalPower }
  let r := data.validators.foldl (initValidator data.exported) (b, 0)
  let r := data.delegators.foldl initDelegator r
  let u := data.unbondingDelegations.foldl initUnbondingDelegation (r.1, 0)
  let b := data.allShares.foldl
    (fun b e => b.setShares e.delAddress e.validatorAddress e.shares) u.1
  let b := data.proxyDelegatorKeys.foldl
    (fun b e => b.setProxyBinding e.proxyAddr e.delAddr false) b
  (b, r.2, u.2)

/-- A last power of an exported genesis, with its update for Tendermint. -/
def initLastValidatorPower (r : StakingBooks × List ValidatorUpdate) (lv : LastValidatorPower) :
    Except StakingError (StakingBooks × List ValidatorUpdate) := do
  let b := { r.1 with lastValidatorPower := r.1.lastValidatorPower.set lv.address lv.power }
  let v ← b.mustGetValidator lv.address
  return (b, r.2 ++ [⟨v.consPubKey, lv.power⟩])

end StakingBooks

/-- `checkTokenSum`. -/
def checkTokenSum (tokenSum : Coins) (pool : String) (poolCoins : Coins) :
    Except StakingError Unit :=
  if poolCoins = 0 then .ok ()
  else do
    require (poolCoins.support.card = 1) (.panic (.poolCoins pool))
    require (tokenSum = poolCoins) (.panic (.poolSum pool))

namespace StakingState

variable {B : Type}

/-- `ExportGenesis`. -/
def exportGenesis (s : StakingState B) : StakingGenesisState where
  params := s.params
  lastTotalPower := s.books.lastTotalPower.getD 0
  lastValidatorPowers := s.books.lastValidatorPower.entries.map fun e => ⟨e.1, e.2⟩
  validators := s.books.validators.values.map Validator.exported
  delegators := s.books.delegators.values
  unbondingDelegations := s.books.undelegationInfos.values
  allShares := s.books.shares.entries.map fun e => ⟨(ofLex e.1).2, (ofLex e.1).1, e.2⟩
  proxyDelegatorKeys := s.books.proxyBinding.keys.map fun key => ⟨(ofLex key).2, (ofLex key).1⟩
  exported := true

/-- `checkPools`. -/
def checkPools (sk : PoolKeeper B) (bank : B) (bondedDecCoin notBondedDecCoin : Coins)
    (isExported : Bool) : Except StakingError Unit :=
  if isExported then do
    checkTokenSum bondedDecCoin bondedPoolName (sk.moduleCoins bank bondedPoolName)
    checkTokenSum notBondedDecCoin notBondedPoolName (sk.moduleCoins bank notBondedPoolName)
  else .ok ()

/-- `InitGenesis`. -/
def initGenesis (sk : PoolKeeper B) (time : Int) (s : StakingState B) (data : StakingGenesisState) :
    Except StakingError (StakingState B × List ValidatorUpdate) := do
  let (b, bondedTokens, notBondedTokens) := s.books.initRecords data
  checkPools sk s.bank (coin data.params.bondDenom bondedTokens)
    (coin data.params.bondDenom notBondedTokens) data.exported
  -- The block height is that of the block before the first.
  let (b, res) ←
    if data.exported then data.lastValidatorPowers.foldlM StakingBooks.initLastValidatorPower (b, [])
    else b.applyAndReturnValidatorSetUpdates 0 time data.params
  return ({ s with books := b, params := data.params }, res)

end StakingState

/-! ## Validation -/

/-- The errors of `ValidateGenesis`. -/
inductive GenesisError where
  /-- "duplicate validator in genesis state" -/
  | duplicateValidator (moniker : String) (address : Address)
  /-- "validator is bonded and jailed in genesis state" -/
  | bondedAndJailed (moniker : String) (address : Address)
  /-- "it's impossible for a validator with zero delegator shares" -/
  | zeroDelegatorShares (validator : ValidatorExported)
  /-- "staking parameter BondDenom can't be an empty string" -/
  | emptyBondDenom
  /-- "staking parameter … must be a positive integer" -/
  | notPositive (parameter : String)
deriving DecidableEq, Repr

/-- `Params.Validate`. -/
def StakingParams.validate (p : StakingParams) : Except GenesisError Unit := do
  require (p.bondDenom ≠ "") .emptyBondDenom
  require (p.maxValidators ≠ 0) (.notPositive "MaxValidators")
  require (p.epoch ≠ 0) (.notPositive "Epoch")
  require (p.maxValsToAddShares ≠ 0) (.notPositive "MaxValsToAddShares")

/-- The loop of `validateGenesisStateValidators`, with the keys it has seen. -/
def validateGenesisStateValidators :
    List Address → List ValidatorExported → Except GenesisError Unit
  | _, [] => .ok ()
  | addrMap, ve :: rest => do
    require (ve.consPubKey ∉ addrMap) (.duplicateValidator ve.description.moniker ve.consAddress)
    require (¬ (ve.jailed ∧ ve.isBonded))
      (.bondedAndJailed ve.description.moniker ve.consAddress)
    require (ve.delegatorShares ≠ 0) (.zeroDelegatorShares ve)
    validateGenesisStateValidators (ve.consPubKey :: addrMap) rest

/-- `ValidateGenesis`. -/
def validateGenesis (data : StakingGenesisState) : Except GenesisError Unit := do
  validateGenesisStateValidators [] data.validators
  data.params.validate

/-! ## The loops of an import

Every loop writes its own stores. -/

theorem Validator.imported_exported {v : Validator} (h : v.tokens = 0) :
    v.exported.imported = v := by
  unfold Validator.exported ValidatorExported.imported
  rw [← h]

namespace StakingBooks

/-- The entries of the queue that the validators make. -/
def queueEntries (l : List Validator) : List (Int × Address) :=
  (l.filter fun v => v.status = .unbonding).map fun v =>
    (v.unbondingCompletionTime, v.operatorAddress)

/-- The entries of the power index that the validators make. -/
def powerEntries (l : List Validator) : List ((Nat ×ₗ Addressᵒᵈ) × Address) :=
  (l.filter fun v => v.jailed = false).map fun v => (v.powerIndexKey, v.operatorAddress)

theorem foldl_initValidator {l : List Validator} (hl : ∀ v ∈ l, v.tokens = 0) (b : StakingBooks)
    (total : Int) :
    (l.map Validator.exported).foldl (initValidator true) (b, total) =
      ({ b with
          validators := l.foldl KeyedStore.put b.validators
          validatorsByConsAddr := (l.map fun v => (v.consAddress, v.operatorAddress)).foldl
            (fun m e => m.set e.1 e.2) b.validatorsByConsAddr
          validatorsByPowerIndex :=
            (powerEntries l).foldl (fun m e => m.set e.1 e.2) b.validatorsByPowerIndex
          validatorQueue := (queueEntries l).foldl (fun m e => m.push e.1 e.2) b.validatorQueue },
        l.foldl (fun total v => total + v.minSelfDelegation) total) := by
  induction l generalizing b total with
  | nil => rfl
  | cons v l ih =>
    obtain ⟨hv, hl⟩ := List.forall_mem_cons.mp hl
    rw [List.map_cons, List.foldl_cons, initValidator, Validator.imported_exported hv, ih hl]
    unfold powerEntries queueEntries
    cases hjailed : v.jailed <;> cases hstatus : v.status <;>
      simp [hjailed, hstatus, setValidator, setValidatorByConsAddr, setValidatorByPowerIndex,
        setNewValidatorByPowerIndex, insertValidatorQueue]

theorem foldl_initDelegator (l : List Delegator) (b : StakingBooks) (total : Int) :
    l.foldl initDelegator (b, total) =
      ({ b with delegators := l.foldl KeyedStore.put b.delegators },
        l.foldl (fun total d => total + d.tokens) total) := by
  induction l generalizing b total with
  | nil => rfl
  | cons d l ih => exact ih _ _

theorem foldl_initUnbondingDelegation (l : List UndelegationInfo) (b : StakingBooks) (total : Int) :
    l.foldl initUnbondingDelegation (b, total) =
      ({ b with
          undelegationInfos := l.foldl KeyedStore.put b.undelegationInfos
          undelegateQueue := (l.map fun ubd => (toLex (ubd.completionTime, ubd.delegatorAddress),
            ())).foldl (fun m e => m.set e.1 e.2) b.undelegateQueue },
        l.foldl (fun total ubd => total + ubd.quantity) total) := by
  induction l generalizing b total with
  | nil => rfl
  | cons ubd l ih => exact ih _ _

theorem foldl_setShares (l : List ((Address ×ₗ Address) × Int)) (b : StakingBooks) :
    (l.map fun e => (⟨(ofLex e.1).2, (ofLex e.1).1, e.2⟩ : SharesExported)).foldl
      (fun b e => b.setShares e.delAddress e.validatorAddress e.shares) b =
    { b with shares := l.foldl (fun m e => m.set e.1 e.2) b.shares } := by
  induction l generalizing b with
  | nil => rfl
  | cons e l ih => exact ih _

theorem foldl_setProxyBinding (l : List ((Address ×ₗ Address) × Unit)) (b : StakingBooks) :
    ((l.map Prod.fst).map fun key =>
      (⟨(ofLex key).2, (ofLex key).1⟩ : ProxyDelegatorKeyExported)).foldl
      (fun b e => b.setProxyBinding e.proxyAddr e.delAddr false) b =
    { b with proxyBinding := l.foldl (fun m e => m.set e.1 e.2) b.proxyBinding } := by
  induction l generalizing b with
  | nil => rfl
  | cons e l ih => exact ih _

/-- The update says the last power of the validator, under its key. -/
def Tells (b : StakingBooks) (u : ValidatorUpdate) (e : Address × Int) : Prop :=
  b.Has e.1 (fun v => v.consPubKey = u.pubKey) ∧ u.power = e.2

/-- The last powers of validators that are there. -/
theorem foldlM_initLastValidatorPower {l : List (Address × Int)} {b : StakingBooks}
    (hl : ∀ e ∈ l, (b.getValidator e.1).isSome) (res : List ValidatorUpdate) :
    ∃ us, List.Forall₂ b.Tells us l ∧
      (l.map fun e => (⟨e.1, e.2⟩ : LastValidatorPower)).foldlM initLastValidatorPower (b, res) =
        .ok ({ b with
          lastValidatorPower := l.foldl (fun m e => m.set e.1 e.2) b.lastValidatorPower },
          res ++ us) := by
  induction l generalizing b res with
  | nil => exact ⟨[], .nil, by rw [List.append_nil]; rfl⟩
  | cons e l ih =>
    obtain ⟨he, hl⟩ := List.forall_mem_cons.mp hl
    obtain ⟨v, hv⟩ := Option.isSome_iff_exists.mp he
    have hstep : initLastValidatorPower (b, res) ⟨e.1, e.2⟩ = .ok ({ b with
        lastValidatorPower := b.lastValidatorPower.set e.1 e.2 },
        res ++ [⟨v.consPubKey, e.2⟩]) := by
      unfold initLastValidatorPower mustGetValidator
      have hget : getValidator { b with
        lastValidatorPower := b.lastValidatorPower.set e.1 e.2 } e.1 = some v := hv
      dsimp only
      rw [hget]
      rfl
    obtain ⟨us, htells, hrest⟩ := ih (b := { b with
      lastValidatorPower := b.lastValidatorPower.set e.1 e.2 }) hl (res ++ [⟨v.consPubKey, e.2⟩])
    refine ⟨⟨v.consPubKey, e.2⟩ :: us, .cons ⟨⟨v, hv, rfl⟩, rfl⟩ htells, ?_⟩
    rw [List.map_cons, List.foldlM_cons, hstep]
    refine hrest.trans ?_
    rw [List.append_assoc]
    rfl

/-! ## The indexes come back -/

/-- The queue that the validators make. -/
def rebuiltQueue (b : StakingBooks) : KVStore Int (List Address) :=
  (queueEntries b.validators.values).foldl (fun m e => m.push e.1 e.2) ∅

/-- The queue that the undelegations make. -/
def rebuiltUndelegateQueue (b : StakingBooks) : KVStore (Int ×ₗ Address) Unit :=
  (b.undelegationInfos.values.map fun ubd =>
    (toLex (ubd.completionTime, ubd.delegatorAddress), ())).foldl (fun m e => m.set e.1 e.2) ∅

/-- The queue of the undelegations comes back, if it holds their entries and no others. -/
theorem QueueExact.rebuild {b : StakingBooks} (h : b.QueueExact) :
    b.rebuiltUndelegateQueue = b.undelegateQueue := by
  refine KVStore.foldl_set_eq fun key u => ?_
  have hsome : b.undelegateQueue.get key = some u ↔ (b.undelegateQueue.get key).isSome := by
    cases b.undelegateQueue.get key <;> simp
  refine Iff.trans ?_ (hsome.trans (h (ofLex key).1 (ofLex key).2)).symm
  rw [List.mem_map]
  constructor
  · rintro ⟨ubd, hubd, heq⟩
    obtain ⟨ht, ha⟩ := Prod.mk.inj (congrArg ofLex (Prod.mk.inj heq).1)
    have hget := KeyedStore.mem_values.mp hubd
    rw [ha] at hget
    exact ⟨ubd, hget, ht⟩
  · rintro ⟨ubd, hubd, ht⟩
    have ha : ubd.delegatorAddress = (ofLex key).2 := KeyedStore.key_of_get hubd
    refine ⟨ubd, KeyedStore.mem_values.mpr ?_, ?_⟩
    · rw [ha]
      exact hubd
    · rw [ht, ha]
      rfl

theorem exists_value_iff {b : StakingBooks} {a : Address} {P : Validator → Prop} :
    (∃ v ∈ b.validators.values, P v ∧ v.operatorAddress = a) ↔ b.Has a P := by
  constructor
  · rintro ⟨v, hv, hP, rfl⟩
    exact ⟨v, KeyedStore.mem_values.mp hv, hP⟩
  · rintro ⟨v, hv, hP⟩
    have hkey : v.operatorAddress = a := KeyedStore.key_of_get hv
    refine ⟨v, KeyedStore.mem_values.mpr ?_, hP, hkey⟩
    rw [hkey]
    exact hv

end StakingBooks

namespace ValidatorsOK

variable {banned : Address → Prop} {strict : Prop} {w : ValidatorSet} {b : StakingBooks}

theorem nodup_keys (h : ValidatorsOK banned strict w b) :
    (b.validators.values.map Validator.consAddress).Nodup := by
  refine (KeyedStore.nodup_values _).map_on fun v hv v' hv' heq => ?_
  have hget := KeyedStore.mem_values.mp hv
  rw [h.cons_inj ⟨v, hget, heq⟩ ⟨v', KeyedStore.mem_values.mp hv', rfl⟩] at hget
  exact Option.some.inj (hget.symm.trans (KeyedStore.mem_values.mp hv'))

theorem rebuild_cons (h : ValidatorsOK banned strict w b) :
    (b.validators.values.map fun v => (v.consAddress, v.operatorAddress)).foldl
      (fun m e => m.set e.1 e.2) ∅ = b.validatorsByConsAddr := by
  refine KVStore.foldl_set_eq fun k a => ?_
  rw [h.cons, ← StakingBooks.exists_value_iff, List.mem_map]
  simp only [Prod.mk.injEq]

theorem rebuild_power (h : ValidatorsOK banned strict w b) :
    (StakingBooks.powerEntries b.validators.values).foldl (fun m e => m.set e.1 e.2) ∅ =
      b.validatorsByPowerIndex := by
  refine KVStore.foldl_set_eq fun key a => ?_
  rw [h.power, ← StakingBooks.exists_value_iff]
  unfold StakingBooks.powerEntries
  simp only [List.mem_map, List.mem_filter, decide_eq_true_eq, Prod.mk.injEq, and_assoc]

/-- **The queue comes back**, up to the order inside a time slice. -/
theorem rebuild_queue (h : ValidatorsOK banned strict w b) (t : Int) :
    Option.Rel List.Perm (b.rebuiltQueue.get t) (b.validatorQueue.get t) := by
  have hslice : (b.rebuiltQueue.get t).getD [] =
      (((b.validators.values.filter fun v => v.status = .unbonding).filter
        fun v => v.unbondingCompletionTime = t).map Validator.operatorAddress) := by
    refine (KVStore.getD_foldl_push _ ∅ t).trans ?_
    unfold StakingBooks.queueEntries
    rw [List.filter_map, List.map_map]
    rfl
  have hperm : ((b.rebuiltQueue.get t).getD []).Perm (b.queuedAt t) := by
    rw [hslice]
    refine (List.perm_ext_iff_of_nodup ?_ (h.once t)).mpr fun a => ?_
    · refine (((KeyedStore.nodup_values _).filter _).filter _).map_on fun v hv v' hv' heq => ?_
      have hget := KeyedStore.mem_values.mp (List.mem_of_mem_filter (List.mem_of_mem_filter hv))
      rw [heq] at hget
      exact Option.some.inj (hget.symm.trans
        (KeyedStore.mem_values.mp (List.mem_of_mem_filter (List.mem_of_mem_filter hv'))))
    · rw [h.queued, ← StakingBooks.exists_value_iff]
      simp only [List.mem_map, List.mem_filter, decide_eq_true_eq, and_assoc]
  -- Neither queue has an empty slice, so the same slices are there.
  have hrebuilt : b.rebuiltQueue.get t ≠ some [] :=
    KVStore.foldl_push_ne_nil _ (fun _ hget => by cases hget) t
  have hstored := h.slices t
  unfold StakingBooks.queuedAt at hperm
  cases hnew : b.rebuiltQueue.get t with
  | none =>
    rw [hnew] at hperm
    cases hold : b.validatorQueue.get t with
    | none => exact .none
    | some slice =>
      rw [hold] at hperm hstored
      exact absurd (congrArg some hperm.nil_eq.symm) hstored
  | some slice =>
    rw [hnew] at hperm hrebuilt
    cases hold : b.validatorQueue.get t with
    | none =>
      rw [hold] at hperm
      exact absurd (congrArg some hperm.eq_nil) hrebuilt
    | some old =>
      rw [hold] at hperm
      exact .some hperm

end ValidatorsOK

/-! ## The round trip -/

/-- The store that an import of an export makes. -/
def StakingBooks.reimported (b : StakingBooks) (hooks : List StakingHook) : StakingBooks where
  validators := b.validators
  validatorsByConsAddr := b.validatorsByConsAddr
  validatorsByPowerIndex := b.validatorsByPowerIndex
  lastValidatorPower := b.lastValidatorPower
  lastTotalPower := some (b.lastTotalPower.getD 0)
  validatorQueue := b.rebuiltQueue
  abandonedValidatorAddrs := []
  delegators := b.delegators
  shares := b.shares
  proxyBinding := b.proxyBinding
  undelegationInfos := b.undelegationInfos
  undelegateQueue := b.rebuiltUndelegateQueue
  epoch := none
  theEndOfLastEpoch := none
  hooks := hooks

section RoundTrip

variable {B : Type} {sk : PoolKeeper B} {s s₀ : StakingState B} {banned : Address → Prop}
  {strict : Prop} {w : ValidatorSet} {hooks : List StakingHook}

/-- The loops restore all but the last powers. -/
theorem StakingBooks.initRecords_exportGenesis (h : ValidatorsOK banned strict w s.books) :
    (fresh hooks).initRecords s.exportGenesis =
      ({ s.books.reimported hooks with lastValidatorPower := ∅ },
        s.books.totalMinSelfDelegation + s.books.totalTokens, s.books.totalQuantity) := by
  have htokens : ∀ v ∈ s.books.validators.values, v.tokens = 0 := fun v hv =>
    h.tokens_eq (KeyedStore.mem_values.mp hv)
  unfold initRecords StakingState.exportGenesis KVStore.keys
  dsimp only
  rw [foldl_initValidator htokens, foldl_initDelegator, foldl_initUnbondingDelegation,
    foldl_setShares, foldl_setProxyBinding]
  unfold fresh reimported
  dsimp only
  rw [KeyedStore.foldl_put_values, KeyedStore.foldl_put_values, KeyedStore.foldl_put_values,
    KVStore.foldl_set_entries, KVStore.foldl_set_entries, h.rebuild_cons, h.rebuild_power,
    KeyedStore.foldl_add_values, KeyedStore.foldl_add_values, KeyedStore.foldl_add_values,
    zero_add, zero_add]
  rfl

/-- **An import of an export**: if the pools pass, it is the store that was exported, with its
indexes made anew, and Tendermint is told the last powers. -/
theorem StakingState.initGenesis_exportGenesis (sk : PoolKeeper B)
    (h : ValidatorsOK banned strict w s.books) (hfresh : s₀.books = .fresh hooks) (time : Int) :
    ∃ us, List.Forall₂ s.books.Tells us s.books.lastValidatorPower.entries ∧
      s₀.initGenesis sk time s.exportGenesis =
        (checkPools sk s₀.bank
          (coin s.params.bondDenom (s.books.totalMinSelfDelegation + s.books.totalTokens))
          (coin s.params.bondDenom s.books.totalQuantity) true).map fun _ =>
          ({ s₀ with books := s.books.reimported hooks, params := s.params }, us) := by
  have hbonded : ∀ e ∈ s.books.lastValidatorPower.entries,
      (s.books.getValidator e.1).isSome := fun e he => by
    have hpower : w.powers.get e.1 = some e.2 := by
      rw [← h.powers]
      exact KVStore.mem_entries.mp he
    obtain ⟨v, hv, -⟩ := (h.bonded e.1).mp (by rw [hpower]; rfl)
    rw [hv]
    rfl
  obtain ⟨us, htells, hpowers⟩ := StakingBooks.foldlM_initLastValidatorPower
    (b := { s.books.reimported hooks with lastValidatorPower := ∅ }) hbonded []
  refine ⟨us, htells, ?_⟩
  dsimp only at hpowers
  rw [KVStore.foldl_set_entries, List.nil_append] at hpowers
  have hparams : s.exportGenesis.params = s.params := rfl
  have hexported : s.exportGenesis.exported = true := rfl
  unfold initGenesis
  rw [hfresh, StakingBooks.initRecords_exportGenesis h, hparams, hexported]
  dsimp only
  cases checkPools sk s₀.bank
      (coin s.params.bondDenom (s.books.totalMinSelfDelegation + s.books.totalTokens))
      (coin s.params.bondDenom s.books.totalQuantity) true with
  | error e => rfl
  | ok u =>
    rw [if_pos rfl]
    refine bind_eq_ok.mpr ⟨(), rfl, bind_eq_ok.mpr ⟨_, hpowers, rfl⟩⟩

/-- A pool that matches the sum passes. -/
theorem checkTokenSum_self (denom pool : String) (amount : Int) :
    checkTokenSum (coin denom amount) pool (coin denom amount) = .ok () := by
  unfold checkTokenSum
  split_ifs with hzero
  · rfl
  · have hamount : amount ≠ 0 := fun h => hzero (by rw [h, coin_zero])
    have hcard : (coin denom amount).support.card = 1 := by
      unfold coin
      rw [DFinsupp.support_single hamount, Finset.card_singleton]
    rw [hcard, require, if_pos rfl, require, if_pos rfl]
    rfl

/-- Everything of the store is back. -/
structure Restored (b b' : StakingBooks) : Prop where
  validators : b'.validators = b.validators
  cons : b'.validatorsByConsAddr = b.validatorsByConsAddr
  power : b'.validatorsByPowerIndex = b.validatorsByPowerIndex
  /-- Up to the order inside a time slice. -/
  queue : ∀ t, Option.Rel List.Perm (b'.validatorQueue.get t) (b.validatorQueue.get t)
  delegators : b'.delegators = b.delegators
  shares : b'.shares = b.shares
  proxies : b'.proxyBinding = b.proxyBinding
  undelegations : b'.undelegationInfos = b.undelegationInfos
  undelegateQueue : b'.undelegateQueue = b.undelegateQueue
  powers : b'.lastValidatorPower = b.lastValidatorPower
  total : b'.lastTotalPower.getD 0 = b.lastTotalPower.getD 0

variable {weight : Int → Int} {n : StakingNode B}

/-- **The staking genesis round trip.** In every run, at the end of a block and anywhere else: if
both pools match what is recorded, an import of the export into an empty store and the same bank
succeeds, restores the store, and tells Tendermint the last powers of the validators, one by one. -/
theorem staking_genesis_round_trip (hweight : ∀ week, Dec.one ≤ weight week)
    (hn : StakingReach sk weight (PoolsUntouched sk) n)
    (hpools : PoolsOK n.state.params.bondDenom (n.state.ledger sk))
    (hfresh : s₀.books = .fresh hooks) (hbank : s₀.bank = n.state.bank) (time : Int) :
    ∃ s us, s₀.initGenesis sk time n.state.exportGenesis = .ok (s, us) ∧
      Restored n.state.books s.books ∧ s.params = n.state.params ∧ s.bank = n.state.bank ∧
      List.Forall₂ n.state.books.Tells us n.state.books.lastValidatorPower.entries := by
  obtain ⟨w, hw⟩ := hn.agreement hweight
  obtain ⟨lost, hlost⟩ := hn.backed hweight fun _ _ h => h
  have hqueue : n.state.books.QueueExact := hlost.queueExact hpools.notBonded
  obtain ⟨us, htells, heq⟩ := StakingState.initGenesis_exportGenesis sk hw hfresh time
  have hbonded : sk.moduleCoins n.state.bank bondedPoolName = coin n.state.params.bondDenom
      (n.state.books.totalMinSelfDelegation + n.state.books.totalTokens) := by
    rw [add_comm]
    exact hpools.bonded
  have hnotBonded : sk.moduleCoins n.state.bank notBondedPoolName =
      coin n.state.params.bondDenom n.state.books.totalQuantity := hpools.notBonded
  have hpass : StakingState.checkPools sk s₀.bank
      (coin n.state.params.bondDenom
        (n.state.books.totalMinSelfDelegation + n.state.books.totalTokens))
      (coin n.state.params.bondDenom n.state.books.totalQuantity) true = .ok () := by
    unfold StakingState.checkPools
    rw [hbank, hbonded, hnotBonded, checkTokenSum_self, checkTokenSum_self, if_pos rfl]
    rfl
  rw [hpass] at heq
  refine ⟨_, us, heq, ⟨rfl, rfl, rfl, hw.rebuild_queue, rfl, rfl, rfl, rfl, hqueue.rebuild, rfl, rfl⟩,
    rfl, hbank, htells⟩

end RoundTrip

/-! ## A validator that leaves

Alice and Bob have validators from the genesis on. Alice destroys hers in the first block. -/

/-- The chain before its genesis transactions. -/
def gentxStart : StakingNode (KVStore Address Coins) := { stakingStart with height := 0 }

theorem reach_gentxStart (weight : Int → Int)
    (rule : StakingNode (KVStore Address Coins) → StakingAction (KVStore Address Coins) → Prop) :
    StakingReach simplePools weight rule gentxStart :=
  .genesis ⟨⟨none, none, none, rfl⟩, rfl, rfl⟩

/-- Bob creates his validator. -/
def createBob : StakingAction (KVStore Address Coins) :=
  .createValidator ⟨⟨"bob", "", "", ""⟩, ⟨bondDenom, Dec.newDec 10⟩, "bob", "bob", "key2"⟩

theorem createBob_valid : createBob.Valid simplePools := ⟨by decide, isUser_bob⟩

/-- The first block, in which Alice destroys her validator, before its end. -/
def aliceLeaving : StakingNode (KVStore Address Coins) :=
  gentxStart.run simplePools (fun _ => Dec.one) [createAlice, createBob, .endBlock, .beginBlock 5,
    .destroyValidator "alice"]

theorem reach_aliceLeaving
    {rule : StakingNode (KVStore Address Coins) → StakingAction (KVStore Address Coins) → Prop}
    (hrule : ∀ n a, (∀ params bank, a ≠ .outside params bank) → rule n a) :
    StakingReach simplePools (fun _ => Dec.one) rule aliceLeaving :=
  (reach_gentxStart _ _).run ⟨⟨createAlice_valid, hrule _ _ nofun⟩,
    ⟨createBob_valid, hrule _ _ nofun⟩, ⟨trivial, hrule _ _ nofun⟩, ⟨trivial, hrule _ _ nofun⟩,
    ⟨⟨by decide, isUser_alice⟩, hrule _ _ nofun⟩, trivial⟩

/-- The end of that block: Alice's validator is unbonding, and has no shares. -/
def aliceLeft : StakingNode (KVStore Address Coins) :=
  aliceLeaving.step simplePools (fun _ => Dec.one) .endBlock

/-- A staking module with an empty store and the given bank. -/
def emptyStaking (bank : KVStore Address Coins) : StakingState (KVStore Address Coins) :=
  ⟨.fresh [], stakingParams, bank⟩

theorem staking_genesis_round_trip_aliceLeft :
    aliceLeft.state.books.queuedAt 105 = ["alice"] ∧
    ∃ s us, (emptyStaking aliceLeft.state.bank).initGenesis simplePools 5
        aliceLeft.state.exportGenesis = .ok (s, us) ∧
      Restored aliceLeft.state.books s.books ∧ s.params = aliceLeft.state.params ∧
      s.bank = aliceLeft.state.bank ∧
      List.Forall₂ aliceLeft.state.books.Tells us
        aliceLeft.state.books.lastValidatorPower.entries := by
  have hn : StakingReach simplePools (fun _ => Dec.one) (PoolsUntouched simplePools) aliceLeft :=
    .step (a := .endBlock) (reach_aliceLeaving fun _ _ => PoolsUntouched.of_inside) trivial trivial
  have hpools : PoolsOK aliceLeft.state.params.bondDenom (aliceLeft.state.ledger simplePools) :=
    ⟨by decide +kernel, by decide +kernel⟩
  have hfresh : (emptyStaking aliceLeft.state.bank).books = .fresh [] := rfl
  exact ⟨by decide +kernel,
    staking_genesis_round_trip (fun _ => by decide) hn hpools hfresh rfl 5⟩

/-! ## What validates -/

theorem validateGenesisStateValidators_eq_ok {addrMap : List Address}
    {l : List ValidatorExported} :
    validateGenesisStateValidators addrMap l = .ok () ↔
      (∀ ve ∈ l, ve.consPubKey ∉ addrMap) ∧ (l.map ValidatorExported.consPubKey).Nodup ∧
      ∀ ve ∈ l, ¬ (ve.jailed = true ∧ ve.status = .bonded) ∧ ve.delegatorShares ≠ 0 := by
  induction l generalizing addrMap with
  | nil => simp [validateGenesisStateValidators]
  | cons ve rest ih =>
    unfold validateGenesisStateValidators
    simp only [bind_eq_ok, require_eq_ok, exists_const, ih, ValidatorExported.isBonded,
      decide_eq_true_eq]
    constructor
    · rintro ⟨hnew, hbonded, hshares, hnotin, hnd, hall⟩
      refine ⟨List.forall_mem_cons.mpr ⟨hnew, fun ve' hve' hmem => ?_⟩,
        List.nodup_cons.mpr ⟨fun hmem => ?_, hnd⟩,
        List.forall_mem_cons.mpr ⟨⟨hbonded, hshares⟩, hall⟩⟩
      · exact hnotin ve' hve' (List.mem_cons_of_mem _ hmem)
      · obtain ⟨ve', hve', hkey⟩ := List.mem_map.mp hmem
        exact hnotin ve' hve' (hkey ▸ List.mem_cons_self)
    · rintro ⟨hnotin, hnd, hall⟩
      obtain ⟨hnew, hnotin⟩ := List.forall_mem_cons.mp hnotin
      obtain ⟨hone, hnd⟩ := List.nodup_cons.mp hnd
      obtain ⟨⟨hbonded, hshares⟩, hall⟩ := List.forall_mem_cons.mp hall
      refine ⟨hnew, hbonded, hshares, fun ve' hve' hmem => ?_, hnd, hall⟩
      rcases List.mem_cons.mp hmem with hkey | hmem
      · exact hone (List.mem_map.mpr ⟨ve', hve', hkey⟩)
      · exact hnotin ve' hve' hmem

theorem StakingParams.validate_eq_ok (p : StakingParams) : p.validate = .ok () := by
  unfold validate require
  rw [if_pos p.bondDenom_ne, if_pos p.maxValidators_pos.ne', if_pos p.epoch_pos.ne',
    if_pos p.maxValsToAddShares_pos.ne']
  rfl

/-- A validator without a self delegation has shares exactly when someone has voted for it. -/
theorem SharesOK.delegatorShares_ne_zero {b : StakingBooks} (h : SharesOK b) {a : Address}
    {v : Validator} (hget : b.getValidator a = some v) :
    v.delegatorShares ≠ 0 ↔ (v.minSelfDelegation = 0 → ∃ d, (b.getShares d a).isSome) := by
  have hvotes : ∀ d r, b.delegators.store.get d = some r → 0 ≤ r.votes a := by
    intro d r hr
    unfold Delegator.votes
    split_ifs with ha
    · exact ((h.sound d r hr).shares (List.ne_nil_of_mem ha)).le
    · exact le_rfl
  have htotal : 0 ≤ b.totalVotes a := KVStore.sumBy_nonneg _ hvotes
  rw [h.totals a v hget]
  constructor
  · intro hne hmsd
    by_contra hnone
    have hzero : b.totalVotes a = 0 := by
      refine (KVStore.sumBy_congr _ fun d r hr => ?_).trans KVStore.sumBy_zero
      unfold Delegator.votes
      refine if_neg fun ha => hnone ⟨d, ?_⟩
      rw [h.stored_iff.mpr ⟨r, hr, ha, rfl, (h.sound d r hr).shares (List.ne_nil_of_mem ha)⟩]
      rfl
    have hown : v.own = 0 := if_neg (by omega)
    exact hne (by rw [hzero, hown, add_zero])
  · intro hvoted
    by_cases hmsd : v.minSelfDelegation = 0
    · obtain ⟨d, hd⟩ := hvoted hmsd
      obtain ⟨s, hs⟩ := Option.isSome_iff_exists.mp hd
      obtain ⟨r, hr, ha, hshares, hpos⟩ := h.stored_iff.mp hs
      have hle : r.votes a ≤ b.totalVotes a :=
        KVStore.le_sumBy (f := fun _ (d : Delegator) => d.votes a) hvotes hr
      have hvote : r.votes a = s := by
        rw [← hshares]
        exact if_pos ha
      have hown : v.own = 0 := if_neg (by omega)
      omega
    · have hown : v.own = Dec.one := if_pos (lt_of_le_of_ne (h.msd a v hget).1 (Ne.symm hmsd))
      have hone : (0 : Int) < Dec.one := by decide
      omega

section Validation

variable {B : Type} {sk : PoolKeeper B} {weight : Int → Int} {n : StakingNode B}

variable (sk) (weight) (n) in
theorem StakingNode.step_endBlock (hok : (n.state.endBlocker sk n.height n.time).isOk = true) :
    ∃ r, n.state.endBlocker sk n.height n.time = .ok r ∧
      (n.step sk weight .endBlock).state = r.1 := by
  cases hend : n.state.endBlocker sk n.height n.time with
  | error e =>
    rw [hend] at hok
    cases hok
  | ok r =>
    refine ⟨r, rfl, ?_⟩
    unfold StakingNode.step
    rw [hend]
    rfl

/-- **An export at the end of a block** validates exactly when every validator that was destroyed
and is still there has votes: the one share of its self delegation is gone. No two validators have
the same key, and no bonded one is jailed. -/
theorem exported_genesis_validates_iff (hweight : ∀ week, Dec.one ≤ weight week)
    (hn : StakingReach sk weight (fun _ _ => True) n)
    {r : StakingState B × List ValidatorUpdate × List (Address × Int)}
    (hend : n.state.endBlocker sk n.height n.time = .ok r) :
    validateGenesis r.1.exportGenesis = .ok () ↔
      ∀ a v, r.1.books.getValidator a = some v → v.minSelfDelegation = 0 →
        ∃ d, (r.1.books.getShares d a).isSome := by
  obtain ⟨w, hw⟩ := hn.agreement hweight
  have hends : Ends (n.state.endBlocker sk n.height n.time) _ _ := endBlocker_ends hw
  obtain ⟨w', hended⟩ := hends.of_ok hend
  have hshares : SharesOK r.1.books := by
    have hinv := (StakingReach.step (a := .endBlock) hn trivial trivial).inv hweight
    unfold StakingNode.step at hinv
    rw [hend] at hinv
    exact hinv.shares
  have hkeys : ((r.1.books.validators.values.map Validator.exported).map
      ValidatorExported.consPubKey).Nodup := by
    rw [List.map_map]
    exact hended.ok.nodup_keys
  have hvalidates : validateGenesis r.1.exportGenesis = .ok () ↔
      validateGenesisStateValidators [] (r.1.books.validators.values.map Validator.exported) =
        .ok () := by
    unfold validateGenesis
    simp only [bind_eq_ok, StakingParams.validate_eq_ok, and_true]
    exact ⟨fun ⟨_, h⟩ => h, fun h => ⟨(), h⟩⟩
  rw [hvalidates, validateGenesisStateValidators_eq_ok]
  constructor
  · rintro ⟨-, -, hall⟩ a v hv
    refine (hshares.delegatorShares_ne_zero hv).mp (hall v.exported ?_).2
    have hkey : v.operatorAddress = a := KeyedStore.key_of_get hv
    refine List.mem_map_of_mem (KeyedStore.mem_values.mpr ?_)
    rw [hkey]
    exact hv
  · refine fun hvoted => ⟨fun _ _ => List.not_mem_nil, hkeys, fun ve hve => ?_⟩
    obtain ⟨v, hv, rfl⟩ := List.mem_map.mp hve
    have hget : r.1.books.getValidator v.operatorAddress = some v := KeyedStore.mem_values.mp hv
    exact ⟨fun hjailed => hended.free _ ⟨v, hget, hjailed⟩,
      (hshares.delegatorShares_ne_zero hget).mpr (hvoted _ v hget)⟩

end Validation

/-- Bob has voted for Alice's validator, which she destroys. -/
def bobStays : StakingNode (KVStore Address Coins) :=
  gentxStart.run simplePools (fun _ => Dec.one) [createAlice, createBob,
    .deposit ⟨"bob", ⟨bondDenom, Dec.newDec 50⟩⟩, .addShares ⟨"bob", ["alice"]⟩, .endBlock,
    .beginBlock 5, .destroyValidator "alice"]

theorem exported_genesis_validates_bobStays :
    ∃ r, bobStays.state.endBlocker simplePools bobStays.height bobStays.time = .ok r ∧
      (∃ v, r.1.books.getValidator "alice" = some v ∧ v.minSelfDelegation = 0) ∧
      validateGenesis r.1.exportGenesis = .ok () := by
  have hn : StakingReach simplePools (fun _ => Dec.one) (fun _ _ => True) bobStays :=
    (reach_gentxStart _ _).run ⟨⟨createAlice_valid, trivial⟩, ⟨createBob_valid, trivial⟩,
      ⟨⟨by decide, isUser_bob⟩, trivial⟩, ⟨⟨by decide, isUser_bob⟩, trivial⟩, ⟨trivial, trivial⟩,
      ⟨trivial, trivial⟩, ⟨⟨by decide, isUser_alice⟩, trivial⟩, trivial⟩
  obtain ⟨r, hend, hr⟩ := StakingNode.step_endBlock simplePools (fun _ => Dec.one) bobStays
    (by decide +kernel)
  have hvoted : ∀ v ∈ (bobStays.step simplePools (fun _ => Dec.one)
      .endBlock).state.books.validators.values, v.minSelfDelegation = 0 →
      ((bobStays.step simplePools (fun _ => Dec.one) .endBlock).state.books.getShares "bob"
        v.operatorAddress).isSome := by decide +kernel
  have halice : ((bobStays.step simplePools (fun _ => Dec.one) .endBlock).state.books.getValidator
      "alice").map Validator.minSelfDelegation = some 0 := by decide +kernel
  rw [hr] at hvoted halice
  refine ⟨r, hend, Option.map_eq_some_iff.mp halice,
    (exported_genesis_validates_iff (fun _ => by decide) hn hend).mpr fun a v hv hmsd => ?_⟩
  have hkey : v.operatorAddress = a := KeyedStore.key_of_get hv
  rw [← hkey] at hv ⊢
  exact ⟨"bob", hvoted v (KeyedStore.mem_values.mpr hv) hmsd⟩

/-- **An export need not validate.** At the end of the block in which Alice has destroyed her
validator, which nobody has voted for, it is unbonding without any shares. -/
theorem exported_genesis_rejected :
    StakingReach simplePools (fun _ => Dec.one) (fun _ _ => True) aliceLeaving ∧
    ∃ r, aliceLeaving.state.endBlocker simplePools aliceLeaving.height aliceLeaving.time = .ok r ∧
      ∃ ve, validateGenesis r.1.exportGenesis = .error (.zeroDelegatorShares ve) ∧
        ve.operatorAddress = "alice" ∧ ve.status = .unbonding := by
  obtain ⟨r, hend, hr⟩ := StakingNode.step_endBlock simplePools (fun _ => Dec.one) aliceLeaving
    (by decide +kernel)
  refine ⟨reach_aliceLeaving fun _ _ _ => trivial, r, hend,
    ⟨"alice", "key", true, .unbonding, 0, ⟨"alice", "", "", ""⟩, 1, 105, 0⟩, ?_, rfl, rfl⟩
  have hrejected : validateGenesis aliceLeft.state.exportGenesis = .error (.zeroDelegatorShares
      ⟨"alice", "key", true, .unbonding, 0, ⟨"alice", "", "", ""⟩, 1, 105, 0⟩) := by
    decide +kernel
  rwa [aliceLeft, hr] at hrejected

end Okexchain
