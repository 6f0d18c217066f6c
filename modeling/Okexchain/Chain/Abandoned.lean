import Okexchain.Chain.Tendermint

/-!
# The list of abandoned validators

Slashing, evidence and the destruction of a validator each put it on the list that
`KickOutAndReturnValidatorSetUpdates` goes through at the end of a block. Nothing checks whether a
validator is on it already, or whether it is bonded at all, and as many candidates are promoted as
the list has entries.

* A validator that has unbonded, but is still in the last commit, is put on the list for its
  downtime. If it is destroyed in the same block it is removed at once, and the loop does not find
  it: the chain halts.
* A validator that is on the list twice, or was not bonded, lets more candidates in than leave.

**Results.** `endBlocker_never_halts` and `at_most_maxValidators_bonded`: what has to be avoided,
vote by vote, evidence by evidence and message by message, for the `EndBlocker` to work and for the
number of bonded validators to keep below the limit. `endBlocker_halts`, `too_many_bonded`: a run in
which it does not.
-/

namespace Okexchain

variable {B : Type} {sk : PoolKeeper B} {weight : Int → Int} {n n' : ChainNode B}

/-! ## The end of a block -/

/-- The indexes that the `EndBlocker` walks through. -/
structure StakingBooks.Indexed (b : StakingBooks) : Prop where
  /-- Every unbonding validator is in the slice of its completion time, and nothing else. -/
  queued : ∀ t a, a ∈ b.queuedAt t ↔ ∃ v, b.getValidator a = some v ∧ v.status = .unbonding ∧
    v.unbondingCompletionTime = t
  once : ∀ t, (b.queuedAt t).Nodup
  /-- Every validator outside of jail is under its current power, and nothing else. -/
  power : ∀ key a, b.validatorsByPowerIndex.get key = some a ↔ ∃ v, b.getValidator a = some v ∧
    v.jailed = false ∧ v.powerIndexKey = key

/-- A vote is not that of an unbonded validator outside of jail. -/
def ChainNode.Attended (n : ChainNode B) : ChainAction B → Prop
  | .vote vote => ∀ a v, n.books.getValidator a = some v → v.consPubKey = vote.address →
      v.jailed = false → v.status ≠ .unbonded
  | _ => True

theorem ChainNode.Attended.keeps {a : ChainAction B} (h : n.Attended a) : n.Keeps False True a := by
  cases a with
  | tx a => exact False.elim
  | vote vote =>
    rintro - q ⟨v, hv, hkey, hjailed, hstatus⟩
    exact h q v hv hkey hjailed hstatus
  | _ => trivial

/-- **The `EndBlocker` never halts the chain**, as long as no vote is that of an unbonded validator
outside of jail. The indexes it walks through are exact. -/
theorem endBlocker_never_halts (hweight : ∀ week, Dec.one ≤ weight week)
    (hn : ChainReach sk weight ChainNode.Attended n) :
    n.books.Indexed ∧ ∃ r, n.staking.state.endBlocker sk n.staking.height n.staking.time = .ok r := by
  obtain ⟨w, h⟩ := ChainReach.inv False True hweight (fun _ _ hattended => hattended.keeps) hn
  have hok := h.stores.ok
  refine ⟨⟨hok.queued, hok.once, hok.power⟩, ?_⟩
  have hends : Ends (n.staking.state.endBlocker sk n.staking.height n.staking.time) _ fun _ => False :=
    (endBlocker_ends hok).mono (fun _ hr => hr) fun _ he => he trivial
  obtain ⟨r, hr, -⟩ := hends.exists_ok
  exact ⟨r, hr⟩

theorem endBlocker_never_halts_aliceMissing :
    aliceMissing.books.abandonedValidatorAddrs = ["alice"] ∧ aliceMissing.books.Indexed ∧
    ∃ r, aliceMissing.staking.state.endBlocker simplePools aliceMissing.staking.height
      aliceMissing.staking.time = .ok r := by
  have hn : ChainReach simplePools (fun _ => Dec.one) ChainNode.Attended aliceMissing := by
    refine reach_aliceMissing ⟨⟨createAlice_valid, trivial⟩, ⟨createBob_valid, trivial⟩,
      ⟨trivial, trivial⟩, ⟨trivial, trivial⟩, ⟨trivial, trivial⟩, ⟨trivial, trivial⟩,
      ⟨trivial, fun a v hv _ _ => ?_⟩, trivial⟩
    have hall : ∀ v ∈ ((chainStart briefParams).run simplePools (fun _ => Dec.one) [.tx createAlice,
      .tx createBob, .initChain, .beginBlock 5, .endBlock, .beginBlock 10]).books.validators.values,
      v.status ≠ .unbonded := by decide +kernel
    exact hall v (KeyedStore.mem_values_of_get hv)
  exact ⟨by decide +kernel, endBlocker_never_halts (fun _ => by decide) hn⟩

/-- Alice leaves jail, and unbonds; she misses another block, and destroys her validator. -/
def aliceRemoved : ChainNode (KVStore Address Coins) :=
  aliceMissing.run simplePools (fun _ => Dec.one) [.endBlock, .beginBlock 11,
    .tx (.unjail "alice" true), .endBlock, .beginBlock 12, .vote ⟨"key", false⟩,
    .tx (.destroyValidator "alice")]

/-- **The `EndBlocker` can halt the chain.** Unbonding takes so little time that Alice's validator
is unbonded while it is in the last commit. It is jailed for a missed block, and put on the list;
then it is destroyed, and removed at once. -/
theorem endBlocker_halts :
    ChainReach simplePools (fun _ => Dec.one) ChainNode.Ordinary aliceRemoved ∧
    aliceRemoved.phase = .transactions ∧
    aliceRemoved.staking.state.endBlocker simplePools aliceRemoved.staking.height
      aliceRemoved.staking.time = .error (.panic (.validatorNotFound "alice")) := by
  refine ⟨(reach_aliceMissing ⟨⟨createAlice_valid, trivial⟩, ⟨createBob_valid, trivial⟩,
      ⟨trivial, trivial⟩, ⟨trivial, ?_⟩, ⟨trivial, trivial⟩, ⟨trivial, ?_⟩, ⟨trivial, ?_⟩,
      trivial⟩).later (.run (by decide +kernel) ⟨⟨trivial, trivial⟩, ⟨trivial, ?_⟩,
      ⟨isUser_alice, trivial⟩, ⟨trivial, trivial⟩, ⟨trivial, ?_⟩, ⟨trivial, ?_⟩,
      ⟨⟨by decide, isUser_alice⟩, trivial⟩, trivial⟩), by decide +kernel,
    failure_eq_some.mp (by decide +kernel)⟩
  all_goals
    unfold ChainNode.Ordinary
    decide +kernel

/-! ## The number of bonded validators -/

/-- A step puts only bonded validators outside of jail on the list, and keeps the limit. -/
def ChainNode.Spares (n : ChainNode B) : ChainAction B → Prop
  | .vote vote => ∀ a v, n.books.getValidator a = some v → v.consPubKey = vote.address →
      v.status = .bonded ∨ v.jailed = true
  | .evidence e => n.slashing.isTombstoned e.consensusAddress = true ∨
      ∀ a v, n.books.getValidator a = some v → v.consPubKey = e.consensusAddress →
        v.status = .unbonded ∨ v.status = .bonded ∧ v.jailed = false
  | .tx (.destroyValidator delAddr) => ∀ v, n.books.getValidator delAddr = some v →
      v.status = .bonded → v.jailed = false
  | .tx (.outside params _) => params.maxValidators = n.staking.state.params.maxValidators
  | _ => True

theorem ChainNode.Spares.keeps {a : ChainAction B} (h : n.Spares a) : n.Keeps False True a := by
  cases a with
  | tx a => exact False.elim
  | vote vote =>
    rintro - q ⟨v, hv, hkey, hjailed, hstatus⟩
    rcases h q v hv hkey with hbonded | hjailed'
    · cases hbonded.symm.trans hstatus
    · cases hjailed.symm.trans hjailed'
  | _ => trivial

/-- The set is not too large, and nobody is to be kicked out of it twice. -/
structure Bounded {B : Type} (sk : PoolKeeper B) (w : ValidatorSet) (n : ChainNode B) : Prop where
  inv : ChainInv sk False True w n
  size : w.size ≤ n.staking.state.params.maxValidators
  once : n.books.abandonedValidatorAddrs.Nodup
  listed : ∀ a ∈ n.books.abandonedValidatorAddrs, (w.powers.get a).isSome

/-- **A step inside of a block** lists at most one more validator, which was bonded and not
listed. -/
theorem Bounded.acted {w : ValidatorSet} {a : StakingAction B} (h : Bounded sk w n)
    (hinv : ChainInv sk False True w n') (hacts : Acts a n.books n'.books)
    (hmax : n'.staking.state.params.maxValidators = n.staking.state.params.maxValidators)
    (hspares : ∀ v, n.books.getValidator v.operatorAddress = some v → a.Abandons v →
      v.status = .bonded ∧ v.jailed = false) : Bounded sk w n' := by
  have hsize : w.size ≤ n'.staking.state.params.maxValidators := hmax ▸ h.size
  rcases hacts.abandoned with hsame | ⟨v, hv, habandons, hlist, -⟩
  · exact ⟨hinv, hsize, hsame ▸ h.once, hsame ▸ h.listed⟩
  · obtain ⟨hbonded, hfree⟩ := hspares v hv habandons
    refine ⟨hinv, hsize, ?_, fun q hq => ?_⟩
    · rw [hlist]
      refine List.nodup_append.mpr ⟨h.once, List.nodup_singleton _, fun q hq r hr => ?_⟩
      rw [List.mem_singleton.mp hr]
      rintro rfl
      -- Whoever is on the list is jailed.
      have hjailed := ((StakingBooks.has_of_get hv).mp (h.inv.stores.ok.abandoned trivial _ hq)).1
      cases hfree.symm.trans hjailed
    · rw [hlist] at hq
      rcases List.mem_append.mp hq with hq | hq
      · exact h.listed q hq
      · rw [List.mem_singleton.mp hq]
        exact (h.inv.stores.ok.bonded _).mpr ⟨v, hv, hbonded⟩

/-- **Every step keeps the bound.** -/
theorem Bounded.step {w : ValidatorSet} (h : Bounded sk w n) (hweight : ∀ week, Dec.one ≤ weight week)
    {a : ChainAction B} (hvalid : a.Valid sk) (hallows : n.Allows a) (hspares : n.Spares a)
    (hstep : n.step sk weight a = .ok n') : ∃ w', Bounded sk w' n' := by
  have hkeeps := hspares.keeps
  cases a with
  | initChain =>
    obtain ⟨w', hinv, hphase, -, -, hparams, hsize, -⟩ := (h.inv.initChain hallows).of_ok hstep
    have hnone := hinv.idle (hphase ▸ rfl)
    exact ⟨w', hinv, hparams ▸ hsize, hnone ▸ List.nodup_nil, hnone ▸ nofun⟩
  | beginBlock time =>
    cases hstep
    exact ⟨w, h.inv.beginBlock hallows time, h.size, h.once, h.listed⟩
  | vote vote =>
    obtain ⟨hinv, hwithin⟩ := (h.inv.vote hkeeps hallows).of_ok hstep
    refine ⟨w, h.acted hinv hwithin.acts (by rw [hwithin.params nofun]) fun v hv habandons => ?_⟩
    refine ⟨(hspares _ v hv habandons.1).resolve_right fun hjailed => ?_, habandons.2⟩
    cases habandons.2.symm.trans hjailed
  | evidence e =>
    obtain ⟨hinv, hwithin, htomb⟩ := (h.inv.evidence hallows).of_ok hstep
    rcases hspares with hknown | hspares
    · have hsame : n'.books = n.books := congrArg StakingState.books (htomb hknown)
      exact ⟨w, hinv, by rw [hwithin.params nofun]; exact h.size, hsame ▸ h.once, hsame ▸ h.listed⟩
    · refine ⟨w, h.acted hinv hwithin.acts (by rw [hwithin.params nofun]) fun v hv habandons => ?_⟩
      exact (hspares _ v hv habandons.1).resolve_left habandons.2
  | tx a =>
    obtain ⟨hinv, hwithin⟩ := (h.inv.tx hweight hvalid hallows hkeeps).of_ok hstep
    refine ⟨w, h.acted hinv hwithin.acts ?_ fun v hv habandons => ?_⟩
    · by_cases houtside : ∃ params bank, a = .outside params bank
      · obtain ⟨params, bank, rfl⟩ := houtside
        cases hstep
        exact hspares
      · rw [hwithin.params fun params bank heq => houtside ⟨params, bank, heq⟩]
    · obtain ⟨d, rfl⟩ := (ChainNode.Delivers.abandons hallows habandons).2
      refine ⟨habandons.2, hspares v ?_ habandons.2⟩
      rw [← habandons.1]
      exact hv
  | setParams params =>
    cases hstep
    exact ⟨w, h.inv.setParams params, h.size, h.once, h.listed⟩
  | endBlock =>
    obtain ⟨w', us, hinv, -, -, -, -, hparams, hended⟩ := h.inv.endBlock.of_ok hstep
    have hnone := hended.abandoned
    exact ⟨w', hinv, hparams ▸ hended.size h.size h.once h.listed, hnone ▸ List.nodup_nil,
      hnone ▸ nofun⟩
  | restart time =>
    obtain ⟨hinv, hphase, -, -, hparams, -⟩ := (h.inv.restart hallows time).of_ok hstep
    have hnone := hinv.idle (hphase ▸ rfl)
    exact ⟨w, hinv, hparams ▸ h.size, hnone ▸ List.nodup_nil, hnone ▸ nofun⟩

theorem ChainReach.bounded (hweight : ∀ week, Dec.one ≤ weight week)
    (hn : ChainReach sk weight ChainNode.Spares n) : ∃ w, Bounded sk w n := by
  induction hn with
  | genesis hfresh hinit =>
    refine ⟨_, (ChainInv.genesis hfresh hinit).2, Nat.zero_le _, ?_, ?_⟩
    all_goals cases (StakingState.initGenesis_blank hfresh _ _).symm.trans hinit
    · exact List.nodup_nil
    · exact nofun
  | step hn hvalid hallows hspares hstep ih =>
    obtain ⟨w, h⟩ := ih
    exact h.step hweight hvalid hallows hspares hstep

/-- The bonded validators are those of the set. -/
theorem ValidatorsOK.count_bonded {banned : Address → Prop} {strict : Prop} {w : ValidatorSet}
    {b : StakingBooks} (h : ValidatorsOK banned strict w b) :
    (b.validators.values.filter fun v => v.status = .bonded).length = w.size := by
  have hperm : ((b.validators.values.filter fun v => v.status = .bonded).map
      Validator.operatorAddress).Perm w.powers.keys := by
    refine (List.perm_ext_iff_of_nodup ?_ KVStore.nodup_keys).mpr fun a => ?_
    · refine ((KeyedStore.nodup_values _).filter _).map_on fun v hv v' hv' heq => ?_
      have hget := KeyedStore.mem_values.mp (List.mem_of_mem_filter hv)
      rw [heq] at hget
      exact Option.some.inj
        (hget.symm.trans (KeyedStore.mem_values.mp (List.mem_of_mem_filter hv')))
    · rw [KVStore.mem_keys, ← Option.isSome_iff_exists, h.bonded, ← StakingBooks.exists_value_iff]
      simp only [List.mem_map, List.mem_filter, decide_eq_true_eq, and_assoc]
  have hlength := hperm.length_eq
  unfold KVStore.keys at hlength
  rwa [List.length_map, List.length_map] at hlength

/-- **At most `MaxValidators` validators are bonded at the end of a block**, and none of them is
jailed, if every step puts only bonded validators outside of jail on the list. -/
theorem at_most_maxValidators_bonded (hweight : ∀ week, Dec.one ≤ weight week)
    (hn : ChainReach sk weight ChainNode.Spares n) (hphase : n.phase = .between) :
    (n.books.validators.values.filter fun v => v.status = .bonded).length ≤
        n.staking.state.params.maxValidators ∧
      ∀ v ∈ n.books.validators.values, v.status = .bonded → v.jailed = false := by
  obtain ⟨w, h⟩ := hn.bounded hweight
  have hok := h.inv.stores.ok
  refine ⟨hok.count_bonded.trans_le h.size, fun v hv hbonded => ?_⟩
  by_contra hjailed
  rw [Bool.not_eq_false] at hjailed
  have hmem := hok.jailed v.operatorAddress ⟨v, KeyedStore.mem_values.mp hv, hjailed, hbonded⟩
  rw [show n.staking.state.books.abandonedValidatorAddrs = [] from
    h.inv.idle (hphase ▸ rfl)] at hmem
  exact List.not_mem_nil hmem

/-! ## Too many validators -/

/-- There is room for one validator. -/
def soleParams : StakingParams := { stakingParams with
  maxValidators := 1
  maxValidators_pos := by decide }

theorem isUser_carol : simplePools.IsUser "carol" := isUser_simpleSupply (by decide)

/-- Carol creates her validator. -/
def createCarol : StakingAction (KVStore Address Coins) :=
  .createValidator ⟨⟨"carol", "", "", ""⟩, ⟨bondDenom, Dec.newDec 10⟩, "carol", "carol", "key3"⟩

theorem createCarol_valid : createCarol.Valid simplePools := ⟨by decide, isUser_carol⟩

/-- The first block of Alice's validator, with Bob's and Carol's as candidates. -/
def aliceAlone : ChainNode (KVStore Address Coins) :=
  (chainStart soleParams).run simplePools (fun _ => Dec.one) [.tx createAlice, .tx createBob,
    .tx createCarol, .initChain, .beginBlock 5]

/-- Alice has signed twice, and is replaced by Bob. -/
def bobInstead : ChainNode (KVStore Address Coins) :=
  aliceAlone.run simplePools (fun _ => Dec.one) [.evidence ⟨"key", 5⟩, .endBlock]

theorem at_most_maxValidators_bonded_bobInstead :
    (bobInstead.books.validators.values.map fun v => (v.operatorAddress, v.status)) =
      [("alice", .unbonding), ("bob", .bonded), ("carol", .unbonded)] ∧
    (bobInstead.books.validators.values.filter fun v => v.status = .bonded).length ≤
        bobInstead.staking.state.params.maxValidators ∧
      ∀ v ∈ bobInstead.books.validators.values, v.status = .bonded → v.jailed = false := by
  have hspares : ∀ v ∈ aliceAlone.books.validators.values, v.status = .unbonded ∨
      v.status = .bonded ∧ v.jailed = false := by decide +kernel
  have halone : ChainReach simplePools (fun _ => Dec.one) ChainNode.Spares aliceAlone :=
    (reach_chainStart _ _ _).later (.run (by decide +kernel) ⟨⟨createAlice_valid, trivial⟩,
      ⟨createBob_valid, trivial⟩, ⟨createCarol_valid, trivial⟩, ⟨trivial, trivial⟩,
      ⟨trivial, trivial⟩, trivial⟩)
  have hn : ChainReach simplePools (fun _ => Dec.one) ChainNode.Spares bobInstead :=
    halone.later (.run (by decide +kernel) ⟨⟨trivial, .inr fun a v hv _ =>
      hspares v (KeyedStore.mem_values_of_get hv)⟩, ⟨trivial, trivial⟩, trivial⟩)
  exact ⟨by decide +kernel,
    at_most_maxValidators_bonded (fun _ => by decide) hn (by decide +kernel)⟩

/-- In the same block, Alice also destroys her validator. -/
def bobAndCarol : ChainNode (KVStore Address Coins) :=
  aliceAlone.run simplePools (fun _ => Dec.one) [.evidence ⟨"key", 5⟩,
    .tx (.destroyValidator "alice"), .endBlock]

/-- **More than `MaxValidators` can be bonded.** Alice's validator is on the list twice, for the
double sign and for its destruction, and two candidates come for one that leaves. -/
theorem too_many_bonded :
    ChainReach simplePools (fun _ => Dec.one) ChainNode.Ordinary bobAndCarol ∧
    bobAndCarol.phase = .between ∧ bobAndCarol.staking.state.params.maxValidators = 1 ∧
    (bobAndCarol.books.validators.values.filter fun v => v.status = .bonded).map
      Validator.operatorAddress = ["bob", "carol"] := by
  have halone : ChainReach simplePools (fun _ => Dec.one) ChainNode.Ordinary aliceAlone := by
    refine (reach_chainStart _ _ _).later (.run (by decide +kernel) ⟨⟨createAlice_valid, trivial⟩,
      ⟨createBob_valid, trivial⟩, ⟨createCarol_valid, trivial⟩, ⟨trivial, trivial⟩,
      ⟨trivial, ?_⟩, trivial⟩)
    unfold ChainNode.Ordinary
    decide +kernel
  exact ⟨halone.later (.run (by decide +kernel) ⟨⟨trivial, trivial⟩,
      ⟨⟨by decide, isUser_alice⟩, trivial⟩, ⟨trivial, trivial⟩, trivial⟩), by decide +kernel,
    by decide +kernel, by decide +kernel⟩

end Okexchain
