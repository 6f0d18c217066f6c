import Okexchain.Slashing.Keeper
import Okexchain.Staking.Genesis

/-!
# The chain of staking, slashing and evidence

A node of the chain has the stores of the staking and of the slashing module, and what it has told
Tendermint. Its actions are those of `app.go`:

* `initChain`: the genesis transactions have been delivered, and `DeliverGenTxs` elects the first
  validators;
* `beginBlock`: a block begins, with the `BeginBlocker`s of slashing and of evidence. Their loops
  are actions too: a `vote` of the last commit, and then `evidence` of an equivocation;
* `tx`: a message, or something that other modules do to the staking parameters and to the bank. It
  is delivered inside a block; a genesis transaction creates a validator;
* `endBlock`: the `EndBlocker` of staking;
* `restart`: the genesis is exported at the end of a block, and another chain is started with it. It
  begins at height zero, with the epoch forgotten.

A panic outside of a message halts the chain: the action has no result. `ChainReach sk weight rule`
are the nodes of the runs whose actions all meet `rule`.

The validators of block `H` are those of all updates up to block `H - 2`; the last commit of block
`H` is that of block `H - 1` (`ChainNode.lastCommit`).
-/

namespace Okexchain

variable {B : Type}

/-- Where a node is in the life of the chain. A block goes through its votes, its evidence and its
transactions. -/
inductive ChainPhase where
  | genesis
  | between
  | votes
  | evidence
  | transactions
deriving DecidableEq, Repr

/-- Inside of a block. -/
def ChainPhase.inBlock : ChainPhase → Bool
  | .genesis => false
  | .between => false
  | _ => true

/-- A node of the chain. -/
structure ChainNode (B : Type) where
  staking : StakingNode B
  slashing : SlashingBooks
  slashingParams : SlashingParams
  phase : ChainPhase
  /-- The times of the blocks, last first. -/
  times : List Int
  /-- The updates that Tendermint was told, by `InitChain` and by each block. -/
  log : List (List ValidatorUpdate)

/-- The actions of a node. -/
inductive ChainAction (B : Type) where
  | initChain
  | beginBlock (time : Int)
  | vote (vote : VoteInfo)
  | evidence (evidence : Equivocation)
  | tx (a : StakingAction B)
  | setParams (params : SlashingParams)
  | endBlock
  | restart (time : Int)

/-- A genesis of the staking module without validators. -/
def StakingGenesisState.blank (params : StakingParams) : StakingGenesisState :=
  ⟨params, 0, [], [], [], [], [], [], false⟩

namespace ChainNode

/-- The staking store. -/
def books (n : ChainNode B) : StakingBooks := n.staking.state.books

/-- The validators that a list of updates gives. -/
def validatorSet (log : List (List ValidatorUpdate)) : KVStore Address Int :=
  log.flatten.foldl applyUpdate ∅

/-- The validators of the last block before a new one begins. Its updates, and those of the block
before it, came too late for it; the first two blocks have the validators of `InitChain`. -/
def lastCommit (n : ChainNode B) : KVStore Address Int :=
  validatorSet (n.log.take (max 1 (n.log.length - 2)))

/-- The answer of the signing info of a validator to `MsgUnjail`. -/
def allowsUnjail (n : ChainNode B) (valAddr : Address) : Bool :=
  (n.books.getValidator valAddr).elim false fun v =>
    n.slashing.allowsUnjail n.staking.time v.consAddress

/-- Staking has done something, and slashing has heard of it. -/
def followed (n : ChainNode B) (staking : StakingNode B) : ChainNode B :=
  { n with
    staking := staking
    slashing := n.slashing.notify n.staking.height n.books staking.state.books }

/-- Tendermint is told the updates of a block. -/
def told (n : ChainNode B) (updates : List ValidatorUpdate) : ChainNode B :=
  { n with phase := .between, log := n.log ++ [updates] }

/-- The phase after a message. -/
def messagePhase (n : ChainNode B) : ChainPhase :=
  if n.phase = .genesis then .genesis else .transactions

/-- One action of a node. -/
def step (sk : PoolKeeper B) (weight : Int → Int) (n : ChainNode B) :
    ChainAction B → Except StakingError (ChainNode B)
  | .initChain => do
    let (b, updates) ← n.books.applyAndReturnValidatorSetUpdates n.staking.height n.staking.time
      n.staking.state.params
    let n := n.followed { n.staking with state := { n.staking.state with books := b } }
    return { n with phase := .between, log := [n.log.flatten ++ updates] }
  | .beginBlock time => .ok { n with
      staking := { n.staking with height := n.staking.height + 1, time := time }
      phase := .votes
      times := time :: n.times }
  | .vote vote => do
    let (s, b) ← handleValidatorSignature n.slashingParams n.staking.height n.staking.time
      (n.staking.state, n.slashing) vote
    return { n with staking := { n.staking with state := s }, slashing := b }
  | .evidence evidence => do
    let (s, b) ← handleDoubleSign n.slashingParams n.staking.time (n.staking.state, n.slashing)
      evidence
    return { n with
      staking := { n.staking with state := s }
      slashing := b
      phase := .evidence }
  | .tx a => .ok { n.followed (n.staking.step sk weight a) with phase := n.messagePhase }
  | .setParams params => .ok { n with slashingParams := params }
  | .endBlock => do
    let (s, updates, paid) ← n.staking.state.endBlocker sk n.staking.height n.staking.time
    let staking := { n.staking with
      state := s
      history := n.staking.history ++ paidEvents n.staking.time paid }
    return (n.followed staking).told updates
  | .restart time => do
    let (s, updates) ← ({ n.staking.state with books := .fresh n.books.hooks }).initGenesis sk time
      n.staking.state.exportGenesis
    return { n with
      staking := ⟨0, time, s, n.staking.history⟩
      slashing := .initGenesis s.books.validators.values
        (n.slashing.exportGenesis n.slashingParams)
      times := []
      log := [updates] }

/-- A message is delivered, and `MsgUnjail` with the answer of the signing info. -/
def Delivers (n : ChainNode B) : StakingAction B → Prop
  | .createValidator _ => n.phase ≠ .between
  | .unjail valAddr allowed => n.phase.inBlock ∧ allowed = n.allowsUnjail valAddr
  | .downtime _ => False
  | .doubleSign _ => False
  | .endBlock => False
  | .beginBlock _ => False
  | _ => n.phase.inBlock

/-- The order of the actions. -/
def Allows (n : ChainNode B) : ChainAction B → Prop
  | .initChain => n.phase = .genesis
  | .beginBlock _ => n.phase = .between
  | .vote _ => n.phase = .votes
  | .evidence _ => n.phase = .votes ∨ n.phase = .evidence
  | .tx a => n.Delivers a
  | .setParams _ => n.phase.inBlock
  | .endBlock => n.phase.inBlock
  | .restart _ => n.phase = .between

instance (n : ChainNode B) (a : StakingAction B) : Decidable (n.Delivers a) :=
  match a with
  | .createValidator _ => inferInstanceAs (Decidable (n.phase ≠ .between))
  | .unjail valAddr allowed =>
    inferInstanceAs (Decidable (n.phase.inBlock = true ∧ allowed = n.allowsUnjail valAddr))
  | .downtime _ | .doubleSign _ | .endBlock | .beginBlock _ => inferInstanceAs (Decidable False)
  | .editValidator _ | .destroyValidator _ | .deposit _ | .withdraw _ | .addShares _ | .bindProxy _
  | .unbindProxy _ | .regProxy _ | .outside _ _ => inferInstanceAs (Decidable (n.phase.inBlock = true))

instance (n : ChainNode B) (a : ChainAction B) : Decidable (n.Allows a) :=
  match a with
  | .initChain => inferInstanceAs (Decidable (n.phase = .genesis))
  | .beginBlock _ | .restart _ => inferInstanceAs (Decidable (n.phase = .between))
  | .vote _ => inferInstanceAs (Decidable (n.phase = .votes))
  | .evidence _ => inferInstanceAs (Decidable (n.phase = .votes ∨ n.phase = .evidence))
  | .tx a => inferInstanceAs (Decidable (n.Delivers a))
  | .setParams _ | .endBlock => inferInstanceAs (Decidable (n.phase.inBlock = true))

/-- What Tendermint does: the time does not go back, and the votes are those of the last commit. -/
def Ordinary (n : ChainNode B) : ChainAction B → Prop
  | .beginBlock time => n.staking.time ≤ time
  | .vote vote => (n.lastCommit.get vote.address).isSome
  | _ => True

end ChainNode

/-- The messages that reach a handler. -/
def ChainAction.Valid (sk : PoolKeeper B) : ChainAction B → Prop
  | .tx a => a.Valid sk
  | _ => True

/-- The nodes of the runs whose actions meet `rule`. -/
inductive ChainReach (sk : PoolKeeper B) (weight : Int → Int)
    (rule : ChainNode B → ChainAction B → Prop) : ChainNode B → Prop where
  | genesis {s₀ s : StakingState B} {time : Int} {params : StakingParams}
      {slashingParams : SlashingParams} {updates : List ValidatorUpdate}
      (hfresh : s₀.books = .fresh [])
      (hinit : s₀.initGenesis sk time (.blank params) = .ok (s, updates)) :
      ChainReach sk weight rule
        ⟨⟨0, time, s, []⟩, ⟨∅, ∅, ∅⟩, slashingParams, .genesis, [], [updates]⟩
  | step {n n' : ChainNode B} {a : ChainAction B} (hn : ChainReach sk weight rule n)
      (hvalid : a.Valid sk) (hallows : n.Allows a) (hrule : rule n a)
      (hstep : n.step sk weight a = .ok n') :
      ChainReach sk weight rule n'

/-- One step of a run whose actions meet `rule`. -/
def ChainStep (sk : PoolKeeper B) (weight : Int → Int) (rule : ChainNode B → ChainAction B → Prop)
    (n n' : ChainNode B) : Prop :=
  ∃ a, a.Valid sk ∧ n.Allows a ∧ rule n a ∧ n.step sk weight a = .ok n'

/-- The node `n'` comes later in a run through `n`. -/
def ChainLater (sk : PoolKeeper B) (weight : Int → Int) (rule : ChainNode B → ChainAction B → Prop) :
    ChainNode B → ChainNode B → Prop :=
  Relation.ReflTransGen (ChainStep sk weight rule)

theorem ChainReach.later {sk : PoolKeeper B} {weight : Int → Int}
    {rule : ChainNode B → ChainAction B → Prop} {n n' : ChainNode B}
    (hn : ChainReach sk weight rule n) (hlater : ChainLater sk weight rule n n') :
    ChainReach sk weight rule n' := by
  induction hlater with
  | refl => exact hn
  | tail _ hstep ih =>
    obtain ⟨a, hvalid, hallows, hrule, hstep⟩ := hstep
    exact .step ih hvalid hallows hrule hstep

/-- A run that meets a rule meets a weaker one. -/
theorem ChainReach.mono {sk : PoolKeeper B} {weight : Int → Int}
    {rule rule' : ChainNode B → ChainAction B → Prop} {n : ChainNode B}
    (h : ChainReach sk weight rule n) (himp : ∀ n a, rule n a → rule' n a) :
    ChainReach sk weight rule' n := by
  induction h with
  | genesis hfresh hinit => exact .genesis hfresh hinit
  | step hn hvalid hallows hrule hstep ih =>
    exact .step ih hvalid hallows (himp _ _ hrule) hstep

/-! ## Lists of actions -/

section Lists

variable {sk : PoolKeeper B} {weight : Int → Int} {rule : ChainNode B → ChainAction B → Prop}
  {n : ChainNode B}

/-- The node after an action, if it has a result. -/
def ChainNode.after (sk : PoolKeeper B) (weight : Int → Int) (n : ChainNode B) (a : ChainAction B) :
    ChainNode B :=
  (n.step sk weight a).toOption.getD n

/-- The node after a list of actions. -/
def ChainNode.run (sk : PoolKeeper B) (weight : Int → Int) (n : ChainNode B)
    (actions : List (ChainAction B)) : ChainNode B :=
  actions.foldl (ChainNode.after sk weight) n

/-- Every action of the list comes in order and has a result. -/
def ChainNode.succeeds (sk : PoolKeeper B) (weight : Int → Int) :
    ChainNode B → List (ChainAction B) → Bool
  | _, [] => true
  | n, a :: actions => decide (n.Allows a) && (n.step sk weight a).isOk &&
    (n.after sk weight a).succeeds sk weight actions

/-- Every action of the list is valid, and meets the rule when its turn comes. -/
def ChainRuns (sk : PoolKeeper B) (weight : Int → Int) (rule : ChainNode B → ChainAction B → Prop) :
    ChainNode B → List (ChainAction B) → Prop
  | _, [] => True
  | n, a :: actions =>
    (a.Valid sk ∧ rule n a) ∧ ChainRuns sk weight rule (n.after sk weight a) actions

theorem ChainNode.step_after {a : ChainAction B} (h : (n.step sk weight a).isOk = true) :
    n.step sk weight a = .ok (n.after sk weight a) := by
  unfold ChainNode.after
  cases hstep : n.step sk weight a with
  | error e =>
    rw [hstep] at h
    cases h
  | ok n' => rfl

theorem ChainLater.run {actions : List (ChainAction B)}
    (hok : n.succeeds sk weight actions = true) (hall : ChainRuns sk weight rule n actions) :
    ChainLater sk weight rule n (n.run sk weight actions) := by
  induction actions generalizing n with
  | nil => exact .refl
  | cons a actions ih =>
    obtain ⟨⟨hvalid, hrule⟩, hall⟩ := hall
    unfold ChainNode.succeeds at hok
    rw [Bool.and_eq_true, Bool.and_eq_true, decide_eq_true_eq] at hok
    exact .head ⟨a, hvalid, hok.1.1, hrule, ChainNode.step_after hok.1.2⟩ (ih hok.2 hall)

end Lists

end Okexchain
