import Okexchain.Staking.ValidatorSetSpec

/-!
# Runs of the staking module

A node is the module's state at a height and a time, with the history of what has been unbonded and
paid. Its actions are the messages of the staking module and of `MsgUnjail`, what slashing and
evidence do to a validator, the two ends of a block, and `outside`: what other modules do to the
parameters and the bank.

* A failed or panicking message leaves the node as it was. So does an `EndBlocker` that panics,
  where the chain would halt.
* Messages come from accounts that can sign, so never from a module account, and have passed
  `ValidateBasic`.
* `StakingReach sk weight rule` are the nodes of the runs from an empty staking module whose steps
  all meet `rule`.

**Results.** `StakingNode.step_trace`: a step is a trace of effects, or begins a block, or is
outside the module. `StakingReach.inv`: in every run the votes agree, and only users undelegate.
-/

namespace Okexchain

variable {B : Type}

/-- The actions of a node. -/
inductive StakingAction (B : Type) where
  | createValidator (msg : MsgCreateValidator)
  | editValidator (msg : MsgEditValidator)
  | destroyValidator (delAddr : Address)
  | deposit (msg : Staking.MsgDeposit)
  | withdraw (msg : Staking.MsgDeposit)
  | addShares (msg : MsgAddShares)
  | bindProxy (msg : MsgBindProxy)
  | unbindProxy (delAddr : Address)
  | regProxy (msg : MsgRegProxy)
  /-- `allowed` is the answer of the signing info. -/
  | unjail (valAddr : Address) (allowed : Bool)
  | downtime (consAddr : Address)
  | doubleSign (consAddr : Address)
  | endBlock
  | beginBlock (time : Int)
  | outside (params : StakingParams) (bank : B)

/-- A node. -/
structure StakingNode (B : Type) where
  height : Int
  time : Int
  state : StakingState B
  history : List StakingEvent

namespace StakingNode

/-- The node after a handler. -/
def deliver (n : StakingNode B) (r : Except StakingError (StakingState B × List StakingEvent)) :
    StakingNode B :=
  match r with
  | .error _ => n
  | .ok (s, evs) => { n with state := s, history := n.history ++ evs }

/-- What an operator unbonds by destroying its validator. -/
def selfDelegation (n : StakingNode B) (delAddr : Address) : List StakingEvent :=
  match n.state.books.getValidator delAddr with
  | none => []
  | some v => [.unbonded delAddr v.minSelfDelegation n.time]

/-- One action of a node. -/
def step (sk : PoolKeeper B) (weight : Int → Int) (n : StakingNode B) :
    StakingAction B → StakingNode B
  | .createValidator msg =>
    n.deliver ((n.state.handleMsgCreateValidator sk msg).map fun s => (s, []))
  | .editValidator msg => n.deliver ((n.state.handleMsgEditValidator msg).map fun s => (s, []))
  | .destroyValidator delAddr =>
    n.deliver ((n.state.handleMsgDestroyValidator sk n.time delAddr).map fun r =>
      (r.1, n.selfDelegation delAddr))
  | .deposit msg =>
    n.deliver ((n.state.handleMsgDeposit sk weight n.time msg).map fun s => (s, []))
  | .withdraw msg =>
    n.deliver ((n.state.handleMsgWithdraw sk weight n.time msg).map fun r =>
      (r.1, [.unbonded msg.delegatorAddress msg.amount.amount n.time]))
  | .addShares msg =>
    n.deliver ((n.state.handleMsgAddShares weight n.time msg).map fun s => (s, []))
  | .bindProxy msg =>
    n.deliver ((n.state.handleMsgBindProxy weight n.time msg).map fun s => (s, []))
  | .unbindProxy delAddr =>
    n.deliver ((n.state.handleMsgUnbindProxy weight n.time delAddr).map fun s => (s, []))
  | .regProxy msg => n.deliver ((n.state.handleRegProxy weight n.time msg).map fun s => (s, []))
  | .unjail valAddr allowed =>
    n.deliver ((n.state.handleMsgUnjail valAddr allowed).map fun s => (s, []))
  | .downtime consAddr => n.deliver ((n.state.handleDowntime consAddr).map fun s => (s, []))
  | .doubleSign consAddr => n.deliver ((n.state.handleDoubleSign consAddr).map fun s => (s, []))
  | .endBlock =>
    n.deliver ((n.state.endBlocker sk n.height n.time).map fun r =>
      (r.1, paidEvents n.time r.2.2))
  | .beginBlock time => { n with height := n.height + 1, time := time }
  | .outside params bank => { n with state := { n.state with params := params, bank := bank } }

end StakingNode

/-- The messages that reach a handler. -/
def StakingAction.Valid (sk : PoolKeeper B) : StakingAction B → Prop
  | .createValidator msg => msg.validateBasic = none ∧ sk.IsUser msg.delegatorAddress
  | .editValidator msg => msg.validateBasic = none ∧ sk.IsUser msg.validatorAddress
  | .destroyValidator delAddr => validateAddress delAddr = none ∧ sk.IsUser delAddr
  | .deposit msg => msg.validateBasic = none ∧ sk.IsUser msg.delegatorAddress
  | .withdraw msg => msg.validateBasicWithdraw = none ∧ sk.IsUser msg.delegatorAddress
  | .addShares msg => msg.validateBasic = none ∧ sk.IsUser msg.delAddr
  | .bindProxy msg => msg.validateBasic = none ∧ sk.IsUser msg.delAddr
  | .unbindProxy delAddr => validateAddress delAddr = none ∧ sk.IsUser delAddr
  | .regProxy msg => validateAddress msg.proxyAddress = none ∧ sk.IsUser msg.proxyAddress
  | .unjail valAddr _ => sk.IsUser valAddr
  | .downtime _ => True
  | .doubleSign _ => True
  | .endBlock => True
  | .beginBlock _ => True
  | .outside _ _ => True

/-- An empty staking module: no validator, no delegator, and empty pools. -/
structure StakingGenesis (sk : PoolKeeper B) (s : StakingState B) : Prop where
  books : ∃ lastTotalPower epoch theEndOfLastEpoch, s.books =
    ⟨∅, ∅, ∅, ∅, lastTotalPower, ∅, [], ∅, ∅, ∅, ∅, ∅, epoch, theEndOfLastEpoch, []⟩
  bonded : sk.moduleCoins s.bank bondedPoolName = 0
  notBonded : sk.moduleCoins s.bank notBondedPoolName = 0

/-- The nodes of the runs from an empty staking module whose steps meet `rule`. -/
inductive StakingReach (sk : PoolKeeper B) (weight : Int → Int)
    (rule : StakingNode B → StakingAction B → Prop) : StakingNode B → Prop where
  | genesis {height time : Int} {s : StakingState B} (h : StakingGenesis sk s) :
      StakingReach sk weight rule ⟨height, time, s, []⟩
  | step {n : StakingNode B} {a : StakingAction B} (hn : StakingReach sk weight rule n)
      (hvalid : a.Valid sk) (hrule : rule n a) :
      StakingReach sk weight rule (n.step sk weight a)

/-! ## Undelegations -/

/-- The quantity that is there. -/
def quantityOf (o : Option UndelegationInfo) : Int := o.elim 0 UndelegationInfo.quantity

namespace StakingBooks

/-- **What `Withdraw` writes**: the quantity is added to what is there. -/
theorem getUndelegating_addUndelegation (b : StakingBooks) (d e : Address) (quantity t : Int) :
    (b.addUndelegation d quantity t).getUndelegating e =
      if e = d then some ⟨d, quantityOf (b.getUndelegating d) + quantity, t⟩
      else b.getUndelegating e := by
  unfold addUndelegation
  cases hinfo : b.getUndelegating d with
  | none =>
    refine KeyedStore.get_put.trans ?_
    rw [quantityOf, Option.elim, zero_add]
    rfl
  | some info =>
    have hkey : info.delegatorAddress = d := KeyedStore.key_of_get hinfo
    refine KeyedStore.get_put.trans ?_
    show (if e = info.delegatorAddress then _ else _) = _
    rw [hkey]
    rfl

end StakingBooks

/-- Effects keep what users undelegate. -/
theorem StakingEffect.userFunds {sk : PoolKeeper B} {destroyOK : StakingBooks → Address → Prop}
    {params : StakingParams} {time : Int} {l l' : StakingLedger} {evs : List StakingEvent}
    (he : StakingEffect sk.IsUser destroyOK params time l evs l') (h : UserFunds sk l.books) :
    UserFunds sk l'.books := by
  have hsame : ∀ {b : StakingBooks}, UserFunds sk b → SameUndelegations b l'.books →
      UserFunds sk l'.books := by
    intro b hb hund d info hinfo
    unfold StakingBooks.getUndelegating at hinfo
    rw [hund.infos] at hinfo
    exact hb d info hinfo
  cases he with
  | retally d o o' hrev htokens hfunds => exact hsame h hfunds.undelegations
  | validators hfollows hvotes hindex hfunds => exact hsame h hfunds.undelegations
  | deposit d o r quantity hrev hpos htokens hund => exact hsame h hund
  | withdraw d o o' quantity huser hrev hpos htokens hund =>
    refine hsame (fun e info hinfo => ?_) hund
    rw [StakingBooks.getUndelegating_addUndelegation] at hinfo
    split_ifs at hinfo with he
    · rw [he]
      exact huser
    · exact h e info hinfo
  | create a v hnew hvalidators hshares hmsd hvotes hindex hund => exact hsame h hund
  | destroy a v huser hok hget hmsd helsewhere hhere hvotes hindex hund =>
    refine hsame (fun e info hinfo => ?_) hund
    have hput := KeyedStore.get_put.symm.trans hinfo
    split_ifs at hput with he
    · rw [he]
      exact huser
    · exact h e info hput
  | pay key info hentry htime hinfo hbooks =>
    rw [hbooks]
    intro e i hi
    have hdelete := KeyedStore.get_delete.symm.trans hi
    split_ifs at hdelete
    exact h e i hdelete
  | lapse key htime hnothing hbooks =>
    rw [hbooks]
    exact h

/-! ## Steps -/

section Steps

variable {sk : PoolKeeper B} {weight : Int → Int} {n : StakingNode B}
  {destroyOK : StakingBooks → Address → Prop}

/-- What holds in every run. -/
structure StakingInv (sk : PoolKeeper B) (b : StakingBooks) : Prop where
  shares : SharesOK b
  users : UserFunds sk b

theorem StakingInv.effect {params : StakingParams} {time : Int} {l l' : StakingLedger}
    {evs : List StakingEvent} (h : StakingInv sk l.books)
    (he : StakingEffect sk.IsUser destroyOK params time l evs l') : StakingInv sk l'.books :=
  ⟨he.sharesOK h.shares, he.userFunds h.users⟩

/-- A step inside the module: a trace of effects, whose events go to the history. -/
structure StakingStep (sk : PoolKeeper B) (destroyOK : StakingBooks → Address → Prop)
    (n n' : StakingNode B) : Prop where
  time : n'.time = n.time
  params : n'.state.params = n.state.params
  trace : ∃ evs, n'.history = n.history ++ evs ∧
    Trace (StakingEffect sk.IsUser destroyOK n.state.params n.time) (n.state.ledger sk) evs
      (n'.state.ledger sk)

theorem StakingNode.deliver_step {α : Type} {x : Except StakingError α}
    {f : α → StakingState B × List StakingEvent}
    (hx : ∀ r, x = .ok r → StakingTrace sk destroyOK n.time n.state (f r).2 (f r).1) :
    StakingStep sk destroyOK n (n.deliver (x.map f)) := by
  cases x with
  | error e => exact ⟨rfl, rfl, [], (List.append_nil _).symm, .refl _⟩
  | ok r =>
    obtain ⟨hparams, htrace⟩ := hx r rfl
    exact ⟨rfl, hparams, (f r).2, rfl, htrace⟩

theorem handleMsgBindProxy_retallies {time : Int} {s s' : StakingState B} {msg : MsgBindProxy}
    (h : SharesOK s.books) (hweight : ∀ week, Dec.one ≤ weight week)
    (hbasic : msg.validateBasic = none) (hok : s.handleMsgBindProxy weight time msg = .ok s') :
    ∃ b', s' = { s with books := b' } ∧ Retallies s.books b' := by
  have hne : msg.proxyAddress ≠ msg.delAddr := by
    unfold MsgBindProxy.validateBasic at hbasic
    split_ifs at hbasic with _ heq
    exact Ne.symm heq
  unfold StakingState.handleMsgBindProxy at hok
  simp only [bind_eq_ok, orThrow_eq_ok, require_eq_ok, exists_const, pure_eq_ok] at hok
  obtain ⟨r, hr, -, -, rp, hrp, -, -, -, b', hbind, rfl⟩ := hok
  exact ⟨b', rfl, h.bindProxy_retallies hweight hne hr hrp hbind⟩

variable (destroyOK) in
/-- **What a step does**: a trace of effects, the begin of a block, or something outside. -/
theorem StakingNode.step_trace (hinv : StakingInv sk n.state.books)
    (hweight : ∀ week, Dec.one ≤ weight week) {a : StakingAction B} (hvalid : a.Valid sk)
    (hdestroy : ∀ d, a = .destroyValidator d → destroyOK n.state.books d) :
    StakingStep sk destroyOK n (n.step sk weight a) ∨ (∃ time, a = .beginBlock time) ∨
      ∃ params bank, a = .outside params bank := by
  cases a with
  | createValidator msg =>
    exact .inl (deliver_step fun s hs => handleMsgCreateValidator_trace hvalid.2 hs)
  | editValidator msg => exact .inl (deliver_step fun s hs => handleMsgEditValidator_trace hs)
  | destroyValidator delAddr =>
    refine .inl (deliver_step fun r hr => ?_)
    obtain ⟨v, hv, htrace⟩ :=
      handleMsgDestroyValidator_trace hvalid.2 (hdestroy delAddr rfl) hr
    unfold selfDelegation
    rw [hv]
    exact htrace
  | deposit msg =>
    exact .inl (deliver_step fun s hs => handleMsgDeposit_trace hinv.shares hweight hvalid.2 hs)
  | withdraw msg =>
    exact .inl (deliver_step fun r hr => handleMsgWithdraw_trace hinv.shares hweight hvalid.2 hr)
  | addShares msg =>
    refine .inl (deliver_step fun s hs => ?_)
    obtain ⟨b', rfl, h⟩ :=
      SharesOK.handleMsgAddShares_retallies hinv.shares hweight hvalid.1 hs
    exact h.stakingTrace
  | bindProxy msg =>
    refine .inl (deliver_step fun s hs => ?_)
    obtain ⟨b', rfl, h⟩ := handleMsgBindProxy_retallies hinv.shares hweight hvalid.1 hs
    exact h.stakingTrace
  | unbindProxy delAddr =>
    refine .inl (deliver_step fun s hs => ?_)
    unfold StakingState.handleMsgUnbindProxy at hs
    simp only [bind_eq_ok, pure_eq_ok] at hs
    obtain ⟨b', hunbind, rfl⟩ := hs
    obtain ⟨r, q, -, -, h, -⟩ := hinv.shares.unbindProxy_spec hweight hunbind
    exact h.stakingTrace
  | regProxy msg =>
    refine .inl (deliver_step fun s hs => ?_)
    unfold StakingState.handleRegProxy at hs
    split_ifs at hs
    all_goals
      simp only [bind_eq_ok, pure_eq_ok] at hs
      obtain ⟨b', hreg, rfl⟩ := hs
    · exact (hinv.shares.regProxy_retallies hweight hreg).stakingTrace
    · exact (hinv.shares.unregProxy_retallies hweight hreg).stakingTrace
  | unjail valAddr allowed =>
    exact .inl (deliver_step fun s hs => handleMsgUnjail_trace hinv.shares hs)
  | downtime consAddr =>
    exact .inl (deliver_step fun s hs => handleDowntime_trace hinv.shares hs)
  | doubleSign consAddr =>
    exact .inl (deliver_step fun s hs => handleDoubleSign_trace hinv.shares hs)
  | endBlock =>
    exact .inl (deliver_step fun r hr => (endBlocker_trace destroyOK hinv.users hr).2)
  | beginBlock time => exact .inr (.inl ⟨time, rfl⟩)
  | outside params bank => exact .inr (.inr ⟨params, bank, rfl⟩)

theorem StakingInv.trace {time : Int} {s s' : StakingState B} {evs : List StakingEvent}
    (h : StakingInv sk s.books) (htrace : StakingTrace sk destroyOK time s evs s') :
    StakingInv sk s'.books :=
  htrace.trace.keeps (P := fun l => StakingInv sk l.books) (fun he h => h.effect he) h

theorem StakingInv.empty {lastTotalPower : Option Int} {epoch : Option Nat}
    {theEndOfLastEpoch : Option Int} : StakingInv sk
      ⟨∅, ∅, ∅, ∅, lastTotalPower, ∅, [], ∅, ∅, ∅, ∅, ∅, epoch, theEndOfLastEpoch, []⟩ := by
  refine ⟨⟨fun d r hr => ?_, fun _ _ => rfl, fun d r a hr => ?_, fun a v hv => ?_,
    fun a v hv => ?_, fun a v hv => ?_⟩, fun d info hinfo => ?_⟩
  · cases hr
  · cases hr
  · cases hv
  · cases hv
  · cases hv
  · cases hinfo

theorem StakingInv.step (h : StakingInv sk n.state.books) (hweight : ∀ week, Dec.one ≤ weight week)
    {a : StakingAction B} (hvalid : a.Valid sk) :
    StakingInv sk (n.step sk weight a).state.books := by
  rcases StakingNode.step_trace (fun _ _ => True) h hweight hvalid
    (fun _ _ => trivial) with ⟨-, -, evs, -, htrace⟩ | ⟨time, rfl⟩ | ⟨params, bank, rfl⟩
  · exact htrace.keeps (P := fun l => StakingInv sk l.books) (fun he h => h.effect he) h
  · exact h
  · exact h

/-- **In every run** the votes agree, and only users undelegate. -/
theorem StakingReach.inv {rule : StakingNode B → StakingAction B → Prop}
    (hweight : ∀ week, Dec.one ≤ weight week) (h : StakingReach sk weight rule n) :
    StakingInv sk n.state.books := by
  induction h with
  | genesis h =>
    obtain ⟨total, epoch, last, hbooks⟩ := h.books
    show StakingInv sk _
    rw [hbooks]
    exact .empty
  | step hn hvalid hrule ih => exact ih.step hweight hvalid

/-- The node after a list of actions. -/
def StakingNode.run (sk : PoolKeeper B) (weight : Int → Int) (n : StakingNode B)
    (actions : List (StakingAction B)) : StakingNode B :=
  actions.foldl (StakingNode.step sk weight) n

/-- Every action of the list is valid, and meets the rule when its turn comes. -/
def StakingRuns (sk : PoolKeeper B) (weight : Int → Int)
    (rule : StakingNode B → StakingAction B → Prop) :
    StakingNode B → List (StakingAction B) → Prop
  | _, [] => True
  | n, a :: actions =>
    (a.Valid sk ∧ rule n a) ∧ StakingRuns sk weight rule (n.step sk weight a) actions

theorem StakingReach.run {rule : StakingNode B → StakingAction B → Prop}
    (hn : StakingReach sk weight rule n) {actions : List (StakingAction B)}
    (hall : StakingRuns sk weight rule n actions) :
    StakingReach sk weight rule (n.run sk weight actions) := by
  induction actions generalizing n with
  | nil => exact hn
  | cons a actions ih => exact ih (.step hn hall.1.1 hall.1.2) hall.2

end Steps

/-! ## A small chain

Alice and Bob have the token `okt` on `simpleSupply`. Alice has a validator. -/

/-- The simple bank never sends what is not there. -/
def simplePools : PoolKeeper (KVStore Address Coins) where
  toSupplyKeeper := simpleSupply
  sendCoins_covered := fun {b source target c b'} h d => by
    have h : move b source target c = some b' := h
    unfold move at h
    split_ifs at h with hneg
    rw [not_or, Bool.not_eq_true, Bool.not_eq_true, Coins.isNegative_eq_false,
      Coins.isNegative_eq_false] at hneg
    have hle := hneg.2 d
    rw [DFinsupp.sub_apply] at hle
    exact ⟨hneg.1 d, sub_nonneg.mp hle⟩

/-- A self delegation is 10, and unbonding takes 100. -/
def stakingParams : StakingParams where
  unbondingTime := 100
  maxValidators := 21
  epoch := 252
  maxValsToAddShares := 30
  bondDenom := bondDenom
  minDelegation := 1
  minSelfDelegation := Dec.newDec 10
  unbondingTime_pos := by decide
  maxValidators_pos := by decide
  epoch_pos := by decide
  maxValsToAddShares_pos := by decide
  bondDenom_ne := by decide
  minDelegation_pos := Int.zero_lt_one
  minSelfDelegation_pos := by decide

/-- The chain before its first validator. -/
def stakingStart : StakingNode (KVStore Address Coins) where
  height := 1
  time := 0
  state := {
    books := ⟨∅, ∅, ∅, ∅, none, ∅, [], ∅, ∅, ∅, ∅, ∅, none, none, []⟩
    params := stakingParams
    bank := ((∅ : KVStore Address Coins).set "alice" (coin bondDenom (Dec.newDec 1000))).set "bob"
      (coin bondDenom (Dec.newDec 1000)) }
  history := []

theorem reach_stakingStart (weight : Int → Int)
    (rule : StakingNode (KVStore Address Coins) → StakingAction (KVStore Address Coins) → Prop) :
    StakingReach simplePools weight rule stakingStart :=
  .genesis ⟨⟨none, none, none, rfl⟩, rfl, rfl⟩

theorem isUser_alice : simplePools.IsUser "alice" := isUser_simpleSupply (by decide)

theorem isUser_bob : simplePools.IsUser "bob" := isUser_simpleSupply (by decide)

/-- Alice creates her validator. -/
def createAlice : StakingAction (KVStore Address Coins) :=
  .createValidator ⟨⟨"alice", "", "", ""⟩, ⟨bondDenom, Dec.newDec 10⟩, "alice", "alice", "key"⟩

theorem createAlice_valid : createAlice.Valid simplePools := ⟨by decide, isUser_alice⟩

end Okexchain
