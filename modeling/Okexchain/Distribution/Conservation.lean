import Okexchain.Distribution.Spec

/-!
# Conservation of the distributed fees

Runs of the distribution module. A `DistrNode` is its state with the validators that exist.

* What `BeginBlocker` is told about validators is arbitrary, but those it is told about exist and
  their shares are not negative. The votes, the height and the proposer are arbitrary.
* The hooks run when a validator is created and when one is removed.
* Other modules change the bank, but not the account of the module.

**Result.** `distribution_conserves`: after every step the account holds the community pool and the
commissions, no amount is negative, every commission can be withdrawn and every validator removed,
and `BeginBlocker` goes through when its divisors are not zero. `can_withdraw_all`: all validators
can withdraw one after the other.
-/

namespace Okexchain

variable {B : Type}

/-- The module with the operators of the validators that exist. -/
structure DistrNode (B : Type) where
  state : DistrState B
  operators : Finset Address

/-- What the staking keeper answers about validators that exist. -/
def StakingView.Within (view : StakingView) (operators : Finset Address) : Prop :=
  ∀ val, (∃ a, view.validatorByConsAddr a = some val) ∨ val ∈ view.validators →
    val.operator ∈ operators ∧ 0 ≤ val.delegatorShares

/-- The reachable nodes. -/
inductive DistrReach (dk : DistrKeeper B) : DistrNode B → Prop
  | genesis {params : DistrParams} {b : B} {proposer : Address}
      (hempty : dk.moduleCoins b distrModuleName = 0) :
      DistrReach dk ⟨⟨0, ∅, ∅, proposer, params, b⟩, ∅⟩
  | beginBlock {n : DistrNode B} {view : StakingView} {height : Int} {votes : List CommitVote}
      {proposer : Address} {s' : DistrState B} (hn : DistrReach dk n)
      (hview : view.Within n.operators)
      (hfees : ∀ d, 0 ≤ dk.moduleCoins n.state.bank feeCollectorName d)
      (hok : n.state.beginBlocker dk view height votes proposer = .ok s') :
      DistrReach dk ⟨s', n.operators⟩
  | withdraw {n : DistrNode B} {operator : Address} {s' : DistrState B} (hn : DistrReach dk n)
      (hok : n.state.withdrawValidatorCommission dk operator = .ok s') :
      DistrReach dk ⟨s', n.operators⟩
  | setWithdrawAddr {n : DistrNode B} {delegator withdrawAddr : Address} {s' : DistrState B}
      (hn : DistrReach dk n)
      (hok : n.state.setWithdrawAddr dk delegator withdrawAddr = .ok s') :
      DistrReach dk ⟨s', n.operators⟩
  | created {n : DistrNode B} {operator : Address} (hn : DistrReach dk n)
      (huser : dk.IsUser operator) (hnew : operator ∉ n.operators) :
      DistrReach dk ⟨n.state.afterValidatorCreated operator, insert operator n.operators⟩
  | removed {n : DistrNode B} {operator : Address} {s' : DistrState B} (hn : DistrReach dk n)
      (hmem : operator ∈ n.operators)
      (hok : n.state.afterValidatorRemoved dk operator = .ok s') :
      DistrReach dk ⟨s', n.operators.erase operator⟩
  | spend {n : DistrNode B} {recipient : Address} {amount : Coins} {s' : DistrState B}
      (hn : DistrReach dk n) (hamount : ∀ d, 0 ≤ amount d)
      (hok : n.state.handleCommunityPoolSpendProposal dk recipient amount = .ok s') :
      DistrReach dk ⟨s', n.operators⟩
  | setParams {n : DistrNode B} {params : DistrParams} (hn : DistrReach dk n) :
      DistrReach dk ⟨{ n.state with params := params }, n.operators⟩
  | others {n : DistrNode B} {b' : B} (hn : DistrReach dk n)
      (hbank : dk.moduleCoins b' distrModuleName = dk.moduleCoins n.state.bank distrModuleName) :
      DistrReach dk ⟨{ n.state with bank := b' }, n.operators⟩

/-- The invariant of the runs: only validators that exist have a commission. -/
structure DistrNode.Sound (dk : DistrKeeper B) (n : DistrNode B) : Prop where
  balanced : n.state.Balanced dk
  known : ∀ q, (n.state.accumulatedCommissions.get q).isSome → q ∈ n.operators
  users : ∀ q ∈ n.operators, dk.IsUser q

namespace DistrNode

variable {dk : DistrKeeper B} {n : DistrNode B} {s' : DistrState B}

theorem receivers_known {view : StakingView} (hview : view.Within n.operators)
    (votes : List CommitVote) : ∀ q ∈ DistrState.receivers view votes, q ∈ n.operators := by
  intro q hq
  obtain hq | hq := List.mem_append.mp hq
  · obtain ⟨val, hval, rfl⟩ := List.mem_map.mp hq
    obtain ⟨vote, -, hvote⟩ := List.mem_filterMap.mp (List.mem_of_mem_filter hval)
    exact (hview val (.inl ⟨vote.address, hvote⟩)).1
  · obtain ⟨val, hval, rfl⟩ := List.mem_map.mp hq
    exact (hview val (.inr (List.mem_of_mem_filter hval))).1

theorem shares_nonneg {view : StakingView} (hview : view.Within n.operators) :
    ∀ val ∈ DistrState.unjailed view, 0 ≤ val.delegatorShares :=
  fun val hval => (hview val (.inr (List.mem_of_mem_filter hval))).2

/-- Who has a commission is a validator that exists. -/
theorem Sound.mem_operators (h : n.Sound dk) {operator : Address}
    (hne : n.state.getCommission operator ≠ 0) : operator ∈ n.operators := by
  refine h.known operator ?_
  by_contra hnone
  refine hne ?_
  unfold DistrState.getCommission
  rw [Option.not_isSome_iff_eq_none.mp hnone]
  rfl

theorem Sound.beginBlock {view : StakingView} {height : Int} {votes : List CommitVote}
    {proposer : Address} (h : n.Sound dk) (hview : view.Within n.operators)
    (hfees : ∀ d, 0 ≤ dk.moduleCoins n.state.bank feeCollectorName d)
    (hok : n.state.beginBlocker dk view height votes proposer = .ok s') :
    Sound dk ⟨s', n.operators⟩ := by
  obtain ⟨hbalanced, hkeys⟩ :=
    (DistrState.beginBlocker_spec h.balanced (shares_nonneg hview) hfees).of_ok hok
  exact ⟨hbalanced, fun q hq => (hkeys q hq).elim (h.known q) (receivers_known hview votes q),
    h.users⟩

theorem Sound.withdraw {operator : Address} (h : n.Sound dk)
    (hok : n.state.withdrawValidatorCommission dk operator = .ok s') :
    Sound dk ⟨s', n.operators⟩ := by
  have hne : n.state.getCommission operator ≠ 0 := by
    obtain ⟨_, hreq, -⟩ := bind_eq_ok.mp hok
    exact require_eq_ok.mp hreq
  have hmem := h.mem_operators hne
  have hop := h.users operator hmem distrModuleName
  refine ⟨h.balanced.of_withdraw hop hok, fun q hq => ?_, h.users⟩
  obtain ⟨b', -, rfl⟩ :=
    (DistrState.withdrawValidatorCommission_spec h.balanced operator).of_ok hok
  change ((n.state.accumulatedCommissions.set operator _).get q).isSome at hq
  rw [KVStore.get_set] at hq
  split_ifs at hq with hq'
  · rw [hq']
    exact hmem
  · exact h.known q hq

theorem Sound.removed {operator : Address} (h : n.Sound dk) (hmem : operator ∈ n.operators)
    (hok : n.state.afterValidatorRemoved dk operator = .ok s') :
    Sound dk ⟨s', n.operators.erase operator⟩ := by
  have hop := h.users operator hmem distrModuleName
  refine ⟨h.balanced.of_removed hop hok, fun q hq => ?_,
    fun q hq => h.users q (Finset.mem_of_mem_erase hq)⟩
  obtain ⟨b', -, rfl⟩ := (DistrState.afterValidatorRemoved_spec h.balanced operator).of_ok hok
  change ((n.state.accumulatedCommissions.delete operator).get q).isSome at hq
  rw [KVStore.get_delete] at hq
  split_ifs at hq with hne
  · cases hq
  · exact Finset.mem_erase.mpr ⟨hne, h.known q hq⟩

theorem Sound.created {operator : Address} (h : n.Sound dk) (huser : dk.IsUser operator)
    (hnew : operator ∉ n.operators) :
    Sound dk ⟨n.state.afterValidatorCreated operator, insert operator n.operators⟩ := by
  have hzero : n.state.getCommission operator = 0 := by
    by_contra hne
    exact hnew (h.mem_operators hne)
  refine ⟨⟨?_, h.balanced.pool_nonneg, h.balanced.nonneg.setCommission fun _ => le_rfl,
    h.balanced.elsewhere⟩, fun q hq => ?_, fun q hq => ?_⟩
  · show dk.moduleCoins n.state.bank _ =
      n.state.communityPool + (n.state.setCommission operator 0).totalCommissions
    rw [DistrState.totalCommissions_setCommission, hzero, sub_zero, add_zero]
    exact h.balanced.holds
  · change ((n.state.accumulatedCommissions.set operator _).get q).isSome at hq
    rw [KVStore.get_set] at hq
    split_ifs at hq with hq'
    · exact Finset.mem_insert.mpr (.inl hq')
    · exact Finset.mem_insert_of_mem (h.known q hq)
  · obtain rfl | hq := Finset.mem_insert.mp hq
    · exact huser
    · exact h.users q hq

theorem Sound.setWithdrawAddr {delegator withdrawAddr : Address} (h : n.Sound dk)
    (hok : n.state.setWithdrawAddr dk delegator withdrawAddr = .ok s') :
    Sound dk ⟨s', n.operators⟩ := by
  obtain ⟨_, hlist, hok⟩ := bind_eq_ok.mp hok
  obtain ⟨_, -, hok⟩ := bind_eq_ok.mp hok
  cases pure_eq_ok.mp hok
  refine ⟨{ h.balanced with elsewhere := fun q a hget => ?_ }, h.known, h.users⟩
  rw [KVStore.get_set] at hget
  split_ifs at hget
  · cases hget
    rintro rfl
    rw [require_eq_ok, dk.blacklisted_distr] at hlist
    cases hlist
  · exact h.balanced.elsewhere q a hget

theorem Sound.spend {recipient : Address} {amount : Coins} (h : n.Sound dk)
    (hok : n.state.handleCommunityPoolSpendProposal dk recipient amount = .ok s') :
    Sound dk ⟨s', n.operators⟩ := by
  obtain ⟨_, hlist, hok⟩ := bind_eq_ok.mp hok
  obtain ⟨_, hpool, hok⟩ := bind_eq_ok.mp hok
  obtain ⟨b', hsend, hok⟩ := bind_eq_ok.mp hok
  cases pure_eq_ok.mp hok
  have hne : dk.moduleAddress distrModuleName ≠ recipient := by
    rintro rfl
    rw [require_eq_ok, dk.blacklisted_distr] at hlist
    cases hlist
  have hbank := SupplyKeeper.getCoins_source (orThrow_eq_ok.mp hsend) hne
  refine ⟨{ h.balanced with
    holds := ?_
    pool_nonneg := Coins.isNegative_eq_false.mp (require_eq_ok.mp hpool) }, h.known, h.users⟩
  show dk.moduleCoins b' _ = n.state.communityPool - amount + n.state.totalCommissions
  refine hbank.trans ?_
  rw [show dk.getCoins n.state.bank (dk.moduleAddress distrModuleName) =
    n.state.communityPool + n.state.totalCommissions from h.balanced.holds]
  abel

end DistrNode

/-- **The invariant holds in every run.** -/
theorem DistrReach.sound {dk : DistrKeeper B} {n : DistrNode B} (hn : DistrReach dk n) :
    n.Sound dk := by
  induction hn with
  | genesis hempty =>
    exact ⟨⟨hempty, fun _ => le_rfl, nofun, nofun⟩, nofun, nofun⟩
  | beginBlock _ hview hfees hok ih => exact ih.beginBlock hview hfees hok
  | withdraw _ hok ih => exact ih.withdraw hok
  | setWithdrawAddr _ hok ih => exact ih.setWithdrawAddr hok
  | created _ huser hnew ih => exact ih.created huser hnew
  | removed _ hmem hok ih => exact ih.removed hmem hok
  | spend _ _ hok ih => exact ih.spend hok
  | setParams _ ih => exact ⟨{ ih.balanced with }, ih.known, ih.users⟩
  | others _ hbank ih =>
    exact ⟨{ ih.balanced with holds := hbank.trans ih.balanced.holds }, ih.known, ih.users⟩

/-- **Fee distribution conserves every coin.** -/
theorem distribution_conserves {dk : DistrKeeper B} {n : DistrNode B} (hn : DistrReach dk n) :
    dk.moduleCoins n.state.bank distrModuleName =
        n.state.communityPool + n.state.totalCommissions ∧
      (∀ d, 0 ≤ n.state.communityPool d) ∧ n.state.NonNegCommissions ∧
      (∀ operator e, n.state.withdrawValidatorCommission dk operator = .error e →
        e = .noValidatorCommission ∧ n.state.getCommission operator = 0) ∧
      (∀ operator, ∃ s', n.state.afterValidatorRemoved dk operator = .ok s') ∧
      ∀ view height votes proposer, view.Within n.operators →
        (∀ d, 0 ≤ dk.moduleCoins n.state.bank feeCollectorName d) →
        DistrState.HasDivisors view votes →
        ∃ s', n.state.beginBlocker dk view height votes proposer = .ok s' := by
  have hsound := hn.sound
  have hbalanced := hsound.balanced
  refine ⟨hbalanced.holds, hbalanced.pool_nonneg, hbalanced.nonneg, fun operator e he => ?_,
    fun operator => ?_, fun view height votes proposer hview hfees hdiv => ?_⟩
  · exact (DistrState.withdrawValidatorCommission_spec hbalanced operator).of_error he
  · obtain ⟨s', hok, -⟩ :=
      (DistrState.afterValidatorRemoved_spec hbalanced operator).exists_ok
    exact ⟨s', hok⟩
  · have hends : Ends (n.state.beginBlocker dk view height votes proposer) _ _ :=
      DistrState.beginBlocker_spec hbalanced (DistrNode.shares_nonneg hview) hfees
    obtain ⟨s', hok, -⟩ := (hends.mono (fun _ => id) fun e he => he.2.2.2.2 hdiv).exists_ok
    exact ⟨s', hok⟩

/-! ## A run -/

/-- The simple bank with an empty blacklist but for the account of the module. -/
def simpleDistr : DistrKeeper (KVStore Address Coins) :=
  { simpleSupply with
    blacklistedAddrs := fun a => a = "#distribution"
    startBlockHeight := 0
    blacklisted_distr := by decide }

/-- Alice is the only validator. -/
def aliceView : StakingView :=
  ⟨fun a => if a = "alicekey" then some ⟨"alice", false, 3⟩ else none, [⟨"alice", false, 3⟩]⟩

theorem aliceView_within : aliceView.Within {"alice"} := by
  intro val hval
  have heq : val = ⟨"alice", false, 3⟩ := by
    obtain ⟨a, ha⟩ | hmem := hval
    · simp only [aliceView] at ha
      split_ifs at ha
      exact (Option.some.inj ha).symm
    · exact List.mem_singleton.mp hmem
  subst heq
  exact ⟨Finset.mem_singleton_self _, by decide⟩

/-- The module before the first fees are distributed: alice has been created, and the collector
holds one token and seven units. -/
def beforeFees : DistrState (KVStore Address Coins) :=
  { communityPool := 0
    accumulatedCommissions := (∅ : KVStore Address Coins).set "alice" 0
    delegatorWithdrawAddrs := ∅
    previousProposer := ""
    params := ⟨20000000000000000, true, by decide, by decide⟩
    bank := (∅ : KVStore Address Coins).set "#fee_collector" (coin "okt" 1000000000000000007) }

/-- The commissions are not zero in a run that pays alice. -/
theorem distribution_conserves_aliceEarns :
    ∃ n : DistrNode (KVStore Address Coins), DistrReach simpleDistr n ∧
      n.state.getCommission "alice" = coin "okt" 980000000000000005 ∧
      simpleDistr.moduleCoins n.state.bank distrModuleName =
        n.state.communityPool + n.state.totalCommissions := by
  have hcreated : DistrReach simpleDistr ⟨{ beforeFees with bank := ∅ }, {"alice"}⟩ :=
    (DistrReach.genesis (by decide +kernel)).created (isUser_simpleSupply (by decide)) nofun
  have hfees : DistrReach simpleDistr ⟨beforeFees, {"alice"}⟩ := hcreated.others (by decide +kernel)
  have hrun : (beforeFees.beginBlocker simpleDistr aliceView 5 [⟨"alicekey", 1⟩]
      "alicekey").toOption.map (·.getCommission "alice") =
        some (coin "okt" 980000000000000005) := by
    decide +kernel
  obtain ⟨s', hs', hcommission⟩ := Option.map_eq_some_iff.mp hrun
  have hn := hfees.beginBlock aliceView_within
    (Coins.isNegative_eq_false.mp (by decide +kernel)) (toOption_eq_some.mp hs')
  exact ⟨⟨s', _⟩, hn, hcommission, (distribution_conserves hn).1⟩

/-! ## All withdrawals -/

/-- **All commissions can be withdrawn** one after the other, whichever validators there are and in
whatever order: `CanWithdrawInvariant` is never broken. -/
theorem can_withdraw_all {dk : DistrKeeper B} {n : DistrNode B} (hn : DistrReach dk n)
    (view : StakingView) : n.state.canWithdrawInvariant dk view = false := by
  suffices hloop : (view.validators.foldlM (DistrState.withdrawAny dk) n.state).isOk = true from
    congrArg (!·) hloop
  -- a withdrawal is a step of a run, so the rest is withdrawn from a reachable node again
  induction view.validators generalizing n with
  | nil => rfl
  | cons val vals ih =>
    obtain ⟨s', hturn, hs'⟩ : ∃ s', n.state.withdrawAny dk val = .ok s' ∧
        DistrReach dk ⟨s', n.operators⟩ := by
      unfold DistrState.withdrawAny
      split_ifs with hzero
      · exact ⟨_, rfl, hn⟩
      · have hends := DistrState.withdrawValidatorCommission_spec hn.sound.balanced val.operator
        obtain ⟨s', hok, -⟩ := (hends.mono (fun _ => id) fun e he => hzero he.2).exists_ok
        exact ⟨s', hok, hn.withdraw hok⟩
    rw [List.foldlM_cons, hturn]
    exact ih hs'

theorem can_withdraw_all_aliceEarns :
    ∃ s : DistrState (KVStore Address Coins), s.getCommission "alice" ≠ 0 ∧
      s.canWithdrawInvariant simpleDistr aliceView = false := by
  have hfees : DistrReach simpleDistr ⟨beforeFees, {"alice"}⟩ :=
    ((DistrReach.genesis (b := ∅) (by decide +kernel)).created (isUser_simpleSupply (by decide))
      nofun).others (by decide +kernel)
  have hrun : (beforeFees.beginBlocker simpleDistr aliceView 5 [⟨"alicekey", 1⟩]
      "alicekey").toOption.map (decide <| ·.getCommission "alice" ≠ 0) = some true := by
    decide +kernel
  obtain ⟨s, hs, hearned⟩ := Option.map_eq_some_iff.mp hrun
  have hn := hfees.beginBlock aliceView_within
    (Coins.isNegative_eq_false.mp (by decide +kernel)) (toOption_eq_some.mp hs)
  exact ⟨s, of_decide_eq_true hearned, can_withdraw_all hn aliceView⟩

end Okexchain
