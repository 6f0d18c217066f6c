import Okexchain.Chain.Abandoned
import Okexchain.Distribution.Conservation

/-!
# The distribution module on the chain

`BeginBlocker` of distribution runs before those of slashing and of evidence. It sees the validators
as the last block has left them, and the votes of the last commit, which are those of an older
validator set. The part of the fees that is shared equally is divided by the number of the voters
that are still there and not jailed.

* `ChainNode.stakingView`, `ChainNode.votes`: what the module is told by a node of the chain.
* A validator outside of jail has a self delegation, and that alone is one share. So the shares are
  never a divisor of zero (`ChainNode.totalVotes_ne_zero`).

**Results.** `distribution_beginBlocker_ok_iff`: on every node of every run, with fees to share,
`BeginBlocker` works exactly if one of the voters is still there and not jailed.
`distribution_halts`: with one validator, a double sign is enough to halt the chain, although
Tendermint's validator set is never empty.
-/

namespace Okexchain

variable {B : Type}

/-- What distribution reads of a validator. -/
def Validator.view (v : Validator) : ValidatorView :=
  ⟨v.operatorAddress, v.jailed, v.delegatorShares⟩

namespace ChainNode

/-- What the staking keeper of a node answers. -/
def stakingView (n : ChainNode B) : StakingView where
  validatorByConsAddr := fun a => (n.books.getValidatorByConsAddr a).map Validator.view
  validators := n.books.validators.values.map Validator.view

/-- The votes of the last commit. -/
def votes (n : ChainNode B) : List CommitVote :=
  n.lastCommit.entries.map fun e => ⟨e.1, e.2⟩

/-- The operators of the validators that exist. -/
def operators (n : ChainNode B) : Finset Address :=
  (n.books.validators.values.map Validator.operatorAddress).toFinset

/-- One of the voters is still there, and not jailed. -/
def HasVoter (n : ChainNode B) : Prop :=
  ∃ k v, (n.lastCommit.get k).isSome ∧ n.books.getValidatorByConsAddr k = some v ∧ v.jailed = false

variable {n : ChainNode B}

theorem mem_values_of_consAddr {k : Address} {v : Validator}
    (h : n.books.getValidatorByConsAddr k = some v) : v ∈ n.books.validators.values := by
  obtain ⟨a, -, hv⟩ := Option.bind_eq_some_iff.mp h
  exact KeyedStore.mem_values_of_get hv

/-- Shares are never negative, and a validator outside of jail has some. -/
theorem shares_of_mem (h : SharesOK n.books) {v : Validator} (hv : v ∈ n.books.validators.values) :
    0 ≤ v.delegatorShares ∧ (v.jailed = false → 0 < v.delegatorShares) := by
  have hget : n.books.getValidator v.operatorAddress = some v := KeyedStore.mem_values.mp hv
  have hvotes := h.totalVotes_nonneg v.operatorAddress
  obtain ⟨hnonneg, hjailed⟩ := h.msd _ v hget
  rw [h.totals _ v hget]
  have hone := Dec.one_pos
  unfold Validator.own
  constructor
  · split_ifs <;> omega
  · intro hfree
    have hmsd : v.minSelfDelegation ≠ 0 := fun hzero => by
      rw [hjailed hzero] at hfree
      cases hfree
    split_ifs <;> omega

theorem stakingView_within (h : SharesOK n.books) : n.stakingView.Within n.operators := by
  intro val hval
  have hmem : val ∈ n.stakingView.validators := by
    obtain ⟨a, ha⟩ | hmem := hval
    · obtain ⟨v, hv, rfl⟩ := Option.map_eq_some_iff.mp ha
      exact List.mem_map_of_mem (mem_values_of_consAddr hv)
    · exact hmem
  obtain ⟨v, hv, rfl⟩ := List.mem_map.mp hmem
  exact ⟨List.mem_toFinset.mpr (List.mem_map_of_mem hv), (shares_of_mem h hv).1⟩

/-- The voters that count are those of `HasVoter`. -/
theorem voters_ne_nil_iff : DistrState.voters n.stakingView n.votes ≠ [] ↔ n.HasVoter := by
  have hmem : ∀ val, val ∈ DistrState.voters n.stakingView n.votes ↔
      ∃ k v, (n.lastCommit.get k).isSome ∧ n.books.getValidatorByConsAddr k = some v ∧
        v.jailed = false ∧ v.view = val := by
    intro val
    unfold DistrState.voters votes
    rw [List.mem_filter, List.mem_filterMap]
    constructor
    · rintro ⟨⟨vote, hvote, hval⟩, hfree⟩
      obtain ⟨e, he, rfl⟩ := List.mem_map.mp hvote
      obtain ⟨v, hv, rfl⟩ := Option.map_eq_some_iff.mp hval
      exact ⟨e.1, v, Option.isSome_iff_exists.mpr ⟨e.2, KVStore.mem_entries.mp he⟩, hv,
        Bool.not_eq_true' _ |>.mp hfree, rfl⟩
    · rintro ⟨k, v, hk, hv, hfree, rfl⟩
      obtain ⟨p, hp⟩ := Option.isSome_iff_exists.mp hk
      refine ⟨⟨⟨k, p⟩, List.mem_map.mpr ⟨(k, p), KVStore.mem_entries.mpr hp, rfl⟩, ?_⟩, ?_⟩
      · exact Option.map_eq_some_iff.mpr ⟨v, hv, rfl⟩
      · exact Bool.not_eq_true' _ |>.mpr hfree
  rw [Ne, List.eq_nil_iff_forall_not_mem, not_forall]
  simp only [not_not, hmem, HasVoter]
  constructor
  · rintro ⟨-, k, v, hk, hv, hfree, -⟩
    exact ⟨k, v, hk, hv, hfree⟩
  · rintro ⟨k, v, hk, hv, hfree⟩
    exact ⟨_, k, v, hk, hv, hfree, rfl⟩

/-- The shares of a voter are not zero, and so neither are all of them. -/
theorem totalVotes_ne_zero (h : SharesOK n.books) (hvoter : n.HasVoter) :
    DistrState.totalVotes n.stakingView ≠ 0 := by
  obtain ⟨k, v, -, hv, hfree⟩ := hvoter
  have hmem := mem_values_of_consAddr hv
  have hvoter : v.view ∈ DistrState.unjailed n.stakingView :=
    List.mem_filter.mpr ⟨List.mem_map_of_mem hmem, Bool.not_eq_true' _ |>.mpr hfree⟩
  have hnonneg : ∀ w ∈ (DistrState.unjailed n.stakingView).map (·.delegatorShares), 0 ≤ w := by
    intro w hw
    obtain ⟨val, hval, rfl⟩ := List.mem_map.mp hw
    exact (stakingView_within h val (.inr (List.mem_of_mem_filter hval))).2
  have hle : v.delegatorShares ≤ DistrState.totalVotes n.stakingView :=
    List.single_le_sum hnonneg _ (List.mem_map_of_mem hvoter)
  exact ((shares_of_mem h hmem).2 hfree |>.trans_le hle).ne'

end ChainNode

/-- Without a voter nothing is shared: the number of voters is a divisor. -/
theorem DistrState.beginBlocker_of_no_voter {dk : DistrKeeper B} {view : StakingView}
    {height : Int} {votes : List CommitVote} {proposer : Address} {s s' : DistrState B}
    (hok : s.beginBlocker dk view height votes proposer = .ok s')
    (hheight : dk.startBlockHeight + 1 < height)
    (hfees : dk.moduleCoins s.bank feeCollectorName ≠ 0) (hpower : previousTotalPower votes ≠ 0) :
    voters view votes ≠ [] := by
  obtain ⟨s₁, hallocated, -⟩ := bind_eq_ok.mp hok
  unfold allocated allocateTokens at hallocated
  rw [if_pos hheight, if_neg hfees] at hallocated
  obtain ⟨b', -, hsplit⟩ := bind_eq_ok.mp hallocated
  rw [if_neg hpower] at hsplit
  obtain ⟨toCommunity, -, hshares⟩ := bind_eq_ok.mp hsplit
  obtain ⟨r, hequal, -⟩ := bind_eq_ok.mp hshares
  obtain ⟨_, hlength, -⟩ := bind_eq_ok.mp hequal
  rintro hnil
  exact require_eq_ok.mp hlength (by rw [hnil]; rfl)

section Runs

variable {dk : DistrKeeper B} {sk : PoolKeeper B} {weight : Int → Int} {n : ChainNode B}
  {d : DistrState B}

theorem ChainReach.sharesOK {rule : ChainNode B → ChainAction B → Prop}
    (hweight : ∀ week, Dec.one ≤ weight week) (hn : ChainReach sk weight rule n) :
    SharesOK n.books := by
  obtain ⟨w, hinv⟩ := ChainReach.inv False False hweight (fun n a _ => n.keeps_false a) hn
  exact hinv.stores.staking.shares

/-- **When the `BeginBlocker` works.** On every node that a run reaches, with the state of a run of
distribution over the same validators: it works in the first block, without fees, and after a commit
without power; otherwise exactly if one of the voters is still there and not jailed. -/
theorem distribution_beginBlocker_ok_iff (hweight : ∀ week, Dec.one ≤ weight week)
    (hn : ChainReach sk weight (fun _ _ => True) n) (hd : DistrReach dk ⟨d, n.operators⟩)
    (hfees : ∀ denom, 0 ≤ dk.moduleCoins d.bank feeCollectorName denom) (proposer : Address) :
    (∃ d', d.beginBlocker dk n.stakingView (n.staking.height + 1) n.votes proposer = .ok d') ↔
      n.staking.height ≤ dk.startBlockHeight ∨ dk.moduleCoins d.bank feeCollectorName = 0 ∨
        DistrState.previousTotalPower n.votes = 0 ∨ n.HasVoter := by
  have hok := hn.sharesOK hweight
  have hwithin := ChainNode.stakingView_within hok
  constructor
  · rintro ⟨d', hd'⟩
    by_contra hnot
    simp only [not_or, not_le] at hnot
    obtain ⟨hheight, hsome, hpower, hnone⟩ := hnot
    have hvoters := DistrState.beginBlocker_of_no_voter hd' (by omega) hsome hpower
    exact hnone (ChainNode.voters_ne_nil_iff.mp hvoters)
  · intro hcond
    have hends : Ends (d.beginBlocker dk n.stakingView (n.staking.height + 1) n.votes proposer)
        _ _ :=
      DistrState.beginBlocker_spec hd.sound.balanced 
        (DistrNode.shares_nonneg (n := ⟨d, n.operators⟩) hwithin) hfees
    refine (hends.mono (fun _ _ => trivial) ?_).exists_ok.imp fun d' h => h.1
    rintro e ⟨-, hheight, hsome, hpower, hdiv⟩
    obtain hle | hzero | hzero | hvoter := hcond
    · omega
    · exact hsome hzero
    · exact hpower hzero
    · exact hdiv ⟨ChainNode.voters_ne_nil_iff.mpr hvoter,
        .inr (ChainNode.totalVotes_ne_zero hok hvoter)⟩

end Runs

/-! ## A double sign -/

/-- Alice's validator is elected, with Bob's as a candidate. -/
def aliceElected : ChainNode (KVStore Address Coins) :=
  (chainStart soleParams).run simplePools (fun _ => Dec.one) [.tx createAlice, .tx createBob,
    .initChain]

/-- The first block. -/
def firstBlock : ChainNode (KVStore Address Coins) :=
  aliceElected.run simplePools (fun _ => Dec.one) [.beginBlock 5, .endBlock]

/-- In the second block there is evidence that Alice has signed twice in the first. -/
def aliceCaught : ChainNode (KVStore Address Coins) :=
  firstBlock.run simplePools (fun _ => Dec.one) [.beginBlock 10, .evidence ⟨"key", 5⟩]

/-- The second block: a transaction has paid a fee, and Bob replaces Alice. -/
def secondBlock : ChainNode (KVStore Address Coins) :=
  aliceCaught.run simplePools (fun _ => Dec.one) [.tx (.outside soleParams
    (aliceCaught.staking.state.bank.set "#fee_collector" (coin bondDenom Dec.one))), .endBlock]

/-- The state of distribution along this run. -/
def distrAt (proposer : Address) (n : ChainNode (KVStore Address Coins)) :
    DistrState (KVStore Address Coins) :=
  { beforeFees with
    accumulatedCommissions := beforeFees.accumulatedCommissions.set "bob" 0
    previousProposer := proposer
    bank := n.staking.state.bank }

theorem reach_blocks :
    ChainReach simplePools (fun _ => Dec.one) ChainNode.Ordinary aliceElected ∧
      ChainReach simplePools (fun _ => Dec.one) ChainNode.Ordinary firstBlock ∧
      ChainReach simplePools (fun _ => Dec.one) ChainNode.Ordinary secondBlock := by
  have helected : ChainReach simplePools (fun _ => Dec.one) ChainNode.Ordinary aliceElected :=
    (reach_chainStart _ _ _).later (.run (by decide +kernel) ⟨⟨createAlice_valid, trivial⟩,
      ⟨createBob_valid, trivial⟩, ⟨trivial, trivial⟩, trivial⟩)
  have hfirst : ChainReach simplePools (fun _ => Dec.one) ChainNode.Ordinary firstBlock := by
    refine helected.later (.run (by decide +kernel) ⟨⟨trivial, ?_⟩, ⟨trivial, trivial⟩, trivial⟩)
    unfold ChainNode.Ordinary
    decide +kernel
  have hcaught : ChainReach simplePools (fun _ => Dec.one) ChainNode.Ordinary aliceCaught := by
    refine hfirst.later (.run (by decide +kernel) ⟨⟨trivial, ?_⟩, ⟨trivial, trivial⟩, trivial⟩)
    unfold ChainNode.Ordinary
    decide +kernel
  exact ⟨helected, hfirst,
    hcaught.later (.run (by decide +kernel) ⟨⟨trivial, trivial⟩, ⟨trivial, trivial⟩, trivial⟩)⟩

/-- Distribution follows the run: its `BeginBlocker`s have nothing to share. -/
theorem reach_distr :
    DistrReach simpleDistr ⟨distrAt "key" firstBlock, firstBlock.operators⟩ ∧
      DistrReach simpleDistr ⟨distrAt "key" secondBlock, secondBlock.operators⟩ := by
  have helected : DistrReach simpleDistr ⟨distrAt "" aliceElected, {"alice", "bob"}⟩ := by
    have hgenesis : DistrReach simpleDistr ⟨⟨0, ∅, ∅, "", beforeFees.params,
        aliceElected.staking.state.bank⟩, ∅⟩ := .genesis (by decide +kernel)
    have hboth := (hgenesis.created (isUser_simpleSupply (a := "alice") (by decide)) nofun).created
      (isUser_simpleSupply (a := "bob") (by decide)) (by decide)
    have hcomm : ({"alice", "bob"} : Finset Address) = {"bob", "alice"} := Finset.pair_comm ..
    rw [hcomm]
    exact hboth
  obtain ⟨hreach, hreach₁, -⟩ := reach_blocks
  have hops : aliceElected.operators = {"alice", "bob"} := by decide +kernel
  have hview : aliceElected.stakingView.Within {"alice", "bob"} :=
    hops ▸ ChainNode.stakingView_within (hreach.sharesOK fun _ => by decide)
  have hstarted : DistrReach simpleDistr ⟨distrAt "key" aliceElected, {"alice", "bob"}⟩ :=
    helected.beginBlock hview (Coins.isNegative_eq_false.mp (by decide +kernel))
      (toOption_eq_some.mp (by decide +kernel) :
        (distrAt "" aliceElected).beginBlocker simpleDistr aliceElected.stakingView 1
          aliceElected.votes "key" = _)
  have hfirst : DistrReach simpleDistr ⟨distrAt "key" firstBlock, {"alice", "bob"}⟩ :=
    hstarted.others (by decide +kernel)
  have hops₁ : firstBlock.operators = {"alice", "bob"} := by decide +kernel
  have hops₂ : secondBlock.operators = {"alice", "bob"} := by decide +kernel
  have hview₁ : firstBlock.stakingView.Within {"alice", "bob"} :=
    hops₁ ▸ ChainNode.stakingView_within (hreach₁.sharesOK fun _ => by decide)
  have hsecond : DistrReach simpleDistr ⟨distrAt "key" firstBlock, {"alice", "bob"}⟩ :=
    hfirst.beginBlock hview₁ (Coins.isNegative_eq_false.mp (by decide +kernel))
      (toOption_eq_some.mp (by decide +kernel) :
        (distrAt "key" firstBlock).beginBlocker simpleDistr firstBlock.stakingView 2
          firstBlock.votes "key" = _)
  rw [hops₁, hops₂]
  exact ⟨hfirst, hsecond.others (by decide +kernel)⟩

/-- A fee is paid in the first block. -/
def firstFees : DistrState (KVStore Address Coins) :=
  { distrAt "key" firstBlock with
    bank := firstBlock.staking.state.bank.set "#fee_collector" (coin bondDenom Dec.one) }

/-- The fee of the first block can be shared: Alice has voted, and is not jailed. -/
theorem distribution_beginBlocker_ok_iff_firstBlock :
    ∃ d', firstFees.beginBlocker simpleDistr firstBlock.stakingView 2 firstBlock.votes "key" =
      .ok d' := by
  have hd : DistrReach simpleDistr ⟨firstFees, firstBlock.operators⟩ :=
    reach_distr.1.others (by decide +kernel)
  have hvoter : firstBlock.HasVoter := by
    have hfree : (firstBlock.books.getValidatorByConsAddr "key").map Validator.jailed =
        some false := by decide +kernel
    obtain ⟨v, hv, hjailed⟩ := Option.map_eq_some_iff.mp hfree
    exact ⟨"key", v, by decide +kernel, hv, hjailed⟩
  exact (distribution_beginBlocker_ok_iff (fun _ => by decide)
    (reach_blocks.2.1.mono fun _ _ _ => trivial) hd
    (Coins.isNegative_eq_false.mp (by decide +kernel)) "key").mpr (.inr (.inr (.inr hvoter)))

/-- **A double sign can halt the chain.** The votes of the third block's commit are those of Alice
alone, who is jailed. Bob is bonded, and Tendermint's validator set has never been empty. -/
theorem distribution_halts :
    ChainReach simplePools (fun _ => Dec.one) ChainNode.Ordinary secondBlock ∧
    DistrReach simpleDistr ⟨distrAt "key" secondBlock, secondBlock.operators⟩ ∧
    secondBlock.phase = .between ∧ secondBlock.log.length = 3 ∧
    (∀ k ∈ [1, 2, 3], ChainNode.validatorSet (secondBlock.log.take k) ≠ ∅) ∧
    (distrAt "key" secondBlock).beginBlocker simpleDistr secondBlock.stakingView 3
      secondBlock.votes "key2" = .error .divisionByZero := by
  exact ⟨reach_blocks.2.2, reach_distr.2, by decide +kernel, by decide +kernel, by decide +kernel,
    failure_eq_some.mp (by decide +kernel)⟩

end Okexchain
