import Okexchain.Gov.Types

/-!
# Filtering proposals

Model of `GetProposalsFiltered` (`x/gov/keeper/proposal.go`), which a query uses to list proposals.
It visits the IDs below the next proposal ID `m`, the last `numLatest` of them, and keeps the
proposals that satisfy the filters. The first ID is `m - numLatest`, of unsigned numbers: if more
proposals are asked for than there are IDs, then it wraps around to an ID that is not below `m`, and
no proposal is visited.

* A filter of an empty address, or of a status that is not valid, is not applied; it is `none` here.
* Of votes and deposits only their existence is read.

**Results.** `GovStore.latest` is what a caller expects: the stored proposals, by ascending ID, that
are among the last `numLatest` and satisfy the filters. `GovStore.getProposalsFiltered_iff`: **the
function returns this, unless `numLatest` is larger than `m` and there is something to return.**
-/

namespace Okexchain

namespace Gov

/-- `Proposal`, what is filtered by. -/
structure Proposal where
  proposalID : Nat
  status : ProposalStatus
deriving DecidableEq, Repr

/-- The part of the store that the filters read. -/
structure GovStore where
  nextID : UInt64
  proposals : KVStore Nat Proposal
  voted : Nat → Address → Bool
  deposited : Nat → Address → Bool

/-- The filters of a query. -/
structure ProposalFilter where
  voter : Option Address
  depositor : Option Address
  status : Option ProposalStatus

namespace GovStore

variable (s : GovStore) (f : ProposalFilter)

/-- The proposal of an ID, unless it is filtered out: one turn of the loop. -/
def matching (proposalID : Nat) : Option Proposal :=
  if f.voter.any (fun addr => !s.voted proposalID addr) then none
  else if f.depositor.any (fun addr => !s.deposited proposalID addr) then none
  else
    match s.proposals.get proposalID with
    | none => none
    | some proposal =>
      if f.status.any (fun status => proposal.status ≠ status) then none else some proposal

/-- The ID that the loop starts with. -/
def firstID (numLatest : UInt64) : UInt64 :=
  s.nextID - if numLatest = 0 then s.nextID else numLatest

/-- `GetProposalsFiltered`. -/
def getProposalsFiltered (numLatest : UInt64) : List Proposal :=
  let first := (s.firstID numLatest).toNat
  (List.range' first (s.nextID.toNat - first)).filterMap (s.matching f)

/-- The proposal satisfies all filters. -/
def satisfies (proposalID : Nat) (proposal : Proposal) : Bool :=
  f.voter.all (s.voted proposalID) && f.depositor.all (s.deposited proposalID) &&
    f.status.all fun status => proposal.status = status

/-- The ID is among the last so many, or all are asked for. -/
def isLatest (numLatest : UInt64) (proposalID : Nat) : Bool :=
  proposalID < s.nextID.toNat &&
    (numLatest = 0 || s.nextID ≤ numLatest || s.nextID.toNat - numLatest.toNat ≤ proposalID)

/-- The proposals that are asked for, by ascending ID. -/
def latest (numLatest : UInt64) : List Proposal :=
  (s.proposals.entries.filter fun e => s.isLatest numLatest e.1 && s.satisfies f e.1 e.2).map
    Prod.snd

variable {s f}

/-- One turn of the loop applies the filters. -/
theorem matching_eq (proposalID : Nat) : s.matching f proposalID =
    (s.proposals.get proposalID).filter (s.satisfies f proposalID) := by
  obtain ⟨voter, depositor, status⟩ := f
  unfold matching satisfies
  cases s.proposals.get proposalID with
  | none => simp
  | some proposal =>
    cases voter <;> cases depositor <;> cases status <;> simp [Option.filter] <;> grind

/-- A loop over IDs visits the stored proposals between them. -/
theorem filterMap_matching (first count : Nat) :
    (List.range' first count).filterMap (s.matching f) =
      (s.proposals.entries.filter fun e =>
        e.1 ∈ List.range' first count ∧ s.satisfies f e.1 e.2 = true).map Prod.snd := by
  rw [← KVStore.filterMap_get_filter List.pairwise_lt_range']
  exact List.filterMap_congr fun proposalID _ => matching_eq proposalID

/-- **`GetProposalsFiltered` returns the proposals that are asked for** if and only if not more are
asked for than there are IDs, or there are none. -/
theorem getProposalsFiltered_iff (s : GovStore) (f : ProposalFilter) (numLatest : UInt64) :
    s.getProposalsFiltered f numLatest = s.latest f numLatest ↔
      numLatest ≤ s.nextID ∨ s.latest f numLatest = [] := by
  have hnext := s.nextID.toNat_lt
  have hnum := numLatest.toNat_lt
  by_cases hle : numLatest ≤ s.nextID
  · refine iff_of_true ?_ (.inl hle)
    -- the first ID is not wrapped, and visiting from it is being among the latest
    have hfirst : (s.firstID numLatest).toNat =
        s.nextID.toNat - if numLatest = 0 then s.nextID.toNat else numLatest.toNat := by
      unfold firstID
      split_ifs
      · rw [UInt64.toNat_sub_of_le _ _ (UInt64.le_refl _)]
      · rw [UInt64.toNat_sub_of_le _ _ hle]
    unfold getProposalsFiltered latest
    simp only
    rw [filterMap_matching]
    congr 1
    refine List.filter_congr fun e _ => ?_
    have hrange : e.1 ∈ List.range' (s.firstID numLatest).toNat
        (s.nextID.toNat - (s.firstID numLatest).toNat) ↔ s.isLatest numLatest e.1 = true := by
      unfold isLatest
      rw [List.mem_range'_1, hfirst, Bool.and_eq_true, Bool.or_eq_true, Bool.or_eq_true]
      simp only [decide_eq_true_eq]
      rw [UInt64.le_iff_toNat_le] at hle ⊢
      split_ifs with hzero
      · simp only [hzero, true_or, and_true]
        omega
      · simp only [hzero, false_or]
        omega
    rw [Bool.eq_iff_iff, Bool.and_eq_true, decide_eq_true_eq, hrange]
  · have hzero : numLatest ≠ 0 := fun hzero => hle (hzero ▸ UInt64.zero_le)
    have hwraps : s.nextID.toNat - (s.firstID numLatest).toNat = 0 := by
      unfold firstID
      rw [if_neg hzero, UInt64.toNat_sub]
      rw [UInt64.le_iff_toNat_le] at hle
      omega
    have hempty : s.getProposalsFiltered f numLatest = [] := by
      unfold getProposalsFiltered
      simp only [hwraps, List.range'_zero, List.filterMap_nil]
    rw [hempty]
    exact ⟨fun h => .inr h.symm, fun h => (h.resolve_left hle).symm⟩

/-- Three proposals, of which two are in their voting period. -/
def threeProposals : GovStore where
  nextID := 4
  proposals := (((∅ : KVStore Nat Proposal).set 1 ⟨1, .passed⟩).set 2 ⟨2, .votingPeriod⟩).set 3
    ⟨3, .votingPeriod⟩
  voted := fun _ _ => false
  deposited := fun _ _ => false

/-- A caller that asks for the last ten of those in their voting period gets none. -/
theorem getProposalsFiltered_ten :
    threeProposals.getProposalsFiltered ⟨none, none, some .votingPeriod⟩ 10 = [] ∧
      threeProposals.latest ⟨none, none, some .votingPeriod⟩ 10 =
        [⟨2, .votingPeriod⟩, ⟨3, .votingPeriod⟩] := by
  decide +kernel

end GovStore

end Gov

end Okexchain
