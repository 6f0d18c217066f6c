import Okexchain.Distribution.Keeper

/-!
# What the distribution module owes

The account of the module holds the community pool and the accumulated commissions. Fees are split
by truncating multiplications; what a truncation cuts off stays in `remaining` and ends in the
community pool, so nothing is lost.

* `IsSplit`: fractions of a whole; their truncated parts do not come to more than the whole.
* `DistrState.Raised`: commissions were raised, and nothing else has changed.
* `DistrState.Balanced`: the account holds the pool and the commissions, and no amount is negative.

**Results.**
* `DistrState.allocate_spec`: fractions of a whole can be paid one after the other, and what is left
  is the rest.
* `DistrState.beginBlocker_spec`: `BeginBlocker` keeps the balance, and it fails in one way: a
  divisor is zero while there are fees to split.
* `DistrState.withdrawValidatorCommission_spec`, `DistrState.afterValidatorRemoved_spec`: the
  account covers every commission.
-/

namespace Okexchain

/-! ## Fractions of a whole -/

/-- A list of fractions of a whole. -/
def IsSplit (fs : List Int) : Prop := (∀ f ∈ fs, 0 ≤ f) ∧ fs.sum ≤ Dec.one

/-- Truncated parts do not add up to more than the whole. -/
theorem IsSplit.sum_mulTruncate_le {fs : List Int} (h : IsSplit fs) {r : Int} (hr : 0 ≤ r) :
    (fs.map fun f => Dec.mulTruncate r f).sum ≤ r := by
  have hsum : (fs.map fun f => Dec.mulTruncate r f).sum * Dec.one ≤ r * fs.sum := by
    have hnonneg := h.1
    clear h
    induction fs with
    | nil => simp
    | cons f fs ih =>
      obtain ⟨hf, hfs⟩ := List.forall_mem_cons.mp hnonneg
      have htrunc := Dec.mulTruncate_mul_one_le hr hf
      have hrest := ih hfs
      rw [List.map_cons, List.sum_cons, List.sum_cons, add_mul, mul_add]
      exact add_le_add htrunc hrest
  have hle : r * fs.sum ≤ r * Dec.one := Int.mul_le_mul_of_nonneg_left h.2 hr
  exact le_of_mul_le_mul_right (hsum.trans hle) Dec.one_pos

theorem isSplit_equal {n : Nat} (hn : n ≠ 0) :
    IsSplit (List.replicate n (Dec.quoTruncate (Dec.newDec 1) (Dec.newDec n))) := by
  have hpos : 0 < Dec.newDec (n : Int) :=
    mul_pos (Int.natCast_pos.mpr (Nat.pos_of_ne_zero hn)) Dec.one_pos
  have hone : (0 : Int) ≤ Dec.newDec 1 := by decide
  constructor
  · intro f hf
    rw [List.eq_of_mem_replicate hf]
    exact Dec.quoTruncate_nonneg hone hpos
  · have hle := Dec.quoTruncate_mul_le hone hpos
    rw [List.sum_replicate, nsmul_eq_mul]
    refine le_of_mul_le_mul_right ?_ Dec.one_pos
    calc (n : Int) * Dec.quoTruncate (Dec.newDec 1) (Dec.newDec n) * Dec.one
        = Dec.quoTruncate (Dec.newDec 1) (Dec.newDec n) * Dec.newDec n := by
          unfold Dec.newDec
          ring
      _ ≤ Dec.newDec 1 * Dec.one := hle
      _ = Dec.one * Dec.one := by
          unfold Dec.newDec
          ring

theorem isSplit_weighted {ws : List Int} (hws : ∀ w ∈ ws, 0 ≤ w) (hpos : 0 < ws.sum) :
    IsSplit (ws.map fun w => Dec.quoTruncate w ws.sum) := by
  constructor
  · intro f hf
    obtain ⟨w, hw, rfl⟩ := List.mem_map.mp hf
    exact Dec.quoTruncate_nonneg (hws w hw) hpos
  · have hle : ∀ {total : Int}, 0 < total → ∀ {l : List Int}, (∀ w ∈ l, 0 ≤ w) →
        (l.map fun w => Dec.quoTruncate w total).sum * total ≤ l.sum * Dec.one := by
      intro total htotal l hl
      induction l with
      | nil => simp
      | cons w l ih =>
        obtain ⟨hw, hl⟩ := List.forall_mem_cons.mp hl
        rw [List.map_cons, List.sum_cons, List.sum_cons, add_mul, add_mul]
        exact add_le_add (Dec.quoTruncate_mul_le hw htotal) (ih hl)
    refine le_of_mul_le_mul_right ?_ hpos
    rw [mul_comm Dec.one]
    exact hle hpos hws

namespace DistrState

variable {B : Type} {dk : DistrKeeper B} {s s' s'' : DistrState B}

/-! ## Commissions -/

/-- The commissions of all validators. -/
def totalCommissions (s : DistrState B) : Coins := s.accumulatedCommissions.sumBy fun _ c => c

/-- No commission is negative. -/
def NonNegCommissions (s : DistrState B) : Prop :=
  ∀ operator c, s.accumulatedCommissions.get operator = some c → ∀ d, 0 ≤ c d

theorem NonNegCommissions.getCommission (h : s.NonNegCommissions) (operator : Address)
    (d : String) : 0 ≤ s.getCommission operator d := by
  unfold DistrState.getCommission
  cases hget : s.accumulatedCommissions.get operator with
  | none => exact le_rfl
  | some c => exact h operator c hget d

/-- What an operator has accumulated is its part of the total. -/
theorem valAt_commissions (s : DistrState B) (operator : Address) :
    s.accumulatedCommissions.valAt (fun _ c => c) operator = s.getCommission operator := by
  unfold getCommission KVStore.valAt
  cases s.accumulatedCommissions.get operator <;> rfl

theorem totalCommissions_setCommission (operator : Address) (c : Coins) :
    (s.setCommission operator c).totalCommissions =
      s.totalCommissions - s.getCommission operator + c := by
  rw [← valAt_commissions]
  exact KVStore.sumBy_set _

theorem NonNegCommissions.setCommission (h : s.NonNegCommissions) {operator : Address} {c : Coins}
    (hc : ∀ d, 0 ≤ c d) : (s.setCommission operator c).NonNegCommissions := by
  intro q c' hget
  change (s.accumulatedCommissions.set operator c).get q = some c' at hget
  rw [KVStore.get_set] at hget
  split_ifs at hget
  · cases hget
    exact hc
  · exact h q c' hget

/-- Commissions of these operators were raised by this in total. -/
structure Raised (s : DistrState B) (operators : List Address) (c : Coins) (s' : DistrState B) :
    Prop where
  frame : s' = { s with accumulatedCommissions := s'.accumulatedCommissions }
  total : s'.totalCommissions = s.totalCommissions + c
  nonneg : s.NonNegCommissions → s'.NonNegCommissions
  keys : ∀ q, (s'.accumulatedCommissions.get q).isSome →
    (s.accumulatedCommissions.get q).isSome ∨ q ∈ operators

theorem Raised.refl (s : DistrState B) : Raised s [] 0 s :=
  ⟨rfl, (add_zero _).symm, id, fun _ h => .inl h⟩

section

variable {operators : List Address} {c : Coins}

theorem Raised.pool (h : Raised s operators c s') : s'.communityPool = s.communityPool := by
  rw [h.frame]

theorem Raised.bank (h : Raised s operators c s') : s'.bank = s.bank := by
  rw [h.frame]

theorem Raised.withdrawAddrs (h : Raised s operators c s') :
    s'.delegatorWithdrawAddrs = s.delegatorWithdrawAddrs := by
  rw [h.frame]

end

theorem Raised.trans {ops ops' : List Address} {c c' : Coins} (h : Raised s ops c s')
    (h' : Raised s' ops' c' s'') : Raised s (ops ++ ops') (c + c') s'' where
  frame := by
    rw [h'.frame, h.frame]
  total := by rw [h'.total, h.total, add_assoc]
  nonneg := h'.nonneg ∘ h.nonneg
  keys := fun q hq => by
    obtain hq | hq := h'.keys q hq
    · exact (h.keys q hq).imp id (List.mem_append_left _)
    · exact .inr (List.mem_append_right _ hq)

theorem allocateTokensToValidator_raised {operator : Address} {tokens : Coins}
    (htokens : ∀ d, 0 ≤ tokens d) :
    Raised s [operator] tokens (s.allocateTokensToValidator operator tokens) where
  frame := rfl
  total := by
    unfold allocateTokensToValidator
    rw [totalCommissions_setCommission]
    abel
  nonneg h := h.setCommission fun d => by
    rw [DFinsupp.add_apply]
    exact add_nonneg (h.getCommission operator d) (htokens d)
  keys q hq := by
    change ((s.accumulatedCommissions.set operator _).get q).isSome at hq
    rw [KVStore.get_set] at hq
    split_ifs at hq with hop
    · exact .inr (List.mem_singleton.mpr hop)
    · exact .inl hq

/-! ## Allocation -/

/-- What the fractions of the rewards come to. -/
def paidOut (rewards : Coins) (fractions : List (Address × Int)) : Coins :=
  (fractions.map fun e => rewards.mulDecTruncate e.2).sum

theorem paidOut_apply (rewards : Coins) (fractions : List (Address × Int)) (d : String) :
    paidOut rewards fractions d =
      ((fractions.map Prod.snd).map fun f => Dec.mulTruncate (rewards d) f).sum := by
  induction fractions with
  | nil => rfl
  | cons e fractions ih =>
    unfold paidOut at ih ⊢
    rw [List.map_cons, List.sum_cons, DFinsupp.add_apply, ih, Coins.mulDecTruncate_apply]
    rfl

/-- The loop pays every fraction while the rest covers them. -/
theorem allocate_from {rewards remaining : Coins} {fractions : List (Address × Int)}
    (hrewards : ∀ d, 0 ≤ rewards d) (hfractions : ∀ e ∈ fractions, 0 ≤ e.2)
    (hle : ∀ d, paidOut rewards fractions d ≤ remaining d) :
    ∃ s', fractions.foldlM (allocateOne rewards) (s, remaining) =
        .ok (s', remaining - paidOut rewards fractions) ∧
      Raised s (fractions.map Prod.fst) (paidOut rewards fractions) s' := by
  induction fractions generalizing s remaining with
  | nil => exact ⟨s, congrArg (fun c => Except.ok (s, c)) (sub_zero _).symm, .refl s⟩
  | cons e fractions ih =>
    obtain ⟨he, hfractions⟩ := List.forall_mem_cons.mp hfractions
    have hreward : ∀ d, 0 ≤ rewards.mulDecTruncate e.2 d := fun d => by
      rw [Coins.mulDecTruncate_apply]
      exact Dec.mulTruncate_nonneg (hrewards d) he
    have hsplit : paidOut rewards (e :: fractions) =
        rewards.mulDecTruncate e.2 + paidOut rewards fractions := List.sum_cons
    have hrest : ∀ d, 0 ≤ paidOut rewards fractions d := Coins.sum_nonneg fun c hc d => by
      obtain ⟨e', he', rfl⟩ := List.mem_map.mp hc
      rw [Coins.mulDecTruncate_apply]
      exact Dec.mulTruncate_nonneg (hrewards d) (hfractions e' he')
    have hcover : ∀ d, rewards.mulDecTruncate e.2 d + paidOut rewards fractions d ≤ remaining d :=
      fun d => by
        have := hle d
        rwa [hsplit, DFinsupp.add_apply] at this
    have hsub : remaining.subCoins (rewards.mulDecTruncate e.2) =
        some (remaining - rewards.mulDecTruncate e.2) :=
      Coins.subCoins_eq_some fun d => (le_add_of_nonneg_right (hrest d)).trans (hcover d)
    have hone : allocateOne rewards (s, remaining) e =
        .ok (s.allocateTokensToValidator e.1 (rewards.mulDecTruncate e.2),
          remaining - rewards.mulDecTruncate e.2) := by
      simp only [allocateOne, hsub]
      rfl
    have hleft : ∀ d, paidOut rewards fractions d ≤
        (remaining - rewards.mulDecTruncate e.2) d := fun d => by
      rw [DFinsupp.sub_apply]
      exact le_sub_iff_add_le'.mpr (hcover d)
    obtain ⟨s', hloop, hraised⟩ := ih hfractions hleft
    refine ⟨s', ?_, ?_⟩
    · rw [List.foldlM_cons, hone, hsplit, ← sub_sub]
      exact hloop
    · rw [hsplit]
      exact (allocateTokensToValidator_raised hreward).trans hraised

/-- **Fractions of a whole can be paid**, and what is left is the rest. -/
theorem allocate_spec {rewards : Coins} {fractions : List (Address × Int)}
    (hrewards : ∀ d, 0 ≤ rewards d) (hsplit : IsSplit (fractions.map Prod.snd)) :
    ∃ s' paid, s.allocate rewards fractions = .ok (s', rewards - paid) ∧
      Raised s (fractions.map Prod.fst) paid s' ∧ ∀ d, paid d ≤ rewards d := by
  have hle : ∀ d, paidOut rewards fractions d ≤ rewards d := fun d => by
    rw [paidOut_apply]
    exact hsplit.sum_mulTruncate_le (hrewards d)
  have hfractions : ∀ e ∈ fractions, 0 ≤ e.2 := fun e he =>
    hsplit.1 e.2 (List.mem_map_of_mem he)
  obtain ⟨s', hloop, hraised⟩ := allocate_from (s := s) hrewards hfractions hle
  exact ⟨s', _, hloop, hraised, hle⟩

/-- The divisors of the two allocations: the number of voters and the shares. -/
def HasDivisors (view : StakingView) (votes : List CommitVote) : Prop :=
  voters view votes ≠ [] ∧ (unjailed view = [] ∨ totalVotes view ≠ 0)

/-- What the loop of an allocation leaves, given the rewards. -/
def Allocated (s : DistrState B) (rewards : Coins) (operators : List Address)
    (r : DistrState B × Coins) : Prop :=
  ∃ paid, r.2 = rewards - paid ∧ Raised s operators paid r.1 ∧ ∀ d, paid d ≤ rewards d

theorem allocateByEqual_spec {view : StakingView} {rewards : Coins} {votes : List CommitVote}
    (hrewards : ∀ d, 0 ≤ rewards d) :
    Ends (s.allocateByEqual view rewards votes)
      (Allocated s rewards ((voters view votes).map ValidatorView.operator))
      fun e => e = .divisionByZero ∧ voters view votes = [] := by
  refine Ends.bind (Ends.require fun hlen => ?_) fun _ _ hlen => ?_
  · exact ⟨rfl, List.length_eq_zero_iff.mp (not_not.mp hlen)⟩
  · have hsplit : IsSplit (((voters view votes).map fun val => (val.operator,
        Dec.quoTruncate (Dec.newDec 1) (Dec.newDec (voters view votes).length))).map Prod.snd) := by
      rw [List.map_map, Function.comp_def, List.map_const']
      exact isSplit_equal hlen
    obtain ⟨s', paid, hloop, hraised, hle⟩ := allocate_spec (s := s) hrewards hsplit
    rw [List.map_map] at hraised
    exact (Ends.eq_ok hloop).mono (fun r hr => hr ▸ ⟨paid, rfl, hraised, hle⟩) fun _ => id

theorem allocateByShares_spec {view : StakingView} {rewards : Coins}
    (hshares : ∀ val ∈ unjailed view, 0 ≤ val.delegatorShares) (hrewards : ∀ d, 0 ≤ rewards d) :
    Ends (s.allocateByShares view rewards)
      (Allocated s rewards ((unjailed view).map ValidatorView.operator))
      fun e => e = .divisionByZero ∧ ¬ (unjailed view = [] ∨ totalVotes view ≠ 0) := by
  refine Ends.bind (Ends.require fun hdiv => ⟨rfl, hdiv⟩) fun _ _ hdiv => ?_
  have hsplit : IsSplit (((unjailed view).map fun val =>
      (val.operator, Dec.quoTruncate val.delegatorShares (totalVotes view))).map Prod.snd) := by
    rw [List.map_map]
    have hweights : ∀ w ∈ (unjailed view).map (·.delegatorShares), 0 ≤ w := fun w hw => by
      obtain ⟨val, hval, rfl⟩ := List.mem_map.mp hw
      exact hshares val hval
    obtain hnil | hne := hdiv
    · rw [hnil]
      exact ⟨nofun, Dec.one_pos.le⟩
    · have hpos : 0 < totalVotes view :=
        lt_of_le_of_ne (List.sum_nonneg hweights) (Ne.symm hne)
      have := isSplit_weighted hweights hpos
      rwa [List.map_map] at this
  obtain ⟨s', paid, hloop, hraised, hle⟩ := allocate_spec (s := s) hrewards hsplit
  rw [List.map_map] at hraised
  exact (Ends.eq_ok hloop).mono (fun r hr => hr ▸ ⟨paid, rfl, hraised, hle⟩) fun _ => id

/-- The fees have gone to commissions of these operators and, for the rest, to the pool. -/
def Shared (s : DistrState B) (fees : Coins) (operators : List Address) (s' : DistrState B) :
    Prop :=
  ∃ s₁ paid, Raised s operators paid s₁ ∧ (∀ d, paid d ≤ fees d) ∧
    s' = { s₁ with communityPool := s.communityPool + (fees - paid) }

/-- The operators that `AllocateTokens` may pay. -/
def receivers (view : StakingView) (votes : List CommitVote) : List Address :=
  (voters view votes).map ValidatorView.operator ++ (unjailed view).map ValidatorView.operator

/-- The two portions of the fees of the validators are within the fees. -/
theorem portions_le {fees : Coins} (hfees : ∀ d, 0 ≤ fees d) (params : DistrParams) (d : String) :
    ((fees.mulDecTruncate (Dec.one - params.communityTax)).mulDecTruncate valPortion +
      (fees.mulDecTruncate (Dec.one - params.communityTax)).mulDecTruncate votePortion) d ≤
        fees d := by
  have htax : IsSplit [Dec.one - params.communityTax] := by
    refine ⟨fun f hf => ?_, ?_⟩
    · rw [List.mem_singleton.mp hf]
      exact sub_nonneg.mpr params.communityTax_le_one
    · rw [List.sum_singleton]
      exact sub_le_self _ params.communityTax_nonneg
  have hportions : IsSplit [valPortion, votePortion] := ⟨by decide, by decide⟩
  have hvals : 0 ≤ Dec.mulTruncate (fees d) (Dec.one - params.communityTax) :=
    Dec.mulTruncate_nonneg (hfees d) (sub_nonneg.mpr params.communityTax_le_one)
  have h₁ := htax.sum_mulTruncate_le (hfees d)
  have h₂ := hportions.sum_mulTruncate_le hvals
  simp only [List.map_cons, List.map_nil, List.sum_cons, List.sum_nil, add_zero] at h₁ h₂
  rw [DFinsupp.add_apply, Coins.mulDecTruncate_apply, Coins.mulDecTruncate_apply,
    Coins.mulDecTruncate_apply]
  exact h₂.trans h₁

theorem splitFees_spec {view : StakingView} {fees : Coins} {votes : List CommitVote}
    (hshares : ∀ val ∈ unjailed view, 0 ≤ val.delegatorShares) (hfees : ∀ d, 0 ≤ fees d) :
    Ends (s.splitFees view fees votes) (Shared s fees (receivers view votes))
      fun e => e = .divisionByZero ∧ ¬ HasDivisors view votes := by
  have hvals : ∀ d, 0 ≤ fees.mulDecTruncate (Dec.one - s.params.communityTax) d := fun d => by
    rw [Coins.mulDecTruncate_apply]
    exact Dec.mulTruncate_nonneg (hfees d) (sub_nonneg.mpr s.params.communityTax_le_one)
  have hportion : ∀ {portion : Int}, 0 ≤ portion → ∀ d, 0 ≤
      (fees.mulDecTruncate (Dec.one - s.params.communityTax)).mulDecTruncate portion d :=
    fun hp d => by
      rw [Coins.mulDecTruncate_apply]
      exact Dec.mulTruncate_nonneg (hvals d) hp
  have hsub := Coins.subCoins_eq_some (portions_le hfees s.params)
  refine Ends.bind (Ends.orThrow fun hnone => ?_) fun toCommunity _ hcommunity => ?_
  · rw [hsub] at hnone
    cases hnone
  cases hcommunity.symm.trans hsub
  refine Ends.bind ((allocateByEqual_spec (hportion (by decide))).mono (fun _ => id)
    fun e he => ⟨he.1, fun hd => hd.1 he.2⟩) ?_
  rintro ⟨s₁, remainByEqual⟩ - ⟨paid₁, rfl, hraised₁, hle₁⟩
  refine Ends.bind ((allocateByShares_spec hshares (hportion (by decide))).mono (fun _ => id)
    fun e he => ⟨he.1, fun hd => he.2 hd.2⟩) ?_
  rintro ⟨s₂, remainByShare⟩ - ⟨paid₂, rfl, hraised₂, hle₂⟩
  have hraised : Raised s (receivers view votes) (paid₁ + paid₂) s₂ := hraised₁.trans hraised₂
  refine Ends.pure ⟨s₂, paid₁ + paid₂, hraised, fun d => ?_, ?_⟩
  · exact (add_le_add (hle₁ d) (hle₂ d)).trans (portions_le hfees s.params d)
  · have hpool : s₂.communityPool = s.communityPool := hraised.pool
    simp only [hpool]
    congr 2
    abel

/-! ## The account of the module -/

/-- **The account holds what the module owes**, no amount is negative, and what is paid out leaves
the account. -/
structure Balanced (dk : DistrKeeper B) (s : DistrState B) : Prop where
  holds : dk.moduleCoins s.bank distrModuleName = s.communityPool + s.totalCommissions
  pool_nonneg : ∀ d, 0 ≤ s.communityPool d
  nonneg : s.NonNegCommissions
  /-- `SetWithdrawAddr` asks the blacklist. -/
  elsewhere : ∀ q a, s.delegatorWithdrawAddrs.get q = some a → a ≠ dk.moduleAddress distrModuleName

theorem totalCommissions_nonneg (h : s.NonNegCommissions) (d : String) :
    0 ≤ s.totalCommissions d := by
  unfold totalCommissions
  rw [sumBy_apply]
  exact KVStore.sumBy_nonneg _ fun q c hget => h q c hget d

theorem getCommission_le_total (h : s.NonNegCommissions) (operator : Address) (d : String) :
    s.getCommission operator d ≤ s.totalCommissions d := by
  have hset : (s.setCommission operator 0).NonNegCommissions := h.setCommission fun _ => le_rfl
  have hrest := totalCommissions_nonneg hset d
  rw [totalCommissions_setCommission, add_zero, DFinsupp.sub_apply] at hrest
  exact sub_nonneg.mp hrest

/-- Fees of the collector that are shared keep the account in balance. -/
theorem Balanced.shared {fees : Coins} {operators : List Address} {b' : B}
    (h : s.Balanced dk)
    (hbank : dk.moduleCoins b' distrModuleName = dk.moduleCoins s.bank distrModuleName + fees)
    (hshared : Shared { s with bank := b' } fees operators s') : s'.Balanced dk := by
  obtain ⟨s₁, paid, hraised, hle, rfl⟩ := hshared
  refine ⟨?_, fun d => ?_, hraised.nonneg h.nonneg, ?_⟩
  · have htotal : s₁.totalCommissions = s.totalCommissions + paid := hraised.total
    show dk.moduleCoins s₁.bank _ = s.communityPool + (fees - paid) + s₁.totalCommissions
    rw [hraised.bank, hbank, h.holds, htotal]
    abel
  · show 0 ≤ (s.communityPool + (fees - paid)) d
    rw [DFinsupp.add_apply, DFinsupp.sub_apply]
    exact add_nonneg (h.pool_nonneg d) (sub_nonneg.mpr (hle d))
  · show ∀ q a, s₁.delegatorWithdrawAddrs.get q = some a → _
    rw [hraised.withdrawAddrs]
    exact h.elsewhere

/-- What `BeginBlocker` leaves: a balanced account, and new commissions for receivers only. -/
def Began (dk : DistrKeeper B) (s : DistrState B) (operators : List Address) (s' : DistrState B) :
    Prop :=
  s'.Balanced dk ∧ ∀ q, (s'.accumulatedCommissions.get q).isSome →
    (s.accumulatedCommissions.get q).isSome ∨ q ∈ operators

theorem allocateTokens_spec {view : StakingView} {power : Int} {votes : List CommitVote}
    (h : s.Balanced dk) (hshares : ∀ val ∈ unjailed view, 0 ≤ val.delegatorShares)
    (hfees : ∀ d, 0 ≤ dk.moduleCoins s.bank feeCollectorName d) :
    Ends (s.allocateTokens dk view power votes) (Began dk s (receivers view votes))
      fun e => e = .divisionByZero ∧ dk.moduleCoins s.bank feeCollectorName ≠ 0 ∧ power ≠ 0 ∧
        ¬ HasDivisors view votes := by
  refine Ends.ite (fun _ => Ends.pure ⟨h, fun _ => .inl⟩) fun hne => ?_
  refine Ends.bind (Ends.orThrow fun hnone => ?_) fun b' _ hsend => ?_
  · exact absurd hnone (Option.isSome_iff_ne_none.mp (dk.sendCoins_isSome hfees fun _ => le_rfl))
  have hbank : dk.moduleCoins b' distrModuleName = dk.moduleCoins s.bank distrModuleName +
      dk.moduleCoins s.bank feeCollectorName :=
    SupplyKeeper.getCoins_target hsend (SupplyKeeper.moduleAddress_ne (by decide))
  refine Ends.ite (fun _ => Ends.pure ?_) fun hpower => ?_
  · have hshared : Shared { s with bank := b' } (dk.moduleCoins s.bank feeCollectorName) []
        { s with
          bank := b'
          communityPool := s.communityPool + dk.moduleCoins s.bank feeCollectorName } :=
      ⟨_, 0, .refl _, hfees, by rw [sub_zero]⟩
    exact ⟨h.shared hbank hshared, fun _ => .inl⟩
  · refine (splitFees_spec hshares hfees).mono (fun s' hs' => ⟨h.shared hbank hs', ?_⟩)
      fun e he => ⟨he.1, hne, hpower, he.2⟩
    obtain ⟨s₁, paid, hraised, -, rfl⟩ := hs'
    exact hraised.keys

theorem beginBlocker_spec {view : StakingView} {height : Int} {votes : List CommitVote}
    {proposer : Address} (h : s.Balanced dk)
    (hshares : ∀ val ∈ unjailed view, 0 ≤ val.delegatorShares)
    (hfees : ∀ d, 0 ≤ dk.moduleCoins s.bank feeCollectorName d) :
    Ends (s.beginBlocker dk view height votes proposer) (Began dk s (receivers view votes))
      fun e => e = .divisionByZero ∧ dk.startBlockHeight + 1 < height ∧
        dk.moduleCoins s.bank feeCollectorName ≠ 0 ∧ previousTotalPower votes ≠ 0 ∧
          ¬ HasDivisors view votes := by
  have hallocated : Ends (s.allocated dk view height votes) (Began dk s (receivers view votes))
      fun e => e = .divisionByZero ∧ dk.startBlockHeight + 1 < height ∧
        dk.moduleCoins s.bank feeCollectorName ≠ 0 ∧ previousTotalPower votes ≠ 0 ∧
          ¬ HasDivisors view votes := by
    refine Ends.ite (fun hheight => ?_) fun _ => Ends.pure ⟨h, fun _ => .inl⟩
    exact (allocateTokens_spec h hshares hfees).mono (fun _ => id)
      fun e he => ⟨he.1, hheight, he.2⟩
  exact Ends.bind hallocated fun s' _ hs' => Ends.pure ⟨{ hs'.1 with }, hs'.2⟩

/-! ## Payments -/

/-- The whole part of a nonnegative amount is between zero and the amount. -/
theorem truncateDecimal_le {c : Coins} (hc : ∀ d, 0 ≤ c d) (d : String) :
    0 ≤ c.truncateDecimal.1 d ∧ c.truncateDecimal.1 d ≤ c d := by
  have hwhole : c.truncateDecimal.1 d = (c d).tdiv Dec.one * Dec.one := by
    simp [Coins.truncateDecimal]
  rw [hwhole, Int.tdiv_eq_ediv_of_nonneg (hc d)]
  exact ⟨mul_nonneg (Int.ediv_nonneg (hc d) Dec.one_pos.le) Dec.one_pos.le,
    Int.ediv_mul_le _ Dec.one_pos.ne'⟩

theorem truncateDecimal_rest_nonneg {c : Coins} (hc : ∀ d, 0 ≤ c d) (d : String) :
    0 ≤ c.truncateDecimal.2 d := by
  show 0 ≤ (c - c.truncateDecimal.1) d
  rw [DFinsupp.sub_apply]
  exact sub_nonneg.mpr (truncateDecimal_le hc d).2

theorem Balanced.withdrawAddr_ne (h : s.Balanced dk) {operator : Address}
    (hop : operator ≠ dk.moduleAddress distrModuleName) :
    s.getWithdrawAddr operator ≠ dk.moduleAddress distrModuleName := by
  unfold getWithdrawAddr
  cases hget : s.delegatorWithdrawAddrs.get operator with
  | none => exact hop
  | some a => exact h.elsewhere operator a hget

/-- An operator has been paid the whole part of its commission. -/
def Paid (dk : DistrKeeper B) (s : DistrState B) (operator : Address) (b' : B) : Prop :=
  operator ≠ dk.moduleAddress distrModuleName →
    dk.moduleCoins b' distrModuleName =
      dk.moduleCoins s.bank distrModuleName - (s.getCommission operator).truncateDecimal.1

/-- **The account covers the whole part of every commission.** -/
theorem Balanced.payOperator (h : s.Balanced dk) (operator : Address) :
    ∃ b', s.payOperator dk operator (s.getCommission operator).truncateDecimal.1 = .ok b' ∧
      Paid dk s operator b' := by
  have hc := h.nonneg.getCommission operator
  unfold DistrState.payOperator
  split_ifs with hzero
  · exact ⟨s.bank, rfl, fun _ => by rw [hzero, sub_zero]⟩
  have hcover : ∀ d, (s.getCommission operator).truncateDecimal.1 d ≤
      dk.moduleCoins s.bank distrModuleName d := fun d => by
    have hpool := h.pool_nonneg d
    have hle := (truncateDecimal_le hc d).2.trans (getCommission_le_total h.nonneg operator d)
    rw [h.holds, DFinsupp.add_apply]
    omega
  obtain ⟨b', hsend⟩ := Option.isSome_iff_exists.mp
    (dk.sendCoins_isSome (fun d => (truncateDecimal_le hc d).1) hcover)
  exact ⟨b', orThrow_eq_ok.mpr hsend, fun hop =>
    SupplyKeeper.getCoins_source hsend (h.withdrawAddr_ne hop).symm⟩

/-- A withdrawal fails only where there is no commission. -/
theorem withdrawValidatorCommission_spec (h : s.Balanced dk) (operator : Address) :
    Ends (s.withdrawValidatorCommission dk operator)
      (fun s' => ∃ b', Paid dk s operator b' ∧ s' = { s.setCommission operator
        (s.getCommission operator).truncateDecimal.2 with bank := b' })
      fun e => e = .noValidatorCommission ∧ s.getCommission operator = 0 := by
  obtain ⟨b', hpay, hpaid⟩ := h.payOperator operator
  refine Ends.bind (Ends.require fun hzero => ⟨rfl, not_not.mp hzero⟩) fun _ _ _ => ?_
  refine Ends.bind (Ends.eq_ok hpay) fun b _ hb => Ends.pure ⟨b', hpaid, ?_⟩
  rw [hb]
  rfl

/-- The hook never fails. -/
theorem afterValidatorRemoved_spec (h : s.Balanced dk) (operator : Address) :
    Ends (s.afterValidatorRemoved dk operator)
      (fun s' => ∃ b', Paid dk s operator b' ∧ s' = { s with
        communityPool := s.communityPool + (s.getCommission operator).truncateDecimal.2
        bank := b'
        accumulatedCommissions := s.accumulatedCommissions.delete operator })
      fun _ => False := by
  obtain ⟨b', hpay, hpaid⟩ := h.payOperator operator
  refine Ends.bind (Ends.eq_ok hpay) fun b _ hb => Ends.pure ⟨b', hpaid, ?_⟩
  rw [hb]
  rfl

section

variable {operator : Address}

theorem truncateDecimal_add (c : Coins) : c.truncateDecimal.1 + c.truncateDecimal.2 = c :=
  add_sub_cancel ..

theorem Balanced.of_withdraw (h : s.Balanced dk)
    (hop : operator ≠ dk.moduleAddress distrModuleName)
    (hok : s.withdrawValidatorCommission dk operator = .ok s') : s'.Balanced dk := by
  obtain ⟨b', hpaid, rfl⟩ := (withdrawValidatorCommission_spec h operator).of_ok hok
  have hrest := truncateDecimal_rest_nonneg (h.nonneg.getCommission operator)
  refine ⟨?_, h.pool_nonneg, h.nonneg.setCommission hrest, h.elsewhere⟩
  show dk.moduleCoins b' _ = s.communityPool + (s.setCommission operator _).totalCommissions
  have hsplit := truncateDecimal_add (s.getCommission operator)
  rw [hpaid hop, h.holds, totalCommissions_setCommission]
  nth_rewrite 2 [← hsplit]
  abel

theorem Balanced.of_removed (h : s.Balanced dk)
    (hop : operator ≠ dk.moduleAddress distrModuleName)
    (hok : s.afterValidatorRemoved dk operator = .ok s') : s'.Balanced dk := by
  obtain ⟨b', hpaid, rfl⟩ := (afterValidatorRemoved_spec h operator).of_ok hok
  have hrest := truncateDecimal_rest_nonneg (h.nonneg.getCommission operator)
  refine ⟨?_, fun d => ?_, fun q c hget => ?_, h.elsewhere⟩
  · have htotal : (s.accumulatedCommissions.delete operator).sumBy (fun _ c => c) =
        s.totalCommissions - s.getCommission operator := by
      rw [KVStore.sumBy_delete, valAt_commissions]
      rfl
    show dk.moduleCoins b' _ = s.communityPool + _ +
      (s.accumulatedCommissions.delete operator).sumBy fun _ c => c
    have hsplit := truncateDecimal_add (s.getCommission operator)
    rw [hpaid hop, h.holds, htotal]
    nth_rewrite 3 [← hsplit]
    abel
  · show 0 ≤ (s.communityPool + _) d
    rw [DFinsupp.add_apply]
    exact add_nonneg (h.pool_nonneg d) (hrest d)
  · change (s.accumulatedCommissions.delete operator).get q = some c at hget
    rw [KVStore.get_delete] at hget
    split_ifs at hget
    exact h.nonneg q c hget

end

end DistrState

end Okexchain
