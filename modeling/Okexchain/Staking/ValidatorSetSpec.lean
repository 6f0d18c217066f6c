import Okexchain.Staking.HandlerSpec

/-!
# What jailing and the validator set do

Jailing, elections, and the queue of unbonding validators write validators, but not what this
development says about them: their votes, their self delegations, and the undelegations.

* `Frame` is what they all keep. A validator that is removed has neither votes nor a self
  delegation; one that leaves jail has a self delegation.
* Every function is a chain of writes, and a loop relates its ends as every turn does.

**Results.** `updateValidatorSet_frame` and `unbondAllMatureValidatorQueue_frame`: the end of a
block. `handleMsgUnjail_trace`, `handleDowntime_trace`, `handleDoubleSign_trace`: slashing and
evidence. `endBlocker_trace`: the undelegations that are due are paid, or lapse.
-/

namespace Okexchain

/-! ## Frames -/

/-- The votes, the self delegations and the undelegations are kept. -/
structure Frame (b b' : StakingBooks) : Prop extends SameVotes b b', SameUndelegations b b' where
  follows : ∀ a, FollowsAt 0 (b.getValidator a) (b'.getValidator a)
  index : IndexOK b → IndexOK b'

theorem Frame.refl (b : StakingBooks) : Frame b b :=
  ⟨⟨rfl, rfl⟩, ⟨rfl, rfl⟩, fun _ => .refl _, id⟩

theorem Frame.trans {b b' b'' : StakingBooks} (h : Frame b b') (h' : Frame b' b'') :
    Frame b b'' :=
  ⟨⟨h'.delegators.trans h.delegators, h'.shares.trans h.shares⟩,
    h.toSameUndelegations.trans h'.toSameUndelegations, fun a => (h.follows a).trans (h'.follows a),
    fun hi => h'.index (h.index hi)⟩

theorem SameStake.frame {b b' : StakingBooks} (h : SameStake b b') : Frame b b' :=
  ⟨h.toSameVotes, h.toSameUndelegations, fun a => by
    rw [h.getValidator]
    exact .refl _, fun hi => hi.congr h.validators h.index⟩

/-- Something is written first that no frame is about. -/
theorem Frame.after {b b₁ b' : StakingBooks} (h : Frame b₁ b') (hsame : SameStake b b₁) :
    Frame b b' := hsame.frame.trans h

/-- A loop whose turns keep the frame of what it carries along. -/
theorem foldlM_frame {α σ : Type} (books : σ → StakingBooks)
    {f : σ → α → Except StakingError σ}
    (hf : ∀ {r a r'}, f r a = .ok r' → Frame (books r) (books r')) {l : List α} {r r' : σ}
    (hok : l.foldlM f r = .ok r') : Frame (books r) (books r') :=
  foldlM_relates (R := fun r r' => Frame (books r) (books r')) (fun r => .refl (books r))
    (fun {_ _ _} h h' => Frame.trans h h') hf hok

namespace StakingBooks

variable {b b' : StakingBooks} {v v' : Validator}

theorem frame_of_write (v' : Validator) (hget : b.getValidator v.operatorAddress = some v)
    (hvalidators : b'.validators = b.validators.put v')
    (hindex : b'.validatorsByConsAddr = b.validatorsByConsAddr) (hvotes : SameVotes b b')
    (hundelegations : SameUndelegations b b') (hkey : v'.operatorAddress = v.operatorAddress)
    (hcons : v'.consPubKey = v.consPubKey)
    (hmsd : v'.minSelfDelegation = v.minSelfDelegation)
    (hshares : v'.delegatorShares = v.delegatorShares)
    (hjailed : v'.jailed = v.jailed ∨ v.minSelfDelegation ≠ 0) : Frame b b' := by
  refine ⟨hvotes, hundelegations, fun a => ?_, fun hi => hi.write hget hvalidators hindex hkey hcons⟩
  have hput : b'.getValidator a = if a = v'.operatorAddress then some v' else b.getValidator a := by
    unfold getValidator
    rw [hvalidators]
    exact KeyedStore.get_put
  rw [hput]
  split_ifs with ha
  · rw [ha, hkey, hget]
    exact ⟨hmsd, by rw [hshares, add_zero], hjailed⟩
  · exact .refl _

theorem setValidatorByPowerIndex_same (b : StakingBooks) (v : Validator) :
    SameStake b (b.setValidatorByPowerIndex v) :=
  ⟨⟨delegators_setValidatorByPowerIndex b v, shares_setValidatorByPowerIndex b v⟩,
    undelegations_setValidatorByPowerIndex b v, validators_setValidatorByPowerIndex b v,
    validatorsByConsAddr_setValidatorByPowerIndex b v⟩

/-- A validator is written back, with its entry in the power index. -/
theorem frame_of_index (v' w : Validator) (hget : b.getValidator v.operatorAddress = some v)
    (hindex : SameStake (((b.deleteValidatorByPowerIndex w).setValidator
      v').setValidatorByPowerIndex v') b')
    (hkey : v'.operatorAddress = v.operatorAddress) (hcons : v'.consPubKey = v.consPubKey)
    (hmsd : v'.minSelfDelegation = v.minSelfDelegation)
    (hshares : v'.delegatorShares = v.delegatorShares)
    (hjailed : v'.jailed = v.jailed ∨ v.minSelfDelegation ≠ 0) : Frame b b' := by
  have hsame := setValidatorByPowerIndex_same ((b.deleteValidatorByPowerIndex w).setValidator v') v'
  refine frame_of_write v' hget (hindex.validators.trans hsame.validators)
    (hindex.index.trans hsame.index) ?_ ?_ hkey hcons hmsd hshares hjailed
  · exact ⟨hindex.delegators.trans hsame.delegators, hindex.shares.trans hsame.shares⟩
  · exact ⟨hindex.infos.trans hsame.infos, hindex.queue.trans hsame.queue⟩

/-- A validator with neither votes nor a self delegation is removed. -/
theorem removeValidator_frame (hget : b.getValidator v.operatorAddress = some v)
    (hmsd : v.minSelfDelegation = 0) (hshares : v.delegatorShares = 0)
    (hok : b.removeValidator v.operatorAddress = .ok b') : Frame b b' := by
  obtain ⟨hvalidators, hs, hdelegators, hundelegations, hindex⟩ := removeValidator_spec hok
  refine ⟨⟨hdelegators, hs⟩, hundelegations, fun a => ?_, hindex⟩
  rw [hvalidators]
  split_ifs with ha
  · rw [ha, hget]
    exact ⟨hmsd, by rw [hshares, add_zero]⟩
  · exact .refl _

theorem get_of_mustGetValidator {a : Address} (h : b.mustGetValidator a = .ok v) :
    b.getValidator v.operatorAddress = some v := by
  have hget := orThrow_eq_ok.mp h
  rwa [← KeyedStore.key_of_get hget] at hget

theorem get_of_mustGetValidatorByConsAddr {a : Address}
    (h : b.mustGetValidatorByConsAddr a = .ok v) :
    b.getValidator v.operatorAddress = some v := by
  obtain ⟨q, -, hget⟩ := Option.bind_eq_some_iff.mp (orThrow_eq_ok.mp h)
  rwa [← KeyedStore.key_of_get hget] at hget

/-! ## Transitions -/

theorem bondValidator_frame (hget : b.getValidator v.operatorAddress = some v) :
    Frame b (b.bondValidator v).1 :=
  frame_of_index (v.updateStatus .bonded) v hget ⟨⟨rfl, rfl⟩, ⟨rfl, rfl⟩, rfl, rfl⟩ rfl rfl rfl rfl
    (.inl rfl)

theorem beginUnbondingValidator_frame {height time : Int} {params : StakingParams}
    (hget : b.getValidator v.operatorAddress = some v)
    (hok : beginUnbondingValidator height time params b v = .ok (b', v')) : Frame b b' := by
  unfold beginUnbondingValidator at hok
  simp only [bind_eq_ok, require_eq_ok, exists_const, pure_eq_ok] at hok
  obtain ⟨-, heq⟩ := hok
  obtain ⟨rfl, -⟩ := Prod.mk.inj heq
  exact frame_of_index _ v hget ⟨⟨rfl, rfl⟩, ⟨rfl, rfl⟩, rfl, rfl⟩ rfl rfl rfl rfl
    (.inl rfl)

/-- A validator that is jailed has a self delegation. -/
theorem jail_frame {consAddr : Address} (hmsd : ∀ v, b.getValidatorByConsAddr consAddr = some v →
    v.jailed = false → v.minSelfDelegation ≠ 0) (hok : b.jail consAddr = .ok b') : Frame b b' := by
  unfold jail at hok
  simp only [bind_eq_ok, require_eq_ok, exists_const, pure_eq_ok] at hok
  obtain ⟨v, hv, hfree, rfl⟩ := hok
  exact frame_of_write { v with jailed := true } (get_of_mustGetValidatorByConsAddr hv) rfl rfl
    ⟨rfl, rfl⟩ ⟨rfl, rfl⟩ rfl rfl rfl rfl (.inr (hmsd v (orThrow_eq_ok.mp hv) hfree))

theorem unjail_frame {consAddr : Address} (hmsd : ∀ v, b.getValidatorByConsAddr consAddr = some v →
    v.minSelfDelegation ≠ 0) (hok : b.unjail consAddr = .ok b') : Frame b b' := by
  unfold unjail at hok
  simp only [bind_eq_ok, require_eq_ok, exists_const, pure_eq_ok] at hok
  obtain ⟨v, hv, -, rfl⟩ := hok
  have hsame := setValidatorByPowerIndex_same (b.setValidator { v with jailed := false })
    { v with jailed := false }
  exact frame_of_write { v with jailed := false } (get_of_mustGetValidatorByConsAddr hv)
    hsame.validators hsame.index ⟨hsame.delegators, hsame.shares⟩ ⟨hsame.infos, hsame.queue⟩
    rfl rfl rfl rfl (.inr (hmsd v (orThrow_eq_ok.mp hv)))

/-! ## Elections -/

theorem elect_frame {count : Nat} {l : List Address} {e e' : Election}
    (hok : elect count l e = .ok e') : Frame e.books e'.books := by
  induction count generalizing l e with
  | zero =>
    unfold elect at hok
    cases hok
    exact .refl _
  | succ count ih =>
    cases l with
    | nil =>
      unfold elect at hok
      cases hok
      exact .refl _
    | cons valAddr rest =>
      unfold elect at hok
      simp only [bind_eq_ok, require_eq_ok, exists_const] at hok
      obtain ⟨v, hv, -, hok⟩ := hok
      have hget := get_of_mustGetValidator hv
      split_ifs at hok
      · cases hok
        exact .refl _
      all_goals have hrest := ih hok
      · exact hrest
      · exact hrest.after ⟨⟨rfl, rfl⟩, ⟨rfl, rfl⟩, rfl, rfl⟩
      · exact (bondValidator_frame hget).trans hrest
      · exact (bondValidator_frame hget).trans (hrest.after ⟨⟨rfl, rfl⟩, ⟨rfl, rfl⟩, rfl, rfl⟩)

theorem retire_frame {height time : Int} {params : StakingParams}
    {r r' : StakingBooks × List ValidatorUpdate} {valAddr : Address}
    (hok : retire height time params r valAddr = .ok r') : Frame r.1 r'.1 := by
  unfold retire at hok
  simp only [bind_eq_ok, pure_eq_ok] at hok
  obtain ⟨v, hv, ⟨b, v'⟩, hbegin, rfl⟩ := hok
  exact (beginUnbondingValidator_frame (get_of_mustGetValidator hv) hbegin).trans
    (SameStake.frame ⟨⟨rfl, rfl⟩, ⟨rfl, rfl⟩, rfl, rfl⟩)

theorem applyAndReturnValidatorSetUpdates_frame {height time : Int} {params : StakingParams}
    {updates : List ValidatorUpdate}
    (hok : applyAndReturnValidatorSetUpdates height time params b = .ok (b', updates)) :
    Frame b b' := by
  unfold applyAndReturnValidatorSetUpdates at hok
  simp only [bind_eq_ok, pure_eq_ok] at hok
  obtain ⟨e, helect, ⟨b₁, us⟩, hretire, heq⟩ := hok
  obtain ⟨rfl, -⟩ := Prod.mk.inj heq
  have hloop : Frame e.books b₁ := foldlM_frame Prod.fst (fun hturn => retire_frame hturn) hretire
  refine ((elect_frame helect).trans hloop).trans ?_
  dsimp only
  split_ifs
  · exact .refl _
  · exact SameStake.frame ⟨⟨rfl, rfl⟩, ⟨rfl, rfl⟩, rfl, rfl⟩

theorem promote_frame {last : KVStore Address Int} {count : Nat} {l : List Address}
    {r r' : KickOut} (hok : promote last count l r = .ok r') : Frame r.books r'.books := by
  induction l generalizing count r with
  | nil =>
    cases count with
    | zero =>
      unfold promote at hok
      cases hok
      exact .refl _
    | succ count =>
      unfold promote at hok
      cases hok
      exact .refl _
  | cons valAddr rest ih =>
    cases count with
    | zero =>
      unfold promote at hok
      cases hok
      exact .refl _
    | succ count =>
      unfold promote at hok
      split_ifs at hok with hlast
      · exact ih hok
      · simp only [bind_eq_ok] at hok
        obtain ⟨v, hv, hok⟩ := hok
        split_ifs at hok with hpower
        · exact ih hok
        · simp only [bind_eq_ok, require_eq_ok, exists_const] at hok
          have hrest := ih hok.2
          exact (bondValidator_frame (get_of_mustGetValidator hv)).trans
            (hrest.after ⟨⟨rfl, rfl⟩, ⟨rfl, rfl⟩, rfl, rfl⟩)

theorem discharge_frame {height time : Int} {params : StakingParams} {last : KVStore Address Int}
    {r r' : KickOut} {valAddr : Address}
    (hok : discharge height time params last r valAddr = .ok r') : Frame r.books r'.books := by
  unfold discharge at hok
  simp only [bind_eq_ok] at hok
  obtain ⟨v, hv, hok⟩ := hok
  split_ifs at hok with hstatus
  · cases hok
    exact .refl _
  · simp only [bind_eq_ok, pure_eq_ok] at hok
    obtain ⟨⟨b, v'⟩, hbegin, _, -, rfl⟩ := hok
    exact (beginUnbondingValidator_frame (get_of_mustGetValidator hv) hbegin).trans
      (SameStake.frame ⟨⟨rfl, rfl⟩, ⟨rfl, rfl⟩, rfl, rfl⟩)

theorem kickOutAndReturnValidatorSetUpdates_frame {height time : Int} {params : StakingParams}
    {updates : List ValidatorUpdate}
    (hok : kickOutAndReturnValidatorSetUpdates height time params b = .ok (b', updates)) :
    Frame b b' := by
  unfold kickOutAndReturnValidatorSetUpdates at hok
  simp only [bind_eq_ok, pure_eq_ok] at hok
  obtain ⟨r, hpromote, r', hdischarge, heq⟩ := hok
  obtain ⟨rfl, -⟩ := Prod.mk.inj heq
  have hloop : Frame r.books r'.books :=
    foldlM_frame KickOut.books (fun hturn => discharge_frame hturn) hdischarge
  exact ((promote_frame hpromote).trans hloop).trans
    (SameStake.frame ⟨⟨rfl, rfl⟩, ⟨rfl, rfl⟩, rfl, rfl⟩)

/-- **The validator set at the end of a block.** -/
theorem updateValidatorSet_frame {height time : Int} {params : StakingParams}
    {updates : List ValidatorUpdate}
    (hok : updateValidatorSet height time params b = .ok (b', updates)) : Frame b b' := by
  unfold updateValidatorSet at hok
  by_cases hend : b.isEndOfEpoch height
  · rw [if_pos hend] at hok
    simp only [bind_eq_ok, pure_eq_ok] at hok
    obtain ⟨⟨b₁, us⟩, happly, heq⟩ := hok
    obtain ⟨rfl, -⟩ := Prod.mk.inj heq
    refine ((applyAndReturnValidatorSetUpdates_frame happly).after ?_).trans (SameStake.frame ?_)
    · split_ifs <;> exact ⟨⟨rfl, rfl⟩, ⟨rfl, rfl⟩, rfl, rfl⟩
    · exact ⟨⟨rfl, rfl⟩, ⟨rfl, rfl⟩, rfl, rfl⟩
  · rw [if_neg hend] at hok
    split_ifs at hok with habandoned
    · simp only [bind_eq_ok, pure_eq_ok] at hok
      obtain ⟨⟨b₁, us⟩, hkick, heq⟩ := hok
      obtain ⟨rfl, -⟩ := Prod.mk.inj heq
      exact (kickOutAndReturnValidatorSetUpdates_frame hkick).trans
        (SameStake.frame ⟨⟨rfl, rfl⟩, ⟨rfl, rfl⟩, rfl, rfl⟩)
    · cases hok
      exact .refl _

/-! ## The queue of unbonding validators -/

theorem unbondMature_frame {valAddr : Address} (hok : b.unbondMature valAddr = .ok b') :
    Frame b b' := by
  unfold unbondMature at hok
  simp only [bind_eq_ok, orThrow_eq_ok, require_eq_ok, exists_const] at hok
  obtain ⟨v, hv, -, hok⟩ := hok
  obtain rfl : v.operatorAddress = valAddr := KeyedStore.key_of_get hv
  have hset : Frame b (b.setValidator (v.updateStatus .unbonded)) :=
    frame_of_write _ hv rfl rfl ⟨rfl, rfl⟩ ⟨rfl, rfl⟩ rfl rfl rfl rfl (.inl rfl)
  split_ifs at hok with hempty
  · exact hset.trans (removeValidator_frame (v := v.updateStatus .unbonded) KeyedStore.get_put_self
      hempty.2 hempty.1 hok)
  · cases hok
    exact hset

theorem unbondSlice_frame {slice : Int × List Address} (hok : b.unbondSlice slice = .ok b') :
    Frame b b' := by
  unfold unbondSlice at hok
  simp only [bind_eq_ok, pure_eq_ok] at hok
  obtain ⟨b₁, hloop, rfl⟩ := hok
  exact (foldlM_frame id (fun hturn => unbondMature_frame hturn) hloop).trans
    (SameStake.frame ⟨⟨rfl, rfl⟩, ⟨rfl, rfl⟩, rfl, rfl⟩)

/-- **The queue of unbonding validators.** -/
theorem unbondAllMatureValidatorQueue_frame {time : Int}
    (hok : unbondAllMatureValidatorQueue time b = .ok b') : Frame b b' :=
  foldlM_frame id (fun hturn => unbondSlice_frame hturn) hok

end StakingBooks

/-! ## Handlers that only write validators -/

section Handlers

variable {B : Type} {sk : PoolKeeper B} {destroyOK : StakingBooks → Address → Prop} {time : Int}
  {s s' : StakingState B}

theorem Frame.effect {b : StakingBooks} (h : Frame s.books b) :
    StakingEffect sk.IsUser destroyOK s.params time (s.ledger sk) []
      (StakingState.ledger sk { s with books := b }) :=
  .validators h.follows h.toSameVotes h.index ⟨h.toSameUndelegations, rfl, rfl⟩

theorem Frame.stakingTrace {b : StakingBooks} (h : Frame s.books b) :
    StakingTrace sk destroyOK time s [] { s with books := b } :=
  ⟨rfl, .single h.effect⟩

theorem handleMsgEditValidator_trace {msg : MsgEditValidator}
    (hok : s.handleMsgEditValidator msg = .ok s') : StakingTrace sk destroyOK time s [] s' := by
  unfold StakingState.handleMsgEditValidator at hok
  simp only [bind_eq_ok, orThrow_eq_ok, pure_eq_ok] at hok
  obtain ⟨v, hv, description, -, rfl⟩ := hok
  rw [← KeyedStore.key_of_get hv] at hv
  exact Frame.stakingTrace (StakingBooks.frame_of_write { v with description := description } hv rfl
    rfl ⟨rfl, rfl⟩ ⟨rfl, rfl⟩ rfl rfl rfl rfl (.inl rfl))

/-- **`handleMsgUnjail`.** The validator the index finds is the one the message names. -/
theorem handleMsgUnjail_trace (h : SharesOK s.books) {valAddr : Address} {allowed : Bool}
    (hok : s.handleMsgUnjail valAddr allowed = .ok s') : StakingTrace sk destroyOK time s [] s' := by
  unfold StakingState.handleMsgUnjail at hok
  simp only [bind_eq_ok, orThrow_eq_ok, require_eq_ok, exists_const, pure_eq_ok] at hok
  obtain ⟨v, hv, hmsd, -, -, b, hunjail, rfl⟩ := hok
  refine Frame.stakingTrace (StakingBooks.unjail_frame (fun w hw => ?_) hunjail)
  unfold StakingBooks.getValidatorByConsAddr at hw
  rw [h.index valAddr v hv, Option.bind_some, hv] at hw
  cases hw
  exact hmsd

theorem SharesOK.frame {b b' : StakingBooks} (h : SharesOK b) (hframe : Frame b b') : SharesOK b' :=
  h.follows hframe.follows hframe.toSameVotes hframe.index

theorem SharesOK.free_msd {b : StakingBooks} (h : SharesOK b) {consAddr : Address} {v : Validator}
    (hv : b.getValidatorByConsAddr consAddr = some v) (hfree : v.jailed = false) :
    v.minSelfDelegation ≠ 0 := by
  intro hzero
  obtain ⟨a, -, hget⟩ := Option.bind_eq_some_iff.mp hv
  have hjailed := (h.msd a v hget).2 hzero
  rw [hfree] at hjailed
  cases hjailed

theorem handleDowntime_trace (h : SharesOK s.books) {consAddr : Address}
    (hok : s.handleDowntime consAddr = .ok s') : StakingTrace sk destroyOK time s [] s' := by
  unfold StakingState.handleDowntime at hok
  cases hv : s.books.getValidatorByConsAddr consAddr with
  | none =>
    rw [hv] at hok
    cases hok
    exact Frame.stakingTrace (.refl _)
  | some v =>
    rw [hv] at hok
    dsimp only at hok
    split_ifs at hok with hjailed
    · cases hok
      exact Frame.stakingTrace (.refl _)
    · simp only [bind_eq_ok, pure_eq_ok] at hok
      obtain ⟨b₁, hjail, b₂, happend, rfl⟩ := hok
      exact Frame.stakingTrace ((StakingBooks.jail_frame (fun w hw hfree => h.free_msd hw hfree)
        hjail).trans (StakingBooks.appendAbandoned_same happend).frame)

theorem handleDoubleSign_trace (h : SharesOK s.books) {consAddr : Address}
    (hok : s.handleDoubleSign consAddr = .ok s') : StakingTrace sk destroyOK time s [] s' := by
  unfold StakingState.handleDoubleSign at hok
  cases hv : s.books.getValidatorByConsAddr consAddr with
  | none =>
    rw [hv] at hok
    cases hok
    exact Frame.stakingTrace (.refl _)
  | some v =>
    rw [hv] at hok
    dsimp only at hok
    split_ifs at hok with hstatus hjailed
    · cases hok
      exact Frame.stakingTrace (.refl _)
    all_goals
      simp only [bind_eq_ok, pure_eq_ok] at hok
      obtain ⟨b₁, happend, b₂, hjail, rfl⟩ := hok
      have hframe := (StakingBooks.appendAbandoned_same happend).frame
    · cases hjail
      exact Frame.stakingTrace hframe
    · exact Frame.stakingTrace (hframe.trans (StakingBooks.jail_frame
        (fun w hw hfree => (h.frame hframe).free_msd hw hfree) hjail))

/-! ## The end of a block -/

/-- Only users undelegate. -/
def UserFunds (sk : PoolKeeper B) (b : StakingBooks) : Prop :=
  ∀ d info, b.getUndelegating d = some info → sk.IsUser d

/-- What is paid, as events. -/
def paidEvents (time : Int) (paid : List (Address × Int)) : List StakingEvent :=
  paid.map fun e => .paid e.1 e.2 time

/-- **One entry of the queue**: it is paid, or it lapses. -/
theorem completeEntry_effect (husers : UserFunds sk s.books) (acc : List (Address × Int))
    {key : Int ×ₗ Address} (hentry : (s.books.undelegateQueue.get key).isSome)
    (htime : (ofLex key).1 ≤ time) :
    ∃ paid, (StakingState.completeEntry sk (s, acc) key).2 = acc ++ paid ∧
      (StakingState.completeEntry sk (s, acc) key).1.params = s.params ∧
      (StakingState.completeEntry sk (s, acc) key).1.books.undelegateQueue =
        s.books.undelegateQueue.delete key ∧
      UserFunds sk (StakingState.completeEntry sk (s, acc) key).1.books ∧
      StakingEffect sk.IsUser destroyOK s.params time (s.ledger sk) (paidEvents time paid)
        ((StakingState.completeEntry sk (s, acc) key).1.ledger sk) := by
  unfold StakingState.completeEntry
  dsimp only
  cases hcomplete : StakingState.completeUndelegation sk { s with
      books := s.books.deleteAddrByTimeKey (ofLex key).1 (ofLex key).2 } (ofLex key).2 with
  | error err =>
    refine ⟨[], (List.append_nil acc).symm, rfl, rfl, husers,
      .lapse key htime (fun info hinfo hnonneg hcovers => ?_) rfl rfl rfl⟩
    have hsome : (sk.sendCoinsFromModuleToAccount s.bank notBondedPoolName info.delegatorAddress
        (coin s.params.bondDenom info.quantity)).isSome :=
      sk.sendCoins_isSome (fun d => coin_nonneg hnonneg s.params.bondDenom d) hcovers
    obtain ⟨bank, hbank⟩ := Option.isSome_iff_exists.mp hsome
    have hok : ∃ r, StakingState.completeUndelegation sk { s with
        books := s.books.deleteAddrByTimeKey (ofLex key).1 (ofLex key).2 } (ofLex key).2 = .ok r := by
      unfold StakingState.completeUndelegation
      simp only [bind_eq_ok, orThrow_eq_ok, pure_eq_ok]
      exact ⟨_, info, hinfo, bank, hbank, rfl⟩
    obtain ⟨r, hok⟩ := hok
    rw [hcomplete] at hok
    cases hok
  | ok r =>
    obtain ⟨s₁, quantity⟩ := r
    unfold StakingState.completeUndelegation at hcomplete
    simp only [bind_eq_ok, orThrow_eq_ok, pure_eq_ok] at hcomplete
    obtain ⟨info, hinfo, bank, hbank, heq⟩ := hcomplete
    obtain ⟨rfl, rfl⟩ := Prod.mk.inj heq
    have hkey : info.delegatorAddress = (ofLex key).2 := KeyedStore.key_of_get hinfo
    have hpool := SupplyKeeper.Moved.of_module (.of_send hbank) (hkey ▸ husers _ info hinfo)
    refine ⟨[((ofLex key).2, info.quantity)], rfl, rfl, rfl, fun d i hi => ?_,
      .pay key info hentry htime hinfo rfl ?_ ?_⟩
    · have hdelete : (if d = (ofLex key).2 then none else s.books.getUndelegating d) = some i :=
        KeyedStore.get_delete.symm.trans hi
      split_ifs at hdelete
      exact husers d i hdelete
    · refine (hpool bondedPoolName).trans ?_
      rw [if_neg (by decide), sub_zero]
      rfl
    · exact hpool notBondedPoolName

variable (destroyOK) in
/-- All entries that are due. -/
theorem completeEntries_trace (s : StakingState B) (acc : List (Address × Int))
    {keys : List (Int ×ₗ Address)} (hnodup : keys.Nodup) (husers : UserFunds sk s.books)
    (hentries : ∀ key ∈ keys, (s.books.undelegateQueue.get key).isSome ∧ (ofLex key).1 ≤ time) :
    ∃ paid, (keys.foldl (StakingState.completeEntry sk) (s, acc)).2 = acc ++ paid ∧
      (keys.foldl (StakingState.completeEntry sk) (s, acc)).1.books.undelegateQueue =
        keys.foldl KVStore.delete s.books.undelegateQueue ∧
      StakingTrace sk destroyOK time s (paidEvents time paid)
        (keys.foldl (StakingState.completeEntry sk) (s, acc)).1 := by
  induction keys generalizing s acc with
  | nil => exact ⟨[], (List.append_nil acc).symm, rfl, rfl, .refl _⟩
  | cons key keys ih =>
    rw [List.nodup_cons] at hnodup
    obtain ⟨hentry, htime⟩ := hentries key List.mem_cons_self
    obtain ⟨paid₁, hacc₁, hparams₁, hqueue₁, husers₁, heffect⟩ :=
      completeEntry_effect husers acc hentry htime
    rw [List.foldl_cons]
    generalize StakingState.completeEntry sk (s, acc) key = r at *
    obtain ⟨s₁, acc₁⟩ := r
    dsimp only at *
    obtain ⟨paid₂, hacc₂, hqueue₂, hparams₂, htrace⟩ := ih s₁ acc₁ hnodup.2 husers₁ fun q hq => by
      have hne : q ≠ key := by
        rintro rfl
        exact hnodup.1 hq
      rw [hqueue₁, KVStore.get_delete_ne hne]
      exact hentries q (List.mem_cons_of_mem _ hq)
    refine ⟨paid₁ ++ paid₂, ?_, ?_, hparams₂.trans hparams₁, ?_⟩
    · rw [hacc₂, hacc₁, List.append_assoc]
    · rw [hqueue₂, hqueue₁]
      rfl
    · rw [paidEvents, List.map_append]
      rw [hparams₁] at htrace
      exact (Trace.single heffect).trans htrace

variable (destroyOK) in
/-- **`EndBlocker`.** No entry that is due is left. -/
theorem endBlocker_trace (husers : UserFunds sk s.books) {height : Int}
    {updates : List ValidatorUpdate} {paid : List (Address × Int)}
    (hok : s.endBlocker sk height time = .ok (s', updates, paid)) :
    (∀ key, (s'.books.undelegateQueue.get key).isSome → time < (ofLex key).1) ∧
      StakingTrace sk destroyOK time s (paidEvents time paid) s' := by
  unfold StakingState.endBlocker at hok
  simp only [bind_eq_ok, pure_eq_ok] at hok
  obtain ⟨⟨b₁, us⟩, hset, b₂, hqueue, heq⟩ := hok
  have hframe := (StakingBooks.updateValidatorSet_frame hset).trans
    (StakingBooks.unbondAllMatureValidatorQueue_frame hqueue)
  have husers₂ : UserFunds sk b₂ := fun d info hinfo => husers d info (by
    unfold StakingBooks.getUndelegating at hinfo ⊢
    rwa [hframe.infos] at hinfo)
  obtain ⟨paid', hpaid, hleft, hparams, htrace⟩ := completeEntries_trace destroyOK
    { s with books := b₂ } []
    (b₂.undelegateQueue.nodup_keys.filter fun key => (ofLex key).1 ≤ time) husers₂ fun key hkey => by
      obtain ⟨hmem, hdue⟩ := List.mem_filter.mp hkey
      obtain ⟨u, hu⟩ := KVStore.mem_keys.mp hmem
      rw [hu]
      exact ⟨rfl, of_decide_eq_true hdue⟩
  obtain ⟨rfl, hrest⟩ := Prod.mk.inj heq
  obtain ⟨-, rfl⟩ := Prod.mk.inj hrest
  unfold StakingState.matureEntries
  refine ⟨fun key hkey => ?_, hparams, ?_⟩
  · rw [hleft, KVStore.get_foldl_delete] at hkey
    split_ifs at hkey with hmature
    · cases hkey
    · obtain ⟨u, hu⟩ := Option.isSome_iff_exists.mp hkey
      by_contra hdue
      exact hmature (List.mem_filter.mpr ⟨KVStore.mem_keys.mpr ⟨u, hu⟩,
        decide_eq_true (not_lt.mp hdue)⟩)
  · rw [hpaid, List.nil_append]
    exact (Trace.single hframe.effect).trans htrace

end Handlers

end Okexchain
