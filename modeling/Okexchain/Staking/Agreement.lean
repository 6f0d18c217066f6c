import Okexchain.Staking.KickOut
import Okexchain.Staking.Run

/-!
# The validators and their indexes, along a run

Every action of a node keeps the agreement of `Indexes.lean`.

* The handlers of `handler_shares.go`, deposits and withdrawals move shares. They touch a
  validator's total, and remove an unbonded validator that has lost its last share; they neither
  jail nor free anybody, and they leave every validator that is not unbonded where it is
  (`Upholds`).
* A handler's loops write validators that were read before the loop. They are fresh because a
  delegator votes for different validators (`DistinctVotes`).
* Jailing and freeing, creating and destroying change who is jailed. There the agreement needs that
  a banned key does not come back, and, if it is `strict`, that a validator that is to be kicked out
  stays jailed and is not unbonded (`StakingAction.Orderly`).

**Results.** `StakingNode.step_acts`: what an action inside a block does to the validators and their
indexes. `StakingReach.agreement`: the agreement in every run.
-/

namespace Okexchain

/-! ## Votes are moved -/

/-- Nobody votes twice for a validator. -/
def DistinctVotes (b : StakingBooks) : Prop :=
  ∀ d r, b.getDelegator d = some r → r.validatorAddresses.Nodup

/-- A validator is where it was. -/
def StakingBooks.Place (b : StakingBooks) (q k : Address) (s : BondStatus) (t : Int) : Prop :=
  b.Has q fun v => v.consAddress = k ∧ v.status = s ∧ v.unbondingCompletionTime = t

/-- A validator was destroyed, and is not unbonded. -/
def StakingBooks.Dismissed (b : StakingBooks) (q : Address) : Prop :=
  b.Has q fun v => v.status ≠ .unbonded ∧ v.minSelfDelegation = 0

/-- What the handlers that move votes do to the validators. -/
structure Upholds (b b' : StakingBooks) : Prop where
  agreement : ∀ {banned strict w}, ValidatorsOK banned strict w b → ValidatorsOK banned strict w b'
  places : ∀ {q k s t}, s ≠ .unbonded → b.Place q k s t → b'.Place q k s t
  dismissed : ∀ {q}, b.Dismissed q → b'.Dismissed q
  abandoned : b'.abandonedValidatorAddrs = b.abandonedValidatorAddrs
  hooks : ∃ calls, b'.hooks = b.hooks ++ calls ∧ ∀ call ∈ calls, ∃ k, call = .validatorRemoved k

section SameCore

variable {b b' : StakingBooks} {v v' : Validator} {q : Address}

/-- A written validator stays where it was. -/
theorem Validator.SameCore.places (hcore : v.SameCore v')
    (hput : ∀ q, b'.getValidator q = if q = v.operatorAddress then some v' else b.getValidator q)
    (hget : b.getValidator v.operatorAddress = some v) {k : Address} {s : BondStatus} {t : Int}
    (hq : b.Place q k s t) : b'.Place q k s t := by
  refine (StakingBooks.has_keep hput hget ?_).mpr hq
  rw [Validator.consAddress, hcore.key, hcore.status, hcore.completion]
  rfl

theorem Validator.SameCore.dismisses (hcore : v.SameCore v')
    (hput : ∀ q, b'.getValidator q = if q = v.operatorAddress then some v' else b.getValidator q)
    (hget : b.getValidator v.operatorAddress = some v) (hq : b.Dismissed q) : b'.Dismissed q := by
  refine (StakingBooks.has_write hput).mpr ?_
  split_ifs with h
  · rw [h] at hq
    obtain ⟨hstatus, hmsd⟩ := (StakingBooks.has_of_get hget).mp hq
    exact ⟨hcore.status ▸ hstatus, hcore.dismissed hmsd⟩
  · exact hq

end SameCore

namespace Upholds

variable {b b' b'' : StakingBooks} {v v' : Validator}

theorem trans (h : Upholds b b') (h' : Upholds b' b'') : Upholds b b'' := by
  refine ⟨fun hok => h'.agreement (h.agreement hok), fun hs hq => h'.places hs (h.places hs hq),
    fun hq => h'.dismissed (h.dismissed hq), h'.abandoned.trans h.abandoned, ?_⟩
  obtain ⟨calls, hcalls, hremoved⟩ := h.hooks
  obtain ⟨calls', hcalls', hremoved'⟩ := h'.hooks
  refine ⟨calls ++ calls', by rw [hcalls', hcalls, List.append_assoc], fun call hmem => ?_⟩
  rcases List.mem_append.mp hmem with hmem | hmem
  · exact hremoved call hmem
  · exact hremoved' call hmem

theorem of_same (h : SameValidators b b') : Upholds b b' := by
  have hhas : ∀ {q P}, b.Has q P → b'.Has q P := by
    intro q P hq
    refine (StakingBooks.has_congr ?_).mpr hq
    unfold StakingBooks.getValidator
    rw [h.validators]
  exact ⟨fun hok => hok.same h, fun _ hq => hhas hq, hhas, h.abandoned, [],
    h.hooks.trans (List.append_nil _).symm, fun _ hmem => absurd hmem List.not_mem_nil⟩

theorem refl (b : StakingBooks) : Upholds b b :=
  .of_same ⟨rfl, rfl, rfl, rfl, rfl, rfl, rfl, rfl⟩

theorem of_write (hrewrites : Rewrites v v' [] b b') (hooks : b'.hooks = b.hooks)
    (hget : b.getValidator v.operatorAddress = some v) (hcore : v.SameCore v')
    (hjailed : v'.jailed = v.jailed) : Upholds b b' := by
  have hput : ∀ q, b'.getValidator q =
      if q = v.operatorAddress then some v' else b.getValidator q := fun q => by
    unfold StakingBooks.getValidator
    rw [hrewrites.validators, KeyedStore.get_put, hcore.operator]
  exact ⟨fun hok => hok.write hrewrites hget hcore (fun hj => .inl (hjailed.trans hj))
    (fun hj _ => .inl (hjailed.symm.trans hj)) (fun _ _ hq => absurd hq List.not_mem_nil),
    fun _ => hcore.places hput hget, hcore.dismisses hput hget,
    hrewrites.abandoned.trans (List.append_nil _), [], hooks.trans (List.append_nil _).symm,
    fun _ hmem => absurd hmem List.not_mem_nil⟩

theorem of_remove (hremoves : Removes v b b') (hget : b.getValidator v.operatorAddress = some v)
    (hstatus : v.status = .unbonded) : Upholds b b' := by
  -- whoever is not unbonded is someone else
  have helse : ∀ {q P}, (∀ u, P u → u.status ≠ .unbonded) → b.Has q P → b'.Has q P := by
    intro q P hP hq
    refine (StakingBooks.has_congr ?_).mpr hq
    rw [hremoves.validators, if_neg]
    rintro rfl
    exact hP v ((StakingBooks.has_of_get hget).mp hq) hstatus
  exact ⟨fun hok => hok.remove hremoves hget hstatus, fun hs => helse fun u hu => hu.2.1 ▸ hs,
    helse fun u hu => hu.1, hremoves.abandoned, _, hremoves.hooks,
    fun call hmem => ⟨_, List.mem_singleton.mp hmem⟩⟩

end Upholds

namespace StakingBooks

variable {b b' : StakingBooks} {d : Address} {last shares : Int} {v : Validator}

/-- A validator's total is written, with its place in the power index. -/
theorem upholds_setTotal (total : Int) {b₁ : StakingBooks}
    (hget : b.getValidator v.operatorAddress = some v)
    (hsame : SameValidators (b.deleteValidatorByPowerIndex v) b₁) :
    Upholds b ((b₁.setValidator { v with delegatorShares := total }).setValidatorByPowerIndex
      { v with delegatorShares := total }) := by
  have hrewrites : Rewrites v { v with delegatorShares := total } [] b
      ((b₁.setValidator { v with delegatorShares := total }).setValidatorByPowerIndex
        { v with delegatorShares := total }) := by
    refine ⟨?_, ?_, rekeyed hsame.power, ?_, ?_, ?_, ?_, [], ?_, ?_⟩
    · rw [validators_setValidatorByPowerIndex]
      exact congrArg (KeyedStore.put · _) hsame.validators
    · rw [validatorsByConsAddr_setValidatorByPowerIndex]
      exact hsame.cons
    · rw [validatorQueue_setValidatorByPowerIndex]
      exact hsame.queue
    · rw [lastValidatorPower_setValidatorByPowerIndex]
      exact hsame.powers
    · rw [lastTotalPower_setValidatorByPowerIndex]
      exact hsame.total
    · rw [abandoned_setValidatorByPowerIndex, List.append_nil]
      exact hsame.abandoned
    · rw [hooks_setValidatorByPowerIndex, List.append_nil]
      exact hsame.hooks
    · rw [hooks_setValidatorByPowerIndex]
      exact congrArg registered hsame.hooks
  refine .of_write hrewrites ?_ hget ⟨rfl, rfl, rfl, rfl, rfl, id⟩ rfl
  rw [hooks_setValidatorByPowerIndex]
  exact hsame.hooks

theorem updateShare_upholds (hget : b.getValidator v.operatorAddress = some v)
    (hok : updateShare d last shares b v = .ok b') : Upholds b b' := by
  unfold updateShare at hok
  simp only [bind_eq_ok, require_eq_ok, exists_const, pure_eq_ok] at hok
  obtain ⟨-, rfl⟩ := hok
  exact upholds_setTotal _ hget ⟨rfl, rfl, rfl, rfl, rfl, rfl, rfl, rfl⟩

theorem addShares_upholds (hget : b.getValidator v.operatorAddress = some v) :
    Upholds b (addShares d shares b v) :=
  upholds_setTotal _ hget ⟨rfl, rfl, rfl, rfl, rfl, rfl, rfl, rfl⟩

theorem withdrawShares_upholds (hget : b.getValidator v.operatorAddress = some v)
    (hok : withdrawShares d last b v = .ok b') : Upholds b b' := by
  unfold withdrawShares at hok
  dsimp only at hok
  split_ifs at hok with hempty
  · unfold removeValidator at hok
    rw [show (((b.deleteShares v.operatorAddress d).deleteValidatorByPowerIndex v).getValidator
      v.operatorAddress) = some v from hget] at hok
    simp only [bind_eq_ok, require_eq_ok, exists_const, pure_eq_ok] at hok
    obtain ⟨hstatus, -, rfl⟩ := hok
    refine .of_remove ⟨fun _ => KeyedStore.get_delete, rfl, fun key => ?_, rfl, rfl, rfl, rfl, rfl⟩
      hget hstatus
    refine KVStore.get_delete.trans ?_
    split_ifs with hkey
    · rfl
    · exact KVStore.get_delete_ne hkey
  · cases hok
    exact upholds_setTotal _ hget ⟨rfl, rfl, rfl, rfl, rfl, rfl, rfl, rfl⟩

end StakingBooks

/-- **A loop over validators that were read before it.** -/
theorem foldlM_upholds {d : Address} {δ : Int} {vote : Option Int}
    {f : StakingBooks → Validator → Except StakingError StakingBooks}
    (hf : ∀ {b v b'}, b.getValidator v.operatorAddress = some v → f b v = .ok b' → Upholds b b')
    (hturn : ∀ {b v b'}, b.getValidator v.operatorAddress = some v → f b v = .ok b' →
      Turn d δ vote v.operatorAddress b b')
    {vals : List Validator} {b b' : StakingBooks}
    (hnd : (vals.map Validator.operatorAddress).Nodup)
    (hget : ∀ v ∈ vals, b.getValidator v.operatorAddress = some v)
    (hok : vals.foldlM f b = .ok b') : Upholds b b' ∧ b'.delegators = b.delegators := by
  induction vals generalizing b with
  | nil =>
    cases hok
    exact ⟨.refl _, rfl⟩
  | cons v vals ih =>
    obtain ⟨b₁, hv, hrest⟩ := foldlM_cons_eq_ok.mp hok
    have hfresh := hget v List.mem_cons_self
    have helsewhere := (hturn hfresh hv).elsewhere
    rw [List.map_cons, List.nodup_cons] at hnd
    have hget₁ : ∀ u ∈ vals, b₁.getValidator u.operatorAddress = some u := by
      intro u hu
      rw [helsewhere _ fun he => hnd.1 (he ▸ List.mem_map_of_mem hu)]
      exact hget u (List.mem_cons_of_mem _ hu)
    obtain ⟨hupholds, hdelegators⟩ := ih hnd.2 hget₁ hrest
    exact ⟨(hf hfresh hv).trans hupholds, hdelegators.trans (hturn hfresh hv).delegators⟩

/-! ## Handlers that move votes -/

/-- Votes are moved, and stay distinct. -/
structure MovesVotes (b b' : StakingBooks) : Prop where
  upholds : Upholds b b'
  distinct : DistinctVotes b'

theorem MovesVotes.trans {b b' b'' : StakingBooks} (h : MovesVotes b b')
    (h' : DistinctVotes b' → MovesVotes b' b'') : MovesVotes b b'' :=
  ⟨h.upholds.trans (h' h.distinct).upholds, (h' h.distinct).distinct⟩

namespace DistinctVotes

variable {b b' : StakingBooks} {d : Address} {r : Delegator} {weight : Int → Int}
  {time tokens : Int}

theorem of_same (h : DistinctVotes b) (hdelegators : b'.delegators = b.delegators) :
    DistinctVotes b' := fun d r hr => by
  unfold StakingBooks.getDelegator at hr
  rw [hdelegators] at hr
  exact h d r hr

/-- Nothing of the validators is written, and no delegator. -/
theorem moves_same (h : DistinctVotes b) (hsame : SameValidators b b')
    (hdelegators : b'.delegators = b.delegators) : MovesVotes b b' :=
  ⟨.of_same hsame, h.of_same hdelegators⟩

theorem setDelegator (h : DistinctVotes b) (r : Delegator) (hr : r.validatorAddresses.Nodup) :
    MovesVotes b (b.setDelegator r) := by
  refine ⟨.of_same ⟨rfl, rfl, rfl, rfl, rfl, rfl, rfl, rfl⟩, fun d r' hr' => ?_⟩
  have hget : (if d = r.delegatorAddress then some r else b.getDelegator d) = some r' :=
    KeyedStore.get_put.symm.trans hr'
  split_ifs at hget
  · cases hget
    exact hr
  · exact h d r' hget

theorem setProxyBinding (h : DistinctVotes b) (p d : Address) (isRemove : Bool) :
    MovesVotes b (b.setProxyBinding p d isRemove) :=
  h.moves_same ⟨rfl, rfl, rfl, rfl, rfl, rfl, rfl, rfl⟩ rfl

/-- The validators a delegator has voted for, as they are read before a loop. -/
theorem lastVals (hr : r.validatorAddresses.Nodup) :
    ((r.validatorAddresses.filterMap b.getValidator).map Validator.operatorAddress).Nodup ∧
      ∀ v ∈ r.validatorAddresses.filterMap b.getValidator,
        b.getValidator v.operatorAddress = some v := by
  have hkey : ∀ a v, b.getValidator a = some v → v.operatorAddress = a := fun a v hv =>
    KeyedStore.key_of_get hv
  refine ⟨?_, fun v hv => ?_⟩
  · generalize r.validatorAddresses = as at hr
    induction as with
    | nil => exact List.nodup_nil
    | cons a as ih =>
      rw [List.nodup_cons] at hr
      cases hv : b.getValidator a with
      | none =>
        rw [List.filterMap_cons_none hv]
        exact ih hr.2
      | some v =>
        rw [List.filterMap_cons_some hv, List.map_cons, List.nodup_cons]
        refine ⟨fun hmem => hr.1 ?_, ih hr.2⟩
        obtain ⟨u, hu, hkeys⟩ := List.mem_map.mp hmem
        obtain ⟨q, hq, hget⟩ := List.mem_filterMap.mp hu
        rwa [← hkey a v hv, ← hkeys, hkey q u hget]
  · obtain ⟨a, -, ha⟩ := List.mem_filterMap.mp hv
    rw [hkey a v ha]
    exact ha

theorem updateShares (h : DistinctVotes b) (hok : b.updateShares weight time d tokens = .ok b') :
    MovesVotes b b' := by
  unfold StakingBooks.updateShares StakingBooks.getLastValsAddedSharesExisted at hok
  cases hr : b.getDelegator d with
  | none =>
    rw [hr] at hok
    cases hok
    exact h.moves_same ⟨rfl, rfl, rfl, rfl, rfl, rfl, rfl, rfl⟩ rfl
  | some r =>
    rw [hr] at hok
    dsimp only at hok
    split_ifs at hok with hnil
    · cases hok
      exact h.moves_same ⟨rfl, rfl, rfl, rfl, rfl, rfl, rfl, rfl⟩ rfl
    · simp only [bind_eq_ok, orThrow_eq_ok, pure_eq_ok] at hok
      obtain ⟨r₁, hr₁, b₁, hloop, rfl⟩ := hok
      cases hr₁
      obtain ⟨hnd, hget⟩ := lastVals (b := b) (h d r hr)
      obtain ⟨hupholds, hdelegators⟩ := foldlM_upholds StakingBooks.updateShare_upholds
        StakingBooks.updateShare_turn hnd hget hloop
      exact MovesVotes.trans ⟨hupholds, h.of_same hdelegators⟩ fun h₁ =>
        h₁.setDelegator { r with shares := _ } (h d r hr)

theorem withdrawLastShares (h : DistinctVotes b) {vals : List Validator} {last : Int}
    (hlast : b.getLastValsAddedSharesExisted d = (vals, last))
    (hok : b.withdrawLastShares d vals last = .ok b') :
    MovesVotes b b' ∧ b'.delegators = b.delegators := by
  unfold StakingBooks.getLastValsAddedSharesExisted at hlast
  unfold StakingBooks.withdrawLastShares at hok
  cases hr : b.getDelegator d with
  | none =>
    rw [hr] at hlast
    cases hlast
    cases hok
    exact ⟨h.moves_same ⟨rfl, rfl, rfl, rfl, rfl, rfl, rfl, rfl⟩ rfl, rfl⟩
  | some r =>
    rw [hr] at hlast
    cases hlast
    obtain ⟨hnd, hget⟩ := lastVals (b := b) (h d r hr)
    obtain ⟨hupholds, hdelegators⟩ := foldlM_upholds StakingBooks.withdrawShares_upholds
      StakingBooks.withdrawShares_turn hnd hget hok
    exact ⟨⟨hupholds, h.of_same hdelegators⟩, hdelegators⟩

theorem updateProxy (h : DistinctVotes b) (hok : b.updateProxy weight time r tokens = .ok b') :
    MovesVotes b b' := by
  unfold StakingBooks.updateProxy at hok
  split at hok
  · cases hok
    exact h.moves_same ⟨rfl, rfl, rfl, rfl, rfl, rfl, rfl, rfl⟩ rfl
  · rename_i p hp
    simp only [bind_eq_ok, orThrow_eq_ok, require_eq_ok, exists_const] at hok
    obtain ⟨rp, hrp, -, hok⟩ := hok
    refine (h.setDelegator { rp with totalDelegatedTokens := rp.totalDelegatedTokens + tokens }
      (h p rp hrp)).trans fun h₁ => ?_
    exact h₁.updateShares hok

theorem unbindProxy (h : DistinctVotes b)
    (hok : StakingState.unbindProxy weight time b d = .ok b') : MovesVotes b b' := by
  unfold StakingState.unbindProxy at hok
  simp only [bind_eq_ok, orThrow_eq_ok, pure_eq_ok, toOption_eq_some] at hok
  obtain ⟨r, hr, q, hq, _, -, b₁, hupdate, rfl⟩ := hok
  refine (h.updateProxy hupdate).trans fun h₁ => ?_
  refine (h₁.setDelegator r.unbindProxy (h d r hr)).trans fun h₂ => ?_
  exact h₂.setProxyBinding _ _ _

theorem bindProxy (h : DistinctVotes b) {rp : Delegator} {p : Address}
    (hr : b.getDelegator d = some r) (hrp : b.getDelegator p = some rp)
    (hok : StakingState.bindProxy weight time b r rp = .ok b') : MovesVotes b b' := by
  -- both records are written, and the binding
  have hbind : ∀ {b₁ : StakingBooks} {rp' : Delegator} {tokens : Int}, DistinctVotes b₁ →
      (((b₁.setDelegator (r.bindProxy rp.delegatorAddress)).setDelegator rp').setProxyBinding
        rp.delegatorAddress r.delegatorAddress false).updateShares weight time rp.delegatorAddress
          tokens = .ok b' →
      rp'.validatorAddresses = rp.validatorAddresses → MovesVotes b₁ b' := by
    intro b₁ rp' tokens h₁ hok haddrs
    refine (h₁.setDelegator (r.bindProxy rp.delegatorAddress) (h d r hr)).trans fun h₂ => ?_
    refine (h₂.setDelegator rp' (haddrs ▸ h p rp hrp)).trans fun h₃ => ?_
    exact (h₃.setProxyBinding _ _ _).trans fun h₄ => h₄.updateShares hok
  unfold StakingState.bindProxy at hok
  by_cases hsame : r.proxyAddress = some rp.delegatorAddress
  · rw [if_pos hsame, orThrow_eq_ok, toOption_eq_some] at hok
    exact h.updateShares hok
  · rw [if_neg hsame] at hok
    split_ifs at hok with hbound
    all_goals
      simp only [bind_eq_ok, orThrow_eq_ok, toOption_eq_some] at hok
      obtain ⟨b₁, hunbind, hok⟩ := hok
    · exact (h.unbindProxy hunbind).trans fun h₁ => hbind h₁ hok rfl
    · cases hunbind
      exact hbind h hok rfl

theorem regProxy (h : DistinctVotes b) (hok : StakingState.regProxy weight time b d = .ok b') :
    MovesVotes b b' := by
  unfold StakingState.regProxy at hok
  simp only [bind_eq_ok, orThrow_eq_ok, require_eq_ok, exists_const, toOption_eq_some] at hok
  obtain ⟨r, hr, -, -, hok⟩ := hok
  exact (h.setDelegator (r.regProxy true) (h d r hr)).trans fun h₁ => h₁.updateShares hok

theorem clearProxy (h : DistinctVotes b) (p : Address) : MovesVotes b (b.clearProxy p) := by
  unfold StakingBooks.clearProxy
  generalize b.boundDelegators p = bound
  induction bound generalizing b with
  | nil => exact h.moves_same ⟨rfl, rfl, rfl, rfl, rfl, rfl, rfl, rfl⟩ rfl
  | cons e bound ih =>
    refine MovesVotes.trans ?_ fun h₁ => ih h₁
    unfold StakingBooks.clearBinding
    cases hr : b.getDelegator e with
    | none => exact h.setProxyBinding _ _ _
    | some r =>
      exact (h.setDelegator r.unbindProxy (h e r hr)).trans fun h₁ => h₁.setProxyBinding _ _ _

theorem unregProxy (h : DistinctVotes b)
    (hok : StakingState.unregProxy weight time b d = .ok b') : MovesVotes b b' := by
  unfold StakingState.unregProxy at hok
  simp only [bind_eq_ok, orThrow_eq_ok, require_eq_ok, exists_const, toOption_eq_some] at hok
  obtain ⟨r, hr, -, hok⟩ := hok
  refine (h.clearProxy r.delegatorAddress).trans fun h₁ => ?_
  refine (h₁.setDelegator { r.regProxy false with totalDelegatedTokens := 0 }
    (h d r hr)).trans fun h₂ => ?_
  exact h₂.updateShares hok

variable {B : Type} {sk : PoolKeeper B} {s s' : StakingState B}

theorem handleMsgAddShares {msg : MsgAddShares} (h : DistinctVotes s.books)
    (hbasic : msg.validateBasic = none) (hok : s.handleMsgAddShares weight time msg = .ok s') :
    MovesVotes s.books s'.books := by
  have hnodup : msg.valAddrs.Nodup := by
    unfold MsgAddShares.validateBasic at hbasic
    split_ifs at hbasic with _ _ hnd
    exact hnd
  unfold StakingState.handleMsgAddShares at hok
  simp only [bind_eq_ok, orThrow_eq_ok, require_eq_ok, exists_const, pure_eq_ok] at hok
  obtain ⟨-, -, r, hr, -, -, b₁, hwithdraw, vals, hvals, _, -, rfl⟩ := hok
  obtain ⟨haddrs, hget⟩ := SharesOK.getValidatorsToAddShares_eq_ok hvals
  refine (h.withdrawLastShares rfl hwithdraw).1.trans fun h₁ => ?_
  have hloop : vals.foldlM (fun b v => (pure (StakingBooks.addShares msg.delAddr
      (calculateWeight weight time (r.tokens + r.totalDelegatedTokens)) b v) :
      Except StakingError StakingBooks)) b₁ = .ok _ := List.foldlM_pure
  obtain ⟨hupholds, hdelegators⟩ := foldlM_upholds (fun {b v b'} hv hturn => by
    cases hturn
    exact StakingBooks.addShares_upholds hv) (fun {b v b'} hv hturn => by
    cases hturn
    exact StakingBooks.addShares_turn hv) (haddrs ▸ hnodup) hget hloop
  refine MovesVotes.trans ⟨hupholds, h₁.of_same hdelegators⟩ fun h₂ => ?_
  exact h₂.setDelegator { r with validatorAddresses := _, shares := _ } (haddrs ▸ hnodup)

theorem delegate {token : DecCoin} (h : DistinctVotes s.books)
    (hok : s.delegate sk weight time d token = .ok s') : MovesVotes s.books s'.books := by
  have hnodup : ((s.books.getDelegator d).getD (.new d)).validatorAddresses.Nodup := by
    cases hr : s.books.getDelegator d with
    | none => exact List.nodup_nil
    | some r => exact h d r hr
  have hset := h.setDelegator { (s.books.getDelegator d).getD (.new d) with
    tokens := ((s.books.getDelegator d).getD (.new d)).tokens + token.amount } hnodup
  unfold StakingState.delegate at hok
  simp only [bind_eq_ok, orThrow_eq_ok, require_eq_ok, exists_const] at hok
  obtain ⟨-, bank, -, hok⟩ := hok
  split_ifs at hok
  all_goals
    simp only [bind_eq_ok, pure_eq_ok] at hok
    obtain ⟨b, hb, rfl⟩ := hok
  · exact hset.trans fun h₁ => h₁.updateProxy hb
  · exact hset.trans fun h₁ => h₁.updateShares hb

theorem withdrawTokens {left : Int} (h : DistinctVotes b) (hr : r.validatorAddresses.Nodup)
    (hok : StakingState.withdrawTokens weight time b r left = .ok b') : MovesVotes b b' := by
  unfold StakingState.withdrawTokens at hok
  dsimp only at hok
  split_ifs at hok
  · simp only [bind_eq_ok, pure_eq_ok] at hok
    obtain ⟨b₁, hwithdraw, rfl⟩ := hok
    obtain ⟨hmoves, hdelegators⟩ := h.withdrawLastShares rfl hwithdraw
    refine hmoves.trans fun h₁ => ?_
    have hdelete : ∀ b₂ : StakingBooks, DistinctVotes b₂ →
        MovesVotes b₂ (b₂.deleteDelegator r.delegatorAddress) := fun b₂ h₂ =>
      ⟨.of_same ⟨rfl, rfl, rfl, rfl, rfl, rfl, rfl, rfl⟩, fun d r' hr' => by
        have hget : (if d = r.delegatorAddress then none else _) = some r' :=
          KeyedStore.get_delete.symm.trans hr'
        split_ifs at hget
        exact h₂ d r' hget⟩
    split
    · exact hdelete b₁ h₁
    · exact (h₁.setProxyBinding _ _ _).trans (hdelete _)
  · cases hok
    exact h.setDelegator { r with tokens := left } hr
  · exact (h.setDelegator { r with tokens := left } hr).trans fun h₁ => h₁.updateShares hok

theorem withdraw {token : DecCoin} {t : Int} (h : DistinctVotes s.books)
    (hok : s.withdraw sk weight time d token = .ok (s', t)) : MovesVotes s.books s'.books := by
  unfold StakingState.withdraw at hok
  simp only [bind_eq_ok, orThrow_eq_ok, require_eq_ok, exists_const, pure_eq_ok] at hok
  obtain ⟨r, hr, -, -, -, bank, -, b₁, hproxy, b₂, htokens, hres⟩ := hok
  cases hres
  refine (h.updateProxy hproxy).trans fun h₁ => ?_
  refine (h₁.withdrawTokens (h d r hr) htokens).trans fun h₂ => ?_
  unfold StakingBooks.addUndelegation
  dsimp only
  cases b₂.getUndelegating d with
  | none => exact h₂.moves_same ⟨rfl, rfl, rfl, rfl, rfl, rfl, rfl, rfl⟩ rfl
  | some info => exact h₂.moves_same ⟨rfl, rfl, rfl, rfl, rfl, rfl, rfl, rfl⟩ rfl

end DistinctVotes

/-! ## Actions -/

/-- The validator is put on the list of abandoned validators. -/
def StakingAction.Abandons {B : Type} (a : StakingAction B) (v : Validator) : Prop :=
  match a with
  | .downtime consAddr => v.consAddress = consAddr ∧ v.jailed = false
  | .doubleSign consAddr => v.consAddress = consAddr ∧ v.status ≠ .unbonded
  | .destroyValidator delAddr => v.operatorAddress = delAddr ∧ v.status = .bonded
  | _ => False

/-- The validator is let out of jail. -/
def StakingAction.Frees {B : Type} (a : StakingAction B) (v : Validator) : Prop :=
  match a with
  | .unjail valAddr allowed =>
    v.operatorAddress = valAddr ∧ v.minSelfDelegation ≠ 0 ∧ v.jailed = true ∧ allowed = true
  | _ => False

/-- A validator with this key is created. -/
def StakingAction.Registers {B : Type} (a : StakingAction B) (k : Address) : Prop :=
  match a with
  | .createValidator msg => msg.pubKey = k
  | _ => False

/-- What the agreement needs of an action: a banned key does not come back, and if it is `strict`, a
validator that is to be kicked out is not unbonded and stays jailed. -/
structure StakingAction.Orderly {B : Type} (banned : Address → Prop) (strict : Prop)
    (b : StakingBooks) (a : StakingAction B) : Prop where
  registers : ∀ k, a.Registers k → ¬ banned k
  frees : ∀ v, b.getValidator v.operatorAddress = some v → a.Frees v →
    ¬ banned v.consAddress ∧ (strict → v.operatorAddress ∉ b.abandonedValidatorAddrs)
  abandons : strict → ∀ v, b.getValidator v.operatorAddress = some v → a.Abandons v →
    v.status ≠ .unbonded

/-- What an action inside a block does to the validators, whatever the set is. -/
structure Acts {B : Type} (a : StakingAction B) (b b' : StakingBooks) : Prop where
  agreement : ∀ {banned strict w}, a.Orderly banned strict b → ValidatorsOK banned strict w b →
    ValidatorsOK banned strict w b'
  places : ∀ {q k s t}, s ≠ .unbonded → b.Place q k s t → b'.Place q k s t
  dismissed : ∀ {q}, b.Dismissed q → b'.Dismissed q
  abandoned : b'.abandonedValidatorAddrs = b.abandonedValidatorAddrs ∨
    ∃ v, b.getValidator v.operatorAddress = some v ∧ a.Abandons v ∧
      b'.abandonedValidatorAddrs = b.abandonedValidatorAddrs ++ [v.operatorAddress] ∧
      ((∃ d, a = .destroyValidator d) → b'.Dismissed v.operatorAddress)
  hooks : ∃ calls, b'.hooks = b.hooks ++ calls ∧ ∀ k, .validatorBonded k ∉ calls

namespace Acts

variable {B : Type} {a : StakingAction B} {b b' : StakingBooks} {v v' : Validator}

theorem of_upholds (h : Upholds b b') : Acts a b b' := by
  obtain ⟨calls, hcalls, hremoved⟩ := h.hooks
  refine ⟨fun _ hok => h.agreement hok, h.places, h.dismissed, .inl h.abandoned, calls, hcalls,
    fun k hmem => ?_⟩
  obtain ⟨q, hq⟩ := hremoved _ hmem
  cases hq

theorem refl (b : StakingBooks) : Acts a b b := .of_upholds (.refl b)

theorem followed {b₁ : StakingBooks} (h : Acts a b b₁) (h' : Upholds b₁ b') : Acts a b b' := by
  obtain ⟨calls, hcalls, hnone⟩ := h.hooks
  obtain ⟨calls', hcalls', hremoved⟩ := h'.hooks
  refine ⟨fun horder hok => h'.agreement (h.agreement horder hok), fun hs hq =>
    h'.places hs (h.places hs hq), fun hq => h'.dismissed (h.dismissed hq), ?_, calls ++ calls', ?_,
    fun k hmem => ?_⟩
  · rw [h'.abandoned]
    refine h.abandoned.imp id ?_
    rintro ⟨v, hget, habandons, hlist, hdismissed⟩
    exact ⟨v, hget, habandons, hlist, fun hdestroy => h'.dismissed (hdismissed hdestroy)⟩
  · rw [hcalls', hcalls, List.append_assoc]
  · rcases List.mem_append.mp hmem with hmem | hmem
    · exact hnone k hmem
    · obtain ⟨q, hq⟩ := hremoved _ hmem
      cases hq

theorem of_write {extra : List Address} (hrewrites : Rewrites v v' extra b b')
    (hget : b.getValidator v.operatorAddress = some v) (hcore : v.SameCore v')
    (hjailed : v.jailed = true → v'.jailed = true ∨ a.Frees v)
    (hkick : v'.jailed = true → v.status = .bonded → v.jailed = true ∨ v.operatorAddress ∈ extra)
    (hextra : extra = [] ∨ extra = [v.operatorAddress] ∧ a.Abandons v ∧ v'.jailed = true ∧
      ((∃ d, a = .destroyValidator d) → v'.minSelfDelegation = 0))
    {calls : List StakingHook} (hcalls : b'.hooks = b.hooks ++ calls)
    (hnone : ∀ k, .validatorBonded k ∉ calls) : Acts a b b' := by
  have hput : ∀ q, b'.getValidator q =
      if q = v.operatorAddress then some v' else b.getValidator q := fun q => by
    unfold StakingBooks.getValidator
    rw [hrewrites.validators, KeyedStore.get_put, hcore.operator]
  refine ⟨fun {banned strict w} horder hok => hok.write hrewrites hget hcore (fun hj => ?_) hkick
    fun hs q hq => ?_, fun _ => hcore.places hput hget, hcore.dismisses hput hget, ?_, calls, hcalls,
    hnone⟩
  · exact (hjailed hj).imp id fun hfrees => horder.frees v hget hfrees
  · rcases hextra with rfl | ⟨rfl, habandons, hj, -⟩
    · exact absurd hq List.not_mem_nil
    · exact ⟨List.mem_singleton.mp hq, hj, horder.abandons hs v hget habandons⟩
  · rcases hextra with rfl | ⟨rfl, habandons, -, hmsd⟩
    · exact .inl (hrewrites.abandoned.trans (List.append_nil _))
    · refine .inr ⟨v, hget, habandons, hrewrites.abandoned, fun hdestroy => ?_⟩
      obtain ⟨d, rfl⟩ := hdestroy
      refine ⟨v', (hput _).trans (if_pos rfl), fun hstatus => ?_, hmsd ⟨d, rfl⟩⟩
      cases (hcore.status.symm.trans hstatus).symm.trans habandons.2

end Acts

/-- A hook that slashing keeps no key for. -/
theorem ValidatorsOK.destroyed {banned : Address → Prop} {strict : Prop} {w : ValidatorSet}
    {b : StakingBooks} (h : ValidatorsOK banned strict w b) (k : Address) :
    ValidatorsOK banned strict w (b.callHook (.validatorDestroyed k)) := by
  refine ⟨h.cons, h.power, h.queued, h.once, h.slices, h.powers, h.total, h.bonded, h.nonzero,
    h.tendermint, h.jailed, h.abandoned, h.banned, h.tokens, fun q => ?_, fun a q hq => ?_⟩
  · have hreg : Okexchain.registered (b.callHook (.validatorDestroyed k)).hooks =
        Okexchain.registered b.hooks := List.foldl_append
    rw [hreg]
    exact h.registered q
  · exact List.mem_append_left _ (h.known a q hq)

section Handlers

variable {B : Type} {sk : PoolKeeper B} {s s' : StakingState B} {banned : Address → Prop}
  {strict : Prop} {w : ValidatorSet} {b b' : StakingBooks} {v : Validator}

theorem handleMsgCreateValidator_acts {msg : MsgCreateValidator}
    (h : ValidatorsOK banned strict w s.books)
    (hok : s.handleMsgCreateValidator sk msg = .ok s') :
    Acts (.createValidator msg : StakingAction B) s.books s'.books := by
  unfold StakingState.handleMsgCreateValidator StakingState.addSharesAsMinSelfDelegation at hok
  simp only [bind_eq_ok, orThrow_eq_ok, require_eq_ok, exists_const, pure_eq_ok] at hok
  obtain ⟨hnew, hfresh, -, _, -, _, ⟨bank, -, rfl⟩, rfl⟩ := hok
  rw [Option.isNone_iff_eq_none] at hnew hfresh
  let v₀ := Validator.new msg.validatorAddress msg.pubKey msg.description s.params.minSelfDelegation
  let v : Validator := { v₀ with delegatorShares := v₀.delegatorShares + Dec.one }
  have hput : ∀ q, ((s.books.validators.put v₀).put v).get q =
      if q = v.operatorAddress then some v else s.books.validators.get q := fun q => by
    rw [KeyedStore.get_put]
    split_ifs with hq
    · rfl
    · exact KeyedStore.get_put_ne hq
  -- it is under the key of its one share only
  have hpower : ∀ key, (((s.books.validatorsByPowerIndex.set v₀.powerIndexKey
      v₀.operatorAddress).delete v₀.powerIndexKey).set v.powerIndexKey v.operatorAddress).get key =
        if key = v.powerIndexKey then some v.operatorAddress
        else s.books.validatorsByPowerIndex.get key := fun key => by
    rw [KVStore.get_set]
    refine if_congr Iff.rfl rfl ?_
    rw [KVStore.get_delete]
    split_ifs with hold
    · refine (Option.eq_none_iff_forall_ne_some.mpr fun a ha => ?_).symm
      obtain ⟨x, hx, -, hkey⟩ := (h.power _ a).mp ha
      have hxa : x.operatorAddress = a := KeyedStore.key_of_get hx
      rw [← hxa, Validator.powerIndexKey_inj (hkey.trans hold)] at hx
      cases hnew.symm.trans hx
    · exact KVStore.get_set_ne hold
  have hkept : ∀ {b' : StakingBooks} {q P}, b'.validators = (s.books.validators.put v₀).put v →
      s.books.Has q P → b'.Has q P := by
    rintro b' q P hb' ⟨u, hu, hP⟩
    refine ⟨u, ?_, hP⟩
    unfold StakingBooks.getValidator
    rw [hb', hput, if_neg]
    · exact hu
    · rintro rfl
      cases hnew.symm.trans hu
  refine ⟨fun {banned strict w} horder hagree => ?_, fun _ hq => hkept rfl hq,
    fun hq => hkept rfl hq, .inl rfl, _, rfl, fun k hmem => ?_⟩
  · exact hagree.create (v := v) hput rfl hpower rfl rfl rfl rfl rfl hnew hfresh
      (horder.registers _ rfl) rfl rfl rfl
  · cases List.mem_singleton.mp hmem

theorem handleMsgEditValidator_acts {msg : MsgEditValidator}
    (h : ValidatorsOK banned strict w s.books) (hok : s.handleMsgEditValidator msg = .ok s') :
    Acts (.editValidator msg : StakingAction B) s.books s'.books := by
  unfold StakingState.handleMsgEditValidator at hok
  simp only [bind_eq_ok, orThrow_eq_ok, pure_eq_ok] at hok
  obtain ⟨v, hv, description, -, rfl⟩ := hok
  have hget : s.books.getValidator v.operatorAddress = some v := by
    rw [KeyedStore.key_of_get hv]
    exact hv
  have hpasses : v.Passes { v with description := description } := ⟨rfl, rfl, rfl, rfl, rfl⟩
  refine .of_write (v := v) ⟨rfl, rfl, h.rekeyedAt hget hpasses, rfl, rfl, rfl,
    (List.append_nil _).symm, [], (List.append_nil _).symm, rfl⟩ hget ⟨rfl, rfl, rfl, rfl, rfl, id⟩
    (fun hj => .inl hj) (fun hj _ => .inl hj) (.inl rfl) (List.append_nil _).symm
    fun _ => List.not_mem_nil

/-- The validator of a consensus address is the one with this key. -/
theorem mustGetValidatorByConsAddr_eq (h : ValidatorsOK banned strict w b)
    (hget : b.getValidator v.operatorAddress = some v) :
    b.mustGetValidatorByConsAddr v.consAddress = .ok v := by
  have hcons : b.validatorsByConsAddr.get v.consAddress = some v.operatorAddress :=
    (h.cons _ _).mpr ((StakingBooks.has_of_get hget).mpr rfl)
  unfold StakingBooks.mustGetValidatorByConsAddr StakingBooks.getValidatorByConsAddr
  rw [hcons, Option.bind_some, hget]
  rfl

theorem appendAbandoned_eq_ok {k : Address} (hok : b.appendAbandonedValidatorAddrs k = .ok b') :
    ∃ v, b.mustGetValidatorByConsAddr k = .ok v ∧ b' = { b with
      abandonedValidatorAddrs := b.abandonedValidatorAddrs ++ [v.operatorAddress] } := by
  unfold StakingBooks.appendAbandonedValidatorAddrs at hok
  simp only [bind_eq_ok, pure_eq_ok] at hok
  obtain ⟨v, hv, rfl⟩ := hok
  exact ⟨v, hv, rfl⟩

/-- A destroyed validator stays, jailed and without its own share. -/
theorem dismiss_acts {b₁ : StakingBooks} {extra : List Address} (v' : Validator)
    (hget : b.getValidator v.operatorAddress = some v) (hcore : v.SameCore v')
    (hjailed : v'.jailed = true)
    (hvalidators : b₁.validators = b.validators.put v')
    (hcons : b₁.validatorsByConsAddr = b.validatorsByConsAddr)
    (hpower : b₁.validatorsByPowerIndex = b.validatorsByPowerIndex.delete v.powerIndexKey)
    (hqueue : b₁.validatorQueue = b.validatorQueue)
    (hpowers : b₁.lastValidatorPower = b.lastValidatorPower)
    (htotal : b₁.lastTotalPower = b.lastTotalPower)
    (habandoned : b₁.abandonedValidatorAddrs = b.abandonedValidatorAddrs ++ extra)
    (hhooks : b₁.hooks = b.hooks ++ [.validatorDestroyed v.consAddress])
    (hmsd : v'.minSelfDelegation = 0)
    (hextra : extra = [] ∧ v.status ≠ .bonded ∨
      extra = [v.operatorAddress] ∧ v.status = .bonded) :
    Acts (.destroyValidator v.operatorAddress : StakingAction B) b b₁ := by
  have hreg : registered b₁.hooks = registered b.hooks := by
    rw [hhooks]
    exact List.foldl_append
  refine .of_write ⟨hvalidators, hcons, fun key => ?_, hqueue, hpowers, htotal, habandoned, _,
    hhooks, hreg⟩ hget hcore (fun _ => .inl hjailed) (fun _ hbonded => ?_) ?_ hhooks fun k hmem => ?_
  · rw [hpower, if_neg fun hb => Bool.noConfusion (hjailed.symm.trans hb.1)]
    exact KVStore.get_delete
  · rcases hextra with ⟨-, hne⟩ | ⟨hextra, -⟩
    · exact absurd hbonded hne
    · exact .inr (hextra ▸ List.mem_singleton.mpr rfl)
  · exact hextra.imp And.left fun hb => ⟨hb.1, ⟨rfl, hb.2⟩, hjailed, fun _ => hmsd⟩
  · cases List.mem_singleton.mp hmem

theorem handleMsgDestroyValidator_acts {time t : Int} {d : Address}
    (h : ValidatorsOK banned strict w s.books)
    (hok : s.handleMsgDestroyValidator sk time d = .ok (s', t)) :
    Acts (.destroyValidator d : StakingAction B) s.books s'.books := by
  unfold StakingState.handleMsgDestroyValidator StakingState.withdrawMinSelfDelegation at hok
  simp only [bind_eq_ok, orThrow_eq_ok, require_eq_ok, exists_const] at hok
  obtain ⟨v, hv, -, -, bank, -, hok⟩ := hok
  obtain rfl : v.operatorAddress = d := KeyedStore.key_of_get hv
  split_ifs at hok with hbonded hgone hgone
  · cases hbonded.symm.trans hgone.1
  · simp only [bind_eq_ok, pure_eq_ok] at hok
    obtain ⟨b₁, happend, _, hset, hres⟩ := hok
    obtain ⟨u, hu, rfl⟩ := appendAbandoned_eq_ok happend
    have hmust : s.books.mustGetValidatorByConsAddr v.consAddress = .ok u := hu
    rw [mustGetValidatorByConsAddr_eq h hv] at hmust
    cases hmust
    cases hset
    cases hres
    exact dismiss_acts { v with
      minSelfDelegation := 0, jailed := true, delegatorShares := v.delegatorShares - Dec.one } hv
      ⟨rfl, rfl, rfl, rfl, rfl, fun _ => rfl⟩ rfl rfl rfl rfl rfl rfl rfl rfl rfl rfl
      (.inr ⟨rfl, hbonded⟩)
  · simp only [bind_eq_ok, pure_eq_ok] at hok
    obtain ⟨_, htold, b₂, hremove, hres⟩ := hok
    cases htold
    cases hres
    refine Acts.followed (⟨fun _ hok => hok.destroyed _, fun _ hq => hq, id, .inl rfl, _, rfl,
      fun k hmem => ?_⟩ :
      Acts _ s.books (s.books.callHook (.validatorDestroyed v.consAddress))) ?_
    · cases List.mem_singleton.mp hmem
    · cases hremove.symm.trans (StakingBooks.removeValidator_eq hv hgone.1 (h.tokens_eq hv))
      exact .of_remove ⟨fun _ => KeyedStore.get_delete, rfl, fun _ => KVStore.get_delete, rfl, rfl,
        rfl, rfl, rfl⟩ hv hgone.1
  · simp only [bind_eq_ok, pure_eq_ok] at hok
    obtain ⟨_, htold, _, hset, hres⟩ := hok
    cases htold
    cases hset
    cases hres
    exact dismiss_acts { v with
      minSelfDelegation := 0, jailed := true, delegatorShares := v.delegatorShares - Dec.one } hv
      ⟨rfl, rfl, rfl, rfl, rfl, fun _ => rfl⟩ rfl rfl rfl rfl rfl rfl rfl
      (List.append_nil _).symm rfl rfl (.inl ⟨rfl, hbonded⟩)

theorem handleMsgUnjail_acts {valAddr : Address} {allowed : Bool}
    (h : ValidatorsOK banned strict w s.books)
    (hok : s.handleMsgUnjail valAddr allowed = .ok s') :
    Acts (.unjail valAddr allowed : StakingAction B) s.books s'.books := by
  unfold StakingState.handleMsgUnjail StakingBooks.unjail at hok
  simp only [bind_eq_ok, orThrow_eq_ok, require_eq_ok, exists_const, pure_eq_ok] at hok
  obtain ⟨v, hv, hmsd, hjailed, hallowed, _, ⟨u, hu, -, rfl⟩, rfl⟩ := hok
  obtain rfl : v.operatorAddress = valAddr := KeyedStore.key_of_get hv
  rw [mustGetValidatorByConsAddr_eq h hv] at hu
  cases hu
  have hrewrites : Rewrites v { v with jailed := false } [] s.books
      ((s.books.setValidator { v with jailed := false }).setValidatorByPowerIndex
        { v with jailed := false }) := by
    refine ⟨rfl, rfl, fun key => ?_, rfl, rfl, rfl, (List.append_nil _).symm, [],
      (List.append_nil _).symm, rfl⟩
    refine KVStore.get_set.trans ?_
    by_cases hkey : key = v.powerIndexKey
    · exact (if_pos hkey).trans (if_pos ⟨rfl, hkey⟩).symm
    · refine (if_neg hkey).trans ?_
      rw [if_neg fun hb => hkey hb.2, if_neg hkey]
      rfl
  exact .of_write hrewrites hv ⟨rfl, rfl, rfl, rfl, rfl, id⟩
    (fun _ => .inr ⟨rfl, hmsd, hjailed, hallowed⟩) (fun hfree => (by cases hfree)) (.inl rfl)
    (List.append_nil _).symm fun _ => List.not_mem_nil

/-- A validator is jailed, and is to be kicked out. -/
def StakingBooks.punished (b : StakingBooks) (v : Validator) : StakingBooks :=
  { b with
    validators := b.validators.put { v with jailed := true }
    validatorsByPowerIndex := b.validatorsByPowerIndex.delete v.powerIndexKey
    abandonedValidatorAddrs := b.abandonedValidatorAddrs ++ [v.operatorAddress] }

theorem StakingBooks.get_punished (q : Address) :
    (b.punished v).getValidator q =
      if q = v.operatorAddress then some { v with jailed := true } else b.getValidator q :=
  KeyedStore.get_put

/-- A validator is to be kicked out. -/
def StakingBooks.withAbandoned (b : StakingBooks) (v : Validator) : StakingBooks :=
  { b with abandonedValidatorAddrs := b.abandonedValidatorAddrs ++ [v.operatorAddress] }

theorem punished_acts {a : StakingAction B} (hget : b.getValidator v.operatorAddress = some v)
    (habandons : a.Abandons v) (hnot : ¬ ∃ d, a = .destroyValidator d) : Acts a b (b.punished v) := by
  have hcalls : (b.punished v).hooks = b.hooks ++ [] := (List.append_nil _).symm
  have hrewrites : Rewrites v { v with jailed := true } [v.operatorAddress] b (b.punished v) := by
    refine ⟨rfl, rfl, fun key => ?_, rfl, rfl, rfl, rfl, [], hcalls, rfl⟩
    rw [if_neg fun hb => Bool.noConfusion hb.1]
    exact KVStore.get_delete
  exact .of_write hrewrites hget ⟨rfl, rfl, rfl, rfl, rfl, id⟩ (fun _ => .inl rfl)
    (fun _ _ => .inr (List.mem_singleton.mpr rfl))
    (.inr ⟨rfl, habandons, rfl, fun hdestroy => absurd hdestroy hnot⟩) hcalls
    fun _ => List.not_mem_nil

theorem withAbandoned_acts {a : StakingAction B} (hget : b.getValidator v.operatorAddress = some v)
    (habandons : a.Abandons v) (hnot : ¬ ∃ d, a = .destroyValidator d) (hjailed : v.jailed = true)
    (hstatus : v.status ≠ .unbonded) : Acts a b (b.withAbandoned v) := by
  refine ⟨fun _ hok => hok.abandon _ fun _ => ?_, fun _ hq => hq, id,
    .inr ⟨v, hget, habandons, rfl, fun hdestroy => absurd hdestroy hnot⟩, [],
    (List.append_nil _).symm, fun _ => List.not_mem_nil⟩
  exact (StakingBooks.has_of_get hget).mpr ⟨hjailed, hstatus⟩

theorem getValidatorByConsAddr_eq (h : ValidatorsOK banned strict w b)
    (hget : b.getValidator v.operatorAddress = some v) :
    b.getValidatorByConsAddr v.consAddress = some v :=
  orThrow_eq_ok.mp (mustGetValidatorByConsAddr_eq h hget)

/-- A validator that has been jailed is found as before. -/
theorem StakingBooks.getValidatorByConsAddr_punished {k : Address}
    (hfound : b.getValidatorByConsAddr k = some v) :
    (b.punished v).getValidatorByConsAddr k = some { v with jailed := true } := by
  obtain ⟨a, ha, hget⟩ := Option.bind_eq_some_iff.mp hfound
  have hkey : v.operatorAddress = a := KeyedStore.key_of_get hget
  refine Option.bind_eq_some_iff.mpr ⟨a, ha, ?_⟩
  rw [get_punished, if_pos hkey.symm]

/-- **`HandleValidatorSignature`** jails a validator. -/
theorem handleDowntime_eq {k : Address} (hfound : s.books.getValidatorByConsAddr k = some v)
    (hjailed : v.jailed = false) :
    s.handleDowntime k = .ok { s with books := s.books.punished v } := by
  unfold StakingState.handleDowntime
  rw [hfound]
  dsimp only
  rw [hjailed, if_neg Bool.false_ne_true]
  refine bind_eq_ok.mpr ⟨_, bind_eq_ok.mpr ⟨v, orThrow_eq_ok.mpr hfound,
    bind_eq_ok.mpr ⟨(), require_eq_ok.mpr hjailed, rfl⟩⟩, bind_eq_ok.mpr ⟨_, ?_, rfl⟩⟩
  -- the validator that is found to be kicked out is the one that has been jailed
  exact bind_eq_ok.mpr ⟨_, orThrow_eq_ok.mpr (StakingBooks.getValidatorByConsAddr_punished hfound),
    rfl⟩

theorem handleDowntime_acts {consAddr : Address} (h : ValidatorsOK banned strict w s.books)
    (hok : s.handleDowntime consAddr = .ok s') :
    Acts (.downtime consAddr : StakingAction B) s.books s'.books := by
  cases hv : s.books.getValidatorByConsAddr consAddr with
  | none =>
    unfold StakingState.handleDowntime at hok
    rw [hv] at hok
    cases hok
    exact .refl _
  | some v =>
    obtain ⟨hget, rfl⟩ := h.getValidatorByConsAddr hv
    cases hjailed : v.jailed with
    | true =>
      unfold StakingState.handleDowntime at hok
      rw [hv] at hok
      dsimp only at hok
      rw [hjailed, if_pos rfl] at hok
      cases hok
      exact .refl _
    | false =>
      rw [handleDowntime_eq hv hjailed] at hok
      cases hok
      exact punished_acts hget ⟨rfl, hjailed⟩ nofun

/-- **`HandleDoubleSign`** of a validator that is not unbonded. -/
theorem handleDoubleSign_eq (h : ValidatorsOK banned strict w s.books)
    (hget : s.books.getValidator v.operatorAddress = some v) (hstatus : v.status ≠ .unbonded) :
    s.handleDoubleSign v.consAddress = .ok { s with
      books := if v.jailed then s.books.withAbandoned v else s.books.punished v } := by
  have hmust := mustGetValidatorByConsAddr_eq h hget
  unfold StakingState.handleDoubleSign
  rw [getValidatorByConsAddr_eq h hget]
  dsimp only
  rw [if_neg hstatus]
  refine bind_eq_ok.mpr ⟨s.books.withAbandoned v, bind_eq_ok.mpr ⟨v, hmust, rfl⟩, ?_⟩
  cases hjailed : v.jailed with
  | true => rfl
  | false =>
    exact bind_eq_ok.mpr ⟨_, bind_eq_ok.mpr ⟨v, hmust,
      bind_eq_ok.mpr ⟨(), require_eq_ok.mpr hjailed, rfl⟩⟩, rfl⟩

theorem handleDoubleSign_acts {consAddr : Address} (h : ValidatorsOK banned strict w s.books)
    (hok : s.handleDoubleSign consAddr = .ok s') :
    Acts (.doubleSign consAddr : StakingAction B) s.books s'.books := by
  cases hv : s.books.getValidatorByConsAddr consAddr with
  | none =>
    unfold StakingState.handleDoubleSign at hok
    rw [hv] at hok
    cases hok
    exact .refl _
  | some v =>
    obtain ⟨hget, rfl⟩ := h.getValidatorByConsAddr hv
    by_cases hstatus : v.status = .unbonded
    · unfold StakingState.handleDoubleSign at hok
      rw [hv] at hok
      dsimp only at hok
      rw [if_pos hstatus] at hok
      cases hok
      exact .refl _
    · rw [handleDoubleSign_eq h hget hstatus] at hok
      cases hok
      cases hjailed : v.jailed with
      | true => exact withAbandoned_acts hget ⟨rfl, hstatus⟩ nofun hjailed hstatus
      | false => exact punished_acts hget ⟨rfl, hstatus⟩ nofun

/-! ## The end of a block -/

/-- What `EndBlocker` does to the validators. -/
structure Ended (banned : Address → Prop) (strict : Prop) (params : StakingParams) (time : Int)
    (w : ValidatorSet) (b : StakingBooks) (us : List ValidatorUpdate) (w' : ValidatorSet)
    (b' : StakingBooks) : Prop where
  ok : ValidatorsOK banned strict w' b'
  told : w'.tendermint = us.foldl applyUpdate w.tendermint
  keys : (us.map ValidatorUpdate.pubKey).Nodup
  counted : w.Counted → w'.Counted
  free : ∀ q, ¬ b'.Has q fun v => v.jailed = true ∧ v.status = .bonded
  staying : ∀ q k t, time < t → t ≤ time + params.unbondingTime →
    b.Has q (fun v => v.consAddress = k ∧ v.Stays t) → b'.Has q fun v => v.consAddress = k ∧ v.Stays t
  hooks : b.hooks <+: b'.hooks
  abandoned : b'.abandonedValidatorAddrs = []
  size : w.size ≤ params.maxValidators → b.abandonedValidatorAddrs.Nodup →
    (∀ a ∈ b.abandonedValidatorAddrs, (w.powers.get a).isSome) → w'.size ≤ params.maxValidators

/-- Completed undelegations are no concern of the validators. -/
theorem completeEntries_same (sk : PoolKeeper B) (keys : List (Int ×ₗ Address)) (s : StakingState B)
    (paid : List (Address × Int)) :
    SameValidators s.books (keys.foldl (StakingState.completeEntry sk) (s, paid)).1.books := by
  induction keys generalizing s paid with
  | nil => exact ⟨rfl, rfl, rfl, rfl, rfl, rfl, rfl, rfl⟩
  | cons key keys ih =>
    rw [List.foldl_cons]
    have hstep : SameValidators s.books (StakingState.completeEntry sk (s, paid) key).1.books := by
      unfold StakingState.completeEntry
      dsimp only
      split
      · exact ⟨rfl, rfl, rfl, rfl, rfl, rfl, rfl, rfl⟩
      · rename_i s' quantity hok
        unfold StakingState.completeUndelegation at hok
        simp only [bind_eq_ok, orThrow_eq_ok, pure_eq_ok] at hok
        obtain ⟨ud, -, bank, -, hres⟩ := hok
        cases hres
        exact ⟨rfl, rfl, rfl, rfl, rfl, rfl, rfl, rfl⟩
    have hrest := ih (StakingState.completeEntry sk (s, paid) key).1
      (StakingState.completeEntry sk (s, paid) key).2
    exact ⟨hrest.validators.trans hstep.validators, hrest.cons.trans hstep.cons,
      hrest.power.trans hstep.power, hrest.queue.trans hstep.queue,
      hrest.powers.trans hstep.powers, hrest.total.trans hstep.total,
      hrest.abandoned.trans hstep.abandoned, hrest.hooks.trans hstep.hooks⟩

theorem endBlocker_ends {height time : Int} (h : ValidatorsOK banned strict w s.books) :
    Ends (s.endBlocker sk height time) (fun r => ∃ w',
      Ended banned strict s.params time w s.books r.2.1 w' r.1.books) fun _ => ¬ strict := by
  unfold StakingState.endBlocker
  refine Ends.bind (StakingBooks.updateValidatorSet_ends h) ?_
  rintro ⟨b₁, us⟩ - ⟨w', hrolled, hnone, hsize⟩
  refine Ends.bind ((StakingBooks.unbondAllMatureValidatorQueue_ends hrolled.ok hnone).mono
    (fun _ hb => hb) fun _ he => he.elim) ?_
  rintro b₂ - ⟨hok, hnone₂, hhooks, hkept⟩
  refine Ends.pure ⟨w', ?_⟩
  have hsame := completeEntries_same sk (({ s with books := b₂ }).matureEntries time)
    { s with books := b₂ } []
  have hok' := hok.same hsame
  have hhas : ∀ q P, b₂.Has q P → StakingBooks.Has _ q P := fun q P hq =>
    (StakingBooks.has_congr (congrArg (KeyedStore.get · q) hsame.validators)).mpr hq
  refine ⟨hok', hrolled.told, hrolled.keys, hrolled.counted, fun q hq => ?_,
    fun q k t hlate hdue hq => ?_, ?_, hsame.abandoned.trans hnone₂, hsize⟩
  · have hmem := hok'.jailed q hq
    rw [hsame.abandoned.trans hnone₂] at hmem
    exact List.not_mem_nil hmem
  · obtain ⟨v, hv, hcons, hstays⟩ := hrolled.staying q k t hdue hq
    refine hhas q _ ⟨v, hkept q v hv fun hs => ?_, hcons, hstays⟩
    rcases hstays with hb | ⟨-, hle⟩
    · cases hs.symm.trans hb
    · exact hlate.trans_le hle
  · rw [hsame.hooks]
    exact hrolled.hooks.trans hhooks

end Handlers

/-! ## Runs -/

section Runs

variable {B : Type} {sk : PoolKeeper B} {weight : Int → Int} {n : StakingNode B}
  {banned : Address → Prop} {strict : Prop} {w : ValidatorSet}

theorem StakingNode.deliver_acts {α : Type} {a : StakingAction B} {x : Except StakingError α}
    {f : α → StakingState B × List StakingEvent}
    (hx : ∀ r, x = .ok r → Acts a n.state.books (f r).1.books) :
    Acts a n.state.books (n.deliver (x.map f)).state.books := by
  cases x with
  | error e => exact .refl _
  | ok r => exact hx r rfl

theorem SharesOK.distinct {b : StakingBooks} (h : SharesOK b) : DistinctVotes b := fun d r hr =>
  (h.sound d r hr).nodup

/-- **An action inside a block.** -/
theorem StakingNode.step_acts (hinv : StakingInv sk n.state.books)
    (h : ValidatorsOK banned strict w n.state.books) {a : StakingAction B} (hvalid : a.Valid sk)
    (hend : a ≠ .endBlock) : Acts a n.state.books (n.step sk weight a).state.books := by
  have hdistinct := hinv.shares.distinct
  cases a with
  | createValidator msg => exact deliver_acts fun s hs => handleMsgCreateValidator_acts h hs
  | editValidator msg => exact deliver_acts fun s hs => handleMsgEditValidator_acts h hs
  | destroyValidator delAddr =>
    exact deliver_acts fun r hr => handleMsgDestroyValidator_acts h hr
  | deposit msg =>
    refine deliver_acts fun s hs => .of_upholds ?_
    unfold StakingState.handleMsgDeposit at hs
    simp only [bind_eq_ok, require_eq_ok, exists_const] at hs
    exact (hdistinct.delegate hs.2).upholds
  | withdraw msg =>
    refine deliver_acts fun r hr => .of_upholds ?_
    unfold StakingState.handleMsgWithdraw at hr
    simp only [bind_eq_ok, require_eq_ok, exists_const] at hr
    exact (hdistinct.withdraw hr.2).upholds
  | addShares msg =>
    exact deliver_acts fun s hs => .of_upholds (hdistinct.handleMsgAddShares hvalid.1 hs).upholds
  | bindProxy msg =>
    refine deliver_acts fun s hs => .of_upholds ?_
    unfold StakingState.handleMsgBindProxy at hs
    simp only [bind_eq_ok, orThrow_eq_ok, require_eq_ok, exists_const, pure_eq_ok] at hs
    obtain ⟨r, hr, -, -, rp, hrp, -, -, -, b', hbind, rfl⟩ := hs
    exact (hdistinct.bindProxy hr hrp hbind).upholds
  | unbindProxy delAddr =>
    refine deliver_acts fun s hs => .of_upholds ?_
    unfold StakingState.handleMsgUnbindProxy at hs
    simp only [bind_eq_ok, pure_eq_ok] at hs
    obtain ⟨b', hunbind, rfl⟩ := hs
    exact (hdistinct.unbindProxy hunbind).upholds
  | regProxy msg =>
    refine deliver_acts fun s hs => .of_upholds ?_
    unfold StakingState.handleRegProxy at hs
    split_ifs at hs
    all_goals
      simp only [bind_eq_ok, pure_eq_ok] at hs
      obtain ⟨b', hreg, rfl⟩ := hs
    · exact (hdistinct.regProxy hreg).upholds
    · exact (hdistinct.unregProxy hreg).upholds
  | unjail valAddr allowed => exact deliver_acts fun s hs => handleMsgUnjail_acts h hs
  | downtime consAddr => exact deliver_acts fun s hs => handleDowntime_acts h hs
  | doubleSign consAddr => exact deliver_acts fun s hs => handleDoubleSign_acts h hs
  | endBlock => exact absurd rfl hend
  | beginBlock time => exact .refl _
  | outside params bank => exact .refl _

theorem ValidatorsOK.empty (total : Option Int) (epoch : Option Nat) (last : Option Int) :
    ValidatorsOK banned strict ⟨∅, total.getD 0, ∅⟩
      ⟨∅, ∅, ∅, ∅, total, ∅, [], ∅, ∅, ∅, ∅, ∅, epoch, last, []⟩ := by
  have hnone : ∀ q P, ¬ StakingBooks.Has
      ⟨∅, ∅, ∅, ∅, total, ∅, [], ∅, ∅, ∅, ∅, ∅, epoch, last, []⟩ q P :=
    fun q P => StakingBooks.not_has rfl
  refine ⟨fun k q => iff_of_false nofun (hnone q _), fun key q => iff_of_false nofun (hnone q _),
    fun t q => iff_of_false List.not_mem_nil (hnone q _), fun t => List.nodup_nil, fun t => nofun,
    rfl, rfl, fun q => iff_of_false nofun (hnone q _), nofun, fun k p => iff_of_false nofun ?_,
    fun q hq => absurd hq (hnone q _), fun _ q hq => absurd hq List.not_mem_nil,
    fun q hq => absurd hq (hnone q _), fun q => hnone q _, fun k => iff_of_false nofun ?_,
    fun q k hq => absurd hq (hnone q _)⟩
  · rintro ⟨q, hq, -⟩
    exact hnone q _ hq
  · rintro ⟨q, hq⟩
    exact hnone q _ hq

/-- **In every run** the validators and their indexes agree. -/
theorem StakingReach.agreement {rule : StakingNode B → StakingAction B → Prop}
    (hweight : ∀ week, Dec.one ≤ weight week) (h : StakingReach sk weight rule n) :
    ∃ w, ValidatorsOK (fun _ => False) False w n.state.books := by
  induction h with
  | genesis h =>
    obtain ⟨total, epoch, last, hbooks⟩ := h.books
    rw [hbooks]
    exact ⟨_, .empty total epoch last⟩
  | @step n a hn hvalid hrule ih =>
    obtain ⟨w, hw⟩ := ih
    by_cases hend : a = .endBlock
    · subst hend
      have hends : Ends (n.state.endBlocker sk n.height n.time) _ _ := endBlocker_ends hw
      show ∃ w, ValidatorsOK _ _ w (n.deliver _).state.books
      cases hr : n.state.endBlocker sk n.height n.time with
      | error e => exact ⟨w, hw⟩
      | ok r =>
        obtain ⟨w', hended⟩ := hends.of_ok hr
        exact ⟨w', hended.ok⟩
    · have hacts : Acts a n.state.books (n.step sk weight a).state.books :=
        StakingNode.step_acts (hn.inv hweight) hw hvalid hend
      exact ⟨w, hacts.agreement ⟨fun _ _ => id, fun _ _ _ => ⟨id, False.elim⟩, False.elim⟩ hw⟩

end Runs

end Okexchain
