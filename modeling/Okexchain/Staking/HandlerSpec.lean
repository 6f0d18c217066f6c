import Okexchain.Staking.Effects

/-!
# What the staking handlers do

Every handler of the staking module, and what slashing and evidence do to it, as a trace of effects,
in states where the votes agree.

* The handlers that only vote are retallies: `handleMsgAddShares_retallies`, `unbindProxy_spec`,
  `bindProxy_retallies`, `regProxy_retallies`, `unregProxy_retallies`. A handler writes back records
  that it read before other records were written; it is enough that these are other records, or the
  same record with the same votes.
* `handleMsgDeposit_trace` and `handleMsgWithdraw_trace` move tokens.
* `Frame` is what jailing and the validator set may do.
-/

namespace Okexchain

variable {B : Type} {weight : Int → Int} {time : Int}

theorem StakingBooks.getDelegator_setDelegator (b : StakingBooks) (r : Delegator) :
    (b.setDelegator r).getDelegator r.delegatorAddress = some r :=
  KeyedStore.get_put_self

/-! ## Voting -/

namespace SharesOK

variable {b b' : StakingBooks} {d : Address} {r : Delegator}

theorem retally_set (h : SharesOK b) (r' : Delegator) (hr : b.getDelegator d = some r)
    (hkey : r'.delegatorAddress = r.delegatorAddress)
    (haddrs : r'.validatorAddresses = r.validatorAddresses) (hshares : r'.shares = r.shares)
    (htokens : r'.tokens = r.tokens) (hdelegated : 0 ≤ r'.totalDelegatedTokens)
    (hproxy : r'.proxyAddress ≠ some r'.delegatorAddress) : Retally b (b.setDelegator r') :=
  ⟨d, _, _, h.setDelegator_revision r' hr hkey haddrs hshares
    (by rw [htokens]; exact (h.sound d r hr).tokens) hdelegated hproxy, htokens, rfl, rfl⟩

theorem retally_updateShares (h : SharesOK b) (hweight : ∀ week, Dec.one ≤ weight week)
    (hr : b.getDelegator d = some r) {tokens : Int} (htokens : 0 < tokens)
    (hok : b.updateShares weight time d tokens = .ok b') : Retally b b' := by
  obtain ⟨shares, hrev, hsame⟩ := h.updateShares_revision hweight hr htokens hok
  exact ⟨d, _, _, hrev, rfl, hsame⟩

theorem unbindProxy_spec (h : SharesOK b) (hweight : ∀ week, Dec.one ≤ weight week)
    (hok : StakingState.unbindProxy weight time b d = .ok b') :
    ∃ r q, b.getDelegator d = some r ∧ r.proxyAddress = some q ∧ Retallies b b' ∧
      b'.getDelegator d = some r.unbindProxy ∧
      ∀ e, e ≠ d → e ≠ q → b'.getDelegator e = b.getDelegator e := by
  unfold StakingState.unbindProxy at hok
  simp only [bind_eq_ok, orThrow_eq_ok, pure_eq_ok, toOption_eq_some] at hok
  obtain ⟨r, hr, q, hq, _, -, b₁, hupdate, rfl⟩ := hok
  have hkey : r.delegatorAddress = d := KeyedStore.key_of_get hr
  have hdq : d ≠ q := by
    rintro rfl
    exact (h.sound d r hr).proxy (hkey ▸ hq)
  obtain ⟨rp, rp', hrev, htokens, hsame⟩ := h.updateProxy_revision hweight hq hupdate
  have h₁ := h.revision hrev
  have hr₁ : b₁.getDelegator d = some r := by rw [hrev.others d hdq, hr]
  have hsound := h.sound d r hr
  have hset : Retally b₁ (b₁.setDelegator r.unbindProxy) :=
    h₁.retally_set _ hr₁ rfl rfl rfl rfl hsound.delegated nofun
  have hbinding := (h₁.retally hset).retally_of_same ((b₁.setDelegator
    r.unbindProxy).setProxyBinding q r.delegatorAddress true) ⟨⟨rfl, rfl⟩, ⟨rfl, rfl⟩, rfl, rfl⟩
  refine ⟨r, q, hr, hq, ((Relation.ReflTransGen.single ⟨q, _, _, hrev, htokens, hsame⟩).tail
    hset).tail hbinding, ?_, fun e hed heq => ?_⟩
  · rw [← hkey]
    exact KeyedStore.get_put_self
  · rw [← hrev.others e heq]
    exact KeyedStore.get_put_ne (hkey ▸ hed)

/-- A proxy gets the tokens of a delegator that is bound to it. -/
theorem bind_retallies (h : SharesOK b) (hweight : ∀ week, Dec.one ≤ weight week)
    {p : Address} (rd : Delegator) {rp : Delegator} (hpd : p ≠ d) (hrp : b.getDelegator p = some rp)
    (hrd : b.getDelegator d = some r) (hkey : rd.delegatorAddress = r.delegatorAddress)
    (haddrs : rd.validatorAddresses = r.validatorAddresses) (hshares : rd.shares = r.shares)
    (htokens : rd.tokens = r.tokens) (hdelegated : 0 ≤ rd.totalDelegatedTokens)
    (hproxy : rd.proxyAddress ≠ some rd.delegatorAddress)
    (hok : ((((b.setDelegator rd).setDelegator { rp with
        totalDelegatedTokens := rp.totalDelegatedTokens + rd.tokens }).setProxyBinding
          rp.delegatorAddress rd.delegatorAddress false).updateShares weight time
            rp.delegatorAddress (rp.totalDelegatedTokens + rd.tokens + rp.tokens)) = .ok b') :
    Retallies b b' := by
  have hsoundp := h.sound p rp hrp
  have hpos : 0 < rd.tokens := by
    rw [htokens]
    exact (h.sound d r hrd).tokens
  obtain rfl : rp.delegatorAddress = p := KeyedStore.key_of_get hrp
  have hkeyd : rd.delegatorAddress = d := hkey.trans (KeyedStore.key_of_get hrd)
  have hset := h.retally_set rd hrd hkey haddrs hshares htokens hdelegated hproxy
  have h₁ := h.retally hset
  have hrp₁ : (b.setDelegator rd).getDelegator rp.delegatorAddress = some rp :=
    (KeyedStore.get_put_ne (hkeyd ▸ hpd)).trans hrp
  have hsetp := h₁.retally_set ({ rp with
    totalDelegatedTokens := rp.totalDelegatedTokens + rd.tokens }) hrp₁ rfl rfl rfl rfl
    (add_nonneg hsoundp.delegated hpos.le) hsoundp.proxy
  have h₂ := h₁.retally hsetp
  have hbinding := h₂.retally_of_same (((b.setDelegator rd).setDelegator { rp with
    totalDelegatedTokens := rp.totalDelegatedTokens + rd.tokens }).setProxyBinding
      rp.delegatorAddress rd.delegatorAddress false) ⟨⟨rfl, rfl⟩, ⟨rfl, rfl⟩, rfl, rfl⟩
  have hpos' : 0 < rp.totalDelegatedTokens + rd.tokens + rp.tokens := by
    have := hsoundp.tokens
    have := hsoundp.delegated
    omega
  have hupdate := (h₂.retally hbinding).retally_updateShares hweight
    ((b.setDelegator rd).getDelegator_setDelegator { rp with
      totalDelegatedTokens := rp.totalDelegatedTokens + rd.tokens }) hpos' hok
  exact (((Relation.ReflTransGen.single hset).tail hsetp).tail hbinding).tail hupdate

/-- **`handleMsgBindProxy`** once the checks are passed. -/
theorem bindProxy_retallies (h : SharesOK b) (hweight : ∀ week, Dec.one ≤ weight week)
    {rp : Delegator} {p : Address} (hpd : p ≠ d) (hr : b.getDelegator d = some r)
    (hrp : b.getDelegator p = some rp)
    (hok : StakingState.bindProxy weight time b r rp = .ok b') : Retallies b b' := by
  have hsound := h.sound d r hr
  have hsoundp := h.sound p rp hrp
  have hkey : r.delegatorAddress = d := KeyedStore.key_of_get hr
  have hkeyp : rp.delegatorAddress = p := KeyedStore.key_of_get hrp
  have hproxy : (r.bindProxy rp.delegatorAddress).proxyAddress ≠ some r.delegatorAddress := by
    rw [hkey, hkeyp]
    exact fun he => hpd (Option.some.inj he)
  unfold StakingState.bindProxy at hok
  by_cases hsame : r.proxyAddress = some rp.delegatorAddress
  · rw [if_pos hsame, orThrow_eq_ok, toOption_eq_some, hkeyp] at hok
    exact .single (h.retally_updateShares hweight hrp
      (add_pos_of_nonneg_of_pos hsoundp.delegated hsoundp.tokens) hok)
  · rw [if_neg hsame] at hok
    split_ifs at hok with hbound
    all_goals
      simp only [bind_eq_ok, orThrow_eq_ok, toOption_eq_some] at hok
      obtain ⟨b₁, hunbind, hok⟩ := hok
    · -- the delegator leaves another proxy first
      rw [hkey] at hunbind
      obtain ⟨r₁, q, hr₁, hq, hretallies, hunbound, hothers⟩ := h.unbindProxy_spec hweight hunbind
      cases hr.symm.trans hr₁
      have hpq : p ≠ q := by
        rintro rfl
        exact hsame (hkeyp ▸ hq)
      have hrp₁ : b₁.getDelegator p = some rp := by rw [hothers p hpd hpq, hrp]
      exact hretallies.trans ((h.retallies hretallies).bind_retallies hweight
        (r.bindProxy rp.delegatorAddress) hpd hrp₁ hunbound
        rfl rfl rfl rfl hsound.delegated hproxy hok)
    · cases hunbind
      exact h.bind_retallies hweight (r.bindProxy rp.delegatorAddress) hpd hrp hr rfl rfl rfl rfl
        hsound.delegated hproxy hok

theorem regProxy_retallies (h : SharesOK b) (hweight : ∀ week, Dec.one ≤ weight week)
    (hok : StakingState.regProxy weight time b d = .ok b') : Retallies b b' := by
  unfold StakingState.regProxy at hok
  simp only [bind_eq_ok, orThrow_eq_ok, require_eq_ok, exists_const, toOption_eq_some] at hok
  obtain ⟨r, hr, -, -, hok⟩ := hok
  have hsound := h.sound d r hr
  have hset := h.retally_set (r.regProxy true) hr rfl rfl rfl rfl hsound.delegated fun hself =>
    (by cases hself)
  exact (Relation.ReflTransGen.single hset).tail ((h.retally hset).retally_updateShares hweight
    (StakingBooks.getDelegator_setDelegator _ _) hsound.tokens hok)

/-! ### Unregistering -/

/-- A delegator is released, and its binding deleted. -/
theorem clearBinding_spec (h : SharesOK b) (p e : Address) :
    Retallies b (StakingBooks.clearBinding p b e) ∧ ∀ d r, b.getDelegator d = some r →
      (StakingBooks.clearBinding p b e).getDelegator d = some r ∨
        (StakingBooks.clearBinding p b e).getDelegator d = some r.unbindProxy := by
  unfold StakingBooks.clearBinding
  cases hr : b.getDelegator e with
  | none => exact ⟨.single (h.retally_of_same _ ⟨⟨rfl, rfl⟩, ⟨rfl, rfl⟩, rfl, rfl⟩), fun d r hd => .inl hd⟩
  | some r =>
    have hkey : r.delegatorAddress = e := KeyedStore.key_of_get hr
    have hset := h.retally_set r.unbindProxy hr rfl rfl rfl rfl (h.sound e r hr).delegated
      nofun
    refine ⟨(Relation.ReflTransGen.single hset).tail ((h.retally hset).retally_of_same _
      ⟨⟨rfl, rfl⟩, ⟨rfl, rfl⟩, rfl, rfl⟩), fun d r' hd => ?_⟩
    by_cases hde : d = e
    · rw [hde] at hd ⊢
      cases hr.symm.trans hd
      rw [← hkey]
      exact .inr KeyedStore.get_put_self
    · exact .inl ((KeyedStore.get_put_ne (hkey ▸ hde)).trans hd)

theorem clearProxy_spec (h : SharesOK b) (p : Address) :
    Retallies b (b.clearProxy p) ∧ ∀ d r, b.getDelegator d = some r →
      (b.clearProxy p).getDelegator d = some r ∨
        (b.clearProxy p).getDelegator d = some r.unbindProxy := by
  unfold StakingBooks.clearProxy
  generalize b.boundDelegators p = bound
  induction bound generalizing b with
  | nil => exact ⟨.refl, fun d r hd => .inl hd⟩
  | cons e bound ih =>
    obtain ⟨hstep, hget⟩ := h.clearBinding_spec p e
    obtain ⟨hrest, hgets⟩ := ih (h.retallies hstep)
    refine ⟨hstep.trans hrest, fun d r hd => ?_⟩
    rcases hget d r hd with hd | hd
    · exact hgets d r hd
    · exact .inr ((hgets d _ hd).elim id id)

theorem unregProxy_retallies (h : SharesOK b) (hweight : ∀ week, Dec.one ≤ weight week)
    (hok : StakingState.unregProxy weight time b d = .ok b') : Retallies b b' := by
  unfold StakingState.unregProxy at hok
  simp only [bind_eq_ok, orThrow_eq_ok, require_eq_ok, exists_const, toOption_eq_some] at hok
  obtain ⟨r, hr, -, hok⟩ := hok
  have hsound := h.sound d r hr
  obtain ⟨hclear, hget⟩ := h.clearProxy_spec r.delegatorAddress
  have h₁ := h.retallies hclear
  have hset : Retally (b.clearProxy r.delegatorAddress) ((b.clearProxy
      r.delegatorAddress).setDelegator { r.regProxy false with totalDelegatedTokens := 0 }) := by
    rcases hget d r hr with hr₁ | hr₁
    · exact h₁.retally_set _ hr₁ rfl rfl rfl rfl le_rfl hsound.proxy
    · exact h₁.retally_set _ hr₁ rfl rfl rfl rfl le_rfl hsound.proxy
  exact (hclear.tail hset).tail ((h₁.retally hset).retally_updateShares hweight
    (StakingBooks.getDelegator_setDelegator _ _) hsound.tokens hok)

/-! ### Adding shares -/

/-- **`GetValidatorsToAddShares`** finds every address. -/
theorem getValidatorsToAddShares_eq_ok {valAddrs : List Address} {vals : List Validator}
    (hok : b.getValidatorsToAddShares valAddrs = .ok vals) :
    vals.map Validator.operatorAddress = valAddrs ∧
      ∀ v ∈ vals, b.getValidator v.operatorAddress = some v := by
  unfold StakingBooks.getValidatorsToAddShares at hok
  induction valAddrs generalizing vals with
  | nil =>
    cases hok
    exact ⟨rfl, fun v hv => absurd hv List.not_mem_nil⟩
  | cons addr valAddrs ih =>
    rw [List.mapM_cons] at hok
    simp only [bind_eq_ok, orThrow_eq_ok, pure_eq_ok] at hok
    obtain ⟨v, hv, vals, hvals, rfl⟩ := hok
    obtain ⟨haddrs, hget⟩ := ih hvals
    have hkey : v.operatorAddress = addr := KeyedStore.key_of_get hv
    refine ⟨by rw [List.map_cons, haddrs, hkey], fun w hw => ?_⟩
    rcases List.mem_cons.mp hw with rfl | hw
    · rw [hkey, hv]
    · exact hget w hw

theorem handleMsgAddShares_retallies {s s' : StakingState B} {msg : MsgAddShares}
    (h : SharesOK s.books) (hweight : ∀ week, Dec.one ≤ weight week)
    (hbasic : msg.validateBasic = none)
    (hok : s.handleMsgAddShares weight time msg = .ok s') :
    ∃ b', s' = { s with books := b' } ∧ Retallies s.books b' := by
  have hnodup : msg.valAddrs.Nodup := by
    unfold MsgAddShares.validateBasic at hbasic
    split_ifs at hbasic with _ _ hnd
    exact hnd
  unfold StakingState.handleMsgAddShares at hok
  simp only [bind_eq_ok, orThrow_eq_ok, require_eq_ok, exists_const, pure_eq_ok] at hok
  obtain ⟨-, -, r, hr, -, -, b₁, hwithdraw, vals, hvals, _, -, rfl⟩ := hok
  rw [getLastVals hr] at hwithdraw
  have hsound := h.sound _ r hr
  have hturns := h.withdrawLastShares_turns hr hwithdraw
  obtain ⟨haddrs, hget⟩ := getValidatorsToAddShares_eq_ok hvals
  obtain ⟨hrev, hsame⟩ := h.addShares_revised hr hturns (haddrs ▸ hnodup) hget
    (calculateWeight weight time (r.tokens + r.totalDelegatedTokens))
  refine ⟨_, rfl, .single ⟨msg.delAddr, _, _, hrev.revision ?_ fun a ha => ?_, rfl, hsame⟩⟩
  · refine ⟨haddrs ▸ hnodup, hsound.tokens, hsound.delegated, hsound.proxy, fun _ => ?_⟩
    exact calculateWeight_pos hweight (add_pos_of_pos_of_nonneg hsound.tokens hsound.delegated)
  · obtain ⟨v, hv, rfl⟩ := List.mem_map.mp ha
    refine (hturns.validators v.operatorAddress).isSome ?_
    rw [hget v hv]
    rfl

end SharesOK

/-! ## Tokens -/

theorem Delegator.Sound.finalTokens_pos {r : Delegator} (h : r.Sound) :
    0 < StakingState.finalTokens r := by
  have := h.tokens
  have := h.delegated
  unfold StakingState.finalTokens
  split_ifs <;> omega

/-- A revision that leaves other records behind, as long as the votes are the same. -/
theorem Revision.congr {d : Address} {o o' : Option Delegator} {b b' b'' : StakingBooks}
    (h : Revision d o o' b b') (hvotes : SameVotes b' b'')
    (hvalidators : b''.validators = b'.validators)
    (hindex : b''.validatorsByConsAddr = b'.validatorsByConsAddr) : Revision d o o' b b'' := by
  have hget : ∀ e, b''.getDelegator e = b'.getDelegator e := fun e => by
    unfold StakingBooks.getDelegator
    rw [hvotes.delegators]
  refine ⟨⟨h.before, (hget d).trans h.after, fun e he => (hget e).trans (h.others e he),
    fun e a => ?_, fun a => ?_, fun hi => (h.index hi).congr hvalidators hindex⟩, h.sound, h.exist⟩
  · rw [← h.shares e a]
    unfold StakingBooks.getShares
    rw [hvotes.shares]
  · have hfollows := h.validators a
    unfold StakingBooks.getValidator at hfollows ⊢
    rwa [hvalidators]

/-- The record a deposit writes. -/
def StakingBooks.depositor (b : StakingBooks) (d : Address) (quantity : Int) : Delegator :=
  let r := (b.getDelegator d).getD (.new d)
  { r with tokens := r.tokens + quantity }

theorem SharesOK.deposit_revision {b : StakingBooks} (h : SharesOK b) (d : Address) {quantity : Int}
    (hpos : 0 < quantity) :
    Revision d (b.getDelegator d) (some (b.depositor d quantity)) b
        (b.setDelegator (b.depositor d quantity)) ∧
      (b.depositor d quantity).tokens = tokensOf (b.getDelegator d) + quantity := by
  unfold StakingBooks.depositor
  cases hr : b.getDelegator d with
  | none =>
    have hrev : Revised d (b.getDelegator d) (some { Delegator.new d with tokens := 0 + quantity })
        b (b.setDelegator { Delegator.new d with tokens := 0 + quantity }) :=
      h.setDelegator_revised rfl fun a => by
        rw [hr]
        rfl
    rw [hr] at hrev
    refine ⟨hrev.revision ⟨List.nodup_nil, ?_, le_rfl, nofun, fun hne => absurd rfl hne⟩
      fun a ha => absurd ha List.not_mem_nil, rfl⟩
    show 0 < 0 + quantity
    rwa [zero_add]
  | some r =>
    have hsound := h.sound d r hr
    exact ⟨h.setDelegator_revision _ hr rfl rfl rfl (add_pos hsound.tokens hpos) hsound.delegated
      hsound.proxy, rfl⟩

section Pools

variable {sk : PoolKeeper B} {destroyOK : StakingBooks → Address → Prop} {s s' : StakingState B}

/-- What a handler does to the state: a trace of effects, which leave the parameters. -/
structure StakingTrace (sk : PoolKeeper B) (destroyOK : StakingBooks → Address → Prop) (time : Int)
    (s : StakingState B) (evs : List StakingEvent) (s' : StakingState B) : Prop where
  params : s'.params = s.params
  trace : Trace (StakingEffect sk.IsUser destroyOK s.params time) (s.ledger sk) evs (s'.ledger sk)

theorem Retallies.stakingTrace {b : StakingBooks} (h : Retallies s.books b) :
    StakingTrace sk destroyOK time s [] { s with books := b } :=
  ⟨rfl, h.trace _ _⟩

theorem handleMsgDeposit_trace (h : SharesOK s.books) (hweight : ∀ week, Dec.one ≤ weight week)
    {msg : Staking.MsgDeposit} (huser : sk.IsUser msg.delegatorAddress)
    (hok : s.handleMsgDeposit sk weight time msg = .ok s') : StakingTrace sk destroyOK time s [] s' := by
  unfold StakingState.handleMsgDeposit StakingState.delegate at hok
  simp only [bind_eq_ok, orThrow_eq_ok, require_eq_ok, exists_const] at hok
  obtain ⟨hdenom, hmin, bank, hbank, hok⟩ := hok
  have hpos : 0 < msg.amount.amount := lt_of_lt_of_le s.params.minDelegation_pos hmin
  have hpool := SupplyKeeper.Moved.to_module (.of_send hbank) huser
  obtain ⟨hrev, htokens⟩ := h.deposit_revision msg.delegatorAddress hpos
  have h₁ := h.revision hrev
  obtain ⟨b₂, hretally, rfl⟩ : ∃ b₂, Retally (s.books.setDelegator
      (s.books.depositor msg.delegatorAddress msg.amount.amount)) b₂ ∧
      { s with books := b₂, bank := bank } = s' := by
    split_ifs at hok with hproxy
    all_goals
      simp only [bind_eq_ok, pure_eq_ok] at hok
      obtain ⟨b₂, hok, rfl⟩ := hok
      refine ⟨b₂, ?_, rfl⟩
    · obtain ⟨p, hp⟩ := Option.isSome_iff_exists.mp hproxy
      obtain ⟨rp, rp', hrevp, htokensp, hsame⟩ := h₁.updateProxy_revision hweight hp hok
      exact ⟨p, _, _, hrevp, htokensp, hsame⟩
    · exact h₁.retally_updateShares hweight (StakingBooks.getDelegator_setDelegator _ _)
        (hrev.sound _ rfl).finalTokens_pos hok
  have hdeposit : StakingEffect sk.IsUser destroyOK s.params time (s.ledger sk) []
      ⟨s.books.setDelegator (s.books.depositor msg.delegatorAddress msg.amount.amount),
        sk.moduleCoins bank bondedPoolName, sk.moduleCoins bank notBondedPoolName⟩ := by
    refine .deposit _ _ _ msg.amount.amount hrev hpos htokens ⟨rfl, rfl⟩ ?_ ?_
    · rw [← hdenom]
      exact hpool bondedPoolName
    · refine (hpool notBondedPoolName).trans ?_
      rw [if_neg (by decide), add_zero]
      rfl
  exact ⟨rfl, (Trace.single hdeposit).trans (Retallies.trace (.single hretally) _ _)⟩

/-! ### Withdrawing -/

/-- The undelegation is written beside the votes. -/
theorem StakingBooks.addUndelegation_votes (b : StakingBooks) (d : Address) (quantity t : Int) :
    SameVotes b (b.addUndelegation d quantity t) ∧
      (b.addUndelegation d quantity t).validators = b.validators ∧
      (b.addUndelegation d quantity t).validatorsByConsAddr = b.validatorsByConsAddr := by
  unfold StakingBooks.addUndelegation
  cases b.getUndelegating d with
  | none => exact ⟨⟨rfl, rfl⟩, rfl, rfl⟩
  | some info => exact ⟨⟨rfl, rfl⟩, rfl, rfl⟩

theorem SameUndelegations.addUndelegation {b b' : StakingBooks} (h : SameUndelegations b b')
    (d : Address) (quantity t : Int) :
    SameUndelegations (b.addUndelegation d quantity t) (b'.addUndelegation d quantity t) := by
  have hget : b'.getUndelegating d = b.getUndelegating d := by
    unfold StakingBooks.getUndelegating
    rw [h.infos]
  unfold StakingBooks.addUndelegation
  rw [hget]
  cases b.getUndelegating d with
  | none =>
    refine ⟨?_, ?_⟩
    · show b'.undelegationInfos.put _ = _
      rw [h.infos]
      rfl
    · show b'.undelegateQueue.set _ _ = _
      rw [h.queue]
      rfl
  | some info =>
    refine ⟨?_, ?_⟩
    · show b'.undelegationInfos.put _ = _
      rw [h.infos]
      rfl
    · show (b'.undelegateQueue.delete _).set _ _ = _
      rw [h.queue]
      rfl

/-- **What `Withdraw` does to the delegator**: its record is deleted, or left with fewer tokens. -/
theorem SharesOK.withdrawTokens_revision {b b' : StakingBooks} {d : Address} {r : Delegator}
    (h : SharesOK b) (hweight : ∀ week, Dec.one ≤ weight week) (hr : b.getDelegator d = some r)
    {left : Int} (hleft : 0 ≤ left)
    (hok : StakingState.withdrawTokens weight time b r left = .ok b') :
    ∃ o, Revision d (some r) o b b' ∧ tokensOf o = left ∧ SameUndelegations b b' := by
  have hsound := h.sound d r hr
  obtain rfl : r.delegatorAddress = d := KeyedStore.key_of_get hr
  unfold StakingState.withdrawTokens at hok
  dsimp only at hok
  split_ifs at hok with hzero
  · rw [getLastVals hr] at hok
    simp only [bind_eq_ok, pure_eq_ok] at hok
    obtain ⟨b₁, hwithdraw, rfl⟩ := hok
    have hturns := h.withdrawLastShares_turns hr hwithdraw
    have hsame := hturns.undelegations
    refine ⟨none, ?_, hzero.symm, ?_⟩
    · refine Revised.revision_none (h.deleted_revised hr hturns ?_ ?_ ?_ ?_)
      all_goals
        cases r.proxyAddress with
        | none => rfl
        | some p => rfl
    · cases r.proxyAddress with
      | none => exact ⟨hsame.infos, hsame.queue⟩
      | some p => exact ⟨hsame.infos, hsame.queue⟩
  · cases hok
    exact ⟨_, h.setDelegator_revision _ hr rfl rfl rfl (lt_of_le_of_ne hleft (Ne.symm hzero))
      hsound.delegated hsound.proxy, rfl, rfl, rfl⟩
  · have hset := h.setDelegator_revision { r with tokens := left } hr rfl rfl rfl
      (lt_of_le_of_ne hleft (Ne.symm hzero)) hsound.delegated hsound.proxy
    obtain ⟨shares, hupdate, hsame⟩ := (h.revision hset).updateShares_revision hweight hset.after
      (hset.sound _ rfl).finalTokens_pos hok
    exact ⟨_, hset.trans hupdate, rfl, hsame.infos, hsame.queue⟩

/-- A transfer between the two pools, which never sends more than there is. -/
theorem bondedTokensToNotBonded_spec {bank : B} {token : DecCoin}
    (hok : StakingState.bondedTokensToNotBonded sk s.bank token = .ok bank) :
    sk.moduleCoins bank bondedPoolName = sk.moduleCoins s.bank bondedPoolName - token.toCoins ∧
      sk.moduleCoins bank notBondedPoolName =
        sk.moduleCoins s.bank notBondedPoolName + token.toCoins ∧
      token.amount ≤ sk.moduleCoins s.bank bondedPoolName token.denom := by
  have hsend := orThrow_eq_ok.mp hok
  have hne : sk.moduleAddress bondedPoolName ≠ sk.moduleAddress notBondedPoolName :=
    SupplyKeeper.moduleAddress_ne (by decide)
  refine ⟨SupplyKeeper.getCoins_source hsend hne, SupplyKeeper.getCoins_target hsend hne, ?_⟩
  have hcovered := (sk.sendCoins_covered hsend token.denom).2
  rwa [DecCoin.toCoins, coin_apply, if_pos rfl] at hcovered

theorem handleMsgWithdraw_trace (h : SharesOK s.books) (hweight : ∀ week, Dec.one ≤ weight week)
    {msg : Staking.MsgDeposit} (huser : sk.IsUser msg.delegatorAddress) {completion : Int}
    (hok : s.handleMsgWithdraw sk weight time msg = .ok (s', completion)) :
    StakingTrace sk destroyOK time s [.unbonded msg.delegatorAddress msg.amount.amount time] s' := by
  unfold StakingState.handleMsgWithdraw StakingState.withdraw at hok
  simp only [bind_eq_ok, orThrow_eq_ok, require_eq_ok, exists_const, pure_eq_ok] at hok
  obtain ⟨hdenom, r, hr, hmin, hle, -, bank, hbank, b₁, hproxy, b₂, htokens, heq⟩ := hok
  obtain ⟨rfl, -⟩ := Prod.mk.inj heq
  obtain ⟨hbonded, hnotBonded, -⟩ := bondedTokensToNotBonded_spec hbank
  have hpos : 0 < msg.amount.amount := lt_of_lt_of_le s.params.minDelegation_pos hmin
  -- the proxy comes first
  obtain ⟨hretallies, hr₁⟩ : Retallies s.books b₁ ∧ b₁.getDelegator msg.delegatorAddress = some r := by
    cases hp : r.proxyAddress with
    | none =>
      unfold StakingBooks.updateProxy at hproxy
      rw [hp] at hproxy
      cases hproxy
      exact ⟨.refl, hr⟩
    | some p =>
      obtain ⟨rp, rp', hrev, htokensp, hsame⟩ := h.updateProxy_revision hweight hp hproxy
      have hne : msg.delegatorAddress ≠ p := by
        rintro rfl
        refine (h.sound _ r hr).proxy ?_
        rw [hp, KeyedStore.key_of_get hr]
      exact ⟨.single ⟨p, _, _, hrev, htokensp, hsame⟩, (hrev.others _ hne).trans hr⟩
  obtain ⟨o, hrev, hleft, hsame⟩ := (h.retallies hretallies).withdrawTokens_revision hweight hr₁
    (sub_nonneg.mpr hle) htokens
  obtain ⟨hvotes, hvalidators, hindex⟩ := b₂.addUndelegation_votes msg.delegatorAddress
    msg.amount.amount (time + s.params.unbondingTime)
  have hwithdraw : StakingEffect sk.IsUser destroyOK s.params time
      ⟨b₁, sk.moduleCoins s.bank bondedPoolName, sk.moduleCoins s.bank notBondedPoolName⟩
      [.unbonded msg.delegatorAddress msg.amount.amount time]
      ⟨b₂.addUndelegation msg.delegatorAddress msg.amount.amount (time + s.params.unbondingTime),
        sk.moduleCoins bank bondedPoolName, sk.moduleCoins bank notBondedPoolName⟩ := by
    refine .withdraw _ (some r) o _ huser (hrev.congr hvotes hvalidators hindex) hpos hleft
      (hsame.addUndelegation _ _ _) ?_ ?_
    · rw [← hdenom]
      exact hbonded
    · rw [← hdenom]
      exact hnotBonded
  exact ⟨rfl, (hretallies.trace _ _).trans (.single hwithdraw)⟩

/-! ## Validators -/

/-- A new validator is indexed, as no validator has its consensus address. -/
theorem IndexOK.create {b b' : StakingBooks} (h : IndexOK b) {v : Validator}
    (hvalidators : ∀ q, b'.getValidator q =
      if q = v.operatorAddress then some v else b.getValidator q)
    (hindex : b'.validatorsByConsAddr =
      b.validatorsByConsAddr.set v.consAddress v.operatorAddress)
    (hcons : b.getValidatorByConsAddr v.consAddress = none) : IndexOK b' := by
  intro a w hw
  rw [hvalidators] at hw
  rw [hindex]
  split_ifs at hw with ha
  · cases hw
    rw [ha]
    exact KVStore.get_set_self
  · have hfound := h a w hw
    refine (KVStore.get_set_ne fun he => ?_).trans hfound
    have hget : b.getValidatorByConsAddr w.consAddress = some w := by
      unfold StakingBooks.getValidatorByConsAddr
      rw [hfound]
      exact hw
    rw [he, hcons] at hget
    cases hget

theorem handleMsgCreateValidator_trace {msg : MsgCreateValidator}
    (huser : sk.IsUser msg.delegatorAddress) (hok : s.handleMsgCreateValidator sk msg = .ok s') :
    StakingTrace sk destroyOK time s [] s' := by
  unfold StakingState.handleMsgCreateValidator StakingState.addSharesAsMinSelfDelegation at hok
  simp only [bind_eq_ok, orThrow_eq_ok, require_eq_ok, exists_const, pure_eq_ok,
    Option.isNone_iff_eq_none] at hok
  obtain ⟨hnew, hcons, -, _, -, _, ⟨bank, hbank, rfl⟩, rfl⟩ := hok
  have hpool := SupplyKeeper.Moved.to_module (.of_send hbank) huser
  -- the validator is written twice, the second time with its share
  have hput : ∀ {b : StakingBooks} {v v' : Validator} (q : Address),
      b.validators = s.books.validators.put v → v.operatorAddress = v'.operatorAddress →
        ((b.setValidator v').setValidatorByPowerIndex v').getValidator q =
          if q = v'.operatorAddress then some v' else s.books.getValidator q := by
    intro b v v' q hb hkey
    unfold StakingBooks.getValidator
    rw [StakingBooks.validators_setValidatorByPowerIndex]
    refine KeyedStore.get_put.trans ?_
    by_cases hq : q = v'.operatorAddress
    · rw [if_pos hq, if_pos hq]
    · rw [if_neg hq, if_neg hq, hb]
      exact KeyedStore.get_put_ne (hkey ▸ hq)
  refine ⟨rfl, .single (.create msg.validatorAddress { Validator.new msg.validatorAddress msg.pubKey
    msg.description s.params.minSelfDelegation with delegatorShares := 0 + Dec.one } hnew
    (fun q => hput q rfl rfl) (zero_add _) s.params.minSelfDelegation_pos ⟨?_, ?_⟩
    (fun hi => hi.create (fun q => hput q rfl rfl) ?_ hcons) ?_ (hpool bondedPoolName) ?_)⟩
  · exact StakingBooks.delegators_setValidatorByPowerIndex _ _
  · exact StakingBooks.shares_setValidatorByPowerIndex _ _
  · exact StakingBooks.validatorsByConsAddr_setValidatorByPowerIndex _ _
  · have hsame := StakingBooks.undelegations_setValidatorByPowerIndex
    exact ⟨(hsame _ _).infos, (hsame _ _).queue⟩
  · refine (hpool notBondedPoolName).trans ?_
    rw [if_neg (by decide), add_zero]
    rfl

/-! ### Destroying a validator -/

theorem StakingBooks.appendAbandoned_same {b b' : StakingBooks} {consAddr : Address}
    (hok : b.appendAbandonedValidatorAddrs consAddr = .ok b') : SameStake b b' := by
  unfold StakingBooks.appendAbandonedValidatorAddrs at hok
  simp only [bind_eq_ok, pure_eq_ok] at hok
  obtain ⟨v, -, rfl⟩ := hok
  exact ⟨⟨rfl, rfl⟩, ⟨rfl, rfl⟩, rfl, rfl⟩

theorem StakingBooks.callHook_same (b : StakingBooks) (hook : StakingHook) :
    SameStake b (b.callHook hook) :=
  ⟨⟨rfl, rfl⟩, ⟨rfl, rfl⟩, rfl, rfl⟩

theorem SameStake.trans {b b' b'' : StakingBooks} (h : SameStake b b') (h' : SameStake b' b'') :
    SameStake b b'' :=
  ⟨⟨h'.delegators.trans h.delegators, h'.shares.trans h.shares⟩,
    h.toSameUndelegations.trans h'.toSameUndelegations, h'.validators.trans h.validators,
    h'.index.trans h.index⟩

/-- A validator has given up its self delegation. -/
structure Dismissed (a : Address) (v : Validator) (b b' : StakingBooks) : Prop where
  elsewhere : ∀ q, q ≠ a → b'.getValidator q = b.getValidator q
  here : match b'.getValidator a with
    | none => v.delegatorShares = Dec.one
    | some v' => v'.minSelfDelegation = 0 ∧ v'.jailed = true ∧
      v'.delegatorShares = v.delegatorShares - Dec.one
  votes : SameVotes b b'
  index : IndexOK b → IndexOK b'
  undelegations : SameUndelegations b b'

section Dismissed

variable {b b₁ b' : StakingBooks} {a : Address} {v : Validator}

theorem SameStake.getValidator (h : SameStake b b₁) (q : Address) :
    b₁.getValidator q = b.getValidator q := by
  unfold StakingBooks.getValidator
  rw [h.validators]

/-- It had no votes. -/
theorem SameStake.dismissed_remove (h : SameStake b b₁)
    (hempty : v.delegatorShares - Dec.one = 0) (hok : b₁.removeValidator a = .ok b') :
    Dismissed a v b b' := by
  obtain ⟨hvalidators, hshares, hdelegators, hundelegations, hindex⟩ :=
    StakingBooks.removeValidator_spec hok
  refine ⟨fun q hq => ?_, ?_, ⟨hdelegators.trans h.delegators, hshares.trans h.shares⟩,
    fun hi => hindex (hi.congr h.validators h.index), h.toSameUndelegations.trans hundelegations⟩
  · rw [hvalidators, if_neg hq, h.getValidator]
  · rw [hvalidators, if_pos rfl]
    exact sub_eq_zero.mp hempty

/-- It is set back, jailed and without its own share. -/
theorem SameStake.dismissed_set (h : SameStake b b₁) (w v' : Validator)
    (hget : b.getValidator a = some v) (hkey : v'.operatorAddress = a)
    (hcons : v'.consPubKey = v.consPubKey) (hmsd : v'.minSelfDelegation = 0) (hjailed : v'.jailed = true)
    (hshares : v'.delegatorShares = v.delegatorShares - Dec.one) :
    Dismissed a v b ((b₁.deleteValidatorByPowerIndex w).setValidator v') := by
  have hv : v.operatorAddress = a := KeyedStore.key_of_get hget
  refine ⟨fun q hq => ?_, ?_, ⟨h.delegators, h.shares⟩, fun hi => ?_, ⟨h.infos, h.queue⟩⟩
  · exact (KeyedStore.get_put_ne (hkey ▸ hq)).trans (h.getValidator q)
  · have hget : ((b₁.deleteValidatorByPowerIndex w).setValidator v').getValidator a = some v' := by
      rw [← hkey]
      exact KeyedStore.get_put_self
    rw [hget]
    exact ⟨hmsd, hjailed, hshares⟩
  · refine hi.write (hv ▸ hget) ?_ h.index (hkey.trans hv.symm) hcons
    show b₁.validators.put v' = _
    rw [h.validators]

end Dismissed

theorem handleMsgDestroyValidator_trace {d : Address} (huser : sk.IsUser d)
    (hdestroy : destroyOK s.books d) {completion : Int}
    (hok : s.handleMsgDestroyValidator sk time d = .ok (s', completion)) :
    ∃ v, s.books.getValidator d = some v ∧
      StakingTrace sk destroyOK time s [.unbonded d v.minSelfDelegation time] s' := by
  unfold StakingState.handleMsgDestroyValidator StakingState.withdrawMinSelfDelegation at hok
  simp only [bind_eq_ok, orThrow_eq_ok, require_eq_ok, exists_const] at hok
  obtain ⟨v, hget, hmsd, hremain, bank, hbank, hok⟩ := hok
  obtain ⟨hbonded, hnotBonded, hcovered⟩ := bondedTokensToNotBonded_spec hbank
  have hkey : v.operatorAddress = d := KeyedStore.key_of_get hget
  obtain ⟨b₂, hdismissed, rfl⟩ : ∃ b₂, Dismissed d v ((s.books.setUndelegating
      ⟨d, v.minSelfDelegation, time + s.params.unbondingTime⟩).setAddrByTimeKey
        (time + s.params.unbondingTime) d) b₂ ∧ { s with books := b₂, bank := bank } = s' := by
    split_ifs at hok with _ hempty hempty
    all_goals
      simp only [bind_eq_ok, pure_eq_ok, Except.ok.injEq] at hok
      obtain ⟨b₁, hsame, b₂, hlast, heq⟩ := hok
      refine ⟨b₂, ?_, (Prod.mk.inj heq).1⟩
      rw [hkey] at hlast
    · exact SameStake.dismissed_remove ((StakingBooks.callHook_same _ _).trans
        (StakingBooks.appendAbandoned_same hsame)) hempty.2 hlast
    · cases hlast
      exact SameStake.dismissed_set ((StakingBooks.callHook_same _ _).trans
        (StakingBooks.appendAbandoned_same hsame)) _ _ hget rfl rfl rfl rfl rfl
    · cases hsame
      exact (StakingBooks.callHook_same _ _).dismissed_remove hempty.2 hlast
    · cases hsame
      cases hlast
      exact (StakingBooks.callHook_same _ _).dismissed_set _ _ hget rfl rfl rfl rfl rfl
  exact ⟨v, hget, rfl, .single (.destroy d v huser hdestroy hget hmsd hdismissed.elsewhere hdismissed.here
    ⟨hdismissed.votes.delegators, hdismissed.votes.shares⟩
    (fun hi => hdismissed.index (hi.congr rfl rfl)) hdismissed.undelegations hcovered hbonded
    hnotBonded)⟩

end Pools

end Okexchain
