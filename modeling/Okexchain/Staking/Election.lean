import Okexchain.Staking.Indexes

/-!
# The validator set at the end of a block

What `x/staking/keeper/val_state_change.go`, `val_state.go` and `UnbondAllMatureValidatorQueue` do
to validators whose indexes agree.

* A loop of `ApplyAndReturnValidatorSetUpdates` or `KickOutAndReturnValidatorSetUpdates` treats one
  validator after the other. `Rolling w₀ b₀ done us w b` is what such loops keep: from the set `w₀`
  and the books `b₀` they have come to `w` and `b`, have treated the validators `done`, and have
  collected the updates `us`.
* The loops panic only when a validator is to be kicked out that is not there, or not jailed; so
  never, if the agreement is `strict`.

**Results.** `updateValidatorSet_ends`: at the end of a block the indexes agree, Tendermint is told
of the new set by one update per key, and the total is the sum of the powers.
`unbondAllMatureValidatorQueue_ends`: validators whose time has come are unbonded, and removed if
nothing is left of them.
-/

namespace Okexchain

namespace StakingBooks

/-! ## The power index -/

section Fields

variable (b : StakingBooks) (v : Validator)

@[simp] theorem validatorQueue_setValidatorByPowerIndex :
    (b.setValidatorByPowerIndex v).validatorQueue = b.validatorQueue := by
  unfold setValidatorByPowerIndex
  split_ifs <;> rfl

@[simp] theorem lastValidatorPower_setValidatorByPowerIndex :
    (b.setValidatorByPowerIndex v).lastValidatorPower = b.lastValidatorPower := by
  unfold setValidatorByPowerIndex
  split_ifs <;> rfl

@[simp] theorem lastTotalPower_setValidatorByPowerIndex :
    (b.setValidatorByPowerIndex v).lastTotalPower = b.lastTotalPower := by
  unfold setValidatorByPowerIndex
  split_ifs <;> rfl

@[simp] theorem abandoned_setValidatorByPowerIndex :
    (b.setValidatorByPowerIndex v).abandonedValidatorAddrs = b.abandonedValidatorAddrs := by
  unfold setValidatorByPowerIndex
  split_ifs <;> rfl

@[simp] theorem hooks_setValidatorByPowerIndex :
    (b.setValidatorByPowerIndex v).hooks = b.hooks := by
  unfold setValidatorByPowerIndex
  split_ifs <;> rfl

end Fields

variable {b b₁ : StakingBooks} {v v' : Validator}

theorem rekeyed (h : b₁.validatorsByPowerIndex = b.validatorsByPowerIndex.delete v.powerIndexKey) :
    RekeyedAt v v' b.validatorsByPowerIndex
      (b₁.setValidatorByPowerIndex v').validatorsByPowerIndex := by
  intro key
  unfold setValidatorByPowerIndex setNewValidatorByPowerIndex
  by_cases hjailed : v'.jailed = true
  · rw [if_pos hjailed, if_neg fun hb => Bool.noConfusion (hjailed.symm.trans hb.1), h]
    exact KVStore.get_delete
  · have hfree : v'.jailed = false := Bool.not_eq_true _ ▸ hjailed
    rw [if_neg hjailed]
    refine KVStore.get_set.trans ?_
    by_cases hkey : key = v'.powerIndexKey
    · rw [if_pos hkey, if_pos ⟨hfree, hkey⟩]
    · rw [if_neg hkey, if_neg fun hb => hkey hb.2, h]
      exact KVStore.get_delete

/-! ## One validator -/

section Transitions

variable {banned : Address → Prop} {strict : Prop} {w : ValidatorSet} {p : Int}
  {height time : Int} {params : StakingParams}

theorem queuedAt_set {m : StakingBooks} {t t' : Int} {l : List Address} {queue : KVStore Int _}
    (h : m.validatorQueue = queue.set t' l) :
    m.queuedAt t = if t = t' then l else (queue.get t).getD [] := by
  unfold queuedAt
  rw [h, KVStore.get_set]
  split_ifs <;> rfl

/-- The slice of `DeleteValidatorQueue` is deleted when nothing is left of it. -/
theorem queuedAt_shrink {m : StakingBooks} {t t' : Int} {l : List Address} {queue : KVStore Int _}
    (h : m.validatorQueue = if l = [] then queue.delete t' else queue.set t' l) :
    m.queuedAt t = if t = t' then l else (queue.get t).getD [] := by
  unfold queuedAt
  rw [h]
  split_ifs with hl ht ht
  · rw [ht, KVStore.get_delete_self, hl]
    rfl
  · rw [KVStore.get_delete_ne ht]
  · rw [ht, KVStore.get_set_self]
    rfl
  · rw [KVStore.get_set_ne ht]

theorem bondValidator_transits (h : ValidatorsOK banned strict w b)
    (hget : b.getValidator v.operatorAddress = some v) (hp : p ≠ 0) :
    Transits v (v.updateStatus .bonded) (some p) w (w.join v.operatorAddress v.consAddress p) b
      { (b.bondValidator v).1 with
        lastValidatorPower := b.lastValidatorPower.set v.operatorAddress p } := by
  have hqueue : (b.bondValidator v).1.validatorQueue =
      if (b.queuedAt v.unbondingCompletionTime).filter (fun q => q ≠ v.operatorAddress) = [] then
        b.validatorQueue.delete v.unbondingCompletionTime
      else b.validatorQueue.set v.unbondingCompletionTime
        ((b.queuedAt v.unbondingCompletionTime).filter fun q => q ≠ v.operatorAddress) := by
    unfold bondValidator queuedAt
    dsimp only [callHook]
    rw [validatorQueue_setValidatorByPowerIndex]
    rfl
  have hqueued : ∀ t, (b.bondValidator v).1.queuedAt t = if t = v.unbondingCompletionTime then
      (b.queuedAt v.unbondingCompletionTime).filter (fun q => q ≠ v.operatorAddress)
        else b.queuedAt t := fun t => queuedAt_shrink hqueue
  refine ⟨⟨rfl, rfl, rfl, rfl, rfl⟩, ?_, ?_, rekeyed rfl, fun t q => ?_, fun t => ?_, fun t => ?_,
    .join hp, ?_, ?_, iff_of_true rfl rfl, ?_, [.validatorBonded v.consAddress], ?_, ?_, fun _ =>
      .inr (List.mem_singleton.mpr rfl)⟩
  · exact validators_setValidatorByPowerIndex _ _
  · exact validatorsByConsAddr_setValidatorByPowerIndex _ _
  · show q ∈ (b.bondValidator v).1.queuedAt t ↔ _
    rw [hqueued]
    by_cases hq : q = v.operatorAddress
    · rw [if_pos hq]
      refine iff_of_false ?_ nofun
      split_ifs with ht
      · simp [hq]
      · rw [h.queued, hq, has_of_get hget]
        exact fun hb => ht hb.2.symm
    · rw [if_neg hq]
      split_ifs with ht
      · rw [List.mem_filter, ht]
        exact and_iff_left (decide_eq_true hq)
      · rfl
  · show ((b.bondValidator v).1.queuedAt t).Nodup
    rw [hqueued]
    split_ifs
    · exact (h.once _).filter _
    · exact h.once t
  · show (b.bondValidator v).1.validatorQueue.get t ≠ some []
    rw [hqueue]
    split_ifs with hnil
    · rw [KVStore.get_delete]
      split_ifs
      · exact nofun
      · exact h.slices t
    · rw [KVStore.get_set]
      split_ifs
      · exact fun he => hnil (Option.some.inj he)
      · exact h.slices t
  · show b.lastValidatorPower.set _ _ = _
    rw [h.powers]
    rfl
  · exact lastTotalPower_setValidatorByPowerIndex _ _
  · exact abandoned_setValidatorByPowerIndex _ _
  · show (setValidatorByPowerIndex _ _).hooks ++ _ = _
    rw [hooks_setValidatorByPowerIndex]
    rfl
  · show Okexchain.registered ((setValidatorByPowerIndex _ _).hooks ++ _) = _
    rw [hooks_setValidatorByPowerIndex]
    exact List.foldl_append

/-- A validator is put into the queue, and loses its power. -/
theorem transits_leave (h : ValidatorsOK banned strict w b)
    (hget : b.getValidator v.operatorAddress = some v) (hstatus : v.status = .bonded)
    (hpasses : v.Passes v') (hunbonding : v'.status = .unbonding)
    (hvalidators : b₁.validators = b.validators.put v')
    (hcons : b₁.validatorsByConsAddr = b.validatorsByConsAddr)
    (hpower : RekeyedAt v v' b.validatorsByPowerIndex b₁.validatorsByPowerIndex)
    (hqueue : b₁.validatorQueue = b.validatorQueue.set v'.unbondingCompletionTime
      (b.queuedAt v'.unbondingCompletionTime ++ [v.operatorAddress]))
    (hpowers : b₁.lastValidatorPower = b.lastValidatorPower.delete v.operatorAddress)
    (htotal : b₁.lastTotalPower = b.lastTotalPower)
    (habandoned : b₁.abandonedValidatorAddrs = b.abandonedValidatorAddrs)
    (hhooks : b₁.hooks = b.hooks) :
    Transits v v' none w (w.leave v.operatorAddress v.consAddress) b b₁ := by
  have hnot : ∀ t, v.operatorAddress ∉ b.queuedAt t := fun t => by
    rw [h.queued, has_of_get hget, hstatus]
    exact fun hb => BondStatus.noConfusion hb.1
  have hqueued : ∀ t, b₁.queuedAt t = if t = v'.unbondingCompletionTime then
      b.queuedAt v'.unbondingCompletionTime ++ [v.operatorAddress] else b.queuedAt t :=
    fun t => queuedAt_set hqueue
  refine ⟨hpasses, hvalidators, hcons, hpower, fun t q => ?_, fun t => ?_, fun t => ?_, .leave, ?_,
    htotal, ?_, habandoned, [], ?_, ?_, fun _ => .inl ?_⟩
  · rw [hqueued]
    by_cases hq : q = v.operatorAddress
    · rw [if_pos hq, hq]
      split_ifs with ht
      · exact iff_of_true (List.mem_append_right _ (List.mem_singleton.mpr rfl))
          ⟨hunbonding, ht.symm⟩
      · exact iff_of_false (hnot t) fun hb => ht hb.2.symm
    · rw [if_neg hq]
      split_ifs with ht
      · rw [List.mem_append, List.mem_singleton, ht]
        exact or_iff_left hq
      · rfl
  · rw [hqueued]
    split_ifs
    · refine List.Nodup.append (h.once _) (List.nodup_singleton _) ?_
      rw [List.disjoint_singleton]
      exact hnot _
    · exact h.once t
  · rw [hqueue, KVStore.get_set]
    split_ifs
    · exact fun he => List.append_ne_nil_of_right_ne_nil _ (List.cons_ne_nil _ _)
        (Option.some.inj he)
    · exact h.slices t
  · rw [hpowers, h.powers]
    rfl
  · rw [hunbonding]
    exact iff_of_false nofun nofun
  · rw [hhooks, List.append_nil]
  · rw [hhooks]
  · rw [hstatus]
    decide

theorem beginUnbondingValidator_transits (h : ValidatorsOK banned strict w b)
    (hget : b.getValidator v.operatorAddress = some v) (hstatus : v.status = .bonded) :
    ∃ b' v', beginUnbondingValidator height time params b v = .ok (b', v') ∧
      v'.status = .unbonding ∧ v'.unbondingCompletionTime = time + params.unbondingTime ∧
      Transits v v' none w (w.leave v.operatorAddress v.consAddress) b
        { b' with lastValidatorPower := b'.lastValidatorPower.delete v.operatorAddress } := by
  unfold beginUnbondingValidator
  dsimp only
  rw [hstatus, require, if_pos rfl]
  refine ⟨_, _, rfl, rfl, rfl, transits_leave h hget hstatus ⟨rfl, rfl, rfl, rfl, rfl⟩ rfl
    (validators_setValidatorByPowerIndex _ _) (validatorsByConsAddr_setValidatorByPowerIndex _ _)
    (rekeyed rfl) ?_ ?_ (lastTotalPower_setValidatorByPowerIndex _ _)
    (abandoned_setValidatorByPowerIndex _ _) (hooks_setValidatorByPowerIndex _ _)⟩
  · dsimp only
    rw [validatorQueue_setValidatorByPowerIndex]
    rfl
  · dsimp only
    rw [lastValidatorPower_setValidatorByPowerIndex]
    rfl

theorem setLastValidatorPower_transits (h : ValidatorsOK banned strict w b)
    (hget : b.getValidator v.operatorAddress = some v) (hstatus : v.status = .bonded)
    (hp : p ≠ 0) :
    Transits v v (some p) w (w.join v.operatorAddress v.consAddress p) b
      { b with lastValidatorPower := b.lastValidatorPower.set v.operatorAddress p } := by
  have hpasses : v.Passes v := ⟨rfl, rfl, rfl, rfl, rfl⟩
  refine ⟨hpasses, ?_, rfl, h.rekeyedAt hget hpasses, fun t q => ?_, h.once, h.slices, .join hp, ?_,
    rfl, iff_of_true rfl hstatus, rfl, [], (List.append_nil _).symm, rfl, fun hne => .inl hne⟩
  · exact (KeyedStore.put_eq_self hget).symm
  · show q ∈ b.queuedAt t ↔ _
    split_ifs with hq
    · rw [h.queued, hq, has_of_get hget]
    · rfl
  · show b.lastValidatorPower.set _ _ = _
    rw [h.powers]
    rfl

end Transitions

end StakingBooks

/-! ## Loops -/

section Loops

variable {banned : Address → Prop} {strict : Prop} {w₀ w w' : ValidatorSet}
  {b₀ b b' : StakingBooks} {v v' : Validator} {p : Option Int} {done : List Address}
  {us : List ValidatorUpdate} {due : Int}

namespace Transits

theorem getValidator (ht : Transits v v' p w w' b b') (q : Address) : b'.getValidator q =
    if q = v.operatorAddress then some v' else b.getValidator q := by
  unfold StakingBooks.getValidator
  rw [ht.validators, KeyedStore.get_put, ht.passes.operator]

theorem has_cons (ht : Transits v v' p w w' b b')
    (hget : b.getValidator v.operatorAddress = some v) (q k : Address) :
    (b'.Has q fun u => u.consAddress = k) ↔ b.Has q fun u => u.consAddress = k := by
  refine StakingBooks.has_keep ht.getValidator hget ?_
  rw [Validator.consAddress, ht.passes.key]
  rfl

theorem index_eq (ht : Transits v v' p w w' b b')
    (hget : b.getValidator v.operatorAddress = some v) (h : ValidatorsOK banned strict w b)
    (h' : ValidatorsOK banned strict w' b') :
    b'.validatorsByPowerIndex = b.validatorsByPowerIndex := by
  refine KVStore.ext_get fun key => Option.ext fun q => ?_
  rw [h.power, h'.power]
  refine StakingBooks.has_keep ht.getValidator hget ?_
  rw [ht.passes.jailed, ht.passes.powerIndexKey]

end Transits

/-- A validator that is in the set, or has left it and is not due before a time. -/
def Validator.Stays (t : Int) (v : Validator) : Prop :=
  v.status = .bonded ∨ v.status = .unbonding ∧ t ≤ v.unbondingCompletionTime

theorem Validator.Stays.not_unbonded {t : Int} {v : Validator} (h : v.Stays t) :
    v.status ≠ .unbonded := by
  rcases h with hs | ⟨hs, -⟩
  · rw [hs]
    decide
  · rw [hs]
    decide

/-- What the loops at the end of a block keep. -/
structure Rolling (banned : Address → Prop) (strict : Prop) (due : Int) (w₀ : ValidatorSet)
    (b₀ : StakingBooks) (done : List Address) (us : List ValidatorUpdate) (w : ValidatorSet)
    (b : StakingBooks) : Prop where
  ok : ValidatorsOK banned strict w b
  nodup : done.Nodup
  others : ∀ q, q ∉ done → w.powers.get q = w₀.powers.get q
  told : w.tendermint = us.foldl applyUpdate w₀.tendermint
  total : w.total = w₀.total
  keys : (us.map ValidatorUpdate.pubKey).Nodup
  sources : ∀ u ∈ us, ∃ q ∈ done, b.Has q fun v => v.consAddress = u.pubKey
  silent : us = [] → w.powers = w₀.powers
  index : b.validatorsByPowerIndex = b₀.validatorsByPowerIndex
  abandoned : b.abandonedValidatorAddrs = b₀.abandonedValidatorAddrs
  staying : ∀ q k t, t ≤ due → b₀.Has q (fun v => v.consAddress = k ∧ v.Stays t) →
    b.Has q fun v => v.consAddress = k ∧ v.Stays t
  hooks : b₀.hooks <+: b.hooks

namespace Rolling

theorem start (h : ValidatorsOK banned strict w b) : Rolling banned strict due w b [] [] w b :=
  ⟨h, List.nodup_nil, fun _ _ => rfl, rfl, rfl, List.nodup_nil, nofun, fun _ => rfl, rfl, rfl,
    fun _ _ _ _ hq => hq, List.prefix_rfl⟩

theorem nodup_step (h : Rolling banned strict due w₀ b₀ done us w b) {a : Address}
    (hnew : a ∉ done) : (done ++ [a]).Nodup := by
  refine List.Nodup.append h.nodup (List.nodup_singleton _) ?_
  rw [List.disjoint_singleton]
  exact hnew

/-- A validator is treated, and stays as it is. -/
theorem keep (h : Rolling banned strict due w₀ b₀ done us w b) {a : Address} (hnew : a ∉ done) :
    Rolling banned strict due w₀ b₀ (done ++ [a]) us w b := by
  refine ⟨h.ok, h.nodup_step hnew, fun q hq => h.others q fun hb => hq ?_, h.told, h.total, h.keys,
    fun u hu => ?_, h.silent, h.index, h.abandoned, h.staying, h.hooks⟩
  · exact List.mem_append_left _ hb
  · obtain ⟨q, hq, hhas⟩ := h.sources u hu
    exact ⟨q, List.mem_append_left _ hq, hhas⟩

/-- **A validator is treated, and Tendermint is told.** -/
theorem step (h : Rolling banned strict due w₀ b₀ done us w b)
    (hget : b.getValidator v.operatorAddress = some v) (hnew : v.operatorAddress ∉ done)
    (ht : Transits v v' p w w' b b') {power : Int}
    (htold : w'.tendermint = applyUpdate w.tendermint ⟨v.consPubKey, power⟩)
    (hjailed : v.jailed = true → v'.status = .bonded → v.status = .bonded)
    (hstays : v'.Stays due) :
    Rolling banned strict due w₀ b₀ (done ++ [v.operatorAddress]) (us ++ [⟨v.consPubKey, power⟩]) w'
      b' := by
  have hok := h.ok.transit ht hget hjailed fun _ _ => hstays.not_unbonded
  refine ⟨hok, h.nodup_step hnew, fun q hq => ?_, ?_, ht.set.total.trans h.total, ?_, fun u hu => ?_,
    fun he => absurd he (List.append_ne_nil_of_right_ne_nil _ (List.cons_ne_nil _ _)),
    (ht.index_eq hget h.ok hok).trans h.index, ht.abandoned.trans h.abandoned, fun q k t hle hq => ?_, ?_⟩
  · rw [List.mem_append, List.mem_singleton, not_or] at hq
    rw [ht.set.powers, if_neg hq.2]
    exact h.others q hq.1
  · rw [List.foldl_append, ← h.told]
    exact htold
  · rw [List.map_append]
    refine List.Nodup.append h.keys (List.nodup_singleton _) ?_
    show (us.map ValidatorUpdate.pubKey).Disjoint [v.consPubKey]
    rw [List.disjoint_singleton]
    -- another validator would have the same key
    intro hmem
    obtain ⟨u, hu, hkey⟩ := List.mem_map.mp hmem
    obtain ⟨q, hq, hhas⟩ := h.sources u hu
    rw [hkey] at hhas
    have hself : b.Has v.operatorAddress fun u => u.consAddress = v.consPubKey :=
      (StakingBooks.has_of_get hget).mpr rfl
    exact hnew (h.ok.cons_inj hhas hself ▸ hq)
  · rcases List.mem_append.mp hu with hu | hu
    · obtain ⟨q, hq, hhas⟩ := h.sources u hu
      exact ⟨q, List.mem_append_left _ hq, (ht.has_cons hget q _).mpr hhas⟩
    · rw [List.mem_singleton.mp hu]
      refine ⟨v.operatorAddress, List.mem_append_right _ (List.mem_singleton.mpr rfl), ?_⟩
      exact (ht.has_cons hget _ _).mpr ((StakingBooks.has_of_get hget).mpr rfl)
  · have hold := h.staying q k t hle hq
    rw [StakingBooks.has_write ht.getValidator]
    split_ifs with hqv
    · rw [hqv, StakingBooks.has_of_get hget] at hold
      exact ⟨ht.passes.key.trans hold.1, hstays.imp id fun hs => ⟨hs.1, hle.trans hs.2⟩⟩
    · exact hold
  · obtain ⟨calls, hcalls, -⟩ := ht.hooks
    rw [hcalls]
    exact h.hooks.trans (List.prefix_append _ _)

theorem join (h : Rolling banned strict due w₀ b₀ done us w b)
    (hget : b.getValidator v.operatorAddress = some v) (hnew : v.operatorAddress ∉ done)
    (hfree : v.jailed = false) {power : Int} (hp : power ≠ 0) :
    Rolling banned strict due w₀ b₀ (done ++ [v.operatorAddress]) (us ++ [⟨v.consPubKey, power⟩])
      (w.join v.operatorAddress v.consAddress power)
      { (b.bondValidator v).1 with
        lastValidatorPower := b.lastValidatorPower.set v.operatorAddress power } :=
  h.step hget hnew (StakingBooks.bondValidator_transits h.ok hget hp) rfl
    (fun hj => Bool.noConfusion (hfree.symm.trans hj)) (.inl rfl)

theorem repower (h : Rolling banned strict due w₀ b₀ done us w b)
    (hget : b.getValidator v.operatorAddress = some v) (hnew : v.operatorAddress ∉ done)
    (hstatus : v.status = .bonded) {power : Int} (hp : power ≠ 0) :
    Rolling banned strict due w₀ b₀ (done ++ [v.operatorAddress]) (us ++ [⟨v.consPubKey, power⟩])
      (w.join v.operatorAddress v.consAddress power)
      { b with lastValidatorPower := b.lastValidatorPower.set v.operatorAddress power } :=
  h.step hget hnew (StakingBooks.setLastValidatorPower_transits h.ok hget hstatus hp) rfl
    (fun _ hb => hb) (.inl hstatus)

theorem leave (h : Rolling banned strict due w₀ b₀ done us w b)
    (hget : b.getValidator v.operatorAddress = some v) (hnew : v.operatorAddress ∉ done)
    (hstatus : v.status = .bonded) (height : Int) {time : Int} {params : StakingParams}
    (hdue : due = time + params.unbondingTime) :
    ∃ b' v', b.beginUnbondingValidator height time params v = .ok (b', v') ∧
      v'.operatorAddress = v.operatorAddress ∧ v'.consPubKey = v.consPubKey ∧
      Rolling banned strict due w₀ b₀ (done ++ [v.operatorAddress]) (us ++ [⟨v.consPubKey, 0⟩])
        (w.leave v.operatorAddress v.consAddress)
        { b' with lastValidatorPower := b'.lastValidatorPower.delete v.operatorAddress } := by
  obtain ⟨b', v', hok, hunbonding, htime, ht⟩ :=
    StakingBooks.beginUnbondingValidator_transits h.ok hget hstatus
  refine ⟨b', v', hok, ht.passes.operator, ht.passes.key, h.step hget hnew ht rfl ?_
    (.inr ⟨hunbonding, (hdue.trans htime.symm).le⟩)⟩
  rw [hunbonding]
  exact fun _ => nofun

end Rolling

end Loops

/-! ## The end of an epoch -/

section Elections

variable {banned : Address → Prop} {strict : Prop} {due : Int} {w₀ w w' : ValidatorSet}
  {b₀ b b' : StakingBooks} {v : Validator} {done : List Address} {us : List ValidatorUpdate}

/-- The power of a validator, or zero. -/
def ValidatorSet.powerAt (w : ValidatorSet) (a : Address) : Int := w.powers.valAt (fun _ p => p) a

/-- The sum of the powers. -/
def ValidatorSet.sum (w : ValidatorSet) : Int := w.powers.sumBy fun _ p => p

/-- The number of validators. -/
def ValidatorSet.size (w : ValidatorSet) : Nat := w.powers.entries.length

/-- The total is the sum of the powers. -/
def ValidatorSet.Counted (w : ValidatorSet) : Prop := w.total = w.sum

namespace StakingBooks

/-- A candidate of the power index. -/
def IsCandidate (b : StakingBooks) (a : Address) : Prop :=
  ∃ key, b.validatorsByPowerIndex.get key = some a

theorem mem_candidates {a : Address} : a ∈ b.candidates ↔ b.IsCandidate a := by
  unfold candidates IsCandidate
  simp only [List.mem_reverse, List.mem_map, Prod.exists, exists_eq_right, KVStore.mem_entries]

theorem nodup_candidates (h : ValidatorsOK banned strict w b) : b.candidates.Nodup := by
  unfold candidates
  rw [List.nodup_reverse]
  refine List.Nodup.map_on ?_ (List.Nodup.of_map _ b.validatorsByPowerIndex.nodup_keys)
  -- a validator has one key
  rintro ⟨key, a⟩ hmem ⟨key', a'⟩ hmem' (rfl : a = a')
  obtain ⟨v, hv, -, hkey⟩ := (h.power key a).mp (KVStore.mem_entries.mp hmem)
  obtain ⟨v', hv', -, hkey'⟩ := (h.power key' a).mp (KVStore.mem_entries.mp hmem')
  cases hv.symm.trans hv'
  rw [← hkey, hkey']

/-- A candidate is there and free, also while the loops go on. -/
theorem IsCandidate.get {a : Address} (ha : b₀.IsCandidate a)
    (h : Rolling banned strict due w₀ b₀ done us w b) :
    ∃ v, b.getValidator a = some v ∧ v.operatorAddress = a ∧ v.jailed = false := by
  obtain ⟨key, hkey⟩ := ha
  rw [← h.index] at hkey
  obtain ⟨v, hv, hfree, -⟩ := (h.ok.power key a).mp hkey
  exact ⟨v, hv, KeyedStore.key_of_get hv, hfree⟩

end StakingBooks

/-- What the loop of an election keeps. -/
structure Electing (banned : Address → Prop) (strict : Prop) (due : Int) (w₀ : ValidatorSet)
    (b₀ : StakingBooks) (done : List Address) (w : ValidatorSet)
    (e : StakingBooks.Election) : Prop where
  roll : Rolling banned strict due w₀ b₀ done e.updates w e.books
  last : ∀ q, e.last.get q = if q ∈ done then none else w₀.powers.get q
  sum : e.totalPower = (done.map w.powerAt).sum
  members : ∀ q ∈ done, (w.powers.get q).isSome
  candidates : ∀ q ∈ done, b₀.IsCandidate q

/-- One more validator is elected. -/
theorem Electing.elected {e : StakingBooks.Election}
    (h : Electing banned strict due w₀ b₀ done w e) {a : Address} {p : Int} (hnew : a ∉ done)
    (hcandidate : b₀.IsCandidate a)
    (hroll : Rolling banned strict due w₀ b₀ (done ++ [a]) us w' b')
    (hset : ∀ q, w'.powers.get q = if q = a then some p else w.powers.get q) :
    Electing banned strict due w₀ b₀ (done ++ [a]) w' {
      books := b', last := e.last.delete a, updates := us, totalPower := e.totalPower + p } := by
  have hpower : ∀ q, w'.powerAt q = if q = a then p else w.powerAt q := fun q => by
    unfold ValidatorSet.powerAt KVStore.valAt
    rw [hset]
    split_ifs <;> rfl
  refine ⟨hroll, fun q => ?_, ?_, fun q hq => ?_, fun q hq => ?_⟩
  · rw [KVStore.get_delete, h.last]
    by_cases hq : q = a
    · rw [if_pos hq, if_pos (List.mem_append_right _ (List.mem_singleton.mpr hq))]
    · rw [if_neg hq]
      refine if_congr ?_ rfl rfl
      rw [List.mem_append, List.mem_singleton]
      exact (or_iff_left hq).symm
  · rw [List.map_append, List.sum_append, List.map_singleton, List.sum_singleton, hpower,
      if_pos rfl, h.sum]
    refine congrArg (· + p) (congrArg List.sum (List.map_congr_left fun q hq => ?_))
    rw [hpower, if_neg fun he : q = a => hnew (he ▸ hq)]
  · rw [hset]
    split_ifs with hqa
    · rfl
    · rcases List.mem_append.mp hq with hq | hq
      · exact h.members q hq
      · exact absurd (List.mem_singleton.mp hq) hqa
  · rcases List.mem_append.mp hq with hq | hq
    · exact h.candidates q hq
    · rw [List.mem_singleton.mp hq]
      exact hcandidate

namespace StakingBooks

/-- **The loop of an election.** -/
theorem elect_ends {count : Nat} {l : List Address} {e : Election}
    (h : Electing banned strict due w₀ b₀ done w e) (hl : l.Nodup) (hnew : ∀ q ∈ l, q ∉ done)
    (hcandidates : ∀ q ∈ l, b₀.IsCandidate q) :
    Ends (elect count l e) (fun e' => ∃ done' w', Electing banned strict due w₀ b₀ done' w' e' ∧
      done'.length ≤ done.length + count) fun _ => False := by
  induction count generalizing l e done w with
  | zero =>
    unfold elect
    exact ⟨done, w, h, le_rfl⟩
  | succ count ih =>
    cases l with
    | nil =>
      unfold elect
      exact ⟨done, w, h, Nat.le_add_right _ _⟩
    | cons a rest =>
      obtain ⟨v, hv, rfl, hfree⟩ := (hcandidates a List.mem_cons_self).get h.roll
      have hout : v.operatorAddress ∉ done := hnew _ List.mem_cons_self
      have hrest : rest.Nodup := (List.nodup_cons.mp hl).2
      have hnew' : ∀ q ∈ rest, q ∉ done ++ [v.operatorAddress] := fun q hq hmem => by
        rcases List.mem_append.mp hmem with hmem | hmem
        · exact hnew q (List.mem_cons_of_mem _ hq) hmem
        · exact (List.nodup_cons.mp hl).1 (List.mem_singleton.mp hmem ▸ hq)
      -- the rest of the loop, once the validator is elected
      have hgo : ∀ {p : Int} {w' : ValidatorSet} {b' : StakingBooks} {us : List ValidatorUpdate},
          Rolling banned strict due w₀ b₀ (done ++ [v.operatorAddress]) us w' b' →
          (∀ q, w'.powers.get q = if q = v.operatorAddress then some p else w.powers.get q) →
          Ends (elect count rest ⟨b', e.last.delete v.operatorAddress, us, e.totalPower + p⟩)
            (fun e' => ∃ done' w', Electing banned strict due w₀ b₀ done' w' e' ∧
              done'.length ≤ done.length + (count + 1)) fun _ => False := by
        intro p w' b' us hroll hset
        have hstep := h.elected hout (hcandidates _ List.mem_cons_self) hroll hset
        refine (ih hstep hrest hnew' fun q hq =>
          hcandidates q (List.mem_cons_of_mem _ hq)).mono ?_ fun _ he => he
        rintro e' ⟨done', w'', he', hlen⟩
        rw [List.length_append, List.length_singleton] at hlen
        exact ⟨done', w'', he', by omega⟩
      have hlast : e.last.get v.operatorAddress = w.powers.get v.operatorAddress := by
        rw [h.last, if_neg hout, h.roll.others _ hout]
      unfold elect mustGetValidator
      rw [hv]
      refine Ends.bind (Ends.eq_ok rfl) fun u _ hu => ?_
      rw [hu, require, if_pos hfree]
      refine Ends.bind (Ends.eq_ok rfl) fun _ _ _ => ?_
      refine .ite (fun hzero => ?_) fun hpos => ?_
      · exact ⟨done, w, h, Nat.le_add_right _ _⟩
      by_cases hstatus : v.status = .bonded
      · have hpower : v.consensusPowerByShares = v.potentialConsensusPowerByShares := if_pos hstatus
        simp only [if_pos hstatus, hpower, hlast]
        by_cases hsame : w.powers.get v.operatorAddress = some v.potentialConsensusPowerByShares
        · simp only [if_pos hsame]
          refine hgo (h.roll.keep hout) fun q => ?_
          split_ifs with hq
          · rw [hq, hsame]
          · rfl
        · simp only [if_neg hsame]
          have hupdate : v.abciValidatorUpdateByShares =
              ⟨v.consPubKey, v.potentialConsensusPowerByShares⟩ := by
            unfold Validator.abciValidatorUpdateByShares
            rw [hpower]
          rw [hupdate]
          exact hgo (h.roll.repower hv hout hstatus hpos) fun q => KVStore.get_set
      · have hpower : (v.updateStatus .bonded).consensusPowerByShares =
            v.potentialConsensusPowerByShares := rfl
        have hnone : w.powers.get v.operatorAddress ≠ some v.potentialConsensusPowerByShares := by
          intro hsome
          have hbonded := (h.roll.ok.bonded v.operatorAddress).mp (by rw [hsome]; rfl)
          rw [has_of_get hv] at hbonded
          exact hstatus hbonded
        have hbond : (e.books.bondValidator v).2 = v.updateStatus .bonded := rfl
        simp only [if_neg hstatus, hbond, hpower, hlast, if_neg hnone]
        have hset : (e.books.bondValidator v).1.lastValidatorPower = e.books.lastValidatorPower :=
          lastValidatorPower_setValidatorByPowerIndex _ _
        rw [hset]
        exact hgo (h.roll.join hv hout hfree hpos) fun q => KVStore.get_set

/-- **The loop over the no-longer-bonded validators.** -/
theorem retire_ends {height time : Int} {params : StakingParams}
    (hdue : due = time + params.unbondingTime) {l : List Address}
    (h : Rolling banned strict due w₀ b₀ done us w b) (hl : l.Nodup) (hnew : ∀ q ∈ l, q ∉ done)
    (hbonded : ∀ q ∈ l, (w₀.powers.get q).isSome) :
    Ends (l.foldlM (retire height time params) (b, us)) (fun r => ∃ done' w',
      Rolling banned strict due w₀ b₀ done' r.2 w' r.1 ∧
        ∀ q, w'.powers.get q = if q ∈ l then none else w.powers.get q) fun _ => False := by
  induction l generalizing b us w done with
  | nil => exact ⟨done, w, h, fun q => (if_neg List.not_mem_nil).symm⟩
  | cons a rest ih =>
    have hout : a ∉ done := hnew a List.mem_cons_self
    have hpower : (w.powers.get a).isSome := by
      rw [h.others a hout]
      exact hbonded a List.mem_cons_self
    obtain ⟨v, hv, hstatus⟩ := (h.ok.bonded a).mp hpower
    obtain rfl : v.operatorAddress = a := KeyedStore.key_of_get hv
    obtain ⟨b', v', hbegin, hkey, hcons, hroll⟩ := h.leave hv hout hstatus height hdue
    have hstep : retire height time params (b, us) v.operatorAddress =
        .ok ({ b' with lastValidatorPower := b'.lastValidatorPower.delete v.operatorAddress },
          us ++ [⟨v.consPubKey, 0⟩]) := by
      unfold retire mustGetValidator
      dsimp only
      rw [hv]
      show (beginUnbondingValidator height time params b v >>= _) = _
      rw [hbegin]
      dsimp only [bind, Except.bind]
      rw [hkey, Validator.abciValidatorUpdateZero, hcons]
      rfl
    rw [List.foldlM_cons]
    refine Ends.bind (Ends.eq_ok hstep) fun r _ hr => ?_
    rw [hr]
    have hnew' : ∀ q ∈ rest, q ∉ done ++ [v.operatorAddress] := fun q hq hmem => by
      rcases List.mem_append.mp hmem with hmem | hmem
      · exact hnew q (List.mem_cons_of_mem _ hq) hmem
      · exact (List.nodup_cons.mp hl).1 (List.mem_singleton.mp hmem ▸ hq)
    refine (ih hroll (List.nodup_cons.mp hl).2 hnew' fun q hq =>
      hbonded q (List.mem_cons_of_mem _ hq)).mono ?_ fun _ he => he
    rintro r' ⟨done', w', hroll', hset⟩
    refine ⟨done', w', hroll', fun q => ?_⟩
    rw [hset, show (w.leave v.operatorAddress v.consAddress).powers.get q =
      if q = v.operatorAddress then none else w.powers.get q from KVStore.get_delete]
    by_cases hq : q = v.operatorAddress
    · rw [if_pos hq, ite_self, if_pos (hq ▸ List.mem_cons_self)]
    · rw [if_neg hq]
      refine if_congr ?_ rfl rfl
      rw [List.mem_cons]
      exact (or_iff_right hq).symm

end StakingBooks

/-- The total is written. -/
theorem ValidatorsOK.count (h : ValidatorsOK banned strict w b) (total : Int) :
    ValidatorsOK banned strict (w.count total) { b with lastTotalPower := some total } :=
  ⟨h.cons, h.power, h.queued, h.once, h.slices, h.powers, rfl, h.bonded, h.nonzero, h.tendermint,
    h.jailed, h.abandoned, h.banned, h.tokens, h.registered, h.known⟩

/-- What the end of a block does to the validator set. -/
structure Rolled (banned : Address → Prop) (strict : Prop) (due : Int) (w : ValidatorSet)
    (b : StakingBooks) (us : List ValidatorUpdate) (w' : ValidatorSet) (b' : StakingBooks) :
    Prop where
  ok : ValidatorsOK banned strict w' b'
  told : w'.tendermint = us.foldl applyUpdate w.tendermint
  keys : (us.map ValidatorUpdate.pubKey).Nodup
  counted : w.Counted → w'.Counted
  free : ∀ q, ¬ b'.Has q fun v => v.jailed = true ∧ v.status = .bonded
  staying : ∀ q k t, t ≤ due → b.Has q (fun v => v.consAddress = k ∧ v.Stays t) →
    b'.Has q fun v => v.consAddress = k ∧ v.Stays t
  hooks : b.hooks <+: b'.hooks

namespace StakingBooks

theorem applyAndReturnValidatorSetUpdates_ends {height time : Int} {params : StakingParams}
    (h : ValidatorsOK banned strict w b) :
    Ends (applyAndReturnValidatorSetUpdates height time params b) (fun r => ∃ w',
      Rolled banned strict (time + params.unbondingTime) w b r.2 w' r.1 ∧
        w'.size ≤ params.maxValidators ∧
        r.1.abandonedValidatorAddrs = b.abandonedValidatorAddrs) fun _ => False := by
  have hstart : Electing banned strict (time + params.unbondingTime) w b [] w
      ⟨b, b.lastValidatorPower, [], 0⟩ :=
    ⟨.start h, fun q => by rw [if_neg List.not_mem_nil, h.powers], rfl, nofun, nofun⟩
  unfold applyAndReturnValidatorSetUpdates
  refine Ends.bind (elect_ends hstart (nodup_candidates h) (fun _ _ => List.not_mem_nil)
    fun q hq => mem_candidates.mp hq) ?_
  rintro e - ⟨done, w₁, he, hlen⟩
  have hkeys : ∀ q, q ∈ e.last.keys ↔ q ∉ done ∧ (w.powers.get q).isSome := fun q => by
    rw [KVStore.mem_keys, ← Option.isSome_iff_exists, he.last]
    split_ifs with hq
    · exact iff_of_false nofun fun hb => hb.1 hq
    · exact (and_iff_right hq).symm
  refine Ends.bind (retire_ends rfl he.roll KVStore.nodup_keys (fun q hq => ((hkeys q).mp hq).1)
    fun q hq => ((hkeys q).mp hq).2) ?_
  rintro ⟨b₂, us⟩ - ⟨done', w₂, hroll, hset⟩
  dsimp only at hroll ⊢
  -- the elected validators are those of the new set
  have helected : ∀ q ∈ done, w₂.powers.get q = w₁.powers.get q := fun q hq => by
    rw [hset, if_neg fun hk => ((hkeys q).mp hk).1 hq]
  have hmember : ∀ q ∈ w₂.powers.keys, q ∈ done := by
    intro q hq
    by_contra hout
    rw [KVStore.mem_keys, ← Option.isSome_iff_exists, hset] at hq
    split_ifs at hq with hk
    · cases hq
    · rw [he.roll.others q hout] at hq
      exact hk ((hkeys q).mpr ⟨hout, hq⟩)
  have hsum : w₂.sum = e.totalPower := by
    unfold ValidatorSet.sum
    rw [KVStore.sumBy_eq_sum_valAt _ he.roll.nodup hmember, he.sum]
    refine congrArg List.sum (List.map_congr_left fun q hq => ?_)
    unfold ValidatorSet.powerAt KVStore.valAt
    rw [helected q hq]
  have hsize : w₂.size ≤ params.maxValidators := by
    have hle := (KVStore.nodup_keys.subperm hmember).length_le
    unfold KVStore.keys at hle
    rw [List.length_map] at hle
    rw [List.length_nil, Nat.zero_add] at hlen
    exact hle.trans hlen
  have hfree : ∀ q, ¬ b₂.Has q fun v => v.jailed = true ∧ v.status = .bonded := by
    rintro q ⟨v, hv, hjailed, hstatus⟩
    have hpower : (w₂.powers.get q).isSome := (hroll.ok.bonded q).mpr ⟨v, hv, hstatus⟩
    have hq := hmember q (KVStore.mem_keys.mpr (Option.isSome_iff_exists.mp hpower))
    obtain ⟨u, hu, -, hufree⟩ := (he.candidates q hq).get hroll
    cases hv.symm.trans hu
    exact Bool.noConfusion (hjailed.symm.trans hufree)
  refine Ends.pure ?_
  dsimp only
  split_ifs with hnil
  · refine ⟨w₂, ⟨hroll.ok, hroll.told, hroll.keys, fun hcounted => ?_, hfree, hroll.staying,
      hroll.hooks⟩, hsize, hroll.abandoned⟩
    unfold ValidatorSet.Counted ValidatorSet.sum at hcounted ⊢
    rw [hroll.total, hroll.silent hnil, hcounted]
  · exact ⟨w₂.count e.totalPower, ⟨hroll.ok.count _, hroll.told, hroll.keys, fun _ => hsum.symm,
      hfree, hroll.staying, hroll.hooks⟩, hsize, hroll.abandoned⟩

end StakingBooks

end Elections

end Okexchain
