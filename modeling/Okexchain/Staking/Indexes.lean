import Okexchain.Staking.ValidatorSetSpec

/-!
# The validators and their indexes

A validator is stored once, under its operator's address, and indexed five times: by its consensus
address, by its power as long as it is not jailed, in the queue while it is unbonding, among the
last powers while it is bonded, and by the hooks that slashing has heard of it.

* `ValidatorSet` is the validator set as the rest of the chain knows it: the last powers, their
  total, and what Tendermint has been told. Only the end of a block changes it.
* `ValidatorsOK banned strict set b` says that every index agrees with the validators of `b`, that
  the last powers are those of `set`, and which jailed validators are to be kicked out. The keys
  that are `banned` belong to jailed validators only. If `strict`, all validators that are to be
  kicked out are there, jailed, and not unbonded.

**Results.** One lemma per kind of write: a validator is changed (`write`), created (`create`),
removed (`remove`), to be kicked out (`abandon`); it joins the set (`join`), gets another power
(`repower`) or leaves it (`leave`); it has waited long enough (`mature`).
-/

namespace Okexchain

/-! ## The validator set -/

/-- A validator update, as Tendermint applies it: a power of zero removes the key. -/
def applyUpdate (m : KVStore Address Int) (u : ValidatorUpdate) : KVStore Address Int :=
  if u.power = 0 then m.delete u.pubKey else m.set u.pubKey u.power

/-- The validator set, as the rest of the chain knows it. -/
structure ValidatorSet where
  /-- By operator. -/
  powers : KVStore Address Int
  total : Int
  /-- By consensus key: what Tendermint has been told. -/
  tendermint : KVStore Address Int

namespace ValidatorSet

/-- A validator has a power from now on. -/
def join (w : ValidatorSet) (a key : Address) (p : Int) : ValidatorSet :=
  { w with powers := w.powers.set a p, tendermint := applyUpdate w.tendermint ⟨key, p⟩ }

/-- A validator has no power any more. -/
def leave (w : ValidatorSet) (a key : Address) : ValidatorSet :=
  { w with powers := w.powers.delete a, tendermint := applyUpdate w.tendermint ⟨key, 0⟩ }

/-- The total is written. -/
def count (w : ValidatorSet) (total : Int) : ValidatorSet := { w with total := total }

end ValidatorSet

/-! ## Validators with a property -/

namespace StakingBooks

/-- The validator is there, and has a property. -/
def Has (b : StakingBooks) (a : Address) (P : Validator → Prop) : Prop :=
  ∃ v, b.getValidator a = some v ∧ P v

variable {b b' : StakingBooks} {a q : Address} {v v' : Validator} {P Q : Validator → Prop}

theorem has_of_get (hget : b.getValidator a = some v) : b.Has a P ↔ P v := by
  constructor
  · rintro ⟨w, hw, h⟩
    cases hget.symm.trans hw
    exact h
  · exact fun h => ⟨v, hget, h⟩

theorem not_has (hget : b.getValidator a = none) : ¬ b.Has a P := by
  rintro ⟨w, hw, -⟩
  cases hget.symm.trans hw

theorem Has.mono (h : b.Has a P) (himp : ∀ v, P v → Q v) : b.Has a Q :=
  let ⟨v, hv, hP⟩ := h
  ⟨v, hv, himp v hP⟩

theorem has_congr (h : b'.getValidator q = b.getValidator q) : b'.Has q P ↔ b.Has q P := by
  unfold Has
  rw [h]

theorem has_write (hput : ∀ q, b'.getValidator q = if q = a then some v' else b.getValidator q) :
    b'.Has q P ↔ if q = a then P v' else b.Has q P := by
  have hq := hput q
  split_ifs at hq ⊢ with h
  · exact has_of_get hq
  · exact has_congr hq

/-- One validator is written, and keeps the property. -/
theorem has_keep (hput : ∀ q, b'.getValidator q = if q = a then some v' else b.getValidator q)
    (hget : b.getValidator a = some v) (hP : P v' ↔ P v) : b'.Has q P ↔ b.Has q P := by
  rw [has_write hput]
  split_ifs with h
  · rw [h, has_of_get hget]
    exact hP
  · rfl

/-- The addresses that wait for a time. -/
def queuedAt (b : StakingBooks) (t : Int) : List Address := (b.validatorQueue.get t).getD []

end StakingBooks

/-- Two validators are never under the same key of the power index. -/
theorem Validator.powerIndexKey_inj {v w : Validator} (h : v.powerIndexKey = w.powerIndexKey) :
    v.operatorAddress = w.operatorAddress :=
  OrderDual.toDual.injective (Prod.mk.inj (toLex.injective h)).2

/-- The keys that slashing knows, after the hooks. -/
def registered (hooks : List StakingHook) : KVStore Address Unit :=
  hooks.foldl (fun m hook => match hook with
    | .validatorCreated k => m.set k ()
    | .validatorRemoved k => m.delete k
    | _ => m) ∅

/-! ## Agreement -/

/-- The validators and their indexes agree, and the validator set is `set`. -/
structure ValidatorsOK (banned : Address → Prop) (strict : Prop) (w : ValidatorSet)
    (b : StakingBooks) : Prop where
  cons : ∀ k a, b.validatorsByConsAddr.get k = some a ↔ b.Has a fun v => v.consAddress = k
  power : ∀ key a, b.validatorsByPowerIndex.get key = some a ↔
    b.Has a fun v => v.jailed = false ∧ v.powerIndexKey = key
  queued : ∀ t a, a ∈ b.queuedAt t ↔
    b.Has a fun v => v.status = .unbonding ∧ v.unbondingCompletionTime = t
  once : ∀ t, (b.queuedAt t).Nodup
  slices : ∀ t, b.validatorQueue.get t ≠ some []
  powers : b.lastValidatorPower = w.powers
  total : b.lastTotalPower.getD 0 = w.total
  bonded : ∀ a, (w.powers.get a).isSome ↔ b.Has a fun v => v.status = .bonded
  nonzero : ∀ a p, w.powers.get a = some p → p ≠ 0
  tendermint : ∀ k p, w.tendermint.get k = some p ↔
    ∃ a, b.Has a (fun v => v.consAddress = k) ∧ w.powers.get a = some p
  jailed : ∀ a, b.Has a (fun v => v.jailed = true ∧ v.status = .bonded) →
    a ∈ b.abandonedValidatorAddrs
  abandoned : strict → ∀ a ∈ b.abandonedValidatorAddrs,
    b.Has a fun v => v.jailed = true ∧ v.status ≠ .unbonded
  banned : ∀ a, b.Has a (fun v => banned v.consAddress) → b.Has a fun v => v.jailed = true
  tokens : ∀ a, ¬ b.Has a fun v => v.tokens ≠ 0
  registered : ∀ k, (registered b.hooks).get k = some () ↔ ∃ a, b.Has a fun v => v.consAddress = k
  known : ∀ a k, b.Has a (fun v => v.consAddress = k ∧ v.status ≠ .unbonded) →
    .validatorBonded k ∈ b.hooks

/-- Two stores with the same validators and indexes. -/
structure SameValidators (b b' : StakingBooks) : Prop where
  validators : b'.validators = b.validators
  cons : b'.validatorsByConsAddr = b.validatorsByConsAddr
  power : b'.validatorsByPowerIndex = b.validatorsByPowerIndex
  queue : b'.validatorQueue = b.validatorQueue
  powers : b'.lastValidatorPower = b.lastValidatorPower
  total : b'.lastTotalPower = b.lastTotalPower
  abandoned : b'.abandonedValidatorAddrs = b.abandonedValidatorAddrs
  hooks : b'.hooks = b.hooks

/-- What no handler changes in a validator: who it is, and its place in its life. -/
structure Validator.SameCore (v v' : Validator) : Prop where
  operator : v'.operatorAddress = v.operatorAddress
  key : v'.consPubKey = v.consPubKey
  status : v'.status = v.status
  tokens : v'.tokens = v.tokens
  completion : v'.unbondingCompletionTime = v.unbondingCompletionTime
  dismissed : v.minSelfDelegation = 0 → v'.minSelfDelegation = 0

/-- The power index after a validator is written. -/
def RekeyedAt (v v' : Validator) (m m' : KVStore (Nat ×ₗ Addressᵒᵈ) Address) : Prop :=
  ∀ key, m'.get key = if v'.jailed = false ∧ key = v'.powerIndexKey then some v'.operatorAddress
    else if key = v.powerIndexKey then none else m.get key

/-- One validator is written, with its place in the power index. -/
structure Rewrites (v v' : Validator) (extra : List Address) (b b' : StakingBooks) : Prop where
  validators : b'.validators = b.validators.put v'
  cons : b'.validatorsByConsAddr = b.validatorsByConsAddr
  power : RekeyedAt v v' b.validatorsByPowerIndex b'.validatorsByPowerIndex
  queue : b'.validatorQueue = b.validatorQueue
  powers : b'.lastValidatorPower = b.lastValidatorPower
  total : b'.lastTotalPower = b.lastTotalPower
  abandoned : b'.abandonedValidatorAddrs = b.abandonedValidatorAddrs ++ extra
  hooks : ∃ calls, b'.hooks = b.hooks ++ calls ∧ registered b'.hooks = registered b.hooks

/-- One validator is removed, with its entries in the indexes. -/
structure Removes (v : Validator) (b b' : StakingBooks) : Prop where
  validators : ∀ q, b'.getValidator q = if q = v.operatorAddress then none else b.getValidator q
  cons : b'.validatorsByConsAddr = b.validatorsByConsAddr.delete v.consAddress
  power : ∀ key, b'.validatorsByPowerIndex.get key =
    if key = v.powerIndexKey then none else b.validatorsByPowerIndex.get key
  queue : b'.validatorQueue = b.validatorQueue
  powers : b'.lastValidatorPower = b.lastValidatorPower
  total : b'.lastTotalPower = b.lastTotalPower
  abandoned : b'.abandonedValidatorAddrs = b.abandonedValidatorAddrs
  hooks : b'.hooks = b.hooks ++ [.validatorRemoved v.consAddress]

namespace ValidatorsOK

variable {banned : Address → Prop} {strict : Prop} {w : ValidatorSet} {b b' : StakingBooks}
  {v v' : Validator} {a : Address}

theorem same (h : ValidatorsOK banned strict w b) (hsame : SameValidators b b') :
    ValidatorsOK banned strict w b' := by
  obtain ⟨hvalidators, hcons, hpower, hqueue, hpowers, htotal, habandoned, hhooks⟩ := hsame
  have hhas : ∀ q P, b'.Has q P ↔ b.Has q P := fun q P => StakingBooks.has_congr (by
    unfold StakingBooks.getValidator
    rw [hvalidators])
  have hqueued : ∀ t, b'.queuedAt t = b.queuedAt t := fun t => by
    unfold StakingBooks.queuedAt
    rw [hqueue]
  refine ⟨?_, ?_, ?_, ?_, ?_, ?_, ?_, ?_, h.nonzero, ?_, ?_, ?_, ?_, ?_, ?_, ?_⟩
  · simpa only [hcons, hhas] using h.cons
  · simpa only [hpower, hhas] using h.power
  · simpa only [hqueued, hhas] using h.queued
  · simpa only [hqueued] using h.once
  · simpa only [hqueue] using h.slices
  · exact hpowers.trans h.powers
  · rw [htotal]
    exact h.total
  · simpa only [hhas] using h.bonded
  · simpa only [hhas] using h.tendermint
  · simpa only [hhas, habandoned] using h.jailed
  · simpa only [hhas, habandoned] using h.abandoned
  · simpa only [hhas] using h.banned
  · simpa only [hhas] using h.tokens
  · simpa only [hhas, hhooks] using h.registered
  · simpa only [hhas, hhooks] using h.known

/-- **A validator is written.** It stays jailed if its key is banned or it is to be kicked out, and
a bonded one that is jailed is to be kicked out. -/
theorem write {extra : List Address} (h : ValidatorsOK banned strict w b)
    (hrewrites : Rewrites v v' extra b b') (hget : b.getValidator v.operatorAddress = some v)
    (hcore : v.SameCore v') (hjailed : v.jailed = true → v'.jailed = true ∨
      ¬ banned v.consAddress ∧ (strict → v.operatorAddress ∉ b.abandonedValidatorAddrs))
    (hkick : v'.jailed = true → v.status = .bonded → v.jailed = true ∨ v.operatorAddress ∈ extra)
    (hextra : strict → ∀ q ∈ extra, q = v.operatorAddress ∧ v'.jailed = true ∧
      v.status ≠ .unbonded) :
    ValidatorsOK banned strict w b' := by
  obtain ⟨hvalidators, hcons, hpower, hqueue, hpowers, htotal, habandoned, calls, hhooks, hreg⟩ :=
    hrewrites
  have hput : ∀ q, b'.getValidator q =
      if q = v.operatorAddress then some v' else b.getValidator q := fun q => by
    unfold StakingBooks.getValidator
    rw [hvalidators, KeyedStore.get_put, hcore.operator]
  have hkeep : ∀ {P : Validator → Prop}, (P v' ↔ P v) → ∀ q, b'.Has q P ↔ b.Has q P :=
    fun hP q => StakingBooks.has_keep hput hget hP
  have hconsAddress : v'.consAddress = v.consAddress := hcore.key
  have hqueued : ∀ t, b'.queuedAt t = b.queuedAt t := fun t => by
    unfold StakingBooks.queuedAt
    rw [hqueue]
  have hmem : ∀ q ∈ b.abandonedValidatorAddrs, q ∈ b'.abandonedValidatorAddrs := fun q hq => by
    rw [habandoned]
    exact List.mem_append_left _ hq
  refine ⟨fun k q => ?_, fun key q => ?_, fun t q => ?_, fun t => ?_, fun t => ?_, ?_, ?_,
    fun q => ?_, h.nonzero, fun k p => ?_, fun q hq => ?_, fun hs q hq => ?_, fun q hq => ?_,
    fun q => ?_, fun k => ?_, fun q k hq => ?_⟩
  · rw [hcons, h.cons, hkeep (by rw [hconsAddress])]
  · -- a key of the power index says whose it is
    have hother : key = v'.powerIndexKey ∨ key = v.powerIndexKey → q ≠ v.operatorAddress →
        ¬ b.Has q fun u => u.jailed = false ∧ u.powerIndexKey = key := by
      rintro hkey hq ⟨u, hu, -, hukey⟩
      refine hq ((KeyedStore.key_of_get hu).symm.trans ?_)
      rcases hkey with hkey | hkey
      · exact (Validator.powerIndexKey_inj (hukey.trans hkey)).trans hcore.operator
      · exact Validator.powerIndexKey_inj (hukey.trans hkey)
    rw [hpower, StakingBooks.has_write hput]
    split_ifs with hnew hq hold hq hq
    · exact iff_of_true (by rw [hcore.operator, hq]) ⟨hnew.1, hnew.2.symm⟩
    · refine iff_of_false (fun he => hq ?_) (hother (.inl hnew.2) hq)
      rw [← hcore.operator]
      exact (Option.some.inj he).symm
    · refine iff_of_false nofun fun hv => hnew ⟨hv.1, hv.2.symm⟩
    · exact iff_of_false nofun (hother (.inr hold) hq)
    · refine iff_of_false (fun he => hold ?_) fun hv => hnew ⟨hv.1, hv.2.symm⟩
      obtain ⟨u, hu, -, hukey⟩ := (h.power key q).mp he
      rw [hq] at hu
      cases hget.symm.trans hu
      exact hukey.symm
    · exact h.power key q
  · rw [hqueued, h.queued, hkeep (by rw [hcore.status, hcore.completion])]
  · rw [hqueued]
    exact h.once t
  · rw [hqueue]
    exact h.slices t
  · exact hpowers.trans h.powers
  · rw [htotal]
    exact h.total
  · rw [h.bonded, hkeep (by rw [hcore.status])]
  · simp only [h.tendermint, hkeep (P := fun u => u.consAddress = k) (by rw [hconsAddress])]
  · by_cases ha : q = v.operatorAddress
    · rw [StakingBooks.has_write hput, if_pos ha] at hq
      have hbonded : v.status = .bonded := hcore.status.symm.trans hq.2
      rcases hkick hq.1 hbonded with hv | hv
      · refine hmem q (h.jailed q ?_)
        rw [ha, StakingBooks.has_of_get hget]
        exact ⟨hv, hbonded⟩
      · rw [habandoned, ha]
        exact List.mem_append_right _ hv
    · rw [StakingBooks.has_write hput, if_neg ha] at hq
      exact hmem q (h.jailed q hq)
  · rw [habandoned, List.mem_append] at hq
    rw [StakingBooks.has_write hput]
    rcases hq with hq | hq
    · have hold := h.abandoned hs q hq
      split_ifs with ha
      · rw [ha, StakingBooks.has_of_get hget] at hold
        rw [ha] at hq
        rw [hcore.status]
        rcases hjailed hold.1 with hv | hv
        · exact ⟨hv, hold.2⟩
        · exact absurd hq (hv.2 hs)
      · exact hold
    · obtain ⟨ha, hv, hne⟩ := hextra hs q hq
      rw [if_pos ha, hcore.status]
      exact ⟨hv, hne⟩
  · rw [hkeep (P := fun u => banned u.consAddress) (by rw [hconsAddress])] at hq
    have hold := h.banned q hq
    rw [StakingBooks.has_write hput]
    split_ifs with ha
    · rw [ha, StakingBooks.has_of_get hget] at hold hq
      rcases hjailed hold with hv | hv
      · exact hv
      · exact absurd hq hv.1
    · exact hold
  · rw [hkeep (P := fun u => u.tokens ≠ 0) (by rw [hcore.tokens])]
    exact h.tokens q
  · simp only [hreg, h.registered, hkeep (P := fun u => u.consAddress = k) (by rw [hconsAddress])]
  · rw [hkeep (P := fun u => u.consAddress = k ∧ u.status ≠ .unbonded)
      (by rw [hconsAddress, hcore.status])] at hq
    rw [hhooks]
    exact List.mem_append_left _ (h.known q k hq)

/-- Nobody has a consensus address that is not found. -/
theorem not_has_cons (h : ValidatorsOK banned strict w b) {k : Address}
    (hnone : b.getValidatorByConsAddr k = none) (q : Address) :
    ¬ b.Has q fun u => u.consAddress = k := by
  intro hq
  obtain ⟨u, hu, -⟩ := id hq
  have hfound : b.getValidatorByConsAddr k = some u := by
    unfold StakingBooks.getValidatorByConsAddr
    rw [(h.cons k q).mpr hq]
    exact hu
  cases hnone.symm.trans hfound

theorem tokens_eq (h : ValidatorsOK banned strict w b) (hget : b.getValidator a = some v) :
    v.tokens = 0 := by
  by_contra hne
  exact h.tokens _ ((StakingBooks.has_of_get hget).mpr hne)

theorem getValidatorByConsAddr (h : ValidatorsOK banned strict w b) {k : Address}
    (hget : b.getValidatorByConsAddr k = some v) :
    b.getValidator v.operatorAddress = some v ∧ v.consAddress = k := by
  unfold StakingBooks.getValidatorByConsAddr at hget
  obtain ⟨q, hq, hv⟩ := Option.bind_eq_some_iff.mp hget
  have hkey : v.operatorAddress = q := KeyedStore.key_of_get hv
  have hcons := (h.cons k q).mp hq
  rw [StakingBooks.has_of_get hv] at hcons
  exact ⟨hkey ▸ hv, hcons⟩

/-- **A validator is created.** -/
theorem create (h : ValidatorsOK banned strict w b)
    (hput : ∀ q, b'.getValidator q = if q = v.operatorAddress then some v else b.getValidator q)
    (hcons : b'.validatorsByConsAddr = b.validatorsByConsAddr.set v.consAddress v.operatorAddress)
    (hpower : ∀ key, b'.validatorsByPowerIndex.get key =
      if key = v.powerIndexKey then some v.operatorAddress else b.validatorsByPowerIndex.get key)
    (hqueue : b'.validatorQueue = b.validatorQueue)
    (hpowers : b'.lastValidatorPower = b.lastValidatorPower)
    (htotal : b'.lastTotalPower = b.lastTotalPower)
    (habandoned : b'.abandonedValidatorAddrs = b.abandonedValidatorAddrs)
    (hhooks : b'.hooks = b.hooks ++ [.validatorCreated v.consAddress])
    (hnew : b.getValidator v.operatorAddress = none)
    (hfresh : b.getValidatorByConsAddr v.consAddress = none)
    (hbanned : ¬ banned v.consAddress) (hjailed : v.jailed = false) (hstatus : v.status = .unbonded)
    (htokens : v.tokens = 0) : ValidatorsOK banned strict w b' := by
  have hqueued : ∀ t, b'.queuedAt t = b.queuedAt t := fun t => by
    unfold StakingBooks.queuedAt
    rw [hqueue]
  have hnot : ∀ P, ¬ b.Has v.operatorAddress P := fun P => StakingBooks.not_has hnew
  -- what the new validator has not, is as before
  have hkeep : ∀ {P : Validator → Prop}, ¬ P v → ∀ q, b'.Has q P ↔ b.Has q P := by
    intro P hP q
    rw [StakingBooks.has_write hput]
    split_ifs with hq
    · rw [hq]
      exact iff_of_false hP (hnot P)
    · rfl
  have hnotBonded : v.status ≠ .bonded := by rw [hstatus]; decide
  have hnotUnbonding : v.status ≠ .unbonding := by rw [hstatus]; decide
  have hnotJailed : v.jailed ≠ true := by rw [hjailed]; decide
  refine ⟨fun k q => ?_, fun key q => ?_, fun t q => ?_, fun t => ?_, fun t => ?_, ?_, ?_,
    fun q => ?_, h.nonzero, fun k p => ?_, fun q hq => ?_, fun hs q hq => ?_, fun q hq => ?_,
    fun q => ?_, fun k => ?_, fun q k hq => ?_⟩
  · rw [hcons, KVStore.get_set]
    by_cases hk : k = v.consAddress
    · rw [if_pos hk, StakingBooks.has_write hput, hk]
      split_ifs with hq
      · exact iff_of_true (by rw [hq]) rfl
      · exact iff_of_false (fun he => hq (Option.some.inj he).symm) (h.not_has_cons hfresh q)
    · rw [if_neg hk, h.cons, hkeep fun he => hk he.symm]
  · rw [hpower]
    by_cases hk : key = v.powerIndexKey
    · rw [if_pos hk, StakingBooks.has_write hput]
      split_ifs with hq
      · exact iff_of_true (by rw [hq]) ⟨hjailed, hk.symm⟩
      · refine iff_of_false (fun he => hq (Option.some.inj he).symm) ?_
        rintro ⟨u, hu, -, hukey⟩
        exact hq ((KeyedStore.key_of_get hu).symm.trans
          (Validator.powerIndexKey_inj (hukey.trans hk)))
    · rw [if_neg hk, h.power, hkeep fun he => hk he.2.symm]
  · rw [hqueued, h.queued, hkeep fun he => hnotUnbonding he.1]
  · rw [hqueued]
    exact h.once t
  · rw [hqueue]
    exact h.slices t
  · exact hpowers.trans h.powers
  · rw [htotal]
    exact h.total
  · rw [h.bonded, hkeep hnotBonded]
  · rw [h.tendermint]
    refine exists_congr fun q => and_congr_left fun hp => ?_
    -- a validator with a power was there before
    have hthere : b.Has q fun u => u.status = .bonded := by
      rw [← h.bonded, hp]
      rfl
    rw [StakingBooks.has_write hput, if_neg fun hq => hnot _ (hq ▸ hthere)]
  · rw [hkeep fun he => hnotJailed he.1] at hq
    rw [habandoned]
    exact h.jailed q hq
  · rw [habandoned] at hq
    rw [hkeep fun he => hnotJailed he.1]
    exact h.abandoned hs q hq
  · rw [hkeep hbanned] at hq
    rw [hkeep hnotJailed]
    exact h.banned q hq
  · rw [hkeep (P := fun u => u.tokens ≠ 0) fun hne => hne htokens]
    exact h.tokens q
  · have hreg : Okexchain.registered b'.hooks =
        (Okexchain.registered b.hooks).set v.consAddress () := by
      rw [hhooks]
      exact List.foldl_append
    rw [hreg, KVStore.get_set]
    by_cases hk : k = v.consAddress
    · rw [if_pos hk]
      refine iff_of_true rfl ⟨v.operatorAddress, ?_⟩
      rw [StakingBooks.has_write hput, if_pos rfl]
      exact hk.symm
    · rw [if_neg hk, h.registered]
      exact exists_congr fun q => (hkeep (fun he => hk he.symm) q).symm
  · rw [hkeep fun he => he.2 hstatus] at hq
    rw [hhooks]
    exact List.mem_append_left _ (h.known q k hq)

theorem cons_inj (h : ValidatorsOK banned strict w b) {q r : Address} {k : Address}
    (hq : b.Has q fun u => u.consAddress = k) (hr : b.Has r fun u => u.consAddress = k) : q = r :=
  Option.some.inj (((h.cons k q).mpr hq).symm.trans ((h.cons k r).mpr hr))

/-- **A validator is removed.** -/
theorem remove (h : ValidatorsOK banned strict w b) (hremoves : Removes v b b')
    (hget : b.getValidator v.operatorAddress = some v) (hstatus : v.status = .unbonded) :
    ValidatorsOK banned strict w b' := by
  obtain ⟨hdelete, hcons, hpower, hqueue, hpowers, htotal, habandoned, hhooks⟩ := hremoves
  have hqueued : ∀ t, b'.queuedAt t = b.queuedAt t := fun t => by
    unfold StakingBooks.queuedAt
    rw [hqueue]
  have hhas : ∀ q P, b'.Has q P ↔ q ≠ v.operatorAddress ∧ b.Has q P := by
    intro q P
    by_cases hq : q = v.operatorAddress
    · have hnone : b'.getValidator q = none := by rw [hdelete, if_pos hq]
      exact iff_of_false (StakingBooks.not_has hnone) fun hb => hb.1 hq
    · have hsome : b'.getValidator q = b.getValidator q := by rw [hdelete, if_neg hq]
      rw [StakingBooks.has_congr hsome]
      exact (and_iff_right hq).symm
  -- what the removed validator had not, is as before
  have hkeep : ∀ {P : Validator → Prop}, ¬ P v → ∀ q, b'.Has q P ↔ b.Has q P := by
    intro P hP q
    rw [hhas]
    refine and_iff_right_of_imp fun hb hq => hP ?_
    rwa [hq, StakingBooks.has_of_get hget] at hb
  have hnotBonded : v.status ≠ .bonded := by rw [hstatus]; decide
  have hnotUnbonding : v.status ≠ .unbonding := by rw [hstatus]; decide
  have hself : b.Has v.operatorAddress fun u => u.consAddress = v.consAddress :=
    (StakingBooks.has_of_get hget).mpr rfl
  refine ⟨fun k q => ?_, fun key q => ?_, fun t q => ?_, fun t => ?_, fun t => ?_, ?_, ?_,
    fun q => ?_, h.nonzero, fun k p => ?_, fun q hq => ?_, fun hs q hq => ?_, fun q hq => ?_,
    fun q hq => ?_, fun k => ?_, fun q k hq => ?_⟩
  · rw [hcons, KVStore.get_delete, hhas]
    split_ifs with hk
    · refine iff_of_false nofun fun hb => hb.1 ?_
      exact h.cons_inj (hk ▸ hb.2) hself
    · rw [h.cons]
      refine (and_iff_right_of_imp fun hb hq => hk ?_).symm
      rw [hq, StakingBooks.has_of_get hget] at hb
      exact hb.symm
  · rw [hpower, hhas]
    split_ifs with hk
    · refine iff_of_false nofun fun hb => hb.1 ?_
      obtain ⟨u, hu, -, hukey⟩ := hb.2
      exact (KeyedStore.key_of_get hu).symm.trans (Validator.powerIndexKey_inj (hukey.trans hk))
    · rw [h.power]
      refine (and_iff_right_of_imp fun hb hq => hk ?_).symm
      rw [hq, StakingBooks.has_of_get hget] at hb
      exact hb.2.symm
  · rw [hqueued, h.queued, hkeep fun he => hnotUnbonding he.1]
  · rw [hqueued]
    exact h.once t
  · rw [hqueue]
    exact h.slices t
  · exact hpowers.trans h.powers
  · rw [htotal]
    exact h.total
  · rw [h.bonded, hkeep hnotBonded]
  · rw [h.tendermint]
    refine exists_congr fun q => and_congr_left fun hp => ?_
    rw [hhas]
    refine (and_iff_right_of_imp fun _ hq => hnotBonded ?_).symm
    have hbonded : b.Has q fun u => u.status = .bonded := by
      rw [← h.bonded, hp]
      rfl
    rwa [hq, StakingBooks.has_of_get hget] at hbonded
  · rw [hkeep fun he => hnotBonded he.2] at hq
    rw [habandoned]
    exact h.jailed q hq
  · rw [habandoned] at hq
    rw [hkeep fun he => he.2 hstatus]
    exact h.abandoned hs q hq
  · rw [hhas] at hq ⊢
    exact ⟨hq.1, h.banned q hq.2⟩
  · exact h.tokens q ((hhas _ _).mp hq).2
  · have hreg : Okexchain.registered b'.hooks =
        (Okexchain.registered b.hooks).delete v.consAddress := by
      rw [hhooks]
      exact List.foldl_append
    simp only [hreg, KVStore.get_delete, hhas]
    split_ifs with hk
    · refine iff_of_false nofun ?_
      rintro ⟨q, hne, hq⟩
      exact hne (h.cons_inj (hk ▸ hq) hself)
    · rw [h.registered]
      refine exists_congr fun q => (and_iff_right_of_imp fun hb hq => hk ?_).symm
      rw [hq, StakingBooks.has_of_get hget] at hb
      exact hb.symm
  · rw [hhooks]
    exact List.mem_append_left _ (h.known q k ((hhas _ _).mp hq).2)

/-- **A validator is to be kicked out.** -/
theorem abandon (h : ValidatorsOK banned strict w b) (a : Address)
    (ha : strict → b.Has a fun v => v.jailed = true ∧ v.status ≠ .unbonded) :
    ValidatorsOK banned strict w
      { b with abandonedValidatorAddrs := b.abandonedValidatorAddrs ++ [a] } := by
  refine ⟨h.cons, h.power, h.queued, h.once, h.slices, h.powers, h.total, h.bonded, h.nonzero,
    h.tendermint, fun q hq => ?_, fun hs q hq => ?_, h.banned, h.tokens, h.registered, h.known⟩
  · exact List.mem_append_left _ (h.jailed q hq)
  · rcases List.mem_append.mp hq with hq | hq
    · exact h.abandoned hs q hq
    · rw [List.mem_singleton.mp hq]
      exact ha hs

end ValidatorsOK

/-! ## Transitions -/

theorem get_applyUpdate {m : KVStore Address Int} {u : ValidatorUpdate} {k : Address} :
    (applyUpdate m u).get k =
      if k = u.pubKey then if u.power = 0 then none else some u.power else m.get k := by
  unfold applyUpdate
  split_ifs with hp hk hk
  · rw [hk, KVStore.get_delete_self]
  · exact KVStore.get_delete_ne hk
  · rw [hk, KVStore.get_set_self]
  · exact KVStore.get_set_ne hk

/-- A validator passes to another status: who it is and its power stay. -/
structure Validator.Passes (v v' : Validator) : Prop where
  operator : v'.operatorAddress = v.operatorAddress
  key : v'.consPubKey = v.consPubKey
  tokens : v'.tokens = v.tokens
  jailed : v'.jailed = v.jailed
  shares : v'.delegatorShares = v.delegatorShares

theorem Validator.Passes.powerIndexKey {v v' : Validator} (h : v.Passes v') :
    v'.powerIndexKey = v.powerIndexKey := by
  unfold Validator.powerIndexKey Validator.potentialConsensusPowerByShares
  rw [h.shares, h.operator]

/-- The validator set after one validator has got the power `p`, or none. -/
structure SetAt (a key : Address) (p : Option Int) (w w' : ValidatorSet) : Prop where
  powers : ∀ q, w'.powers.get q = if q = a then p else w.powers.get q
  tendermint : ∀ k, w'.tendermint.get k = if k = key then p else w.tendermint.get k
  total : w'.total = w.total
  nonzero : p ≠ some 0

namespace SetAt

variable {w : ValidatorSet} {a key : Address} {p : Int}

theorem join (hp : p ≠ 0) : SetAt a key (some p) w (w.join a key p) := by
  refine ⟨fun q => KVStore.get_set, fun k => get_applyUpdate.trans ?_, rfl, fun he =>
    hp (Option.some.inj he)⟩
  rw [if_neg hp]

theorem leave : SetAt a key none w (w.leave a key) := by
  refine ⟨fun q => KVStore.get_delete, fun k => get_applyUpdate.trans ?_, rfl, nofun⟩
  rw [if_pos rfl]

end SetAt

/-- A validator passes to another status, in all of its indexes. -/
structure Transits (v v' : Validator) (p : Option Int) (w w' : ValidatorSet)
    (b b' : StakingBooks) : Prop where
  passes : v.Passes v'
  validators : b'.validators = b.validators.put v'
  cons : b'.validatorsByConsAddr = b.validatorsByConsAddr
  power : RekeyedAt v v' b.validatorsByPowerIndex b'.validatorsByPowerIndex
  queued : ∀ t q, q ∈ b'.queuedAt t ↔ if q = v.operatorAddress then
    v'.status = .unbonding ∧ v'.unbondingCompletionTime = t else q ∈ b.queuedAt t
  once : ∀ t, (b'.queuedAt t).Nodup
  slices : ∀ t, b'.validatorQueue.get t ≠ some []
  set : SetAt v.operatorAddress v.consAddress p w w'
  powers : b'.lastValidatorPower = w'.powers
  total : b'.lastTotalPower = b.lastTotalPower
  bonded : p.isSome ↔ v'.status = .bonded
  abandoned : b'.abandonedValidatorAddrs = b.abandonedValidatorAddrs
  hooks : ∃ calls, b'.hooks = b.hooks ++ calls ∧ registered b'.hooks = registered b.hooks ∧
    (v'.status ≠ .unbonded → v.status ≠ .unbonded ∨ .validatorBonded v.consAddress ∈ calls)

namespace ValidatorsOK

variable {banned : Address → Prop} {strict : Prop} {w w' : ValidatorSet} {b b' : StakingBooks}
  {v v' : Validator} {p : Option Int}

/-- A validator that passes to another status has the same key, as long as it is not jailed. -/
theorem rekeyedAt (h : ValidatorsOK banned strict w b)
    (hget : b.getValidator v.operatorAddress = some v) (hpasses : v.Passes v') :
    RekeyedAt v v' b.validatorsByPowerIndex b.validatorsByPowerIndex := by
  intro key
  rw [hpasses.powerIndexKey, hpasses.operator, hpasses.jailed]
  split_ifs with hhere hkey
  · rw [h.power, StakingBooks.has_of_get hget]
    exact ⟨hhere.1, hhere.2.symm⟩
  · refine Option.eq_none_iff_forall_ne_some.mpr fun q hfound => ?_
    obtain ⟨u, hu, hfree, hukey⟩ := (h.power _ _).mp hfound
    have huv : u.operatorAddress = v.operatorAddress :=
      Validator.powerIndexKey_inj (hukey.trans hkey)
    rw [← KeyedStore.key_of_get hu, huv, hget] at hu
    cases hu
    exact hhere ⟨hfree, hkey⟩
  · rfl

/-- **A validator passes to another status.** One that is to be kicked out does not become unbonded,
and a jailed one does not become bonded. -/
theorem transit (h : ValidatorsOK banned strict w b) (ht : Transits v v' p w w' b b')
    (hget : b.getValidator v.operatorAddress = some v)
    (hjailed : v.jailed = true → v'.status = .bonded → v.status = .bonded)
    (hkept : strict → v.operatorAddress ∈ b.abandonedValidatorAddrs → v'.status ≠ .unbonded) :
    ValidatorsOK banned strict w' b' := by
  have hpasses := ht.passes
  have hput : ∀ q, b'.getValidator q =
      if q = v.operatorAddress then some v' else b.getValidator q := fun q => by
    unfold StakingBooks.getValidator
    rw [ht.validators, KeyedStore.get_put, hpasses.operator]
  have hkeep : ∀ {P : Validator → Prop}, (P v' ↔ P v) → ∀ q, b'.Has q P ↔ b.Has q P :=
    fun hP q => StakingBooks.has_keep hput hget hP
  have hconsAddress : v'.consAddress = v.consAddress := hpasses.key
  have hhere : ∀ P, b.Has v.operatorAddress P ↔ P v := fun P => StakingBooks.has_of_get hget
  obtain ⟨calls, hhooks, hreg, hcalled⟩ := ht.hooks
  refine ⟨fun k q => ?_, fun key q => ?_, fun t q => ?_, ht.once, ht.slices, ht.powers, ?_,
    fun q => ?_, fun q r hr => ?_, fun k r => ?_, fun q hq => ?_, fun hs q hq => ?_, fun q hq => ?_,
    fun q => ?_, fun k => ?_, fun q k hq => ?_⟩
  · rw [ht.cons, h.cons, hkeep (by rw [hconsAddress])]
  · rw [hkeep (by rw [hpasses.jailed, hpasses.powerIndexKey]), ← h.power, ht.power key,
      ← h.rekeyedAt hget hpasses key]
  · rw [ht.queued, StakingBooks.has_write hput]
    split_ifs
    · rfl
    · exact h.queued t q
  · rw [ht.total, ht.set.total]
    exact h.total
  · rw [ht.set.powers, StakingBooks.has_write hput]
    split_ifs
    · exact ht.bonded
    · exact h.bonded q
  · rw [ht.set.powers] at hr
    split_ifs at hr
    · rintro rfl
      exact ht.set.nonzero hr
    · exact h.nonzero q r hr
  · rw [ht.set.tendermint]
    simp only [hkeep (P := fun u => u.consAddress = k) (by rw [hconsAddress])]
    split_ifs with hk
    · constructor
      · intro hp
        refine ⟨v.operatorAddress, (hhere _).mpr hk.symm, ?_⟩
        rw [ht.set.powers, if_pos rfl, hp]
      · rintro ⟨q, hq, hp⟩
        have hqv : q = v.operatorAddress := h.cons_inj hq ((hhere _).mpr hk.symm)
        rwa [ht.set.powers, if_pos hqv] at hp
    · rw [h.tendermint]
      refine exists_congr fun q => and_congr_right fun hq => ?_
      rw [ht.set.powers, if_neg]
      intro hqv
      rw [hqv, hhere] at hq
      exact hk hq.symm
  · rw [ht.abandoned]
    rw [StakingBooks.has_write hput] at hq
    split_ifs at hq with hqv
    · rw [hpasses.jailed] at hq
      refine h.jailed q ?_
      rw [hqv, hhere]
      exact ⟨hq.1, hjailed hq.1 hq.2⟩
    · exact h.jailed q hq
  · rw [ht.abandoned] at hq
    have hold := h.abandoned hs q hq
    rw [StakingBooks.has_write hput]
    split_ifs with hqv
    · rw [hqv, hhere] at hold
      rw [hqv] at hq
      rw [hpasses.jailed]
      exact ⟨hold.1, hkept hs hq⟩
    · exact hold
  · rw [hkeep (P := fun u => banned u.consAddress) (by rw [hconsAddress])] at hq
    rw [hkeep (P := fun u => u.jailed = true) (by rw [hpasses.jailed])]
    exact h.banned q hq
  · rw [hkeep (P := fun u => u.tokens ≠ 0) (by rw [hpasses.tokens])]
    exact h.tokens q
  · simp only [hreg, h.registered, hkeep (P := fun u => u.consAddress = k) (by rw [hconsAddress])]
  · rw [hhooks, List.mem_append]
    rw [StakingBooks.has_write hput] at hq
    split_ifs at hq with hqv
    · rw [hconsAddress] at hq
      rcases hcalled hq.2 with hold | hnew
      · exact .inl (h.known v.operatorAddress k ((hhere _).mpr ⟨hq.1, hold⟩))
      · rw [← hq.1]
        exact .inr hnew
    · exact .inl (h.known q k hq)

end ValidatorsOK

end Okexchain
