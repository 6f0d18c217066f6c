import Okexchain.Staking.Handler

/-!
# What the staking keeper does

A delegator votes for validators with all of its shares. The votes are stored three times: in the
delegator's record, in one record per validator and delegator, and in the total of each validator.

* `Delegator.votes` is the abstract vote of a delegator's record for a validator.
* `SharesOK` says that the three agree, and which records there can be.
* `Revised` is the one way in which handlers change a delegator's record: the records by validator
  and the totals follow. `FollowsAt` says how a validator follows: only its total changes, unless it
  has nothing left and is removed.

**Results.** The loops over a delegator's validators are turns of one kind (`Turn`), so one lemma
says what a loop does (`turns_spec`). `updateShares_revised`, `deleted_revised` and
`addShares_revised`: what the three users of the loops do to a delegator. `SharesOK.revised`: a
revised record keeps `SharesOK`.
-/

namespace Okexchain

/-! ## Votes -/

namespace Delegator

/-- The vote for a validator, as a number. -/
def votes (d : Delegator) (valAddr : Address) : Int :=
  if valAddr ∈ d.validatorAddresses then d.shares else 0

/-- The vote for a validator, as it is recorded. -/
def recorded (d : Delegator) (valAddr : Address) : Option Int :=
  if valAddr ∈ d.validatorAddresses then some d.shares else none

/-- A delegator's record that can be stored. -/
structure Sound (d : Delegator) : Prop where
  nodup : d.validatorAddresses.Nodup
  tokens : 0 < d.tokens
  delegated : 0 ≤ d.totalDelegatedTokens
  proxy : d.proxyAddress ≠ some d.delegatorAddress
  shares : d.validatorAddresses ≠ [] → 0 < d.shares

theorem Sound.votes_nonneg {d : Delegator} (h : d.Sound) (a : Address) : 0 ≤ d.votes a := by
  unfold votes
  split_ifs with ha
  · exact (h.shares (List.ne_nil_of_mem ha)).le
  · exact le_rfl

theorem Sound.votes_pos {d : Delegator} (h : d.Sound) {a : Address}
    (ha : a ∈ d.validatorAddresses) : 0 < d.votes a := by
  unfold votes
  rw [if_pos ha]
  exact h.shares (List.ne_nil_of_mem ha)

end Delegator

/-- The vote of the delegator that is there, if one is. -/
def votesOf (o : Option Delegator) (a : Address) : Int := o.elim 0 fun d => d.votes a

/-- The tokens of the delegator that is there. -/
def tokensOf (o : Option Delegator) : Int := o.elim 0 Delegator.tokens

/-- The share that a minimal self delegation gives. -/
def Validator.own (v : Validator) : Int := if 0 < v.minSelfDelegation then Dec.one else 0

namespace StakingBooks

/-- The votes for a validator. -/
def totalVotes (b : StakingBooks) (a : Address) : Int :=
  b.delegators.store.sumBy fun _ d => d.votes a

end StakingBooks

/-- A validator is found by its consensus address. -/
def IndexOK (b : StakingBooks) : Prop :=
  ∀ a v, b.getValidator a = some v → b.validatorsByConsAddr.get v.consAddress = some a

/-- The three places of the votes agree, and the validators are indexed. -/
structure SharesOK (b : StakingBooks) : Prop where
  sound : ∀ d r, b.getDelegator d = some r → r.Sound
  records : ∀ d a, b.getShares d a = (b.getDelegator d).bind fun r => r.recorded a
  exist : ∀ d r a, b.getDelegator d = some r → a ∈ r.validatorAddresses →
    (b.getValidator a).isSome
  totals : ∀ a v, b.getValidator a = some v → v.delegatorShares = b.totalVotes a + v.own
  msd : ∀ a v, b.getValidator a = some v →
    0 ≤ v.minSelfDelegation ∧ (v.minSelfDelegation = 0 → v.jailed = true)
  index : IndexOK b

theorem IndexOK.congr {b b' : StakingBooks} (h : IndexOK b)
    (hvalidators : b'.validators = b.validators)
    (hindex : b'.validatorsByConsAddr = b.validatorsByConsAddr) : IndexOK b' := by
  intro a v hv
  unfold StakingBooks.getValidator at hv
  rw [hvalidators] at hv
  rw [hindex]
  exact h a v hv

/-- A validator is written under its own consensus address. -/
theorem IndexOK.write {b b' : StakingBooks} (h : IndexOK b) {v v' : Validator}
    (hget : b.getValidator v.operatorAddress = some v)
    (hvalidators : b'.validators = b.validators.put v')
    (hindex : b'.validatorsByConsAddr = b.validatorsByConsAddr)
    (hkey : v'.operatorAddress = v.operatorAddress) (hcons : v'.consPubKey = v.consPubKey) :
    IndexOK b' := by
  intro a w hw
  unfold StakingBooks.getValidator at hw
  rw [hvalidators, KeyedStore.get_put] at hw
  rw [hindex]
  split_ifs at hw with ha
  · cases hw
    have hv := h _ v hget
    rwa [ha, hkey, Validator.consAddress, hcons]
  · exact h a w hw

/-! ## Validators that follow -/

/-- How a validator follows a change of its votes. -/
def FollowsAt (δ : Int) : Option Validator → Option Validator → Prop
  | none, o' => o' = none ∧ δ = 0
  | some v, some v' => v'.minSelfDelegation = v.minSelfDelegation ∧
    v'.delegatorShares = v.delegatorShares + δ ∧ (v'.jailed = v.jailed ∨ v.minSelfDelegation ≠ 0)
  | some v, none => v.minSelfDelegation = 0 ∧ v.delegatorShares + δ = 0

theorem FollowsAt.refl (o : Option Validator) : FollowsAt 0 o o := by
  cases o with
  | none => exact ⟨rfl, rfl⟩
  | some v => exact ⟨rfl, (add_zero _).symm, .inl rfl⟩

theorem FollowsAt.trans {δ δ' : Int} {o o' o'' : Option Validator} (h : FollowsAt δ o o')
    (h' : FollowsAt δ' o' o'') : FollowsAt (δ + δ') o o'' := by
  cases o with
  | none =>
    obtain ⟨rfl, rfl⟩ := h
    obtain ⟨rfl, rfl⟩ := h'
    exact ⟨rfl, rfl⟩
  | some v =>
    cases o' with
    | none =>
      obtain ⟨rfl, rfl⟩ := h'
      exact ⟨h.1, by rw [add_zero]; exact h.2⟩
    | some v' =>
      obtain ⟨hmsd, hshares, hjailed⟩ := h
      cases o'' with
      | none => exact ⟨hmsd ▸ h'.1, by have := h'.2; omega⟩
      | some v'' =>
        obtain ⟨hmsd', hshares', hjailed'⟩ := h'
        refine ⟨hmsd'.trans hmsd, by omega, ?_⟩
        rw [hmsd] at hjailed'
        rcases hjailed with hjailed | hne
        · exact hjailed'.imp_left fun h => h.trans hjailed
        · exact .inr hne

/-- The undelegations stay as they are. -/
structure SameUndelegations (b b' : StakingBooks) : Prop where
  infos : b'.undelegationInfos = b.undelegationInfos
  queue : b'.undelegateQueue = b.undelegateQueue

theorem SameUndelegations.refl (b : StakingBooks) : SameUndelegations b b := ⟨rfl, rfl⟩

theorem SameUndelegations.trans {b b' b'' : StakingBooks} (h : SameUndelegations b b')
    (h' : SameUndelegations b' b'') : SameUndelegations b b'' :=
  ⟨h'.infos.trans h.infos, h'.queue.trans h.queue⟩

/-! ## The loops -/

section Fields

variable (b : StakingBooks) (v : Validator)

@[simp] theorem StakingBooks.validators_setValidatorByPowerIndex :
    (b.setValidatorByPowerIndex v).validators = b.validators := by
  unfold StakingBooks.setValidatorByPowerIndex
  split_ifs <;> rfl

@[simp] theorem StakingBooks.delegators_setValidatorByPowerIndex :
    (b.setValidatorByPowerIndex v).delegators = b.delegators := by
  unfold StakingBooks.setValidatorByPowerIndex
  split_ifs <;> rfl

@[simp] theorem StakingBooks.shares_setValidatorByPowerIndex :
    (b.setValidatorByPowerIndex v).shares = b.shares := by
  unfold StakingBooks.setValidatorByPowerIndex
  split_ifs <;> rfl

@[simp] theorem StakingBooks.validatorsByConsAddr_setValidatorByPowerIndex :
    (b.setValidatorByPowerIndex v).validatorsByConsAddr = b.validatorsByConsAddr := by
  unfold StakingBooks.setValidatorByPowerIndex
  split_ifs <;> rfl

theorem StakingBooks.undelegations_setValidatorByPowerIndex :
    SameUndelegations b (b.setValidatorByPowerIndex v) := by
  unfold StakingBooks.setValidatorByPowerIndex
  split_ifs <;> exact ⟨rfl, rfl⟩

end Fields

/-- One turn of a loop over a delegator's validators: the vote for one validator is written or
deleted, and its total follows. -/
structure Turn (d : Address) (δ : Int) (vote : Option Int) (a : Address) (b b' : StakingBooks) :
    Prop where
  here : FollowsAt δ (b.getValidator a) (b'.getValidator a)
  elsewhere : ∀ q, q ≠ a → b'.getValidator q = b.getValidator q
  shares : ∀ e q, b'.getShares e q = if e = d ∧ q = a then vote else b.getShares e q
  delegators : b'.delegators = b.delegators
  undelegations : SameUndelegations b b'
  index : IndexOK b → IndexOK b'

/-- All turns of such a loop. -/
structure Turns (d : Address) (δ : Int) (vote : Option Int) (as : List Address)
    (b b' : StakingBooks) : Prop where
  validators : ∀ q, FollowsAt (if q ∈ as then δ else 0) (b.getValidator q) (b'.getValidator q)
  shares : ∀ e q, b'.getShares e q = if e = d ∧ q ∈ as then vote else b.getShares e q
  delegators : b'.delegators = b.delegators
  undelegations : SameUndelegations b b'
  index : IndexOK b → IndexOK b'

/-- **What a loop does.** The validators it runs over were read before it; as they are different,
no turn changes one that is still to come. -/
theorem turns_spec {d : Address} {δ : Int} {vote : Option Int}
    {f : StakingBooks → Validator → Except StakingError StakingBooks}
    (hf : ∀ {b v b'}, b.getValidator v.operatorAddress = some v → f b v = .ok b' →
      Turn d δ vote v.operatorAddress b b')
    {vals : List Validator} {b b' : StakingBooks}
    (hnd : (vals.map Validator.operatorAddress).Nodup)
    (hget : ∀ v ∈ vals, b.getValidator v.operatorAddress = some v)
    (h : vals.foldlM f b = .ok b') :
    Turns d δ vote (vals.map Validator.operatorAddress) b b' := by
  induction vals generalizing b with
  | nil =>
    cases h
    exact ⟨fun q => .refl _, fun e q => (if_neg fun h => List.not_mem_nil h.2).symm, rfl, .refl _,
      id⟩
  | cons v vals ih =>
    obtain ⟨b₁, hturn, hrest⟩ := foldlM_cons_eq_ok.mp h
    have hv := hf (hget v List.mem_cons_self) hturn
    rw [List.map_cons, List.nodup_cons] at hnd
    have hget₁ : ∀ w ∈ vals, b₁.getValidator w.operatorAddress = some w := by
      intro w hw
      rw [hv.elsewhere _ fun he => hnd.1 (he ▸ List.mem_map_of_mem hw)]
      exact hget w (List.mem_cons_of_mem _ hw)
    have hvals := ih hnd.2 hget₁ hrest
    refine ⟨fun q => ?_, fun e q => ?_, hvals.delegators.trans hv.delegators,
      hv.undelegations.trans hvals.undelegations, fun h => hvals.index (hv.index h)⟩
    · have hq := hvals.validators q
      rw [List.map_cons]
      by_cases hqv : q = v.operatorAddress
      · rw [hqv, if_neg hnd.1] at hq
        rw [hqv, if_pos List.mem_cons_self, ← add_zero δ]
        exact hv.here.trans hq
      · rw [hv.elsewhere q hqv] at hq
        simp only [List.mem_cons, hqv, false_or]
        exact hq
    · rw [hvals.shares, hv.shares, List.map_cons]
      by_cases hqv : q = v.operatorAddress <;> by_cases he : e = d <;>
        simp [hqv, he]

namespace StakingBooks

variable {b b' : StakingBooks} {d : Address} {last shares : Int} {v : Validator}

theorem followsAt_setShares (hget : b.getValidator v.operatorAddress = some v) {δ s : Int}
    (hs : s = v.delegatorShares + δ) :
    FollowsAt δ (b.getValidator v.operatorAddress) (some { v with delegatorShares := s }) := by
  rw [hget]
  exact ⟨rfl, hs, .inl rfl⟩

theorem getShares_set {e q a : Address} {s : Int} :
    (b.setShares d a s).getShares e q = if e = d ∧ q = a then some s else b.getShares e q := by
  unfold getShares setShares
  rw [KVStore.get_set]
  refine if_congr ?_ rfl rfl
  exact ⟨fun h => (Prod.mk.inj (toLex.injective h)).symm, fun h => by rw [h.1, h.2]⟩

theorem getShares_delete {e q a : Address} :
    (b.deleteShares a d).getShares e q = if e = d ∧ q = a then none else b.getShares e q := by
  unfold getShares deleteShares
  rw [KVStore.get_delete]
  refine if_congr ?_ rfl rfl
  exact ⟨fun h => (Prod.mk.inj (toLex.injective h)).symm, fun h => by rw [h.1, h.2]⟩

/-- The end of a turn that writes a validator's total. -/
theorem turn_of_write {δ s : Int} {vote : Option Int} {b₁ : StakingBooks}
    (hget : b.getValidator v.operatorAddress = some v) (hs : s = v.delegatorShares + δ)
    (hvalidators : b₁.validators = b.validators) (hdelegators : b₁.delegators = b.delegators)
    (hundelegations : SameUndelegations b b₁)
    (hindex : b₁.validatorsByConsAddr = b.validatorsByConsAddr)
    (hshares : ∀ e q, b₁.getShares e q =
      if e = d ∧ q = v.operatorAddress then vote else b.getShares e q) :
    Turn d δ vote v.operatorAddress b ((b₁.setValidator { v with delegatorShares := s
      }).setValidatorByPowerIndex { v with delegatorShares := s }) := by
  have hput : ((b₁.setValidator { v with delegatorShares := s }).setValidatorByPowerIndex
      { v with delegatorShares := s }).validators =
        b.validators.put { v with delegatorShares := s } := by
    rw [validators_setValidatorByPowerIndex, ← hvalidators]
    rfl
  refine ⟨?_, fun q hq => ?_, fun e q => ?_, ?_, ?_, fun h => h.write hget hput ?_ rfl rfl⟩
  · unfold getValidator
    rw [hput]
    have hself : (b.validators.put { v with delegatorShares := s }).get v.operatorAddress =
        some { v with delegatorShares := s } := KeyedStore.get_put_self
    rw [hself]
    exact followsAt_setShares hget hs
  · unfold getValidator
    rw [hput]
    exact KeyedStore.get_put_ne hq
  · unfold getShares
    rw [shares_setValidatorByPowerIndex]
    exact hshares e q
  · rw [delegators_setValidatorByPowerIndex]
    exact hdelegators
  · have hset := undelegations_setValidatorByPowerIndex
      (b₁.setValidator { v with delegatorShares := s }) { v with delegatorShares := s }
    exact ⟨hset.infos.trans hundelegations.infos, hset.queue.trans hundelegations.queue⟩
  · rw [validatorsByConsAddr_setValidatorByPowerIndex]
    exact hindex

theorem updateShare_turn (hget : b.getValidator v.operatorAddress = some v)
    (h : updateShare d last shares b v = .ok b') :
    Turn d (shares - last) (some shares) v.operatorAddress b b' := by
  unfold updateShare at h
  simp only [bind_eq_ok, require_eq_ok, exists_const, pure_eq_ok] at h
  obtain ⟨-, rfl⟩ := h
  exact turn_of_write hget (by omega) rfl rfl ⟨rfl, rfl⟩ rfl fun _ _ => getShares_set

theorem addShares_turn (hget : b.getValidator v.operatorAddress = some v) :
    Turn d shares (some shares) v.operatorAddress b (addShares d shares b v) :=
  turn_of_write hget rfl rfl rfl ⟨rfl, rfl⟩ rfl fun _ _ => getShares_set

/-- **What removing a validator does.** -/
theorem removeValidator_spec {a : Address} (h : b.removeValidator a = .ok b') :
    (∀ q, b'.getValidator q = if q = a then none else b.getValidator q) ∧
      b'.shares = b.shares ∧ b'.delegators = b.delegators ∧ SameUndelegations b b' ∧
      (IndexOK b → IndexOK b') := by
  unfold removeValidator at h
  split at h
  · rename_i hnone
    cases h
    refine ⟨fun q => ?_, rfl, rfl, .refl _, id⟩
    split_ifs with hq
    · rw [hq, hnone]
    · rfl
  · rename_i v hv
    simp only [bind_eq_ok, require_eq_ok, exists_const, pure_eq_ok] at h
    obtain ⟨-, -, rfl⟩ := h
    refine ⟨fun q => KeyedStore.get_delete, rfl, rfl, ⟨rfl, rfl⟩, fun h q w hw => ?_⟩
    -- two validators never have the same consensus address
    have hget : (if q = a then none else b.getValidator q) = some w :=
      KeyedStore.get_delete.symm.trans hw
    split_ifs at hget with hq
    refine (KVStore.get_delete_ne fun he => hq ?_).trans (h q w hget)
    exact Option.some.inj ((h q w hget).symm.trans (he ▸ h a v hv))

theorem withdrawShares_turn (hget : b.getValidator v.operatorAddress = some v)
    (h : withdrawShares d last b v = .ok b') :
    Turn d (-last) none v.operatorAddress b b' := by
  unfold withdrawShares at h
  dsimp only at h
  split_ifs at h with hempty
  · obtain ⟨hvalidators, hshares, hdelegators, hundelegations, hindex⟩ := removeValidator_spec h
    refine ⟨?_, fun q hq => ?_, fun e q => ?_, hdelegators, ?_, fun h => hindex (h.congr rfl rfl)⟩
    · rw [hvalidators, if_pos rfl, hget]
      exact ⟨hempty.2.1, hempty.2.2⟩
    · rw [hvalidators, if_neg hq]
      rfl
    · unfold getShares
      rw [hshares]
      exact getShares_delete
    · exact ⟨hundelegations.infos, hundelegations.queue⟩
  · cases h
    exact turn_of_write hget rfl rfl rfl ⟨rfl, rfl⟩ rfl fun _ _ => getShares_delete

end StakingBooks

/-! ## Revised records -/

/-- A delegator's record is replaced, and the records of its votes and the totals follow. -/
structure Revised (d : Address) (o o' : Option Delegator) (b b' : StakingBooks) : Prop where
  before : b.getDelegator d = o
  after : b'.getDelegator d = o'
  others : ∀ e, e ≠ d → b'.getDelegator e = b.getDelegator e
  shares : ∀ e a, b'.getShares e a =
    if e = d then o'.bind fun r => r.recorded a else b.getShares e a
  validators : ∀ a, FollowsAt (votesOf o' a - votesOf o a) (b.getValidator a) (b'.getValidator a)
  index : IndexOK b → IndexOK b'

namespace Revised

variable {d : Address} {o o' o'' : Option Delegator} {b b' b'' : StakingBooks}

theorem trans (h : Revised d o o' b b') (h' : Revised d o' o'' b' b'') : Revised d o o'' b b'' := by
  refine ⟨h.before, h'.after, fun e he => (h'.others e he).trans (h.others e he), fun e a => ?_,
    fun a => ?_, fun hi => h'.index (h.index hi)⟩
  · rw [h'.shares, h.shares]
    split_ifs <;> rfl
  · have hab := (h.validators a).trans (h'.validators a)
    rwa [show votesOf o' a - votesOf o a + (votesOf o'' a - votesOf o' a) =
      votesOf o'' a - votesOf o a by omega] at hab

theorem sumBy (h : Revised d o o' b b') (f : Delegator → Int) :
    (b'.delegators.store.sumBy fun _ r => f r) =
      (b.delegators.store.sumBy fun _ r => f r) - o.elim 0 f + o'.elim 0 f := by
  have hat : ∀ {b : StakingBooks} {o : Option Delegator}, b.getDelegator d = o →
      b.delegators.store.valAt (fun _ r => f r) d = o.elim 0 f := by
    intro b o ho
    unfold KVStore.valAt
    rw [← ho]
    rfl
  rw [KVStore.sumBy_change _ h.others, hat h.before, hat h.after]

theorem totalVotes (h : Revised d o o' b b') (a : Address) :
    b'.totalVotes a = b.totalVotes a - votesOf o a + votesOf o' a :=
  h.sumBy fun r => r.votes a

end Revised

namespace SharesOK

variable {d a : Address} {o o' : Option Delegator} {b b' : StakingBooks}

theorem totalVotes_nonneg (h : SharesOK b) (a : Address) : 0 ≤ b.totalVotes a :=
  KVStore.sumBy_nonneg _ fun d r hr => (h.sound d r hr).votes_nonneg a

/-- A validator without votes is in no delegator's record. -/
theorem not_mem_of_totalVotes (h : ∀ d r, b.getDelegator d = some r → r.Sound)
    (hzero : b.totalVotes a = 0) {r : Delegator} (hr : b.getDelegator d = some r) :
    a ∉ r.validatorAddresses := by
  intro ha
  have hpos := (h d r hr).votes_pos ha
  have hle : r.votes a ≤ b.totalVotes a :=
    KVStore.le_sumBy _ (fun e r' hr' => (h e r' hr').votes_nonneg a) hr
  omega

theorem totalVotes_of_none (h : SharesOK b) (hnone : b.getValidator a = none) :
    b.totalVotes a = 0 := by
  refine (KVStore.sumBy_congr _ fun d r hr => if_neg fun ha => ?_).trans KVStore.sumBy_zero
  have hsome := h.exist d r a hr ha
  rw [hnone] at hsome
  cases hsome

/-- **A revised record keeps the agreement**, if it can be stored and its validators are there. -/
theorem revised (h : SharesOK b) (hrev : Revised d o o' b b')
    (hsound : ∀ r, o' = some r → r.Sound)
    (hexist : ∀ r a, o' = some r → a ∈ r.validatorAddresses → (b.getValidator a).isSome) :
    SharesOK b' := by
  have hsound' : ∀ e r, b'.getDelegator e = some r → r.Sound := by
    intro e r hr
    by_cases he : e = d
    · rw [he, hrev.after] at hr
      exact hsound r hr
    · rw [hrev.others e he] at hr
      exact h.sound e r hr
  have hwas : ∀ e r a, b'.getDelegator e = some r → a ∈ r.validatorAddresses →
      (b.getValidator a).isSome := by
    intro e r a hr ha
    by_cases he : e = d
    · rw [he, hrev.after] at hr
      exact hexist r a hr ha
    · rw [hrev.others e he] at hr
      exact h.exist e r a hr ha
  refine ⟨hsound', fun e a => ?_, fun e r a hr ha => ?_, fun a v' hv' => ?_, fun a v' hv' => ?_,
    hrev.index h.index⟩
  · rw [hrev.shares]
    split_ifs with he
    · rw [he, hrev.after]
    · rw [hrev.others e he]
      exact h.records e a
  · -- a validator that is removed has no votes left
    obtain ⟨v, hv⟩ := Option.isSome_iff_exists.mp (hwas e r a hr ha)
    have hfollows := hrev.validators a
    rw [hv] at hfollows
    cases hv' : b'.getValidator a with
    | some v' => rfl
    | none =>
      rw [hv'] at hfollows
      obtain ⟨hmsd, hzero⟩ := hfollows
      have htotal := h.totals a v hv
      have hown : v.own = 0 := if_neg (by omega)
      have hchange := hrev.totalVotes a
      exact absurd ha (not_mem_of_totalVotes hsound' (by omega) hr)
  · have hfollows := hrev.validators a
    rw [hv'] at hfollows
    cases hv : b.getValidator a with
    | none =>
      rw [hv] at hfollows
      cases hfollows.1
    | some v =>
      rw [hv] at hfollows
      obtain ⟨hmsd, hshares, -⟩ := hfollows
      have hown : v'.own = v.own := by
        unfold Validator.own
        rw [hmsd]
      rw [hshares, h.totals a v hv, hown, hrev.totalVotes a]
      omega
  · have hfollows := hrev.validators a
    rw [hv'] at hfollows
    cases hv : b.getValidator a with
    | none =>
      rw [hv] at hfollows
      cases hfollows.1
    | some v =>
      rw [hv] at hfollows
      obtain ⟨hmsd, -, hjailed⟩ := hfollows
      obtain ⟨hnonneg, hzero⟩ := h.msd a v hv
      rw [hmsd]
      refine ⟨hnonneg, fun h0 => ?_⟩
      rcases hjailed with hjailed | hne
      · rw [hjailed]
        exact hzero h0
      · exact absurd h0 hne

end SharesOK

/-! ## What the keeper does to a delegator -/

namespace SharesOK

variable {d a : Address} {b b' : StakingBooks} {r r' : Delegator}

/-- The delegator's validators, as they are read before a loop. -/
theorem lastVals (h : SharesOK b) (hr : b.getDelegator d = some r) :
    ((r.validatorAddresses.filterMap b.getValidator).map Validator.operatorAddress =
      r.validatorAddresses) ∧
    ∀ v ∈ r.validatorAddresses.filterMap b.getValidator,
      b.getValidator v.operatorAddress = some v := by
  have hkey : ∀ a v, b.getValidator a = some v → v.operatorAddress = a := fun a v hv =>
    KeyedStore.key_of_get hv
  have hexist := fun a => h.exist d r a hr
  refine ⟨?_, fun v hv => ?_⟩
  · generalize r.validatorAddresses = as at hexist
    induction as with
    | nil => rfl
    | cons a as ih =>
      obtain ⟨v, hv⟩ := Option.isSome_iff_exists.mp (hexist a List.mem_cons_self)
      rw [List.filterMap_cons_some hv, List.map_cons, hkey a v hv,
        ih fun q hq => hexist q (List.mem_cons_of_mem _ hq)]
  · obtain ⟨a, -, ha⟩ := List.mem_filterMap.mp hv
    rw [hkey a v ha]
    exact ha

theorem getLastVals (hr : b.getDelegator d = some r) : b.getLastValsAddedSharesExisted d =
    (r.validatorAddresses.filterMap b.getValidator, r.shares) := by
  unfold StakingBooks.getLastValsAddedSharesExisted
  rw [hr]

/-- A loop over the delegator's validators, and the record that is then written. -/
theorem revised_of_turns (h : SharesOK b) (hr : b.getDelegator d = some r) {δ : Int}
    {vote : Option Int} {b₁ : StakingBooks} {o' : Option Delegator}
    (hturns : Turns d δ vote r.validatorAddresses b b₁)
    (hbooks : b'.validators = b₁.validators)
    (hindex : b'.validatorsByConsAddr = b₁.validatorsByConsAddr) (hshares : b'.shares = b₁.shares)
    (hafter : b'.getDelegator d = o')
    (hothers : ∀ e, e ≠ d → b'.getDelegator e = b₁.getDelegator e)
    (hrecorded : ∀ a, (o'.bind fun r' => r'.recorded a) =
      if a ∈ r.validatorAddresses then vote else none)
    (hvotes : ∀ a, votesOf o' a - r.votes a = if a ∈ r.validatorAddresses then δ else 0) :
    Revised d (some r) o' b b' := by
  refine ⟨hr, hafter, fun e he => ?_, fun e a => ?_, fun a => ?_,
    fun hi => (hturns.index hi).congr hbooks hindex⟩
  · rw [hothers e he]
    unfold StakingBooks.getDelegator
    rw [hturns.delegators]
  · have hget : b'.getShares e a = b₁.getShares e a := by
      unfold StakingBooks.getShares
      rw [hshares]
    rw [hget, hturns.shares, hrecorded]
    by_cases he : e = d
    · have hold : b.getShares d a = r.recorded a := by
        rw [h.records, hr]
        rfl
      rw [if_pos he]
      by_cases ha : a ∈ r.validatorAddresses
      · rw [if_pos ⟨he, ha⟩, if_pos ha]
      · rw [if_neg fun hb => ha hb.2, if_neg ha, he, hold]
        exact if_neg ha
    · rw [if_neg he, if_neg fun hb => he hb.1]
  · have hget : b'.getValidator a = b₁.getValidator a := by
      unfold StakingBooks.getValidator
      rw [hbooks]
    rw [hget]
    show FollowsAt (votesOf o' a - r.votes a) _ _
    rw [hvotes]
    exact hturns.validators a

/-- **What `UpdateShares` does**: a delegator that has voted votes with new shares. -/
theorem updateShares_revised (h : SharesOK b) (hr : b.getDelegator d = some r)
    {weight : Int → Int} {time tokens : Int} (hok : b.updateShares weight time d tokens = .ok b') :
    Revised d (some r) (some { r with
      shares := if r.validatorAddresses = [] then r.shares else calculateWeight weight time tokens
      }) b b' ∧ SameUndelegations b b' := by
  obtain ⟨haddrs, hget⟩ := h.lastVals hr
  have hnd : ((r.validatorAddresses.filterMap b.getValidator).map
      Validator.operatorAddress).Nodup := by
    rw [haddrs]
    exact (h.sound d r hr).nodup
  unfold StakingBooks.updateShares at hok
  rw [getLastVals hr] at hok
  dsimp only at hok
  split_ifs at hok with hnil
  · cases hok
    have hempty : r.validatorAddresses = [] := by
      rw [← haddrs, hnil]
      rfl
    rw [if_pos hempty]
    refine ⟨⟨hr, hr, fun _ _ => rfl, fun e a => ?_, fun a => ?_, id⟩, .refl _⟩
    · split_ifs with he
      · rw [he, h.records, hr]
      · rfl
    · rw [sub_self]
      exact .refl _
  · have hne : r.validatorAddresses ≠ [] := by
      intro hempty
      rw [hempty] at hnil
      exact hnil rfl
    simp only [bind_eq_ok, orThrow_eq_ok, pure_eq_ok] at hok
    obtain ⟨r₁, hr₁, b₁, hloop, rfl⟩ := hok
    cases hr.symm.trans hr₁
    have hturns := turns_spec (fun hv hturn => StakingBooks.updateShare_turn hv hturn) hnd hget hloop
    rw [haddrs] at hturns
    have hkey : r.delegatorAddress = d := KeyedStore.key_of_get hr
    rw [if_neg hne]
    refine ⟨h.revised_of_turns hr hturns rfl rfl rfl ?_ (fun e he => ?_) (fun a => ?_) fun a => ?_,
      hturns.undelegations.infos, hturns.undelegations.queue⟩
    · rw [← hkey]
      exact KeyedStore.get_put_self
    · exact KeyedStore.get_put_ne (hkey ▸ he)
    · rfl
    · unfold votesOf Delegator.votes
      dsimp only [Option.elim]
      split_ifs
      · rfl
      · rfl

theorem withdrawLastShares_turns (h : SharesOK b) (hr : b.getDelegator d = some r)
    (hok : b.withdrawLastShares d (r.validatorAddresses.filterMap b.getValidator) r.shares =
      .ok b') : Turns d (-r.shares) none r.validatorAddresses b b' := by
  obtain ⟨haddrs, hget⟩ := h.lastVals hr
  have hnd : ((r.validatorAddresses.filterMap b.getValidator).map
      Validator.operatorAddress).Nodup := by
    rw [haddrs]
    exact (h.sound d r hr).nodup
  have hturns := turns_spec (fun hv hturn => StakingBooks.withdrawShares_turn hv hturn) hnd hget hok
  rwa [haddrs] at hturns

/-- **A delegator is deleted** with its votes. -/
theorem deleted_revised (h : SharesOK b) (hr : b.getDelegator d = some r) {b₁ : StakingBooks}
    (hturns : Turns d (-r.shares) none r.validatorAddresses b b₁)
    (hvalidators : b'.validators = b₁.validators)
    (hindex : b'.validatorsByConsAddr = b₁.validatorsByConsAddr) (hshares : b'.shares = b₁.shares)
    (hdelegators : b'.delegators = b₁.delegators.delete d) : Revised d (some r) none b b' := by
  refine h.revised_of_turns hr hturns hvalidators hindex hshares ?_ (fun e he => ?_) (fun a => ?_)
    fun a => ?_
  · unfold StakingBooks.getDelegator
    rw [hdelegators, KeyedStore.get_delete, if_pos rfl]
  · unfold StakingBooks.getDelegator
    rw [hdelegators]
    exact KeyedStore.get_delete_ne he
  · rw [ite_self]
    rfl
  · unfold Delegator.votes
    show 0 - _ = _
    split_ifs <;> omega

/-- **A record is written with the same votes.** -/
theorem setDelegator_revised (h : SharesOK b) (hkey : r'.delegatorAddress = d)
    (hvotes : ∀ a, r'.recorded a = (b.getDelegator d).bind fun r => r.recorded a) :
    Revised d (b.getDelegator d) (some r') b (b.setDelegator r') := by
  refine ⟨rfl, ?_, fun e he => KeyedStore.get_put_ne (hkey ▸ he), fun e a => ?_, fun a => ?_,
    fun hi => hi.congr rfl rfl⟩
  · rw [← hkey]
    exact KeyedStore.get_put_self
  · show b.getShares e a = _
    split_ifs with he
    · rw [he, h.records, ← hvotes]
      rfl
    · rfl
  · have heq : votesOf (some r') a = votesOf (b.getDelegator d) a := by
      have hrec := hvotes a
      unfold Delegator.recorded at hrec
      unfold votesOf Delegator.votes
      cases hd : b.getDelegator d with
      | none =>
        rw [hd, Option.bind_none] at hrec
        split_ifs at hrec with ha
        exact if_neg ha
      | some r =>
        rw [hd, Option.bind_some] at hrec
        dsimp only [Option.elim]
        split_ifs at hrec ⊢
        · exact Option.some.inj hrec
        · rfl
    rw [heq, sub_self]
    exact .refl _

/-- A stored record is replaced by one that votes alike. -/
theorem setDelegator_revised_some (h : SharesOK b) (hr : b.getDelegator d = some r)
    (hkey : r'.delegatorAddress = r.delegatorAddress)
    (haddrs : r'.validatorAddresses = r.validatorAddresses) (hshares : r'.shares = r.shares) :
    Revised d (some r) (some r') b (b.setDelegator r') := by
  have hrd : r.delegatorAddress = d := KeyedStore.key_of_get hr
  have hrev := h.setDelegator_revised (hkey.trans hrd) fun a => by
    rw [hr, Option.bind_some, Delegator.recorded, Delegator.recorded, haddrs, hshares]
  rwa [hr] at hrev

/-- **What adding shares does**: the old votes are withdrawn, and the new ones written. -/
theorem addShares_revised (h : SharesOK b) (hr : b.getDelegator d = some r) {b₁ : StakingBooks}
    (hwithdraw : Turns d (-r.shares) none r.validatorAddresses b b₁) {vals : List Validator}
    (hnd : (vals.map Validator.operatorAddress).Nodup)
    (hget : ∀ v ∈ vals, b₁.getValidator v.operatorAddress = some v) (shares : Int) :
    let r' := { r with
      validatorAddresses := vals.map Validator.operatorAddress, shares := shares }
    Revised d (some r) (some r') b
      ((vals.foldl (StakingBooks.addShares d shares) b₁).setDelegator r') ∧
      SameUndelegations b ((vals.foldl (StakingBooks.addShares d shares) b₁).setDelegator r') := by
  intro r'
  have hloop : vals.foldlM (fun b v => (pure (StakingBooks.addShares d shares b v) :
      Except StakingError StakingBooks)) b₁ = .ok (vals.foldl (StakingBooks.addShares d shares) b₁) :=
    List.foldlM_pure
  have hadd := turns_spec (δ := shares) (fun {b v b'} hv hturn => by
    cases hturn
    exact StakingBooks.addShares_turn hv) hnd hget hloop
  have hkey : r.delegatorAddress = d := KeyedStore.key_of_get hr
  have hsame := hwithdraw.undelegations.trans hadd.undelegations
  refine ⟨⟨hr, ?_, fun e he => ?_, fun e a => ?_, fun a => ?_,
    fun hi => (hadd.index (hwithdraw.index hi)).congr rfl rfl⟩, hsame.infos, hsame.queue⟩
  · rw [← hkey]
    exact KeyedStore.get_put_self
  · refine (KeyedStore.get_put_ne (hkey ▸ he)).trans ?_
    rw [hadd.delegators, hwithdraw.delegators]
    rfl
  · show (vals.foldl (StakingBooks.addShares d shares) b₁).getShares e a = _
    rw [hadd.shares, hwithdraw.shares]
    by_cases he : e = d
    · have hold : b.getShares d a = r.recorded a := by
        rw [h.records, hr]
        rfl
      rw [if_pos he, he, hold]
      unfold Delegator.recorded
      show _ = if a ∈ vals.map Validator.operatorAddress then some shares else none
      by_cases ha : a ∈ vals.map Validator.operatorAddress
      · rw [if_pos ⟨rfl, ha⟩, if_pos ha]
      · rw [if_neg fun hb => ha hb.2, if_neg ha]
        by_cases hold : a ∈ r.validatorAddresses
        · exact if_pos ⟨rfl, hold⟩
        · rw [if_neg fun hb => hold hb.2, if_neg hold]
    · rw [if_neg he, if_neg fun hb => he hb.1, if_neg fun hb => he hb.1]
  · have hfollows := (hwithdraw.validators a).trans (hadd.validators a)
    have hsum : votesOf (some r') a - votesOf (some r) a =
        (if a ∈ r.validatorAddresses then -r.shares else 0) +
          if a ∈ vals.map Validator.operatorAddress then shares else 0 := by
      show (if a ∈ vals.map Validator.operatorAddress then shares else 0) -
        (if a ∈ r.validatorAddresses then r.shares else 0) = _
      split_ifs <;> omega
    rw [hsum]
    exact hfollows

end SharesOK

end Okexchain
