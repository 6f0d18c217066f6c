import Okexchain.Staking.Election

/-!
# Validators that are kicked out, and validators that have waited

What `KickOutAndReturnValidatorSetUpdates`, `EndBlocker` and `UnbondAllMatureValidatorQueue` do to
validators whose indexes agree (`Election.lean` has what an election does).

* Inside an epoch one candidate is promoted per entry of the list of abandoned validators, and every
  bonded validator of the list is discharged. So the set does not grow if the list has every
  validator once, and only bonded ones (`kickOutAndReturnValidatorSetUpdates_ends`).
* `discharge` panics when a validator of the list is gone, or has just been promoted. If the
  agreement is `strict`, they are all there and jailed.

**Results.** `updateValidatorSet_ends`: at the end of a block the indexes agree, Tendermint is told
of the new set by one update per key, the total is the sum of the powers, and no bonded validator is
jailed. `unbondAllMatureValidatorQueue_ends`: validators whose time has come are unbonded, and
removed if nothing is left of them.
-/

namespace Okexchain

section KickOut

variable {banned : Address → Prop} {strict : Prop} {due : Int} {w₀ w w' : ValidatorSet}
  {b₀ b b' : StakingBooks} {v : Validator} {done : List Address} {us : List ValidatorUpdate}

/-! ## Totals of the set -/

namespace ValidatorSet

variable {a key : Address} {p : Int}

theorem sum_join (hnone : w.powers.get a = none) : (w.join a key p).sum = w.sum + p :=
  KVStore.sumBy_set_new _ hnone

theorem size_join (hnone : w.powers.get a = none) : (w.join a key p).size = w.size + 1 := by
  have hlen : ((w.join a key p).size : Int) = w.size + 1 := by
    unfold size
    rw [KVStore.length_entries, KVStore.length_entries]
    exact KVStore.sumBy_set_new _ hnone
  omega

theorem sum_leave (hsome : w.powers.get a = some p) : (w.leave a key).sum = w.sum - p := by
  refine (KVStore.sumBy_delete _).trans ?_
  rw [KVStore.valAt_of_get _ hsome]
  rfl

theorem size_leave (hsome : w.powers.get a = some p) : (w.leave a key).size + 1 = w.size := by
  have hlen : ((w.leave a key).size : Int) = w.size - 1 := by
    unfold size
    rw [KVStore.length_entries, KVStore.length_entries]
    refine (KVStore.sumBy_delete _).trans ?_
    rw [KVStore.valAt_of_get _ hsome]
  omega

end ValidatorSet

/-! ## Promotion -/

/-- What both loops of a kick-out keep. The validators that were bonded before and are treated have
lost their power, the others have come from the power index. -/
structure Kicking (banned : Address → Prop) (strict : Prop) (due : Int) (w₀ : ValidatorSet)
    (b₀ : StakingBooks) (done : List Address) (w : ValidatorSet)
    (r : StakingBooks.KickOut) : Prop where
  roll : Rolling banned strict due w₀ b₀ done r.updates w r.books
  sum : r.totalPower - w.sum = w₀.total - w₀.sum
  joined : ∀ q ∈ done, w₀.powers.get q = none → b₀.IsCandidate q
  left : ∀ q ∈ done, (w₀.powers.get q).isSome → w.powers.get q = none

theorem Kicking.promoted {r : StakingBooks.KickOut}
    (h : Kicking banned strict due w₀ b₀ done w r) {a key : Address} {p : Int} (hnew : a ∉ done)
    (hcandidate : b₀.IsCandidate a) (hnone : w₀.powers.get a = none)
    (hroll : Rolling banned strict due w₀ b₀ (done ++ [a]) us (w.join a key p) b') :
    Kicking banned strict due w₀ b₀ (done ++ [a]) (w.join a key p)
      ⟨b', us, r.totalPower + p⟩ := by
  refine ⟨hroll, ?_, fun q hq hq₀ => ?_, fun q hq hq₀ => ?_⟩
  · rw [ValidatorSet.sum_join ((h.roll.others a hnew).trans hnone)]
    have := h.sum
    dsimp only
    omega
  · rcases List.mem_append.mp hq with hq | hq
    · exact h.joined q hq hq₀
    · rw [List.mem_singleton.mp hq]
      exact hcandidate
  · rcases List.mem_append.mp hq with hq | hq
    · refine (KVStore.get_set_ne fun he : q = a => hnew (he ▸ hq)).trans ?_
      exact h.left q hq hq₀
    · rw [List.mem_singleton.mp hq, hnone] at hq₀
      cases hq₀

theorem Kicking.discharged {r : StakingBooks.KickOut}
    (h : Kicking banned strict due w₀ b₀ done w r) {a key : Address} {p : Int} (hnew : a ∉ done)
    (hsome : w₀.powers.get a = some p)
    (hroll : Rolling banned strict due w₀ b₀ (done ++ [a]) us (w.leave a key) b') :
    Kicking banned strict due w₀ b₀ (done ++ [a]) (w.leave a key) ⟨b', us, r.totalPower - p⟩ := by
  refine ⟨hroll, ?_, fun q hq hq₀ => ?_, fun q hq hq₀ => ?_⟩
  · rw [ValidatorSet.sum_leave ((h.roll.others a hnew).trans hsome)]
    have := h.sum
    dsimp only
    omega
  · rcases List.mem_append.mp hq with hq | hq
    · exact h.joined q hq hq₀
    · rw [List.mem_singleton.mp hq, hsome] at hq₀
      cases hq₀
  · refine KVStore.get_delete.trans ?_
    split_ifs with hqa
    · rfl
    · rcases List.mem_append.mp hq with hq | hq
      · exact h.left q hq hq₀
      · exact absurd (List.mem_singleton.mp hq) hqa

namespace StakingBooks

/-- **The loop that promotes candidates.** -/
theorem promote_ends {count : Nat} {l : List Address} {r : KickOut}
    (h : Kicking banned strict due w₀ b₀ done w r) (hl : l.Nodup) (hnew : ∀ q ∈ l, q ∉ done)
    (hcandidates : ∀ q ∈ l, b₀.IsCandidate q) :
    Ends (promote w₀.powers count l r) (fun r' => ∃ done' w',
      Kicking banned strict due w₀ b₀ done' w' r' ∧ w'.size ≤ w.size + count ∧
        ∀ q, (w₀.powers.get q).isSome → w'.powers.get q = w.powers.get q) fun _ => False := by
  induction l generalizing count r done w with
  | nil =>
    cases count with
    | zero =>
      unfold promote
      exact ⟨done, w, h, le_rfl, fun _ _ => rfl⟩
    | succ count =>
      unfold promote
      exact ⟨done, w, h, Nat.le_add_right _ _, fun _ _ => rfl⟩
  | cons a rest ih =>
    cases count with
    | zero =>
      unfold promote
      exact ⟨done, w, h, le_rfl, fun _ _ => rfl⟩
    | succ count =>
      have hrest := List.nodup_cons.mp hl
      have hskip : Ends (promote w₀.powers (count + 1) rest r) (fun r' => ∃ done' w',
          Kicking banned strict due w₀ b₀ done' w' r' ∧ w'.size ≤ w.size + (count + 1) ∧
            ∀ q, (w₀.powers.get q).isSome → w'.powers.get q = w.powers.get q) fun _ => False :=
        ih h hrest.2 (fun q hq => hnew q (List.mem_cons_of_mem _ hq))
          fun q hq => hcandidates q (List.mem_cons_of_mem _ hq)
      unfold promote
      refine .ite (fun _ => hskip) fun hlast => ?_
      obtain ⟨v, hv, rfl, hfree⟩ := (hcandidates a List.mem_cons_self).get h.roll
      have hout : v.operatorAddress ∉ done := hnew _ List.mem_cons_self
      have hnone₀ : w₀.powers.get v.operatorAddress = none :=
        Option.not_isSome_iff_eq_none.mp hlast
      have hnone : w.powers.get v.operatorAddress = none := by rw [h.roll.others _ hout, hnone₀]
      have hstatus : v.status ≠ .bonded := fun hs => by
        have hsome := (h.roll.ok.bonded v.operatorAddress).mpr ⟨v, hv, hs⟩
        rw [hnone] at hsome
        cases hsome
      unfold mustGetValidator
      rw [hv]
      refine Ends.bind (Ends.eq_ok rfl) fun u _ hu => ?_
      rw [hu]
      refine .ite (fun _ => hskip) fun hpos => ?_
      rw [require, if_pos hstatus]
      refine Ends.bind (Ends.eq_ok rfl) fun _ _ _ => ?_
      have hroll := h.roll.join hv hout hfree hpos
      have hset : (r.books.bondValidator v).1.lastValidatorPower = r.books.lastValidatorPower :=
        lastValidatorPower_setValidatorByPowerIndex _ _
      have hbond : r.books.bondValidator v =
          ((r.books.bondValidator v).1, v.updateStatus .bonded) := rfl
      rw [hbond]
      dsimp only
      rw [hset]
      have hnew' : ∀ q ∈ rest, q ∉ done ++ [v.operatorAddress] := fun q hq hmem => by
        rcases List.mem_append.mp hmem with hmem | hmem
        · exact hnew q (List.mem_cons_of_mem _ hq) hmem
        · exact hrest.1 (List.mem_singleton.mp hmem ▸ hq)
      refine Ends.mono (ih (h.promoted hout (hcandidates _ List.mem_cons_self) hnone₀ hroll)
        hrest.2 hnew' fun q hq => hcandidates q (List.mem_cons_of_mem _ hq)) ?_ fun _ he => he
      rintro r' ⟨done', w', hkick', hsize, hsame⟩
      refine ⟨done', w', hkick', ?_, fun q hq => ?_⟩
      · rw [ValidatorSet.size_join hnone] at hsize
        omega
      · rw [hsame q hq]
        refine KVStore.get_set_ne ?_
        rintro rfl
        rw [hnone₀] at hq
        cases hq

/-! ## Discharge -/

/-- One validator of the list: it has no power afterwards. -/
theorem discharge_step {height time : Int} {params : StakingParams}
    (hdue : due = time + params.unbondingTime) {r : KickOut} {a : Address}
    (h : Kicking banned strict due w₀ b₀ done w r) (ha : a ∈ b₀.abandonedValidatorAddrs) :
    Ends (discharge height time params w₀.powers r a) (fun r' => ∃ done' w',
      Kicking banned strict due w₀ b₀ done' w' r' ∧
        (∀ q, w'.powers.get q = if q = a then none else w.powers.get q) ∧
        ((w.powers.get a).isSome → w'.size + 1 = w.size)) fun _ => ¬ strict := by
  have hkept : strict → r.books.Has a fun v => v.jailed = true ∧ v.status ≠ .unbonded := fun hs =>
    h.roll.ok.abandoned hs a (h.roll.abandoned ▸ ha)
  unfold discharge mustGetValidator
  cases hv : r.books.getValidator a with
  | none => exact fun hs => not_has hv (hkept hs)
  | some v =>
    obtain rfl : v.operatorAddress = a := KeyedStore.key_of_get hv
    refine Ends.bind (Ends.eq_ok rfl) fun u _ hu => ?_
    rw [hu]
    have hbonded := h.roll.ok.bonded v.operatorAddress
    rw [has_of_get hv] at hbonded
    refine .ite (fun hstatus => ?_) fun hstatus => ?_
    · have hnone : w.powers.get v.operatorAddress = none :=
        Option.not_isSome_iff_eq_none.mp fun hsome => hstatus (hbonded.mp hsome)
      refine Ends.pure ⟨done, w, h, fun q => ?_, fun hsome => ?_⟩
      · split_ifs with hq
        · rw [hq, hnone]
        · rfl
      · rw [hnone] at hsome
        cases hsome
    · rw [not_not] at hstatus
      cases hold : w₀.powers.get v.operatorAddress with
      | none =>
        -- it has just been promoted, so it is not jailed
        have hbegin : ∃ b' v', r.books.beginUnbondingValidator height time params v =
            .ok (b', v') := by
          unfold beginUnbondingValidator
          rw [require, if_pos hstatus]
          exact ⟨_, _, rfl⟩
        obtain ⟨b', v', hbegin⟩ := hbegin
        rw [hbegin]
        intro hs
        have hmem : v.operatorAddress ∈ done := by
          by_contra hout
          have hsome := hbonded.mpr hstatus
          rw [h.roll.others _ hout, hold] at hsome
          cases hsome
        obtain ⟨u, hu, -, hfree⟩ := (h.joined _ hmem hold).get h.roll
        have hjailed := hkept hs
        rw [has_of_get hu] at hjailed
        exact Bool.noConfusion (hfree.symm.trans hjailed.1)
      | some p =>
        have hout : v.operatorAddress ∉ done := fun hmem => by
          have hsome := hbonded.mpr hstatus
          rw [h.left _ hmem (by rw [hold]; rfl)] at hsome
          cases hsome
        obtain ⟨b', v', hbegin, -, -, hroll⟩ := h.roll.leave hv hout hstatus height hdue
        rw [hbegin]
        refine Ends.pure ⟨_, _, h.discharged hout hold hroll, fun q => KVStore.get_delete, ?_⟩
        intro
        exact ValidatorSet.size_leave ((h.roll.others _ hout).trans hold)

/-- **The loop that discharges the abandoned validators.** -/
theorem discharge_ends {height time : Int} {params : StakingParams}
    (hdue : due = time + params.unbondingTime) {l : List Address} {r : KickOut}
    (h : Kicking banned strict due w₀ b₀ done w r) (hl : ∀ a ∈ l, a ∈ b₀.abandonedValidatorAddrs) :
    Ends (l.foldlM (discharge height time params w₀.powers) r) (fun r' => ∃ done' w',
      Kicking banned strict due w₀ b₀ done' w' r' ∧
        (∀ q, w'.powers.get q = if q ∈ l then none else w.powers.get q) ∧
        (l.Nodup → (∀ a ∈ l, (w.powers.get a).isSome) → w'.size + l.length = w.size))
      fun _ => ¬ strict := by
  induction l generalizing r done w with
  | nil => exact ⟨done, w, h, fun q => (if_neg List.not_mem_nil).symm, fun _ _ => rfl⟩
  | cons a rest ih =>
    rw [List.foldlM_cons]
    refine Ends.bind (discharge_step hdue h (hl a List.mem_cons_self)) ?_
    rintro r₁ - ⟨done₁, w₁, h₁, hset₁, hsize₁⟩
    refine (ih h₁ fun q hq => hl q (List.mem_cons_of_mem _ hq)).mono ?_ fun _ he => he
    rintro r' ⟨done', w', h', hset, hsize⟩
    refine ⟨done', w', h', fun q => ?_, fun hnodup hall => ?_⟩
    · rw [hset, hset₁]
      by_cases hq : q = a
      · rw [if_pos hq, ite_self, if_pos (hq ▸ List.mem_cons_self)]
      · rw [if_neg hq]
        refine if_congr ?_ rfl rfl
        rw [List.mem_cons]
        exact (or_iff_right hq).symm
    · have hrest := List.nodup_cons.mp hnodup
      have hstep := hsize₁ (hall a List.mem_cons_self)
      have hgo := hsize hrest.2 fun q hq => by
        rw [hset₁, if_neg fun he : q = a => hrest.1 (he ▸ hq)]
        exact hall q (List.mem_cons_of_mem _ hq)
      rw [List.length_cons]
      omega

theorem kickOutAndReturnValidatorSetUpdates_ends {height time : Int} {params : StakingParams}
    (h : ValidatorsOK banned strict w b) :
    Ends (kickOutAndReturnValidatorSetUpdates height time params b) (fun r => ∃ w',
      Rolled banned strict (time + params.unbondingTime) w b r.2 w' r.1 ∧
        (b.abandonedValidatorAddrs.Nodup →
          (∀ a ∈ b.abandonedValidatorAddrs, (w.powers.get a).isSome) → w'.size ≤ w.size))
      fun _ => ¬ strict := by
  have hstart : Kicking banned strict (time + params.unbondingTime) w b [] w
      ⟨b, [], b.lastTotalPower.getD 0⟩ :=
    ⟨.start h, congrArg (· - w.sum) h.total, nofun, nofun⟩
  unfold kickOutAndReturnValidatorSetUpdates
  rw [h.powers]
  refine Ends.bind ((promote_ends hstart (nodup_candidates h) (fun _ _ => List.not_mem_nil)
    fun q hq => mem_candidates.mp hq).mono (fun _ hr => hr) fun _ he => he.elim) ?_
  rintro r - ⟨done, w₁, hr, hsize, hsame⟩
  refine Ends.bind (discharge_ends rfl hr fun _ ha => ha) ?_
  rintro r' - ⟨done', w₂, hr', hset, hsize'⟩
  have hfree : ∀ q, ¬ r'.books.Has q fun v => v.jailed = true ∧ v.status = .bonded := by
    rintro q hq
    have hmem := hr'.roll.ok.jailed q hq
    rw [hr'.roll.abandoned] at hmem
    have hsome := (hr'.roll.ok.bonded q).mpr (hq.mono fun _ hv => hv.2)
    rw [hset, if_pos hmem] at hsome
    cases hsome
  refine Ends.pure ⟨w₂.count r'.totalPower, ⟨hr'.roll.ok.count _, hr'.roll.told, hr'.roll.keys,
    fun hcounted => ?_, hfree, hr'.roll.staying, hr'.roll.hooks⟩, fun hnodup hall => ?_⟩
  · have hsum := hr'.sum
    unfold ValidatorSet.Counted at hcounted
    show r'.totalPower = w₂.sum
    omega
  · have hlen := hsize' hnodup fun a ha => by
      rw [hsame a (hall a ha)]
      exact hall a ha
    show w₂.size ≤ w.size
    omega

end StakingBooks

/-! ## The end of a block -/

theorem ValidatorsOK.clear (h : ValidatorsOK banned strict w b)
    (hfree : ∀ q, ¬ b.Has q fun v => v.jailed = true ∧ v.status = .bonded) :
    ValidatorsOK banned strict w { b with abandonedValidatorAddrs := [] } :=
  ⟨h.cons, h.power, h.queued, h.once, h.slices, h.powers, h.total, h.bonded, h.nonzero,
    h.tendermint, fun q hq => absurd hq (hfree q), fun _ _ hq => absurd hq List.not_mem_nil,
    h.banned, h.tokens, h.registered, h.known⟩

theorem Rolled.clear (h : Rolled banned strict due w b us w' b') :
    Rolled banned strict due w b us w' { b' with abandonedValidatorAddrs := [] } :=
  ⟨h.ok.clear h.free, h.told, h.keys, h.counted, h.free, h.staying, h.hooks⟩

namespace StakingBooks

/-- **The validator set at the end of a block.** -/
theorem updateValidatorSet_ends {height time : Int} {params : StakingParams}
    (h : ValidatorsOK banned strict w b) :
    Ends (updateValidatorSet height time params b) (fun r => ∃ w',
      Rolled banned strict (time + params.unbondingTime) w b r.2 w' r.1 ∧
        r.1.abandonedValidatorAddrs = [] ∧
        (w.size ≤ params.maxValidators → b.abandonedValidatorAddrs.Nodup →
          (∀ a ∈ b.abandonedValidatorAddrs, (w.powers.get a).isSome) →
            w'.size ≤ params.maxValidators)) fun _ => ¬ strict := by
  unfold updateValidatorSet
  refine .ite (fun _ => ?_) fun _ => .ite (fun _ => ?_) fun hnone => ?_
  · -- neither the length nor the end of an epoch is an index of the validators
    have hepoch : ∀ e : Option Nat, ValidatorsOK banned strict w
        { b with epoch := e, theEndOfLastEpoch := some height } := fun e =>
      h.same ⟨rfl, rfl, rfl, rfl, rfl, rfl, rfl, rfl⟩
    have hgo : ∀ e : Option Nat, Ends (applyAndReturnValidatorSetUpdates height time params
        { b with epoch := e, theEndOfLastEpoch := some height } >>= fun r =>
          pure ({ r.1 with abandonedValidatorAddrs := [] }, r.2)) (fun r => ∃ w',
          Rolled banned strict (time + params.unbondingTime) w b r.2 w' r.1 ∧
            r.1.abandonedValidatorAddrs = [] ∧
            (w.size ≤ params.maxValidators → b.abandonedValidatorAddrs.Nodup →
              (∀ a ∈ b.abandonedValidatorAddrs, (w.powers.get a).isSome) →
                w'.size ≤ params.maxValidators)) fun _ => ¬ strict := by
      intro e
      refine Ends.bind ((applyAndReturnValidatorSetUpdates_ends (hepoch e)).mono (fun _ hr => hr)
        fun _ he => he.elim) ?_
      rintro ⟨b', us⟩ - ⟨w', hrolled, hsize, -⟩
      exact ⟨w', ⟨hrolled.clear.ok, hrolled.told, hrolled.keys, hrolled.counted, hrolled.free,
        hrolled.staying, hrolled.hooks⟩, rfl, fun _ _ _ => hsize⟩
    by_cases hsame : b.getEpoch = params.epoch
    · rw [if_pos hsame]
      exact hgo b.epoch
    · rw [if_neg hsame]
      exact hgo _
  · refine Ends.bind (kickOutAndReturnValidatorSetUpdates_ends h) ?_
    rintro ⟨b', us⟩ - ⟨w', hrolled, hsize⟩
    exact ⟨w', hrolled.clear, rfl, fun hmax hnodup hall => (hsize hnodup hall).trans hmax⟩
  · rw [not_not] at hnone
    have hfree : ∀ q, ¬ b.Has q fun v => v.jailed = true ∧ v.status = .bonded := fun q hq => by
      have hmem := h.jailed q hq
      rw [hnone] at hmem
      exact List.not_mem_nil hmem
    exact ⟨w, ⟨h, rfl, List.nodup_nil, id, hfree, fun _ _ _ _ hq => hq, List.prefix_rfl⟩, hnone,
      fun hmax _ _ => hmax⟩

/-! ## Validators that have waited -/

/-- What `RemoveValidator` leaves. -/
def removed (b : StakingBooks) (v : Validator) : StakingBooks :=
  callHook { b with
    validators := b.validators.delete v.operatorAddress
    validatorsByConsAddr := b.validatorsByConsAddr.delete v.consAddress
    validatorsByPowerIndex := b.validatorsByPowerIndex.delete v.powerIndexKey }
    (.validatorRemoved v.consAddress)

/-- An unbonded validator can be removed, if it has no tokens. -/
theorem removeValidator_eq (hget : b.getValidator v.operatorAddress = some v)
    (hstatus : v.status = .unbonded) (htokens : v.tokens = 0) :
    b.removeValidator v.operatorAddress = .ok (b.removed v) := by
  unfold removeValidator
  rw [hget]
  dsimp only
  rw [require, if_pos hstatus, require, if_pos htokens.le]
  rfl

theorem removed_ok (h : ValidatorsOK banned strict w b)
    (hget : b.getValidator v.operatorAddress = some v) (hstatus : v.status = .unbonded) :
    ValidatorsOK banned strict w (b.removed v) :=
  h.remove ⟨fun _ => KeyedStore.get_delete, rfl, fun _ => KVStore.get_delete, rfl, rfl, rfl, rfl,
    rfl⟩ hget hstatus

/-- The queue, with only `l` left in the slice of `t`. -/
def withSlice (t : Int) (l : List Address) (b : StakingBooks) : StakingBooks :=
  { b with validatorQueue := if l = [] then b.validatorQueue.delete t else b.validatorQueue.set t l }

theorem queuedAt_withSlice {t t' : Int} {l : List Address} :
    (b.withSlice t l).queuedAt t' = if t' = t then l else b.queuedAt t' :=
  queuedAt_shrink rfl

theorem slices_withSlice {t : Int} {l : List Address}
    (h : ∀ t', t' ≠ t → b.validatorQueue.get t' ≠ some []) (t' : Int) :
    (b.withSlice t l).validatorQueue.get t' ≠ some [] := by
  unfold withSlice
  dsimp only
  split_ifs with hl
  · rw [KVStore.get_delete]
    split_ifs with ht
    · exact nofun
    · exact h t' ht
  · rw [KVStore.get_set]
    split_ifs with ht
    · exact fun he => hl (Option.some.inj he)
    · exact h t' ht

theorem withSlice_self {t : Int} {l : List Address} (hget : b.validatorQueue.get t = some l)
    (hl : l ≠ []) : b.withSlice t l = b := by
  unfold withSlice
  rw [if_neg hl, KVStore.set_eq_self hget]

/-- The first of a slice is unbonded. -/
theorem completeUnbonding_transits {t : Int} {rest : List Address}
    (h : ValidatorsOK banned strict w (b.withSlice t (v.operatorAddress :: rest)))
    (hget : b.getValidator v.operatorAddress = some v) (hstatus : v.status = .unbonding)
    (htime : v.unbondingCompletionTime = t) :
    Transits v (v.updateStatus .unbonded) none w w
      (b.withSlice t (v.operatorAddress :: rest))
      ((b.setValidator (v.updateStatus .unbonded)).withSlice t rest) := by
  have hhere : ∀ P, (b.withSlice t (v.operatorAddress :: rest)).Has v.operatorAddress P ↔ P v :=
    fun P => has_of_get hget
  have hnone : w.powers.get v.operatorAddress = none := by
    refine Option.not_isSome_iff_eq_none.mp fun hsome => ?_
    have hbonded := (h.bonded v.operatorAddress).mp hsome
    rw [hhere, hstatus] at hbonded
    cases hbonded
  have hfirst : v.operatorAddress ∉ rest ∧ rest.Nodup := by
    have honce := h.once t
    rwa [queuedAt_withSlice, if_pos rfl, List.nodup_cons] at honce
  have hpasses : v.Passes (v.updateStatus .unbonded) := ⟨rfl, rfl, rfl, rfl, rfl⟩
  refine ⟨hpasses, rfl, rfl, h.rekeyedAt hget hpasses, fun t' q => ?_, fun t' => ?_, fun t' => ?_,
    ⟨fun q => ?_, fun k => ?_, rfl, nofun⟩, h.powers, rfl, iff_of_false nofun nofun, rfl, [],
    (List.append_nil _).symm, rfl, fun hne => absurd rfl hne⟩
  · rw [queuedAt_withSlice]
    by_cases hq : q = v.operatorAddress
    · rw [if_pos hq, hq]
      refine iff_of_false (fun hmem => ?_) nofun
      split_ifs at hmem with ht
      · exact hfirst.1 hmem
      · have hold := h.queued t' v.operatorAddress
        rw [queuedAt_withSlice, if_neg ht, hhere] at hold
        exact ht ((hold.mp hmem).2.symm.trans htime)
    · rw [if_neg hq, queuedAt_withSlice]
      split_ifs
      · rw [List.mem_cons]
        exact (or_iff_right hq).symm
      · rfl
  · have honce := h.once t'
    rw [queuedAt_withSlice] at honce ⊢
    split_ifs at honce ⊢
    · exact hfirst.2
    · exact honce
  · refine slices_withSlice (fun u hu => ?_) t'
    have hslices := h.slices u
    unfold withSlice at hslices
    rw [if_neg (List.cons_ne_nil _ _)] at hslices
    rwa [KVStore.get_set_ne hu] at hslices
  · split_ifs with hq
    · rw [hq, hnone]
    · rfl
  · split_ifs with hk
    · refine Option.eq_none_iff_forall_ne_some.mpr fun p hp => ?_
      obtain ⟨q, hq, hpower⟩ := (h.tendermint _ _).mp hp
      rw [h.cons_inj hq ((hhere _).mpr hk.symm), hnone] at hpower
      cases hpower
    · rfl

/-- One validator of a slice is unbonded, and removed if nothing is left of it. -/
theorem unbondMature_ends {t : Int} {a : Address} {rest : List Address}
    (h : ValidatorsOK banned strict w (b.withSlice t (a :: rest)))
    (hnone : b.abandonedValidatorAddrs = []) :
    Ends (unbondMature b a) (fun b' => ValidatorsOK banned strict w (b'.withSlice t rest) ∧
      b'.abandonedValidatorAddrs = [] ∧ b'.validatorQueue = b.validatorQueue ∧
      b.hooks <+: b'.hooks ∧ ∀ q, q ≠ a → b'.getValidator q = b.getValidator q)
      fun _ => False := by
  have hqueued := h.queued t a
  rw [queuedAt_withSlice, if_pos rfl] at hqueued
  obtain ⟨v, hv, hstatus, htime⟩ := hqueued.mp List.mem_cons_self
  replace hv : b.getValidator a = some v := hv
  obtain rfl : v.operatorAddress = a := KeyedStore.key_of_get hv
  have hok : ValidatorsOK banned strict w
      ((b.setValidator (v.updateStatus .unbonded)).withSlice t rest) := by
    refine h.transit (completeUnbonding_transits h hv hstatus htime) hv (fun _ => nofun) ?_
    intro _ hmem
    exact absurd (hnone ▸ hmem) List.not_mem_nil
  have hget : ∀ q, (b.setValidator (v.updateStatus .unbonded)).getValidator q =
      if q = v.operatorAddress then some (v.updateStatus .unbonded) else b.getValidator q :=
    fun q => KeyedStore.get_put
  unfold unbondMature
  rw [hv]
  refine Ends.bind (Ends.eq_ok rfl) fun u _ hu => ?_
  rw [hu, require, if_pos hstatus]
  refine Ends.bind (Ends.eq_ok rfl) fun _ _ _ => ?_
  have hself : (b.setValidator (v.updateStatus .unbonded)).getValidator v.operatorAddress =
      some (v.updateStatus .unbonded) := by rw [hget, if_pos rfl]
  refine .ite (fun _ => ?_) fun _ => Ends.pure ⟨hok, hnone, rfl, List.prefix_rfl, fun q hq => ?_⟩
  · have htokens : v.tokens = 0 := h.tokens_eq hv
    rw [removeValidator_eq (v := v.updateStatus .unbonded) hself rfl htokens]
    refine ⟨removed_ok (v := v.updateStatus .unbonded) hok hself rfl, hnone, rfl,
      List.prefix_append _ _, fun q hq => ?_⟩
    refine (KeyedStore.get_delete_ne hq).trans ?_
    exact (hget q).trans (if_neg hq)
  · rw [hget, if_neg hq]

theorem unbondSlice_ends {t : Int} {l : List Address} (h : ValidatorsOK banned strict w b)
    (hnone : b.abandonedValidatorAddrs = []) (hslice : b.validatorQueue.get t = some l) :
    Ends (unbondSlice b (t, l)) (fun b' => ValidatorsOK banned strict w b' ∧
      b'.abandonedValidatorAddrs = [] ∧ b'.validatorQueue = b.validatorQueue.delete t ∧
      b.hooks <+: b'.hooks ∧ ∀ q, q ∉ l → b'.getValidator q = b.getValidator q) fun _ => False := by
  -- over the validators of the slice: those that are left are queued
  have hgo : ∀ {rest : List Address} {b₁ : StakingBooks},
      ValidatorsOK banned strict w (b₁.withSlice t rest) → b₁.abandonedValidatorAddrs = [] →
      Ends (rest.foldlM unbondMature b₁) (fun b' =>
        ValidatorsOK banned strict w (b'.withSlice t []) ∧ b'.abandonedValidatorAddrs = [] ∧
        b'.validatorQueue = b₁.validatorQueue ∧ b₁.hooks <+: b'.hooks ∧
        ∀ q, q ∉ rest → b'.getValidator q = b₁.getValidator q) fun _ => False := by
    intro rest
    induction rest with
    | nil => exact fun {b₁} hok hnone => ⟨hok, hnone, rfl, List.prefix_rfl, fun _ _ => rfl⟩
    | cons a rest ih =>
      intro b₁ hok hnone
      rw [List.foldlM_cons]
      refine Ends.bind (unbondMature_ends hok hnone) ?_
      rintro b₂ - ⟨hok₂, hnone₂, hqueue₂, hhooks₂, hget₂⟩
      refine (ih hok₂ hnone₂).mono ?_ fun _ he => he
      rintro b' ⟨hok', hnone', hqueue', hhooks', hget'⟩
      refine ⟨hok', hnone', hqueue'.trans hqueue₂, hhooks₂.trans hhooks', fun q hq => ?_⟩
      rw [List.mem_cons, not_or] at hq
      exact (hget' q hq.2).trans (hget₂ q hq.1)
  have hstart : ValidatorsOK banned strict w (b.withSlice t l) := by
    rwa [withSlice_self hslice fun hl => h.slices t (hl ▸ hslice)]
  unfold unbondSlice
  refine Ends.bind (hgo hstart hnone) ?_
  rintro b' - ⟨hok, hnone', hqueue, hhooks, hget⟩
  rw [withSlice, if_pos rfl] at hok
  exact ⟨hok, hnone', congrArg (KVStore.delete · t) hqueue, hhooks, hget⟩

/-- **`UnbondAllMatureValidatorQueue`**: only the validators whose time has come are treated. -/
theorem unbondAllMatureValidatorQueue_ends {time : Int} (h : ValidatorsOK banned strict w b)
    (hnone : b.abandonedValidatorAddrs = []) :
    Ends (unbondAllMatureValidatorQueue time b) (fun b' => ValidatorsOK banned strict w b' ∧
      b'.abandonedValidatorAddrs = [] ∧ b.hooks <+: b'.hooks ∧
      ∀ q v, b.getValidator q = some v →
        (v.status = .unbonding → time < v.unbondingCompletionTime) →
          b'.getValidator q = some v) fun _ => False := by
  have hgo : ∀ {slices : List (Int × List Address)} {b₁ : StakingBooks},
      (slices.map Prod.fst).Nodup → (∀ e ∈ slices, b₁.validatorQueue.get e.1 = some e.2) →
      ValidatorsOK banned strict w b₁ → b₁.abandonedValidatorAddrs = [] →
      Ends (slices.foldlM unbondSlice b₁) (fun b' => ValidatorsOK banned strict w b' ∧
        b'.abandonedValidatorAddrs = [] ∧ b₁.hooks <+: b'.hooks ∧
        ∀ q, (∀ e ∈ slices, q ∉ e.2) → b'.getValidator q = b₁.getValidator q)
        fun _ => False := by
    intro slices
    induction slices with
    | nil => exact fun {b₁} _ _ hok hnone => ⟨hok, hnone, List.prefix_rfl, fun _ _ => rfl⟩
    | cons e rest ih =>
      intro b₁ hnodup hslices hok hnone
      rw [List.map_cons, List.nodup_cons] at hnodup
      rw [List.foldlM_cons]
      refine Ends.bind (unbondSlice_ends hok hnone (hslices e List.mem_cons_self)) ?_
      rintro b₂ - ⟨hok₂, hnone₂, hqueue₂, hhooks₂, hget₂⟩
      have hrest : ∀ e' ∈ rest, b₂.validatorQueue.get e'.1 = some e'.2 := fun e' he' => by
        have hne : e'.1 ≠ e.1 := fun he => hnodup.1 (he ▸ List.mem_map_of_mem he')
        rw [hqueue₂, KVStore.get_delete_ne hne]
        exact hslices e' (List.mem_cons_of_mem _ he')
      refine (ih hnodup.2 hrest hok₂ hnone₂).mono ?_ fun _ he => he
      rintro b' ⟨hok', hnone', hhooks', hget'⟩
      refine ⟨hok', hnone', hhooks₂.trans hhooks', fun q hq => ?_⟩
      exact (hget' q fun e' he' => hq e' (List.mem_cons_of_mem _ he')).trans
        (hget₂ q (hq e List.mem_cons_self))
  unfold unbondAllMatureValidatorQueue
  have hnodup : ((b.validatorQueue.entries.filter fun slice => slice.1 ≤ time).map
      Prod.fst).Nodup :=
    List.Nodup.sublist (List.Sublist.map _ List.filter_sublist) KVStore.nodup_keys
  refine (hgo hnodup (fun e he => ?_) h hnone).mono ?_ fun _ he => he
  · exact KVStore.mem_entries.mp (List.mem_filter.mp he).1
  · rintro b' ⟨hok, hnone', hhooks, hget⟩
    refine ⟨hok, hnone', hhooks, fun q v hv hlate => ?_⟩
    rw [hget q, hv]
    -- a validator of a slice has waited until the time of the slice
    rintro ⟨t, l⟩ he hmem
    obtain ⟨hentry, hle⟩ := List.mem_filter.mp he
    have hqueued : q ∈ b.queuedAt t := by
      unfold queuedAt
      rw [KVStore.mem_entries.mp hentry]
      exact hmem
    rw [h.queued, has_of_get hv] at hqueued
    have := hlate hqueued.1
    have := of_decide_eq_true hle
    omega

end StakingBooks

end KickOut

end Okexchain
