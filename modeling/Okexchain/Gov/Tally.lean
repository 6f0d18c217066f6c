import Okexchain.Chain.Tendermint
import Okexchain.Gov.Types

/-!
# Tallies

Model of `x/gov/keeper/tally.go`, of `totalPower` (`x/gov/keeper/keeper.go`) and of
`IterateBondedValidatorsByPower` (`x/staking/keeper/alias_functions.go`).

* The votes are counted in two passes. A vote of a bonded validator is only recorded. Any other vote
  is that of a delegator: its shares count for every validator it has added them to, and are
  deducted there. Then every validator that has voted counts with what is left of its shares.
* The map of the validators is walked through in an arbitrary order, which no sum depends on.
* `preTally` can also count a vote that is not stored, for a rate that nothing reads; `Tally` does
  not use that.

**Results.** `Counting.Fair`: what both passes keep; the deductions of a validator are the shares of
delegators that have voted, and they are among its shares. `tally_counts_once`: on every node of
every run and for all votes, the tally goes through, no count is negative, the counts add up to the
voted power, and that is within the total power.
-/

namespace Okexchain

namespace Gov

/-! ## Validators -/

/-- The loop of `IterateBondedValidatorsByPower`: so many bonded validators of a list. -/
def bondedFrom (b : StakingBooks) : List Address → Nat → Except GovError (List Validator)
  | [], _ => .ok []
  | _ :: _, 0 => .ok []
  | address :: rest, n + 1 => do
    let validator ← orThrow (b.getValidator address) (.validatorNotFound address)
    if validator.status = .bonded then
      let validators ← bondedFrom b rest n
      return validator :: validators
    else bondedFrom b rest (n + 1)

/-- The validators that `IterateBondedValidatorsByPower` visits. -/
def bondedValidatorsByPower (b : StakingBooks) (maxValidators : Nat) :
    Except GovError (List Validator) :=
  bondedFrom b (b.validatorsByPowerIndex.entries.reverse.map Prod.snd) maxValidators

/-- `totalPower`. -/
def totalPower (validators : List Validator) : Int :=
  (validators.map Validator.delegatorShares).sum

/-! ## Counting -/

/-- `validatorGovInfo`: what is read of it. -/
structure ValidatorGovInfo where
  delegatorShares : Int
  delegatorDeductions : Int
  vote : VoteOption
deriving DecidableEq, Repr

/-- The variables of the two passes. -/
structure Counting where
  currValidators : KVStore Address ValidatorGovInfo
  results : VoteOption → Int
  totalVotedPower : Int

namespace Counting

/-- Power is counted for an option. -/
def count (c : Counting) (option : VoteOption) (power : Int) : Counting :=
  { c with
    results := fun o => if o = option then c.results o + power else c.results o
    totalVotedPower := c.totalVotedPower + power }

/-- The body of the inner loop of `tallyDelegatorVotes`. -/
def addShares (option : VoteOption) (votedPower : Int) (c : Counting) (val : Address) :
    Counting :=
  match c.currValidators.get val with
  | none => c
  | some info =>
    let info := { info with delegatorDeductions := info.delegatorDeductions + votedPower }
    { c with currValidators := c.currValidators.set val info }.count option votedPower

/-- The body of the loop of `tallyDelegatorVotes`. -/
def addVote (b : StakingBooks) (c : Counting) (vote : Vote) : Counting :=
  match c.currValidators.get vote.voter with
  | some info =>
    { c with currValidators := c.currValidators.set vote.voter { info with vote := vote.option } }
  | none =>
    match b.getDelegator vote.voter with
    | none => c
    | some delegation =>
      delegation.validatorAddresses.foldl (addShares vote.option delegation.shares) c

/-- The body of the loop of `tallyValidatorVotes`. -/
def addValidator (c : Counting) (val : ValidatorGovInfo) : Counting :=
  if val.vote = .empty then c
  else c.count val.vote (val.delegatorShares - val.delegatorDeductions)

/-- The start of `preTally`. -/
def start (validators : List Validator) : Counting where
  currValidators := validators.foldl
    (fun m v => m.set v.operatorAddress ⟨v.delegatorShares, 0, .empty⟩) ∅
  results := fun _ => 0
  totalVotedPower := 0

end Counting

/-- `tallyDelegatorVotes`. -/
def tallyDelegatorVotes (b : StakingBooks) (votes : List Vote) (c : Counting) : Counting :=
  votes.foldl (Counting.addVote b) c

/-- `tallyValidatorVotes`. -/
def tallyValidatorVotes (c : Counting) : Counting :=
  (c.currValidators.entries.map Prod.snd).foldl Counting.addValidator c

/-- `preTally`. -/
def preTally (b : StakingBooks) (validators : List Validator) (votes : List Vote) : Counting :=
  tallyValidatorVotes (tallyDelegatorVotes b votes (.start validators))

/-! ## The result -/

/-- A quotient, or the panic. -/
def quo (a b : Int) : Except GovError Int := orThrow (Dec.quo a b) .divisionByZero

/-- `tallyStatusInVotePeriod`. -/
def tallyStatusInVotePeriod (params : TallyParams) (r : TallyResult) :
    Except GovError (ProposalStatus × Bool) := do
  if r.totalPower = 0 then return (.rejected, false)
  else if r.totalPower - r.abstain = 0 then return (.rejected, false)
  else
    let veto ← quo r.noWithVeto r.totalPower
    if veto > params.veto then return (.rejected, true)
    else
      let no ← quo (r.noWithVeto + r.no) (r.totalPower - r.abstain)
      if no ≥ params.threshold then return (.rejected, false)
      else
        let yes ← quo r.yes r.totalPower
        if yes > params.yesInVotePeriod then return (.passed, false)
        else return (.votingPeriod, false)

/-- `tallyStatusExpireVotePeriod`. -/
def tallyStatusExpireVotePeriod (params : TallyParams) (r : TallyResult) :
    Except GovError (ProposalStatus × Bool) := do
  if r.totalPower = 0 then return (.rejected, false)
  else
    let percentVoting ← quo r.totalVotedPower r.totalPower
    if percentVoting < params.quorum then return (.rejected, true)
    else if r.totalVotedPower - r.abstain = 0 then return (.rejected, false)
    else
      let veto ← quo r.noWithVeto r.totalVotedPower
      if veto > params.veto then return (.rejected, true)
      else
        let yes ← quo r.yes (r.totalVotedPower - r.abstain)
        if yes > params.threshold then return (.passed, false)
        else return (.rejected, false)

/-- The `TallyResult` of a count. -/
def tallyResults (validators : List Validator) (c : Counting) : TallyResult where
  totalPower := totalPower validators
  totalVotedPower := c.totalVotedPower
  yes := c.results .yes
  abstain := c.results .abstain
  no := c.results .no
  noWithVeto := c.results .noWithVeto

/-- The status by the result, before or at the end of the voting period. -/
def tallyStatus (params : TallyParams) (isExpireVoteEndTime : Bool) (results : TallyResult) :
    Except GovError (ProposalStatus × Bool) :=
  if isExpireVoteEndTime then tallyStatusExpireVotePeriod params results
  else tallyStatusInVotePeriod params results

/-- `Tally`. -/
def tally (params : TallyParams) (b : StakingBooks) (maxValidators : Nat) (votes : List Vote)
    (isExpireVoteEndTime : Bool) : Except GovError (ProposalStatus × Bool × TallyResult) := do
  let validators ← bondedValidatorsByPower b maxValidators
  let results := tallyResults validators (preTally b validators votes)
  let (status, distribute) ← tallyStatus params isExpireVoteEndTime results
  return (status, distribute, results)

/-! ## What the passes keep -/

section

variable {b : StakingBooks} {power : Int} {bound bound' : Address → Int} {c : Counting}

/-- The counts of the four options. -/
def Counting.sum (c : Counting) : Int :=
  c.results .yes + c.results .abstain + c.results .no + c.results .noWithVeto

/-- The counts add up to the voted power, and none is negative. -/
structure Counting.Adds (c : Counting) : Prop where
  sum : c.sum = c.totalVotedPower
  nonneg : ∀ o, 0 ≤ c.results o

theorem Counting.Adds.count (h : c.Adds) {option : VoteOption} (hoption : option ≠ .empty)
    {votedPower : Int} (hpower : 0 ≤ votedPower) : (c.count option votedPower).Adds where
  sum := by
    have hsum := h.sum
    unfold Counting.sum Counting.count at *
    cases option with
    | empty => exact absurd rfl hoption
    | _ => simp only [reduceCtorEq, if_true, if_false]; omega
  nonneg o := by
    have ho := h.nonneg o
    show 0 ≤ if o = option then c.results o + votedPower else c.results o
    split_ifs <;> omega

/-- **The first pass**: the validators of the count have the shares they have in the store, and what
has been counted is what was deducted, validator by validator at most `bound`. -/
structure Counting.Fair (b : StakingBooks) (power : Int) (bound : Address → Int) (c : Counting) :
    Prop where
  adds : c.Adds
  shares : ∀ a info, c.currValidators.get a = some info →
    ∃ v, b.getValidator a = some v ∧ info.delegatorShares = v.delegatorShares
  deductions : ∀ a info, c.currValidators.get a = some info → info.delegatorDeductions ≤ bound a
  counted : c.totalVotedPower = c.currValidators.sumBy fun _ info => info.delegatorDeductions
  power : (c.currValidators.sumBy fun _ info => info.delegatorShares) ≤ power

theorem Counting.Fair.mono (h : c.Fair b power bound) (hle : ∀ a, bound a ≤ bound' a) :
    c.Fair b power bound' :=
  { h with deductions := fun a info hget => (h.deductions a info hget).trans (hle a) }

/-- What is known of a validator changes: so much more is deducted, and so much more is counted. -/
theorem Counting.Fair.of_set {c' : Counting} (h : c.Fair b power bound) {val : Address}
    {info info' : ValidatorGovInfo} {x : Int} (hget : c.currValidators.get val = some info)
    (hset : c'.currValidators = c.currValidators.set val info')
    (hshares : info'.delegatorShares = info.delegatorShares)
    (hdeductions : info'.delegatorDeductions = info.delegatorDeductions + x)
    (htotal : c'.totalVotedPower = c.totalVotedPower + x) (hadds : c'.Adds) :
    c'.Fair b power fun a => if a = val then bound a + x else bound a := by
  refine ⟨hadds, fun a i hi => ?_, fun a i hi => ?_, ?_, ?_⟩
  · rw [hset, KVStore.get_set] at hi
    split_ifs at hi with ha
    · cases hi
      rw [ha, hshares]
      exact h.shares val info hget
    · exact h.shares a i hi
  · rw [hset, KVStore.get_set] at hi
    split_ifs at hi with ha
    · cases hi
      rw [if_pos ha, ha, hdeductions]
      exact Int.add_le_add_right (h.deductions val info hget) x
    · rw [if_neg ha]
      exact h.deductions a i hi
  · rw [hset, KVStore.sumBy_set, KVStore.valAt_of_get _ hget, ← h.counted, hdeductions, htotal]
    omega
  · rw [hset, KVStore.sumBy_set, KVStore.valAt_of_get _ hget, hshares, sub_add_cancel]
    exact h.power

/-- The shares of a delegator are counted for an option and deducted at one validator. -/
theorem Counting.Fair.addShares (h : c.Fair b power bound) {option : VoteOption}
    (hoption : option ≠ .empty) {votedPower : Int} (hpower : 0 ≤ votedPower) (val : Address) :
    (c.addShares option votedPower val).Fair b power
      fun a => if a = val then bound a + votedPower else bound a := by
  cases hget : c.currValidators.get val with
  | none =>
    simp only [Counting.addShares, hget]
    refine h.mono fun a => ?_
    split_ifs <;> omega
  | some info =>
    simp only [Counting.addShares, hget]
    have hadds : ∀ m, Counting.Adds { c with currValidators := m } :=
      fun _ => ⟨h.adds.sum, h.adds.nonneg⟩
    exact h.of_set hget rfl rfl rfl rfl ((hadds _).count hoption hpower)

/-- The inner loop counts the shares of a delegator once for each of its validators. -/
theorem Counting.Fair.foldl_addShares {l : List Address} (hl : l.Nodup)
    (h : c.Fair b power bound) {option : VoteOption} (hoption : option ≠ .empty)
    {votedPower : Int} (hpower : 0 ≤ votedPower) :
    (l.foldl (Counting.addShares option votedPower) c).Fair b power
      fun a => bound a + if a ∈ l then votedPower else 0 := by
  induction l generalizing c bound with
  | nil => exact h.mono fun a => by simp
  | cons val l ih =>
    obtain ⟨hval, hl⟩ := List.nodup_cons.mp hl
    refine (ih hl (h.addShares hoption hpower val)).mono fun a => ?_
    by_cases ha : a = val
    · subst ha
      simp [hval]
    · simp [ha]

/-- **A vote** is recorded, or counts the shares of a delegator. -/
theorem Counting.Fair.addVote (hb : SharesOK b) (h : c.Fair b power bound) {vote : Vote}
    (hoption : vote.option ≠ .empty) :
    (c.addVote b vote).Fair b power
      fun a => bound a + votesOf (b.getDelegator vote.voter) a := by
  unfold Counting.addVote
  cases hget : c.currValidators.get vote.voter with
  | some info =>
    have hnonneg : ∀ a, 0 ≤ votesOf (b.getDelegator vote.voter) a := by
      intro a
      cases hr : b.getDelegator vote.voter with
      | none => exact le_rfl
      | some r => exact (hb.sound _ r hr).votes_nonneg a
    have hvoted : Counting.Fair b power (fun a => if a = vote.voter then bound a + 0 else bound a)
        { c with currValidators :=
            c.currValidators.set vote.voter { info with vote := vote.option } } :=
      h.of_set hget rfl rfl (add_zero _).symm (add_zero _).symm ⟨h.adds.sum, h.adds.nonneg⟩
    refine hvoted.mono fun a => ?_
    have ha := hnonneg a
    split_ifs <;> omega
  | none =>
    cases hr : b.getDelegator vote.voter with
    | none => exact h.mono fun a => (add_zero _).ge
    | some r =>
      have hsound := hb.sound _ r hr
      by_cases hnone : r.validatorAddresses = []
      · simp only [hnone, List.foldl_nil]
        exact h.mono fun a => le_add_of_nonneg_right (hsound.votes_nonneg a)
      · exact h.foldl_addShares hsound.nodup hoption (hsound.shares hnone).le

theorem Counting.Fair.foldl_addVote (hb : SharesOK b) {votes : List Vote}
    (hvotes : ∀ vote ∈ votes, vote.option ≠ .empty) (h : c.Fair b power bound) :
    (tallyDelegatorVotes b votes c).Fair b power fun a =>
      bound a + ((votes.map Vote.voter).map fun d => votesOf (b.getDelegator d) a).sum := by
  unfold tallyDelegatorVotes
  induction votes generalizing c bound with
  | nil => exact h.mono fun a => by simp
  | cons vote votes ih =>
    obtain ⟨hvote, hvotes⟩ := List.forall_mem_cons.mp hvotes
    refine (ih hvotes (h.addVote hb hvote)).mono fun a => ?_
    simp only [List.map_cons, List.sum_cons]
    omega

/-- The deductions are among the votes of delegators, each of which votes once. -/
theorem sum_votesOf_le (hb : SharesOK b) {l : List Address} (hl : l.Nodup) (a : Address) :
    (l.map fun d => votesOf (b.getDelegator d) a).sum ≤ b.totalVotes a := by
  have hsum := KVStore.sumBy_foldl_delete (fun _ (r : Delegator) => r.votes a) hl b.delegators.store
  have hnonneg : 0 ≤ (l.foldl KVStore.delete b.delegators.store).sumBy
      fun _ (r : Delegator) => r.votes a := by
    refine KVStore.sumBy_nonneg _ fun d r hr => ?_
    rw [KVStore.get_foldl_delete] at hr
    split_ifs at hr
    exact (hb.sound d r hr).votes_nonneg a
  rw [hsum] at hnonneg
  exact Int.sub_nonneg.mp hnonneg

theorem totalVotes_le_delegatorShares (hb : SharesOK b) {a : Address} {v : Validator}
    (hv : b.getValidator a = some v) : b.totalVotes a ≤ v.delegatorShares := by
  have hown : 0 ≤ v.own := by
    unfold Validator.own
    split_ifs <;> decide
  rw [hb.totals a v hv]
  omega

/-- What is left of the shares of a validator is not negative. -/
theorem Counting.Fair.deductions_le (hb : SharesOK b) {l : List Address} (hl : l.Nodup)
    (h : c.Fair b power fun a => (l.map fun d => votesOf (b.getDelegator d) a).sum)
    {a : Address} {info : ValidatorGovInfo} (hget : c.currValidators.get a = some info) :
    info.delegatorDeductions ≤ info.delegatorShares := by
  obtain ⟨v, hv, hshares⟩ := h.shares a info hget
  calc info.delegatorDeductions
      ≤ (l.map fun d => votesOf (b.getDelegator d) a).sum := h.deductions a info hget
    _ ≤ b.totalVotes a := sum_votesOf_le hb hl a
    _ ≤ v.delegatorShares := totalVotes_le_delegatorShares hb hv
    _ = info.delegatorShares := hshares.symm

/-- The second pass counts what is left. -/
theorem Counting.Adds.foldl_addValidator {l : List ValidatorGovInfo}
    (hl : ∀ info ∈ l, info.delegatorDeductions ≤ info.delegatorShares) (h : c.Adds) :
    (l.foldl Counting.addValidator c).Adds ∧
      (l.foldl Counting.addValidator c).totalVotedPower ≤ c.totalVotedPower +
        (l.map fun info => info.delegatorShares - info.delegatorDeductions).sum := by
  induction l generalizing c with
  | nil => exact ⟨h, by simp⟩
  | cons info l ih =>
    obtain ⟨hinfo, hl⟩ := List.forall_mem_cons.mp hl
    have hstep : (c.addValidator info).Adds ∧ (c.addValidator info).totalVotedPower ≤
        c.totalVotedPower + (info.delegatorShares - info.delegatorDeductions) := by
      unfold Counting.addValidator
      split_ifs with hvote
      · exact ⟨h, by omega⟩
      · exact ⟨h.count hvote (by omega), le_rfl⟩
    obtain ⟨hadds, hle⟩ := ih hl hstep.1
    refine ⟨hadds, hle.trans ?_⟩
    rw [List.map_cons, List.sum_cons]
    have := hstep.2
    omega

/-- After both passes the voted power is within the total power. -/
theorem Counting.Fair.tallyValidatorVotes (hb : SharesOK b) {l : List Address} (hl : l.Nodup)
    (h : c.Fair b power fun a => (l.map fun d => votesOf (b.getDelegator d) a).sum) :
    (tallyValidatorVotes c).Adds ∧ (tallyValidatorVotes c).totalVotedPower ≤ power := by
  have hle : ∀ info ∈ c.currValidators.entries.map Prod.snd,
      info.delegatorDeductions ≤ info.delegatorShares := by
    intro info hinfo
    obtain ⟨⟨a, info⟩, he, rfl⟩ := List.mem_map.mp hinfo
    exact h.deductions_le hb hl (KVStore.mem_entries.mp he)
  obtain ⟨hadds, htotal⟩ := Counting.Adds.foldl_addValidator hle h.adds
  refine ⟨hadds, htotal.trans ?_⟩
  -- what was deducted is counted already
  have hrest : (c.currValidators.sumBy fun _ info => info.delegatorShares) =
      ((c.currValidators.entries.map Prod.snd).map fun info =>
        info.delegatorShares - info.delegatorDeductions).sum +
      c.currValidators.sumBy fun _ info => info.delegatorDeductions := by
    rw [List.map_map]
    show _ = (c.currValidators.sumBy fun _ info =>
      info.delegatorShares - info.delegatorDeductions) + _
    rw [← KVStore.sumBy_add]
    exact KVStore.sumBy_congr _ fun _ info _ => (sub_add_cancel _ _).symm
  have hpower := h.power
  rw [hrest, ← h.counted] at hpower
  omega

/-! ## The start -/

theorem bondedFrom_ok {l : List Address} (hl : ∀ a ∈ l, (b.getValidator a).isSome) (n : Nat) :
    ∃ validators, bondedFrom b l n = .ok validators ∧
      ∀ v ∈ validators, b.getValidator v.operatorAddress = some v := by
  induction l generalizing n with
  | nil => exact ⟨[], rfl, fun _ hv => absurd hv List.not_mem_nil⟩
  | cons a l ih =>
    obtain ⟨ha, hl⟩ := List.forall_mem_cons.mp hl
    obtain ⟨v, hv⟩ := Option.isSome_iff_exists.mp ha
    cases n with
    | zero => exact ⟨[], rfl, fun _ hv => absurd hv List.not_mem_nil⟩
    | succ n =>
      by_cases hbonded : v.status = .bonded
      · obtain ⟨validators, hvalidators, hall⟩ := ih hl n
        refine ⟨v :: validators, ?_, List.forall_mem_cons.mpr ⟨?_, hall⟩⟩
        · rw [bondedFrom, hv]
          show (if v.status = .bonded then _ else _) = _
          rw [if_pos hbonded, hvalidators]
          rfl
        · rwa [b.validators.key_of_get hv]
      · obtain ⟨validators, hvalidators, hall⟩ := ih hl (n + 1)
        refine ⟨validators, ?_, hall⟩
        rw [bondedFrom, hv]
        show (if v.status = .bonded then _ else _) = _
        rw [if_neg hbonded, hvalidators]

/-- A map that holds validators with their shares, of which nothing is deducted. -/
def Started (b : StakingBooks) (m : KVStore Address ValidatorGovInfo) : Prop :=
  ∀ a info, m.get a = some info →
    ∃ v, b.getValidator a = some v ∧ info = ⟨v.delegatorShares, 0, .empty⟩

/-- One more validator. If it is there already the total stays behind. -/
theorem Started.set (hb : SharesOK b) {m : KVStore Address ValidatorGovInfo} (hm : Started b m)
    {v : Validator} (hv : b.getValidator v.operatorAddress = some v) :
    Started b (m.set v.operatorAddress ⟨v.delegatorShares, 0, .empty⟩) ∧
      ((m.set v.operatorAddress ⟨v.delegatorShares, 0, .empty⟩).sumBy
        fun _ info => info.delegatorShares) ≤
        (m.sumBy fun _ info => info.delegatorShares) + v.delegatorShares := by
  constructor
  · intro a info hget
    rw [KVStore.get_set] at hget
    split_ifs at hget with ha
    · cases hget
      exact ⟨v, by rw [ha]; exact hv, rfl⟩
    · exact hm a info hget
  · have hnonneg : 0 ≤ m.valAt (fun _ info => info.delegatorShares) v.operatorAddress := by
      cases hget : m.get v.operatorAddress with
      | none => rw [KVStore.valAt_of_none _ hget]
      | some info =>
        obtain ⟨w, hw, rfl⟩ := hm _ _ hget
        rw [KVStore.valAt_of_get _ hget]
        exact (hb.totalVotes_nonneg _).trans (totalVotes_le_delegatorShares hb hw)
    rw [KVStore.sumBy_set]
    show _ + v.delegatorShares ≤ _
    omega

theorem Started.foldl_set (hb : SharesOK b) {validators : List Validator}
    (hvalidators : ∀ v ∈ validators, b.getValidator v.operatorAddress = some v)
    {m : KVStore Address ValidatorGovInfo} (hm : Started b m) :
    Started b (validators.foldl
      (fun m v => m.set v.operatorAddress ⟨v.delegatorShares, 0, .empty⟩) m) ∧
      ((validators.foldl
        (fun m v => m.set v.operatorAddress ⟨v.delegatorShares, 0, .empty⟩) m).sumBy
        fun _ info => info.delegatorShares) ≤
        (m.sumBy fun _ info => info.delegatorShares) + totalPower validators := by
  induction validators generalizing m with
  | nil => exact ⟨hm, by simp [totalPower]⟩
  | cons v validators ih =>
    obtain ⟨hv, hvalidators⟩ := List.forall_mem_cons.mp hvalidators
    obtain ⟨hset, hle⟩ := hm.set hb hv
    obtain ⟨hstarted, hle'⟩ := ih hvalidators hset
    refine ⟨hstarted, hle'.trans ?_⟩
    show _ ≤ _ + (v.delegatorShares + totalPower validators)
    omega

/-- The validators start with their shares, and nothing is deducted. -/
theorem Counting.Fair.start (hb : SharesOK b) {validators : List Validator}
    (hvalidators : ∀ v ∈ validators, b.getValidator v.operatorAddress = some v) :
    (Counting.start validators).Fair b (totalPower validators) fun _ => 0 := by
  have hempty : Started b ∅ := fun a info hget => by simp at hget
  obtain ⟨hstarted, hle⟩ := hempty.foldl_set hb hvalidators
  refine ⟨⟨rfl, fun _ => le_rfl⟩, fun a info hget => ?_, fun a info hget => ?_, ?_, ?_⟩
  · obtain ⟨v, hv, rfl⟩ := hstarted a info hget
    exact ⟨v, hv, rfl⟩
  · obtain ⟨v, -, rfl⟩ := hstarted a info hget
    exact le_rfl
  · refine KVStore.sumBy_zero.symm.trans (KVStore.sumBy_congr _ fun a info hget => ?_)
    obtain ⟨v, -, rfl⟩ := hstarted a info hget
    rfl
  · rwa [KVStore.sumBy_empty, zero_add] at hle

/-! ## The tally goes through -/

/-- What a tally promises. -/
structure TallyResult.Sound (r : TallyResult) : Prop where
  yes : 0 ≤ r.yes
  no : 0 ≤ r.no
  noWithVeto : 0 ≤ r.noWithVeto
  abstain : 0 ≤ r.abstain
  sum : r.yes + r.no + r.noWithVeto + r.abstain = r.totalVotedPower
  within : r.totalVotedPower ≤ r.totalPower

theorem quo_ends (x : Int) {y : Int} (hy : y ≠ 0) :
    Ends (quo x y) (fun _ => True) fun _ => False := by
  unfold quo Dec.quo
  rw [if_neg hy]
  exact trivial

/-- What a tally can decide. Only before the end of the voting period it may go on. -/
def Decides (isExpireVoteEndTime : Bool) (status : ProposalStatus) : Prop :=
  status = .passed ∨ status = .rejected ∨ isExpireVoteEndTime = false ∧ status = .votingPeriod

/-- No division is by zero: without voted power there are no abstentions either. -/
theorem tallyStatus_ends (params : TallyParams) (isExpireVoteEndTime : Bool) {r : TallyResult}
    (hr : r.Sound) :
    Ends (tallyStatus params isExpireVoteEndTime r) (fun x => Decides isExpireVoteEndTime x.1)
      fun _ => False := by
  have hvoted : r.totalVotedPower - r.abstain ≠ 0 → r.totalVotedPower ≠ 0 := by
    have := hr.yes
    have := hr.no
    have := hr.noWithVeto
    have := hr.abstain
    have := hr.sum
    omega
  have hpassed : Decides isExpireVoteEndTime .passed := .inl rfl
  have hrejected : Decides isExpireVoteEndTime .rejected := .inr (.inl rfl)
  refine .ite (fun _ => ?_) fun hexpire => ?_
  · refine .ite (fun _ => hrejected) fun htotal => (quo_ends _ htotal).bind fun _ _ _ => ?_
    refine .ite (fun _ => hrejected) fun _ => .ite (fun _ => hrejected) fun habstain => ?_
    refine (quo_ends _ (hvoted habstain)).bind fun _ _ _ => .ite (fun _ => hrejected) fun _ => ?_
    exact (quo_ends _ habstain).bind fun _ _ _ => .ite (fun _ => hpassed) fun _ => hrejected
  · refine .ite (fun _ => hrejected) fun htotal => .ite (fun _ => hrejected) fun habstain => ?_
    refine (quo_ends _ htotal).bind fun _ _ _ => .ite (fun _ => hrejected) fun _ => ?_
    refine (quo_ends _ habstain).bind fun _ _ _ => .ite (fun _ => hrejected) fun _ => ?_
    refine (quo_ends _ htotal).bind fun _ _ _ => .ite (fun _ => hpassed) fun _ => ?_
    exact Or.inr (Or.inr ⟨Bool.eq_false_iff.mpr hexpire, rfl⟩)

/-- **The tally** on a consistent staking store, for votes of different voters. -/
theorem tally_spec (hb : SharesOK b)
    (hindex : ∀ key a, b.validatorsByPowerIndex.get key = some a → (b.getValidator a).isSome)
    {votes : List Vote} (hvoters : (votes.map Vote.voter).Nodup)
    (hoptions : ∀ vote ∈ votes, vote.option ≠ .empty) (params : TallyParams) (maxValidators : Nat)
    (isExpireVoteEndTime : Bool) :
    ∃ validators status distribute,
      bondedValidatorsByPower b maxValidators = .ok validators ∧
      (tallyDelegatorVotes b votes (.start validators)).Fair b (totalPower validators)
        (fun a => ((votes.map Vote.voter).map fun d => votesOf (b.getDelegator d) a).sum) ∧
      (tallyResults validators (preTally b validators votes)).Sound ∧
      Decides isExpireVoteEndTime status ∧
      tally params b maxValidators votes isExpireVoteEndTime =
        .ok (status, distribute, tallyResults validators (preTally b validators votes)) := by
  have hall : ∀ a ∈ b.validatorsByPowerIndex.entries.reverse.map Prod.snd,
      (b.getValidator a).isSome := by
    intro a ha
    obtain ⟨⟨key, a⟩, he, rfl⟩ := List.mem_map.mp ha
    exact hindex key a (KVStore.mem_entries.mp (List.mem_reverse.mp he))
  obtain ⟨validators, hvalidators, hstored⟩ := bondedFrom_ok hall maxValidators
  have hfair : (tallyDelegatorVotes b votes (.start validators)).Fair b (totalPower validators)
      fun a => ((votes.map Vote.voter).map fun d => votesOf (b.getDelegator d) a).sum := by
    refine ((Counting.Fair.start hb hstored).foldl_addVote hb hoptions).mono fun a => ?_
    rw [zero_add]
  obtain ⟨hadds, hwithin⟩ := hfair.tallyValidatorVotes hb hvoters
  have hsound : (tallyResults validators (preTally b validators votes)).Sound := by
    refine ⟨hadds.nonneg _, hadds.nonneg _, hadds.nonneg _, hadds.nonneg _, ?_, hwithin⟩
    have hsum := hadds.sum
    unfold Counting.sum at hsum
    simp only [tallyResults, preTally]
    omega
  obtain ⟨⟨status, distribute⟩, hstatus, hdecides⟩ :=
    (tallyStatus_ends params isExpireVoteEndTime hsound).exists_ok
  refine ⟨validators, status, distribute, hvalidators, hfair, hsound, hdecides, ?_⟩
  exact bind_eq_ok.mpr ⟨validators, hvalidators, bind_eq_ok.mpr ⟨_, hstatus, rfl⟩⟩

end

/-! ## Reachable stores -/

section

variable {B : Type} {sk : PoolKeeper B} {weight : Int → Int} {n : ChainNode B}

/-- The power index of a reachable store lists validators. -/
theorem ChainReach.indexed {rule : ChainNode B → ChainAction B → Prop}
    (hweight : ∀ week, Dec.one ≤ weight week) (hn : ChainReach sk weight rule n) :
    SharesOK n.books ∧ ∀ key a, n.books.validatorsByPowerIndex.get key = some a →
      (n.books.getValidator a).isSome := by
  obtain ⟨w, hinv⟩ := ChainReach.inv False False hweight (fun n a _ => n.keeps_false a) hn
  refine ⟨hinv.stores.staking.shares, fun key a hget => ?_⟩
  obtain ⟨v, hv, -⟩ := (hinv.stores.ok.power key a).mp hget
  exact Option.isSome_of_eq_some hv

/-- **No share is counted twice.** On every node of every run, for all votes of different voters:
the tally goes through, the counts are not negative and add up to the voted power, which is within
the total power, and no validator inherits less than nothing. -/
theorem tally_counts_once (hweight : ∀ week, Dec.one ≤ weight week)
    (hn : ChainReach sk weight (fun _ _ => True) n) {votes : List Vote}
    (hvoters : (votes.map Vote.voter).Nodup) (hoptions : ∀ vote ∈ votes, vote.option ≠ .empty)
    (params : TallyParams) (maxValidators : Nat) (isExpireVoteEndTime : Bool) :
    ∃ validators status distribute results,
      bondedValidatorsByPower n.books maxValidators = .ok validators ∧
      tally params n.books maxValidators votes isExpireVoteEndTime =
        .ok (status, distribute, results) ∧
      (0 ≤ results.yes ∧ 0 ≤ results.no ∧ 0 ≤ results.noWithVeto ∧ 0 ≤ results.abstain) ∧
      results.yes + results.no + results.noWithVeto + results.abstain = results.totalVotedPower ∧
      results.totalVotedPower ≤ results.totalPower ∧
      results.totalPower = totalPower validators ∧
      ∀ a info, (tallyDelegatorVotes n.books votes (.start validators)).currValidators.get a =
        some info → 0 ≤ info.delegatorShares - info.delegatorDeductions := by
  obtain ⟨hb, hindex⟩ := ChainReach.indexed hweight hn
  obtain ⟨validators, status, distribute, hvalidators, hfair, hsound, -, htally⟩ :=
    tally_spec hb hindex hvoters hoptions params maxValidators isExpireVoteEndTime
  refine ⟨validators, status, distribute, _, hvalidators, htally,
    ⟨hsound.yes, hsound.no, hsound.noWithVeto, hsound.abstain⟩, hsound.sum, hsound.within, rfl,
    fun a info hget => Int.sub_nonneg.mpr (hfair.deductions_le hb hvoters hget)⟩

end

/-- Carol has added shares to Alice's validator, which is elected. -/
def carolVotes : ChainNode (KVStore Address Coins) :=
  (chainStart briefParams).run simplePools (fun _ => Dec.one) [.tx createAlice, .initChain,
    .beginBlock 5, .tx (.deposit ⟨"carol", ⟨bondDenom, Dec.newDec 50⟩⟩),
    .tx (.addShares ⟨"carol", ["alice"]⟩), .endBlock]

/-- Alice votes yes with what is left of her shares, and Carol no. -/
theorem tally_counts_once_carolVotes :
    (tally ⟨0, 0, 0, 0⟩ carolVotes.books 10 [⟨1, "alice", .yes⟩, ⟨1, "carol", .no⟩] true).toOption.map
      (fun r => (r.2.2.yes, r.2.2.no)) = some (Dec.one, 50 * Dec.one) ∧
    ∃ validators status distribute results,
      bondedValidatorsByPower carolVotes.books 10 = .ok validators ∧
      tally ⟨0, 0, 0, 0⟩ carolVotes.books 10 [⟨1, "alice", .yes⟩, ⟨1, "carol", .no⟩] true =
        .ok (status, distribute, results) ∧
      (0 ≤ results.yes ∧ 0 ≤ results.no ∧ 0 ≤ results.noWithVeto ∧ 0 ≤ results.abstain) ∧
      results.yes + results.no + results.noWithVeto + results.abstain = results.totalVotedPower ∧
      results.totalVotedPower ≤ results.totalPower ∧
      results.totalPower = totalPower validators ∧
      ∀ a info, (tallyDelegatorVotes carolVotes.books [⟨1, "alice", .yes⟩, ⟨1, "carol", .no⟩]
        (.start validators)).currValidators.get a =
        some info → 0 ≤ info.delegatorShares - info.delegatorDeductions := by
  have hcarol : simplePools.IsUser "carol" := isUser_simpleSupply (by decide)
  have hn : ChainReach simplePools (fun _ => Dec.one) (fun _ _ => True) carolVotes :=
    (reach_chainStart _ _ _).later (.run (by decide +kernel) ⟨⟨createAlice_valid, trivial⟩,
      ⟨trivial, trivial⟩, ⟨trivial, trivial⟩, ⟨⟨by decide, hcarol⟩, trivial⟩,
      ⟨⟨by decide, hcarol⟩, trivial⟩, ⟨trivial, trivial⟩, trivial⟩)
  exact ⟨by decide +kernel, tally_counts_once (fun _ => by decide) hn (by decide) (by decide)
    ⟨0, 0, 0, 0⟩ 10 true⟩

end Gov

end Okexchain
