import Okexchain.Chain.Node
import Okexchain.Slashing.Spec

/-!
# What holds in every run of the chain

`ChainInv sk guarded strict w n`: the stores of the node `n` agree with each other and with the
validator set `w`, which is what Tendermint has been told.

* If `guarded`, no validator with a tombstoned key can be created, and those that are there are
  jailed.
* If `strict`, nobody that has left the set for good is punished for downtime, and every validator
  that is to be kicked out is there.

**Results.** One lemma per action. Those inside of a block keep the set, and do to the validators
what an action of the staking module does (`ChainInv.tx`, `ChainInv.vote`, `ChainInv.evidence`); the
others make a new one or begin a block (`ChainInv.initChain`, `ChainInv.endBlock`,
`ChainInv.restart`, `ChainInv.beginBlock`). `ChainReach.inv`: the invariant holds in every run.
-/

namespace Okexchain

/-! ## The stores after a restart -/

section Restart

variable {banned : Address → Prop} {strict : Prop} {w : ValidatorSet} {b : StakingBooks}

/-- The store that an import of an export makes agrees with the same validator set. -/
theorem ValidatorsOK.reimported (h : ValidatorsOK banned strict w b)
    (hnone : b.abandonedValidatorAddrs = []) :
    ValidatorsOK banned strict w (b.reimported b.hooks) := by
  have hperm : ∀ t, ((b.reimported b.hooks).queuedAt t).Perm (b.queuedAt t) := by
    intro t
    have hrel := h.rebuild_queue t
    show ((b.rebuiltQueue.get t).getD []).Perm ((b.validatorQueue.get t).getD [])
    generalize b.rebuiltQueue.get t = new at hrel
    generalize b.validatorQueue.get t = old at hrel
    cases hrel with
    | none => exact .refl _
    | some hslice => exact hslice
  refine ⟨h.cons, h.power, fun t a => (hperm t).mem_iff.trans (h.queued t a),
    fun t => (hperm t).nodup_iff.mpr (h.once t),
    KVStore.foldl_push_ne_nil _ (fun _ hget => by cases hget), h.powers, h.total, h.bonded, h.nonzero,
    h.tendermint, fun a ha => ?_, fun _ a ha => absurd ha List.not_mem_nil, h.banned, h.tokens,
    h.registered, h.known⟩
  have hmem := h.jailed a ha
  rwa [hnone] at hmem

/-- Updates with powers are writes. -/
theorem foldl_applyUpdate {us : List ValidatorUpdate} (hus : ∀ u ∈ us, u.power ≠ 0)
    (m : KVStore Address Int) : us.foldl applyUpdate m =
      (us.map fun u => (u.pubKey, u.power)).foldl (fun m e => m.set e.1 e.2) m := by
  induction us generalizing m with
  | nil => rfl
  | cons u us ih =>
    obtain ⟨hu, hus⟩ := List.forall_mem_cons.mp hus
    rw [List.foldl_cons, applyUpdate, if_neg hu]
    exact ih hus _

/-- The updates say the last powers, under the keys of their validators. -/
theorem StakingBooks.mem_of_tells {us : List ValidatorUpdate} {l : List (Address × Int)}
    (hus : List.Forall₂ b.Tells us l) (k : Address) (p : Int) :
    ⟨k, p⟩ ∈ us ↔ ∃ a, b.Has a (fun v => v.consAddress = k) ∧ (a, p) ∈ l := by
  induction hus with
  | nil => exact iff_of_false List.not_mem_nil fun ⟨_, _, hmem⟩ => List.not_mem_nil hmem
  | @cons u e us l htells _ ih =>
    obtain ⟨key, power⟩ := u
    obtain ⟨a₀, p₀⟩ := e
    obtain ⟨⟨v, hv, hkey⟩, hpower⟩ := htells
    dsimp only at hv hkey hpower
    subst hkey hpower
    rw [List.mem_cons, ih]
    constructor
    · rintro (heq | ⟨a, ha, hmem⟩)
      · cases heq
        exact ⟨a₀, ⟨v, hv, rfl⟩, List.mem_cons_self⟩
      · exact ⟨a, ha, List.mem_cons_of_mem _ hmem⟩
    · rintro ⟨a, ha, hmem⟩
      rcases List.mem_cons.mp hmem with heq | hmem
      · cases heq
        left
        rw [← (has_of_get hv).mp ha]
        rfl
      · exact .inr ⟨a, ha, hmem⟩

/-- The last powers, told one by one, give the validator set that was told before. -/
theorem ValidatorsOK.retold (h : ValidatorsOK banned strict w b) {us : List ValidatorUpdate}
    (hus : List.Forall₂ b.Tells us b.lastValidatorPower.entries) :
    us.foldl applyUpdate ∅ = w.tendermint ∧ (us.map ValidatorUpdate.pubKey).Nodup := by
  have hmem : ∀ k p, ⟨k, p⟩ ∈ us ↔
      ∃ a, b.Has a (fun v => v.consAddress = k) ∧ w.powers.get a = some p := by
    intro k p
    rw [StakingBooks.mem_of_tells hus, ← h.powers]
    simp only [KVStore.mem_entries]
  have hkeys : (us.map ValidatorUpdate.pubKey).Nodup := by
    have hnodup : (b.lastValidatorPower.entries.map Prod.fst).Nodup := KVStore.nodup_keys
    clear hmem
    generalize b.lastValidatorPower.entries = l at hus hnodup
    induction hus with
    | nil => exact List.nodup_nil
    | @cons u e us l htells hrest ih =>
      obtain ⟨hnew, hnodup⟩ := List.nodup_cons.mp hnodup
      refine List.nodup_cons.mpr ⟨fun hk => ?_, ih hnodup⟩
      obtain ⟨u', hu', hsame⟩ := List.mem_map.mp hk
      obtain ⟨a, ha, hal⟩ := (StakingBooks.mem_of_tells hrest u'.pubKey u'.power).mp hu'
      rw [hsame] at ha
      rw [h.cons_inj ha htells.1] at hal
      exact hnew (List.mem_map.mpr ⟨_, hal, rfl⟩)
  refine ⟨?_, hkeys⟩
  rw [foldl_applyUpdate fun u hu => ?_]
  · refine KVStore.foldl_set_eq fun k p => ?_
    rw [h.tendermint, ← hmem, List.mem_map]
    constructor
    · rintro ⟨u, hu, heq⟩
      cases heq
      exact hu
    · exact fun hu => ⟨⟨k, p⟩, hu, rfl⟩
  · obtain ⟨a, -, hp⟩ := (hmem u.pubKey u.power).mp hu
    exact h.nonzero a u.power hp

namespace SlashingBooks

/-- The bits of the missed blocks, with the keys of the store. -/
def bitsOf (l : List (Address × List (Int × Bool))) : List ((Address ×ₗ Int) × Bool) :=
  l.flatMap fun e => e.2.map fun missed => (toLex (e.1, missed.1), missed.2)

theorem foldl_setValidatorMissedBlockBitArray (l : List (Address × List (Int × Bool)))
    (b : SlashingBooks) :
    l.foldl (fun b e => e.2.foldl (fun b missed =>
      b.setValidatorMissedBlockBitArray e.1 missed.1 missed.2) b) b =
      { b with missedBlocks := (bitsOf l).foldl (fun m e => m.set e.1 e.2) b.missedBlocks } := by
  have hone : ∀ (bits : List (Int × Bool)) (a : Address) (b : SlashingBooks),
      bits.foldl (fun b missed => b.setValidatorMissedBlockBitArray a missed.1 missed.2) b =
        { b with missedBlocks :=
            (bitsOf [(a, bits)]).foldl (fun m e => m.set e.1 e.2) b.missedBlocks } := by
    intro bits a b
    induction bits generalizing b with
    | nil => rfl
    | cons missed bits ih => exact ih _
  induction l generalizing b with
  | nil => rfl
  | cons e l ih =>
    have hcons : bitsOf (e :: l) = bitsOf [e] ++ bitsOf l := by
      rw [← List.singleton_append]
      exact List.flatMap_append
    rw [List.foldl_cons, ih, hone, hcons, List.foldl_append]

theorem foldl_setValidatorSigningInfo (l : List (Address × ValidatorSigningInfo))
    (b : SlashingBooks) : l.foldl (fun b e => b.setValidatorSigningInfo e.1 e.2) b =
      { b with signingInfos := l.foldl (fun m e => m.set e.1 e.2) b.signingInfos } := by
  induction l generalizing b with
  | nil => rfl
  | cons e l ih => exact ih _

theorem foldl_pubkeys (l : List Validator) (b : SlashingBooks) :
    l.foldl (fun b v => { b with pubkeys := b.pubkeys.set v.consAddress () }) b =
      { b with pubkeys :=
        (l.map fun v => (v.consAddress, ())).foldl (fun m e => m.set e.1 e.2) b.pubkeys } := by
  induction l generalizing b with
  | nil => rfl
  | cons v l ih => exact ih _

/-- A restart keeps the signing infos, and has the keys of the validators. -/
theorem initGenesis_exportGenesis (params : SlashingParams) (b : SlashingBooks)
    (validators : List Validator) :
    initGenesis validators (b.exportGenesis params) =
      ⟨(validators.map fun v => (v.consAddress, ())).foldl (fun m e => m.set e.1 e.2) ∅,
        b.signingInfos,
        (bitsOf (b.exportGenesis params).missedBlocks).foldl (fun m e => m.set e.1 e.2) ∅⟩ := by
  unfold initGenesis
  rw [foldl_setValidatorMissedBlockBitArray, foldl_setValidatorSigningInfo, foldl_pubkeys]
  exact congrArg (SlashingBooks.mk _ · _) (KVStore.foldl_set_entries b.signingInfos)

end SlashingBooks

variable {B : Type} {sk : PoolKeeper B} {guarded : Prop} {time : Int} {s : StakingState B}
  {sl : SlashingBooks}

/-- **A restart** keeps the agreement of the stores. -/
theorem StoresOK.reimported (h : StoresOK sk guarded strict time w s sl)
    (hnone : s.books.abandonedValidatorAddrs = []) (params : SlashingParams) (time' : Int) :
    StoresOK sk guarded strict time' w { s with books := s.books.reimported s.books.hooks }
      (.initGenesis s.books.validators.values (sl.exportGenesis params)) := by
  have hinit := SlashingBooks.initGenesis_exportGenesis params sl s.books.validators.values
  have hinfos := congrArg SlashingBooks.signingInfos hinit
  have hpubkeys := congrArg SlashingBooks.pubkeys hinit
  have htomb : ∀ k, (SlashingBooks.initGenesis s.books.validators.values
      (sl.exportGenesis params)).isTombstoned k = sl.isTombstoned k := fun k => by
    unfold SlashingBooks.isTombstoned
    rw [hinfos]
  refine ⟨⟨⟨h.staking.shares.sound, h.staking.shares.records, h.staking.shares.exist,
    h.staking.shares.totals, h.staking.shares.msd, h.staking.shares.index⟩, h.staking.users⟩, ?_, ?_,
    fun k hk => ?_, fun _ a ha => absurd ha List.not_mem_nil⟩
  · simpa only [htomb] using h.ok.reimported hnone
  · rw [hpubkeys]
    refine KVStore.foldl_set_eq fun k u => ?_
    refine Iff.trans ?_ (h.ok.registered k).symm
    simp only [List.mem_map, Prod.mk.injEq, and_true]
    constructor
    · rintro ⟨v, hv, hk⟩
      exact ⟨v.operatorAddress, StakingBooks.exists_value_iff.mp ⟨v, hv, hk, rfl⟩⟩
    · rintro ⟨a, ha⟩
      obtain ⟨v, hv, hk, -⟩ := StakingBooks.exists_value_iff.mpr ha
      exact ⟨v, hv, hk⟩
  · rw [hinfos]
    exact h.infos k hk

end Restart

/-! ## What Tendermint is told -/

namespace ChainNode

theorem validatorSet_singleton (us : List ValidatorUpdate) :
    validatorSet [us] = us.foldl applyUpdate ∅ := by
  unfold validatorSet
  rw [List.flatten_singleton]

theorem validatorSet_concat (log : List (List ValidatorUpdate)) (us : List ValidatorUpdate) :
    validatorSet (log ++ [us]) = us.foldl applyUpdate (validatorSet log) := by
  unfold validatorSet
  rw [List.flatten_append, List.flatten_singleton, List.foldl_append]

end ChainNode

/-! ## The invariant -/

/-- The stores agree with the validator set that Tendermint has been told. -/
structure ChainInv {B : Type} (sk : PoolKeeper B) (guarded strict : Prop) (w : ValidatorSet)
    (n : ChainNode B) : Prop where
  stores : StoresOK sk guarded strict n.staking.time w n.staking.state n.slashing
  told : w.tendermint = ChainNode.validatorSet n.log
  counted : w.Counted
  keys : ∀ us ∈ n.log, (us.map ValidatorUpdate.pubKey).Nodup
  idle : n.phase.inBlock = false → n.books.abandonedValidatorAddrs = []
  /-- Nothing has been told before the first election. -/
  silent : n.phase = .genesis → n.log = [[]]

section Actions

variable {B : Type} {sk : PoolKeeper B} {weight : Int → Int} {guarded strict : Prop}
  {w : ValidatorSet} {n : ChainNode B} {e : Equivocation}

/-! ### Inside of a block -/

/-- Of the messages only the destruction of a validator abandons one. -/
theorem ChainNode.Delivers.abandons {a : StakingAction B} {v : Validator} (hdelivers : n.Delivers a)
    (habandons : a.Abandons v) : n.phase.inBlock = true ∧ ∃ d, a = .destroyValidator d := by
  cases a with
  | destroyValidator d => exact ⟨hdelivers, d, rfl⟩
  | downtime k => exact hdelivers.elim
  | doubleSign k => exact hdelivers.elim
  | _ => exact habandons.elim

/-- A message is delivered in a block, or at genesis. -/
theorem ChainNode.Delivers.phase {a : StakingAction B} (hdelivers : n.Delivers a) :
    n.messagePhase.inBlock = n.phase.inBlock ∧ (n.messagePhase = .genesis → n.phase = .genesis) ∧
      n.messagePhase ≠ .between := by
  have hne : n.phase ≠ .between := by
    intro hphase
    unfold ChainNode.Delivers at hdelivers
    rw [hphase] at hdelivers
    cases a with
    | createValidator msg => exact hdelivers rfl
    | unjail valAddr allowed => cases hdelivers.1
    | _ => cases hdelivers
  unfold messagePhase
  cases hphase : n.phase with
  | between => exact absurd hphase hne
  | genesis => exact ⟨rfl, fun _ => rfl, nofun⟩
  | _ => exact ⟨rfl, nofun, nofun⟩

/-- A message that is delivered is orderly: slashing lets nobody out of jail that it should not. -/
theorem ChainNode.Delivers.orderly {a : StakingAction B} (hdelivers : n.Delivers a)
    (h : StoresOK sk guarded strict n.staking.time w n.staking.state n.slashing)
    (hguard : guarded → ∀ msg, a = .createValidator msg →
      n.slashing.isTombstoned msg.pubKey = false) :
    a.Orderly (fun k => guarded ∧ n.slashing.isTombstoned k = true) strict n.books := by
  refine ⟨fun k hk => ?_, fun v hv hfrees => ?_, fun _ v hv habandons => ?_⟩
  · rintro ⟨hg, htomb⟩
    cases a with
    | createValidator msg =>
      have hnot := hguard hg msg rfl
      rw [show msg.pubKey = k from hk, htomb] at hnot
      cases hnot
    | _ => exact hk
  · cases a with
    | unjail valAddr allowed =>
      obtain ⟨hvalAddr, hmsd, hjailed, rfl⟩ := hfrees
      have hallows : n.slashing.allowsUnjail n.staking.time v.consAddress = true := by
        have hasked := hdelivers.2
        unfold ChainNode.allowsUnjail at hasked
        rw [← hvalAddr, hv] at hasked
        exact hasked.symm
      refine ⟨fun hbanned => ?_, fun hs hmem => ?_⟩
      · have hnot := SlashingBooks.not_tombstoned_of_allowsUnjail hallows
        rw [hbanned.2] at hnot
        cases hnot
      · rcases h.held hs _ hmem with hdismissed | ⟨k, st, t, -, hplace, hrefuses⟩
        · exact hmsd ((StakingBooks.has_of_get hv).mp hdismissed).2
        · have hk : v.consAddress = k := ((StakingBooks.has_of_get hv).mp hplace).1
          rw [hk, SlashingBooks.allowsUnjail_of_refuses hrefuses] at hallows
          cases hallows
    | _ => exact hfrees.elim
  · obtain ⟨d, rfl⟩ := (hdelivers.abandons habandons).2
    rw [habandons.2]
    nofun

/-- A message does not move the time, and leaves the parameters alone. -/
theorem ChainNode.Delivers.same_time {a : StakingAction B} (hdelivers : n.Delivers a)
    (hinv : StakingInv sk n.books) (hweight : ∀ week, Dec.one ≤ weight week) (hvalid : a.Valid sk) :
    (n.staking.step sk weight a).time = n.staking.time ∧
      ((∀ params bank, a ≠ .outside params bank) →
        (n.staking.step sk weight a).state.params = n.staking.state.params) := by
  rcases StakingNode.step_trace (fun _ _ => True) hinv hweight hvalid (fun _ _ => trivial) with
    hstep | ⟨time, rfl⟩ | ⟨params, bank, rfl⟩
  · exact ⟨hstep.time, fun _ => hstep.params⟩
  · exact hdelivers.elim
  · exact ⟨rfl, fun hinside => absurd rfl (hinside params bank)⟩

/-- What an action inside of a block, or a genesis transaction, does next to the invariant: as an
action of the staking module it acts on the validators, and Tendermint is not told of it. -/
structure Within (a : StakingAction B) (n n' : ChainNode B) : Prop where
  acts : Acts a n.books n'.books
  params : (∀ params bank, a ≠ .outside params bank) →
    n'.staking.state.params = n.staking.state.params
  tombstones : ∀ k, n.slashing.isTombstoned k = true → n'.slashing.isTombstoned k = true
  log : n'.log = n.log
  times : n'.times = n.times
  time : n'.staking.time = n.staking.time
  inBlock : n'.phase.inBlock = n.phase.inBlock
  genesis : n'.phase = .genesis → n.phase = .genesis
  busy : n'.phase ≠ .between

namespace ChainInv

/-- **A message.** -/
theorem tx (h : ChainInv sk guarded strict w n) (hweight : ∀ week, Dec.one ≤ weight week)
    {a : StakingAction B} (hvalid : a.Valid sk) (hdelivers : n.Delivers a)
    (hguard : guarded → ∀ msg, a = .createValidator msg →
      n.slashing.isTombstoned msg.pubKey = false) :
    Ends (n.step sk weight (.tx a)) (fun n' => ChainInv sk guarded strict w n' ∧ Within a n n')
      fun _ => False := by
  have hend : a ≠ .endBlock := by
    rintro rfl
    exact hdelivers
  have hacts : Acts a n.books (n.staking.step sk weight a).state.books :=
    StakingNode.step_acts h.stores.staking h.stores.ok hvalid hend
  obtain ⟨htime, hparams⟩ : (n.staking.step sk weight a).time = n.staking.time ∧ _ :=
    hdelivers.same_time h.stores.staking hweight hvalid
  have hstores := h.stores.acted (h.stores.staking.step hweight hvalid) hacts
    (hdelivers.orderly h.stores hguard) (.refl _ _) (fun k hk => .inl hk)
    (fun _ v _ habandons => .inl (hdelivers.abandons habandons).2) n.staking.height
  obtain ⟨hphase, hgenesis, hbusy⟩ := hdelivers.phase
  refine ⟨⟨htime.symm ▸ hstores, h.told, h.counted, h.keys, fun hidle => ?_,
    fun hphase => h.silent (hgenesis hphase)⟩, ⟨hacts, hparams,
      fun k hk => (SlashingBooks.isTombstoned_foldl_hook _ _ k).trans hk, rfl, rfl, htime, hphase,
      hgenesis, hbusy⟩⟩
  have hout := hphase.symm.trans hidle
  rcases hacts.abandoned with hsame | ⟨v, -, habandons, -⟩
  · exact hsame.trans (h.idle hout)
  · cases hout.symm.trans (hdelivers.abandons habandons).1

/-- **A vote of the last commit.** -/
theorem vote (h : ChainInv sk guarded strict w n) {vote : VoteInfo}
    (hattends : strict → ∀ q, ¬ n.books.Has q fun v =>
      v.consAddress = vote.address ∧ v.jailed = false ∧ v.status = .unbonded)
    (hphase : n.phase = .votes) :
    Ends (n.step sk weight (.vote vote)) (fun n' => ChainInv sk guarded strict w n' ∧
      Within (.downtime vote.address) n n') fun _ => ¬ n.books.Serves vote.address := by
  refine Ends.bind (handleValidatorSignature_ends h.stores n.slashingParams n.staking.height
    hattends) ?_
  rintro ⟨s, b⟩ - ⟨hstores, hjudged⟩
  refine Ends.pure ⟨⟨hstores, h.told, h.counted, h.keys, fun hidle => ?_, h.silent⟩, hjudged.acts,
    fun _ => hjudged.params, hjudged.tombstones, rfl, rfl, rfl, rfl, id, ?_⟩
  swap
  · rw [hphase]
    nofun
  rw [hphase] at hidle
  cases hidle

/-- **An evidence.** -/
theorem evidence (h : ChainInv sk guarded strict w n) (hallows : n.Allows (.evidence e)) :
    Ends (n.step sk weight (.evidence e)) (fun n' => ChainInv sk guarded strict w n' ∧
      Within (.doubleSign e.consensusAddress) n n' ∧
      (n.slashing.isTombstoned e.consensusAddress = true → n'.staking.state = n.staking.state))
      fun _ => False := by
  have hin : n.phase.inBlock = true := by
    rcases hallows with hphase | hphase <;> rw [hphase] <;> rfl
  refine Ends.bind (handleDoubleSign_ends h.stores n.slashingParams e) ?_
  rintro ⟨s, b⟩ - ⟨hstores, hjudged, htomb⟩
  exact Ends.pure ⟨⟨hstores, h.told, h.counted, h.keys, nofun, nofun⟩, ⟨hjudged.acts,
    fun _ => hjudged.params, hjudged.tombstones, rfl, rfl, rfl, hin.symm, nofun, nofun⟩, htomb⟩

theorem setParams (h : ChainInv sk guarded strict w n) (params : SlashingParams) :
    ChainInv sk guarded strict w { n with slashingParams := params } :=
  ⟨h.stores, h.told, h.counted, h.keys, h.idle, h.silent⟩

/-! ### Between blocks -/

/-- **A block begins.** -/
theorem beginBlock (h : ChainInv sk guarded strict w n) (hphase : n.phase = .between) (time : Int) :
    ChainInv sk guarded strict w { n with
      staking := { n.staking with height := n.staking.height + 1, time := time }
      phase := .votes
      times := time :: n.times } := by
  have hnone := h.idle (hphase ▸ rfl)
  exact ⟨h.stores.begins hnone time, h.told, h.counted, h.keys, nofun, nofun⟩

theorem initChain (h : ChainInv sk guarded strict w n) (hphase : n.phase = .genesis) :
    Ends (n.step sk weight .initChain) (fun n' => ∃ w', ChainInv sk guarded strict w' n' ∧
      n'.phase = .between ∧ n'.log.length = 1 ∧ n'.times = n.times ∧
      n'.staking.state.params = n.staking.state.params ∧
      w'.size ≤ n.staking.state.params.maxValidators ∧
      ∀ q, ¬ n'.books.Has q fun v => v.jailed = true ∧ v.status = .bonded) fun _ => False := by
  have hnone := h.idle (hphase ▸ rfl)
  have hempty : w.tendermint = ∅ := h.told.trans (by rw [h.silent hphase]; rfl)
  refine Ends.bind (StakingBooks.applyAndReturnValidatorSetUpdates_ends h.stores.ok) ?_
  rintro ⟨b, us⟩ hok ⟨w', hrolled, hsize, hsame⟩
  have htrace : StakingTrace sk (fun _ _ => True) n.staking.time n.staking.state []
      { n.staking.state with books := b } :=
    (StakingBooks.applyAndReturnValidatorSetUpdates_frame hok).stakingTrace
  have hstores := h.stores.rolled (h.stores.staking.trace htrace) hrolled.ok hrolled.hooks
    (hsame.trans hnone) n.staking.height
  have hlog : [n.log.flatten ++ us] = [us] := by
    rw [h.silent hphase]
    rfl
  refine Ends.pure ⟨w', ⟨hstores, ?_, hrolled.counted h.counted, fun us' hus' => ?_,
    fun _ => hsame.trans hnone, nofun⟩, rfl, rfl, rfl, rfl, hsize, hrolled.free⟩
  · show w'.tendermint = ChainNode.validatorSet [n.log.flatten ++ us]
    rw [hlog, hrolled.told, hempty, ChainNode.validatorSet_singleton]
  · have hus : us' ∈ [us] := hlog ▸ hus'
    rw [List.mem_singleton.mp hus]
    exact hrolled.keys

/-- **A block ends.** -/
theorem endBlock (h : ChainInv sk guarded strict w n) :
    Ends (n.step sk weight .endBlock) (fun n' => ∃ w' us, ChainInv sk guarded strict w' n' ∧
      n'.phase = .between ∧ n'.log = n.log ++ [us] ∧ n'.times = n.times ∧
      n'.staking.time = n.staking.time ∧ n'.staking.state.params = n.staking.state.params ∧
      Ended (fun k => guarded ∧ n.slashing.isTombstoned k = true) strict n.staking.state.params
        n.staking.time w n.books us w' n'.books) fun _ => ¬ strict := by
  refine Ends.bind (endBlocker_ends h.stores.ok) ?_
  rintro ⟨s, us, paid⟩ hok ⟨w', hended⟩
  have htrace := (endBlocker_trace (fun _ _ => True) h.stores.staking.users hok).2
  have hinv : StakingInv sk s.books := h.stores.staking.trace htrace
  refine Ends.pure ⟨w', us, ⟨h.stores.rolled hinv hended.ok hended.hooks hended.abandoned _, ?_,
    hended.counted h.counted, fun us' hus' => ?_, fun _ => hended.abandoned, nofun⟩, rfl, rfl, rfl,
    rfl, htrace.params, hended⟩
  · show w'.tendermint = ChainNode.validatorSet (n.log ++ [us])
    rw [hended.told, h.told, ChainNode.validatorSet_concat]
  · rcases List.mem_append.mp hus' with hus' | hus'
    · exact h.keys us' hus'
    · rw [List.mem_singleton.mp hus']
      exact hended.keys

/-- **A restart.** -/
theorem restart (h : ChainInv sk guarded strict w n) (hphase : n.phase = .between) (time : Int) :
    Ends (n.step sk weight (.restart time)) (fun n' => ChainInv sk guarded strict w n' ∧
      n'.phase = .between ∧ n'.log.length = 1 ∧ n'.times = [] ∧
      n'.staking.state.params = n.staking.state.params ∧
      n'.books.validators = n.books.validators) fun _ => True := by
  have hnone := h.idle (hphase ▸ rfl)
  let s₀ : StakingState B := { n.staking.state with books := .fresh n.books.hooks }
  have hfresh : s₀.books = .fresh n.books.hooks := rfl
  obtain ⟨us, htells, heq⟩ :=
    StakingState.initGenesis_exportGenesis sk h.stores.ok hfresh time
  obtain ⟨htold, hkeys⟩ := h.stores.ok.retold htells
  refine .intro (fun n' hok => ?_) fun _ _ => trivial
  obtain ⟨⟨s, us'⟩, hinit, hres⟩ := bind_eq_ok.mp hok
  cases hpools : StakingState.checkPools sk s₀.bank (coin n.staking.state.params.bondDenom
      (n.books.totalMinSelfDelegation + n.books.totalTokens))
      (coin n.staking.state.params.bondDenom n.books.totalQuantity) true with
  | error e =>
    cases hinit.symm.trans (heq.trans (congrArg (Except.map _) hpools))
  | ok u =>
    cases hinit.symm.trans (heq.trans (congrArg (Except.map _) hpools))
    cases hres
    refine ⟨⟨h.stores.reimported hnone n.slashingParams time, ?_, h.counted, fun us' hus' => ?_,
      fun _ => rfl, fun hgenesis => ?_⟩, hphase, rfl, rfl, rfl, rfl⟩
    · exact htold.symm.trans (ChainNode.validatorSet_singleton us).symm
    · rw [List.mem_singleton.mp hus']
      exact hkeys
    · cases hphase.symm.trans hgenesis

end ChainInv

/-! ## Runs -/

/-- What the invariant needs of an action. If `guarded`, nobody creates a validator with a
tombstoned key; if `strict`, no vote is that of an unbonded validator outside of jail. -/
def ChainNode.Keeps (guarded strict : Prop) (n : ChainNode B) : ChainAction B → Prop
  | .tx a => guarded → ∀ msg, a = .createValidator msg → n.slashing.isTombstoned msg.pubKey = false
  | .vote vote => strict → ∀ q, ¬ n.books.Has q fun v =>
      v.consAddress = vote.address ∧ v.jailed = false ∧ v.status = .unbonded
  | _ => True

/-- **Every action keeps the invariant.** -/
theorem ChainInv.step (h : ChainInv sk guarded strict w n) (hweight : ∀ week, Dec.one ≤ weight week)
    {a : ChainAction B} {n' : ChainNode B} (hvalid : a.Valid sk) (hallows : n.Allows a)
    (hkeeps : n.Keeps guarded strict a) (hstep : n.step sk weight a = .ok n') :
    ∃ w', ChainInv sk guarded strict w' n' := by
  cases a with
  | initChain =>
    obtain ⟨w', h', -⟩ := (h.initChain hallows).of_ok hstep
    exact ⟨w', h'⟩
  | beginBlock time =>
    cases hstep
    exact ⟨w, h.beginBlock hallows time⟩
  | vote vote => exact ⟨w, ((h.vote hkeeps hallows).of_ok hstep).1⟩
  | evidence e => exact ⟨w, ((h.evidence hallows).of_ok hstep).1⟩
  | tx a => exact ⟨w, ((h.tx hweight hvalid hallows hkeeps).of_ok hstep).1⟩
  | setParams params =>
    cases hstep
    exact ⟨w, h.setParams params⟩
  | endBlock =>
    obtain ⟨w', us, h', -⟩ := h.endBlock.of_ok hstep
    exact ⟨w', h'⟩
  | restart time => exact ⟨w, ((h.restart hallows time).of_ok hstep).1⟩

theorem StakingBooks.elect_nil (count : Nat) (e : Election) : elect count [] e = .ok e := by
  cases count <;> rfl

theorem StakingState.initGenesis_blank {s₀ : StakingState B} (hfresh : s₀.books = .fresh [])
    (time : Int) (params : StakingParams) : s₀.initGenesis sk time (.blank params) =
      .ok ({ s₀ with
        books := { StakingBooks.fresh [] with lastTotalPower := some 0 }
        params := params }, []) := by
  unfold initGenesis
  rw [hfresh]
  refine bind_eq_ok.mpr ⟨(), rfl, bind_eq_ok.mpr
    ⟨({ StakingBooks.fresh [] with lastTotalPower := some 0 }, []), bind_eq_ok.mpr
      ⟨_, StakingBooks.elect_nil params.maxValidators _, rfl⟩, rfl⟩⟩

/-- **A chain begins** without validators. -/
theorem ChainInv.genesis {s₀ s : StakingState B} {time : Int} {params : StakingParams}
    {slashingParams : SlashingParams} {updates : List ValidatorUpdate} (hfresh : s₀.books = .fresh [])
    (hinit : s₀.initGenesis sk time (.blank params) = .ok (s, updates)) :
    s.params = params ∧ ChainInv sk guarded strict ⟨∅, 0, ∅⟩
      ⟨⟨0, time, s, []⟩, ⟨∅, ∅, ∅⟩, slashingParams, .genesis, [], [updates]⟩ := by
  cases (StakingState.initGenesis_blank hfresh time params).symm.trans hinit
  have hok : ∀ banned : Address → Prop, ValidatorsOK banned strict ⟨∅, 0, ∅⟩
      { StakingBooks.fresh [] with lastTotalPower := some 0 } := fun banned =>
    .empty (some 0) none none
  refine ⟨rfl, ⟨.empty, hok _, rfl, nofun, fun _ a ha => absurd ha List.not_mem_nil⟩, rfl, rfl,
    fun us hus => ?_, fun _ => rfl, fun _ => rfl⟩
  rw [List.mem_singleton.mp hus]
  exact List.nodup_nil

theorem ChainNode.keeps_false (n : ChainNode B) (a : ChainAction B) : n.Keeps False False a := by
  cases a <;> first | trivial | exact False.elim

variable (guarded strict) in
/-- **In every run** the invariant holds. -/
theorem ChainReach.inv {rule : ChainNode B → ChainAction B → Prop}
    (hweight : ∀ week, Dec.one ≤ weight week) (hkeeps : ∀ n a, rule n a → n.Keeps guarded strict a)
    (hn : ChainReach sk weight rule n) : ∃ w, ChainInv sk guarded strict w n := by
  induction hn with
  | genesis hfresh hinit => exact ⟨_, (ChainInv.genesis hfresh hinit).2⟩
  | step hn hvalid hallows hrule hstep ih =>
    obtain ⟨w, h⟩ := ih
    exact h.step hweight hvalid hallows (hkeeps _ _ hrule) hstep

end Actions

end Okexchain
