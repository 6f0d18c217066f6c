import Okexchain.Chain.Abandoned

/-!
# The last commit

The votes that `BeginBlocker` of slashing handles are those of the last block. Its validators are
the ones of all updates up to two blocks before it, so they may have left the set since. Their keys
and signing infos have to be there all the same.

* A validator that leaves the set unbonds for `UnbondingTime`, and is not removed before.
* `ChainNode.Spanning span`: `UnbondingTime` is always longer than `span`, and no three consecutive
  blocks take longer than that; the votes are those of the last commit.
* `Lagging`: at the end of a block, the validators of the last two sets that it had are still bonded
  or unbonding.

**Results.** `beginBlockers_never_halt`: in every such run the calls for votes and for evidence
succeed, and the `EndBlocker` finds everyone they have put on the list.
-/

namespace Okexchain

variable {B : Type} {sk : PoolKeeper B} {weight : Int → Int} {n n' : ChainNode B} {span : Int}

/-! ## Validators that stay -/

/-- A validator with this key is bonded, or unbonding until the time at least. -/
def StakingBooks.Holds (b : StakingBooks) (k : Address) (t : Int) : Prop :=
  ∃ q, b.Has q fun v => v.consAddress = k ∧ v.Stays t

namespace StakingBooks

variable {b b' : StakingBooks} {k : Address} {t t' : Int}

theorem Holds.mono (h : b.Holds k t) (hle : t' ≤ t) : b.Holds k t' := by
  obtain ⟨q, v, hv, hk, hstays⟩ := h
  refine ⟨q, v, hv, hk, ?_⟩
  rcases hstays with hbonded | ⟨hunbonding, hdue⟩
  · exact .inl hbonded
  · exact .inr ⟨hunbonding, hle.trans hdue⟩

theorem Holds.serves (h : b.Holds k t) : b.Serves k := by
  obtain ⟨q, v, hv, hk, hstays⟩ := h
  exact ⟨q, v.status, _, hstays.not_unbonded, v, hv, hk, rfl, rfl⟩

end StakingBooks

/-- An action inside of a block does not take a validator away before its time. -/
theorem Acts.holds {a : StakingAction B} {b b' : StakingBooks} (h : Acts a b b') {k : Address} {t : Int}
    (hk : b.Holds k t) : b'.Holds k t := by
  obtain ⟨q, v, hv, hkey, hstays⟩ := hk
  obtain ⟨v', hv', hkey', hstatus, hdue⟩ :=
    h.places hstays.not_unbonded (⟨v, hv, hkey, rfl, rfl⟩ : b.Place q k v.status _)
  refine ⟨q, v', hv', hkey', ?_⟩
  unfold Validator.Stays at hstays ⊢
  rwa [hstatus, hdue]

theorem Acts.serves {a : StakingAction B} {b b' : StakingBooks} (h : Acts a b b') {k : Address}
    (hk : b.Serves k) : b'.Serves k := by
  obtain ⟨q, st, t, hst, hplace⟩ := hk
  exact ⟨q, st, t, hst, h.places hst hplace⟩

/-- Whoever Tendermint knows is bonded. -/
theorem ChainInv.bonded {guarded strict : Prop} {w : ValidatorSet} (h : ChainInv sk guarded strict w n)
    {k : Address} (hk : ((ChainNode.validatorSet n.log).get k).isSome) (t : Int) :
    n.books.Holds k t := by
  obtain ⟨p, hp⟩ := Option.isSome_iff_exists.mp hk
  rw [← h.told] at hp
  obtain ⟨q, ⟨v, hv, hkey⟩, hpower⟩ := (h.stores.ok.tendermint k p).mp hp
  obtain ⟨v', hv', hbonded⟩ := (h.stores.ok.bonded q).mp (by rw [hpower]; rfl)
  cases hv.symm.trans hv'
  exact ⟨q, v, hv, hkey, .inl hbonded⟩

/-! ## The sets before the last -/

/-- `UnbondingTime` is longer than `span`, no three consecutive blocks take longer than that, and
the votes are those of the last commit. -/
def ChainNode.Spanning (span : Int) (n : ChainNode B) (a : ChainAction B) : Prop :=
  span < n.staking.state.params.unbondingTime ∧
    match a with
    | .beginBlock t => ∀ t₁ t₀ rest, n.times = t₁ :: t₀ :: rest →
        max t (max t₁ t₀) - min t (min t₁ t₀) ≤ span
    | .vote vote => (n.lastCommit.get vote.address).isSome
    | _ => True

/-- What is left of the sets before the last, with the times of the blocks that have ended, last
first. After the updates of a block the validators of the set before it stay until `UnbondingTime`
is over; so do those of the set before that, if the last two blocks were not too far apart. -/
structure Lags (span : Int) (times : List Int) (log : List (List ValidatorUpdate))
    (b : StakingBooks) : Prop where
  length : log.length = times.length + 1
  recent : ∀ t rest, times = t :: rest → ∃ due, t < due ∧ t + span < due ∧ ∀ k,
    ((ChainNode.validatorSet (log.take (log.length - 1))).get k).isSome → b.Holds k due
  older : ∀ t₁ t₀ rest, times = t₁ :: t₀ :: rest → t₁ - t₀ ≤ span → ∀ k,
    ((ChainNode.validatorSet (log.take (log.length - 2))).get k).isSome → b.Serves k

/-- A chain that has just begun. -/
theorem Lags.first {log : List (List ValidatorUpdate)} (hlog : log.length = 1) (b : StakingBooks) :
    Lags span [] log b :=
  ⟨hlog, nofun, nofun⟩

theorem Lags.acted {times : List Int} {log : List (List ValidatorUpdate)} {b b' : StakingBooks}
    {a : StakingAction B} (h : Lags span times log b) (hacts : Acts a b b') :
    Lags span times log b' := by
  refine ⟨h.length, fun t rest htimes => ?_, fun t₁ t₀ rest htimes hclose k hk => ?_⟩
  · obtain ⟨due, hlate, hspan, hholds⟩ := h.recent t rest htimes
    exact ⟨due, hlate, hspan, fun k hk => hacts.holds (hholds k hk)⟩
  · exact hacts.serves (h.older t₁ t₀ rest htimes hclose k hk)

/-- **A block ends.** What was the set is the set before the last, and so on. -/
theorem Lags.ended {guarded strict : Prop} {w w' : ValidatorSet} {rest : List Int}
    {us : List ValidatorUpdate} {b' : StakingBooks} {banned : Address → Prop}
    (h : Lags span rest n.log n.books) (hinv : ChainInv sk guarded strict w n)
    (hspan : span < n.staking.state.params.unbondingTime)
    (hended : Ended banned strict n.staking.state.params n.staking.time w n.books us w' b') :
    Lags span (n.staking.time :: rest) (n.log ++ [us]) b' := by
  have hpos := n.staking.state.params.unbondingTime_pos
  have hkept : ∀ k due, n.staking.time < due → due ≤ n.staking.time +
      n.staking.state.params.unbondingTime → n.books.Holds k due → b'.Holds k due := by
    rintro k due hlate hdue ⟨q, hq⟩
    exact ⟨q, hended.staying q k due hlate hdue hq⟩
  have hlength : (n.log ++ [us]).length = n.log.length + 1 := List.length_append
  refine ⟨by rw [hlength, h.length, List.length_cons], fun t rest' htimes => ?_,
    fun t₁ t₀ rest' htimes hclose k hk => ?_⟩
  · cases htimes
    refine ⟨n.staking.time + n.staking.state.params.unbondingTime, by omega, by omega, fun k hk => ?_⟩
    rw [hlength, Nat.add_sub_cancel, List.take_left] at hk
    exact hkept k _ (by omega) le_rfl (hinv.bonded hk _)
  · obtain ⟨rfl, rfl⟩ := List.cons.inj htimes
    obtain ⟨due, hlate, hdue, hholds⟩ := h.recent t₀ rest' rfl
    have hpast : n.log.length + 1 - 2 ≤ n.log.length := by omega
    rw [hlength, List.take_append_of_le_length hpast] at hk
    -- it has to stay until the end of this block only
    have htime : n.staking.time < min due (n.staking.time +
        n.staking.state.params.unbondingTime) := by omega
    exact (hkept k _ htime (min_le_right _ _) ((hholds k hk).mono (min_le_left _ _))).serves

/-! ## Runs -/

/-- The sets before the last, and the last commit inside of a block. -/
structure Lagging {B : Type} (span : Int) (n : ChainNode B) : Prop where
  genesis : n.phase = .genesis → n.times = []
  between : n.phase = .between → Lags span n.times n.log n.books
  inBlock : n.phase.inBlock = true → ∃ rest, n.times = n.staking.time :: rest ∧
    Lags span rest n.log n.books ∧ ∀ k, (n.lastCommit.get k).isSome → n.books.Serves k

namespace Lagging

variable {guarded strict : Prop} {w : ValidatorSet}

theorem within {a : StakingAction B} (h : Lagging span n) (hwithin : Within a n n') :
    Lagging span n' := by
  refine ⟨fun hphase => hwithin.times.trans (h.genesis (hwithin.genesis hphase)),
    fun hphase => absurd hphase hwithin.busy, fun hphase => ?_⟩
  obtain ⟨rest, htimes, hlags, hserves⟩ := h.inBlock (hwithin.inBlock ▸ hphase)
  refine ⟨rest, ?_, ?_, fun k hk => hwithin.acts.serves (hserves k ?_)⟩
  · rw [hwithin.times, hwithin.time, htimes]
  · rw [hwithin.log]
    exact hlags.acted hwithin.acts
  · unfold ChainNode.lastCommit at hk ⊢
    rwa [hwithin.log] at hk

/-- **A block begins**: the validators of the last commit are still there. -/
theorem begun (h : Lagging span n) (hinv : ChainInv sk guarded strict w n) (hphase : n.phase = .between)
    {t : Int} (hspan : ∀ t₁ t₀ rest, n.times = t₁ :: t₀ :: rest →
      max t (max t₁ t₀) - min t (min t₁ t₀) ≤ span) {k : Address} (hk : (n.lastCommit.get k).isSome) :
    n.books.Serves k := by
  have hlags := h.between hphase
  have hlength := hlags.length
  unfold ChainNode.lastCommit at hk
  -- Up to the second block the last commit is that of `InitChain`.
  cases htimes : n.times with
  | nil =>
    rw [htimes, List.length_nil] at hlength
    rw [hlength, List.take_of_length_le (by rw [hlength]; exact le_max_left 1 _)] at hk
    exact (hinv.bonded hk 0).serves
  | cons t₁ rest =>
    cases rest with
    | nil =>
      rw [htimes, List.length_singleton] at hlength
      obtain ⟨due, -, -, hholds⟩ := hlags.recent t₁ [] htimes
      refine (hholds k ?_).serves
      rwa [hlength] at hk ⊢
    | cons t₀ rest =>
      have hclose := hspan t₁ t₀ rest htimes
      refine hlags.older t₁ t₀ rest htimes (by omega) k ?_
      rw [htimes, List.length_cons, List.length_cons] at hlength
      rwa [max_eq_right (by omega)] at hk

/-- Whoever is in the last commit is there. -/
theorem serves (h : Lagging span n) (hphase : n.phase = .votes) {k : Address}
    (hk : (n.lastCommit.get k).isSome) : n.books.Serves k := by
  obtain ⟨rest, -, -, hserves⟩ := h.inBlock (hphase ▸ rfl)
  exact hserves k hk

/-- Whoever is in the last commit is not unbonded. -/
theorem attends (h : Lagging span n) (hinv : ChainInv sk guarded strict w n)
    (hphase : n.phase = .votes) {k : Address} (hk : (n.lastCommit.get k).isSome) (q : Address) :
    ¬ n.books.Has q fun v => v.consAddress = k ∧ v.jailed = false ∧ v.status = .unbonded := by
  rintro ⟨v, hv, hkey, -, hstatus⟩
  obtain ⟨q', st, t, hst, v', hv', hkey', hstatus', -⟩ := h.serves hphase hk
  have hq := hinv.stores.ok.cons_inj ⟨v, hv, hkey⟩ ⟨v', hv', hkey'⟩
  rw [hq] at hv
  cases hv.symm.trans hv'
  exact hst (hstatus'.symm.trans hstatus)

theorem keeps (h : Lagging span n) (hinv : ChainInv sk guarded strict w n) {a : ChainAction B}
    (hallows : n.Allows a) (hspan : n.Spanning span a) : n.Keeps False True a := by
  cases a with
  | tx a => exact False.elim
  | vote vote => exact fun _ => h.attends hinv hallows hspan.2
  | _ => trivial

/-- **Every step** of such a run. -/
theorem step (h : Lagging span n) (hinv : ChainInv sk False True w n)
    (hweight : ∀ week, Dec.one ≤ weight week) {a : ChainAction B} (hvalid : a.Valid sk)
    (hallows : n.Allows a) (hspan : n.Spanning span a) (hstep : n.step sk weight a = .ok n') :
    Lagging span n' := by
  have hkeeps := h.keeps hinv hallows hspan
  have hfirst : n'.phase = .between → n'.log.length = 1 → n'.times = [] → Lagging span n' := by
    intro hphase hlog htimes
    refine ⟨fun _ => htimes, fun _ => htimes ▸ .first hlog _, fun hin => ?_⟩
    rw [hphase] at hin
    cases hin
  cases a with
  | initChain =>
    obtain ⟨w', -, hphase, hlog, htimes, -⟩ := (hinv.initChain hallows).of_ok hstep
    exact hfirst hphase hlog (htimes.trans (h.genesis hallows))
  | beginBlock t =>
    cases hstep
    exact ⟨nofun, nofun, fun _ => ⟨n.times, rfl, h.between hallows,
      fun k hk => h.begun hinv hallows hspan.2 hk⟩⟩
  | vote vote => exact h.within ((hinv.vote hkeeps hallows).of_ok hstep).2
  | evidence e => exact h.within ((hinv.evidence hallows).of_ok hstep).2.1
  | tx a => exact h.within ((hinv.tx hweight hvalid hallows hkeeps).of_ok hstep).2
  | setParams params =>
    cases hstep
    exact ⟨h.genesis, h.between, h.inBlock⟩
  | endBlock =>
    obtain ⟨w', us, -, hphase, hlog, htimes, -, -, hended⟩ := hinv.endBlock.of_ok hstep
    obtain ⟨rest, hrest, hlags, -⟩ := h.inBlock hallows
    refine ⟨fun hgenesis => ?_, fun _ => ?_, fun hin => ?_⟩
    · cases hphase.symm.trans hgenesis
    · rw [htimes, hrest, hlog]
      exact hlags.ended hinv hspan.1 hended
    · rw [hphase] at hin
      cases hin
  | restart t =>
    obtain ⟨-, hphase, hlog, htimes, -⟩ := (hinv.restart hallows t).of_ok hstep
    exact hfirst hphase hlog htimes

end Lagging

theorem ChainReach.lagging (hweight : ∀ week, Dec.one ≤ weight week)
    (hn : ChainReach sk weight (ChainNode.Spanning span) n) :
    ∃ w, ChainInv sk False True w n ∧ Lagging span n := by
  induction hn with
  | genesis hfresh hinit =>
    exact ⟨_, (ChainInv.genesis hfresh hinit).2, fun _ => rfl, nofun, nofun⟩
  | step hn hvalid hallows hspan hstep ih =>
    obtain ⟨w, hinv, h⟩ := ih
    obtain ⟨w', hinv'⟩ := hinv.step hweight hvalid hallows (h.keeps hinv hallows hspan) hstep
    exact ⟨w', hinv', h.step hinv hweight hvalid hallows hspan hstep⟩

/-- **The `BeginBlocker`s of slashing and evidence never halt the chain**, if `UnbondingTime` is
longer than any three consecutive blocks. Every validator of the last commit has its key and its
signing info; every evidence is handled; and the `EndBlocker` finds the validators that are to be
kicked out. -/
theorem beginBlockers_never_halt (hweight : ∀ week, Dec.one ≤ weight week)
    (hn : ChainReach sk weight (ChainNode.Spanning span) n) :
    (∀ vote, n.phase = .votes → (n.lastCommit.get vote.address).isSome →
      n.slashing.pubkeys.get vote.address = some () ∧
      (n.slashing.signingInfos.get vote.address).isSome ∧
      ∃ n', n.step sk weight (.vote vote) = .ok n') ∧
    (∀ e, n.phase = .votes ∨ n.phase = .evidence →
      ∃ n', n.step sk weight (.evidence e) = .ok n') ∧
    (∀ a ∈ n.books.abandonedValidatorAddrs, (n.books.getValidator a).isSome) ∧
    (n.phase.inBlock = true → ∃ n', n.step sk weight .endBlock = .ok n') := by
  obtain ⟨w, hinv, h⟩ := hn.lagging hweight
  refine ⟨fun vote hphase hvote => ?_, fun e hallows => ?_, fun a ha => ?_, fun _ => ?_⟩
  · have hserves := h.serves hphase hvote
    obtain ⟨hpubkey, hinfo⟩ := hinv.stores.known hserves
    obtain ⟨n', hstep, -⟩ := ((hinv.vote (fun _ => h.attends hinv hphase hvote) hphase).mono
      (fun _ hr => hr) fun _ he => he hserves).exists_ok
    exact ⟨hpubkey, hinfo, n', hstep⟩
  · obtain ⟨n', hstep, -⟩ := (hinv.evidence hallows).exists_ok
    exact ⟨n', hstep⟩
  · obtain ⟨v, hv, -⟩ := hinv.stores.ok.abandoned trivial a ha
    exact Option.isSome_of_eq_some hv
  · obtain ⟨n', hstep, -⟩ := (hinv.endBlock.mono (fun _ hr => hr) fun _ he => he trivial).exists_ok
    exact ⟨n', hstep⟩

/-- The fourth block: Alice was kicked out in the second, and is in the last commit. -/
def aliceLags : ChainNode (KVStore Address Coins) :=
  (chainStart stakingParams).run simplePools (fun _ => Dec.one) [.tx createAlice, .tx createBob,
    .initChain, .beginBlock 5, .endBlock, .beginBlock 10, .vote ⟨"key", false⟩, .endBlock,
    .beginBlock 15, .endBlock, .beginBlock 20]

theorem beginBlockers_never_halt_aliceLags :
    (ChainNode.validatorSet aliceLags.log).get "key" = none ∧
    (aliceLags.lastCommit.get "key").isSome ∧
    aliceLags.slashing.pubkeys.get "key" = some () ∧
    (aliceLags.slashing.signingInfos.get "key").isSome ∧
    ∃ n', aliceLags.step simplePools (fun _ => Dec.one) (.vote ⟨"key", false⟩) = .ok n' := by
  have hn : ChainReach simplePools (fun _ => Dec.one) (ChainNode.Spanning 50) aliceLags := by
    refine (reach_chainStart _ _ _).later (.run (by decide +kernel)
      ⟨⟨createAlice_valid, by decide +kernel, trivial⟩, ⟨createBob_valid, by decide +kernel, trivial⟩,
      ⟨trivial, by decide +kernel, trivial⟩, ⟨trivial, by decide +kernel, nofun⟩,
      ⟨trivial, by decide +kernel, trivial⟩, ⟨trivial, by decide +kernel, nofun⟩,
      ⟨trivial, by decide +kernel, by decide +kernel⟩, ⟨trivial, by decide +kernel, trivial⟩,
      ⟨trivial, by decide +kernel, fun t₁ t₀ rest h => ?_⟩, ⟨trivial, by decide +kernel, trivial⟩,
      ⟨trivial, by decide +kernel, fun t₁ t₀ rest h => ?_⟩, trivial⟩)
    all_goals
      cases h
      decide
  have hcommit : (aliceLags.lastCommit.get "key").isSome := by decide +kernel
  obtain ⟨hvotes, -⟩ := beginBlockers_never_halt (fun _ => by decide) hn
  exact ⟨by decide +kernel, hcommit, hvotes ⟨"key", false⟩ (by decide +kernel) hcommit⟩

end Okexchain
