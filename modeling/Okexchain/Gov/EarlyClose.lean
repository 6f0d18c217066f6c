import Okexchain.Gov.Tally

/-!
# Closing a vote early

A proposal can be decided before its voting period ends: `tallyStatusInVotePeriod`
(`x/gov/keeper/tally.go`) measures the votes so far against the total power, and
`tallyStatusExpireVotePeriod` measures the final ones against the voted power. In between votes are
added. The early decision is the final one:

* If it passes, more than `YesInVotePeriod` of all power has voted yes. This is enough for the
  quorum and the threshold, and leaves too little for a veto.
* If it is rejected, then by a veto, which gets no weaker; by abstentions of everybody; or by the
  votes against it, which are a half of what does not abstain, up to rounding. Then the votes for it
  round to one half at most.

**Results.** `early_close_agrees`: **a proposal that is passed or rejected early is passed or
rejected by all final tallies that the votes can add up to.**
-/

namespace Okexchain

namespace Gov

/-- Parameters for which the two ways of counting agree. -/
structure TallyParams.Balanced (params : TallyParams) : Prop where
  half : Dec.one ≤ 2 * params.threshold
  threshold : params.threshold ≤ params.yesInVotePeriod
  quorum : params.quorum ≤ params.yesInVotePeriod
  veto : Dec.one ≤ params.veto + params.yesInVotePeriod
  nonneg : 0 ≤ params.quorum ∧ 0 ≤ params.threshold ∧ 0 ≤ params.veto ∧ 0 ≤ params.yesInVotePeriod
  le_one : params.quorum ≤ Dec.one ∧ params.threshold ≤ Dec.one ∧ params.veto ≤ Dec.one ∧
    params.yesInVotePeriod ≤ Dec.one

/-- A tally over a positive power. -/
structure TallyResult.Sums (r : TallyResult) : Prop where
  pos : 0 < r.totalPower
  yes : 0 ≤ r.yes
  no : 0 ≤ r.no
  noWithVeto : 0 ≤ r.noWithVeto
  abstain : 0 ≤ r.abstain
  sum : r.yes + r.no + r.noWithVeto + r.abstain = r.totalVotedPower
  le : r.totalVotedPower ≤ r.totalPower

/-- Votes have been added. -/
structure TallyResult.Grows (r r' : TallyResult) : Prop where
  power : r.totalPower = r'.totalPower
  yes : r.yes ≤ r'.yes
  no : r.no ≤ r'.no
  noWithVeto : r.noWithVeto ≤ r'.noWithVeto
  abstain : r.abstain ≤ r'.abstain

/-- A share of votes, as it is rounded. -/
def share (a b : Int) : Int := Dec.chopNonneg (Dec.scaledQuo a b)

theorem quo_eq_share {a b : Int} (ha : 0 ≤ a) (hb : 0 < b) : quo a b = .ok (share a b) :=
  orThrow_eq_ok.mpr (Dec.quo_eq ha hb)

theorem share_mono {a a' b b' : Int} (ha : 0 ≤ a) (haa : a ≤ a') (hb : 0 < b') (hbb : b' ≤ b) :
    share a b ≤ share a' b' :=
  Dec.chopNonneg_mono (Dec.scaledQuo_mono ha haa hb hbb)

/-- If one part of the whole is more than a share, then the other is at most the rest. -/
theorem share_le_of_lt {a c b k : Int} (hb : 0 < b) (h : a + c ≤ b) (hlt : k < share a b) :
    share c b ≤ Dec.one - k := by
  have hadd := Dec.scaledQuo_add_le hb h
  have hnear := (Dec.chopNonneg_near (Dec.scaledQuo a b)).2
  have hnear' := (Dec.chopNonneg_near (Dec.scaledQuo c b)).2
  unfold share Dec.one at *
  omega

/-- If one part of the whole is at least a share of one half or more, then the other is at most it.
-/
theorem share_le_of_half {a c b k : Int} (hb : 0 < b) (h : a + c ≤ b) (hk : Dec.one ≤ 2 * k)
    (hle : k ≤ share a b) : share c b ≤ k := by
  have hadd := Dec.scaledQuo_add_le hb h
  have hnear := (Dec.chopNonneg_near (Dec.scaledQuo a b)).2
  have hnear' := (Dec.chopNonneg_near (Dec.scaledQuo c b)).2
  rcases hk.lt_or_eq with hlt | heq
  · unfold share Dec.one at *
    omega
  · -- exactly one half is an even number of units, and a tie is rounded to it
    refine Dec.chopNonneg_le_of_even ?_ ?_
    · unfold Dec.one at heq
      omega
    · unfold share Dec.one at *
      omega

/-! ## The two decisions -/

variable {params : TallyParams} {r r' : TallyResult}

/-- The early decision, in shares. -/
theorem tallyStatusInVotePeriod_eq (params : TallyParams) (h : r.Sums) :
    tallyStatusInVotePeriod params r = .ok (
      if r.totalPower - r.abstain = 0 then (.rejected, false)
      else if params.veto < share r.noWithVeto r.totalPower then (.rejected, true)
      else if params.threshold ≤ share (r.noWithVeto + r.no) (r.totalPower - r.abstain) then
        (.rejected, false)
      else if params.yesInVotePeriod < share r.yes r.totalPower then (.passed, false)
      else (.votingPeriod, false)) := by
  obtain ⟨hpos, hyes, hno, hveto, habstain, hsum, hle⟩ := h
  unfold tallyStatusInVotePeriod
  rw [if_neg hpos.ne']
  by_cases hall : r.totalPower - r.abstain = 0
  · rw [if_pos hall, if_pos hall]
    rfl
  · have hrest : 0 < r.totalPower - r.abstain := by omega
    rw [if_neg hall, if_neg hall, quo_eq_share hveto hpos,
      quo_eq_share (add_nonneg hveto hno) hrest, quo_eq_share hyes hpos]
    show (if _ then _ else if _ then _ else if _ then _ else _) = _
    split_ifs <;> rfl

/-- The final decision, in shares. -/
theorem tallyStatusExpireVotePeriod_eq (params : TallyParams) (h : r.Sums) :
    tallyStatusExpireVotePeriod params r = .ok (
      if share r.totalVotedPower r.totalPower < params.quorum then (.rejected, true)
      else if r.totalVotedPower - r.abstain = 0 then (.rejected, false)
      else if params.veto < share r.noWithVeto r.totalVotedPower then (.rejected, true)
      else if params.threshold < share r.yes (r.totalVotedPower - r.abstain) then (.passed, false)
      else (.rejected, false)) := by
  obtain ⟨hpos, hyes, hno, hveto, habstain, hsum, hle⟩ := h
  have hvoted : 0 ≤ r.totalVotedPower := by omega
  unfold tallyStatusExpireVotePeriod
  rw [if_neg hpos.ne', quo_eq_share hvoted hpos]
  by_cases hall : r.totalVotedPower - r.abstain = 0
  · rw [if_pos hall, if_pos hall]
    show (if _ then _ else _) = _
    split_ifs <;> rfl
  · have hrest : 0 < r.totalVotedPower - r.abstain := by omega
    have hsome : 0 < r.totalVotedPower := by omega
    rw [if_neg hall, if_neg hall, quo_eq_share hveto hsome, quo_eq_share hyes hrest]
    show (if _ then _ else if _ then _ else if _ then _ else _) = _
    split_ifs <;> rfl

/-- More than `YesInVotePeriod` of all power is enough at the end. -/
theorem expire_passed (hparams : params.Balanced) (h : r.Sums) (h' : r'.Sums) (hgrows : r.Grows r')
    (hyes : params.yesInVotePeriod < share r.yes r.totalPower) :
    tallyStatusExpireVotePeriod params r' = .ok (.passed, false) := by
  have hsum := h'.sum
  have hle := h'.le
  have hno := h'.no
  have hnoWithVeto := h'.noWithVeto
  have habstain := h'.abstain
  have hmore := hgrows.yes
  have hpower := hgrows.power
  have hpos : 0 < r.yes := by
    by_contra hnone
    have hzero : r.yes = 0 := le_antisymm (not_lt.mp hnone) h.yes
    have hshare : share 0 r.totalPower = 0 := by
      unfold share Dec.scaledQuo
      rw [zero_mul, zero_mul, Int.zero_ediv]
      rfl
    rw [hzero, hshare] at hyes
    exact absurd hparams.nonneg.2.2.2 (not_le.mpr hyes)
  have hvoted : 0 < r'.totalVotedPower := by omega
  have hrest : 0 < r'.totalVotedPower - r'.abstain := by omega
  have hquorum : ¬ share r'.totalVotedPower r'.totalPower < params.quorum := by
    have hshare : share r.yes r.totalPower ≤ share r'.totalVotedPower r'.totalPower :=
      share_mono h.yes (by omega) h'.pos hpower.ge
    exact not_lt.mpr ((hparams.quorum.trans hyes.le).trans hshare)
  have hveto : ¬ params.veto < share r'.noWithVeto r'.totalVotedPower := by
    have hshare : share r.yes r.totalPower ≤ share r'.yes r'.totalVotedPower :=
      share_mono h.yes hmore hvoted (by omega)
    have hother := share_le_of_lt (a := r'.yes) (c := r'.noWithVeto) hvoted (by omega)
      (hyes.trans_le hshare)
    have hbalance := hparams.veto
    omega
  have hthreshold : params.threshold < share r'.yes (r'.totalVotedPower - r'.abstain) := by
    have hshare : share r.yes r.totalPower ≤ share r'.yes (r'.totalVotedPower - r'.abstain) :=
      share_mono h.yes hmore hrest (by omega)
    exact (hparams.threshold.trans_lt hyes).trans_le hshare
  rw [tallyStatusExpireVotePeriod_eq params h', if_neg hquorum, if_neg hrest.ne', if_neg hveto,
    if_pos hthreshold]

/-- What is vetoed early is vetoed at the end, unless there is no quorum. -/
theorem expire_vetoed (h : r.Sums) (h' : r'.Sums) (hgrows : r.Grows r')
    (hveto : params.veto < share r.noWithVeto r.totalPower) (hvoted : 0 < r'.totalVotedPower) :
    params.veto < share r'.noWithVeto r'.totalVotedPower := by
  have hle := h'.le
  have hpower := hgrows.power
  exact hveto.trans_le (share_mono h.noWithVeto hgrows.noWithVeto hvoted (by omega))

/-- Against a half of what does not abstain, the votes for a proposal are at most a half. -/
theorem expire_outvoted (hparams : params.Balanced) (h : r.Sums) (h' : r'.Sums)
    (hgrows : r.Grows r')
    (hno : params.threshold ≤ share (r.noWithVeto + r.no) (r.totalPower - r.abstain))
    (hrest : 0 < r'.totalVotedPower - r'.abstain) :
    share r'.yes (r'.totalVotedPower - r'.abstain) ≤ params.threshold := by
  have hsum := h'.sum
  have hle := h'.le
  have hpower := hgrows.power
  have habstain := hgrows.abstain
  have hshare : share (r.noWithVeto + r.no) (r.totalPower - r.abstain) ≤
      share (r'.noWithVeto + r'.no) (r'.totalVotedPower - r'.abstain) :=
    share_mono (add_nonneg h.noWithVeto h.no) (add_le_add hgrows.noWithVeto hgrows.no) hrest
      (by omega)
  exact share_le_of_half hrest (by omega) hparams.half (hno.trans hshare)

/-- **An early decision is the final one.** -/
theorem early_close_agrees (params : TallyParams) (r r' : TallyResult) (hparams : params.Balanced)
    (h : r.Sums) (h' : r'.Sums) (hgrows : r.Grows r') :
    (∀ distribute, tallyStatusInVotePeriod params r = .ok (.passed, distribute) →
        ∃ distribute', tallyStatusExpireVotePeriod params r' = .ok (.passed, distribute')) ∧
      ∀ distribute, tallyStatusInVotePeriod params r = .ok (.rejected, distribute) →
        ∃ distribute', tallyStatusExpireVotePeriod params r' = .ok (.rejected, distribute') := by
  rw [tallyStatusInVotePeriod_eq params h]
  have hsum := h'.sum
  have hle := h'.le
  have hpower := hgrows.power
  have habstain := hgrows.abstain
  constructor
  · intro distribute hstatus
    have hstatus := Except.ok.inj hstatus
    split_ifs at hstatus with hall hveto hno hyes
    · cases hstatus
    · cases hstatus
    · cases hstatus
    · exact ⟨false, expire_passed hparams h h' hgrows hyes⟩
    · cases hstatus
  · intro distribute hstatus
    have hstatus := Except.ok.inj hstatus
    rw [tallyStatusExpireVotePeriod_eq params h']
    by_cases hquorum : share r'.totalVotedPower r'.totalPower < params.quorum
    · rw [if_pos hquorum]
      exact ⟨_, rfl⟩
    by_cases hnone : r'.totalVotedPower - r'.abstain = 0
    · rw [if_neg hquorum, if_pos hnone]
      exact ⟨_, rfl⟩
    have hyes' := h'.yes
    have hno' := h'.no
    have hnoWithVeto' := h'.noWithVeto
    have habstain' := h'.abstain
    have hrest : 0 < r'.totalVotedPower - r'.abstain := by omega
    rw [if_neg hquorum, if_neg hnone]
    split_ifs at hstatus with hall hveto hno hyes
    · -- everybody has abstained, and nobody is left to vote
      omega
    · rw [if_pos (expire_vetoed h h' hgrows hveto (by omega))]
      exact ⟨_, rfl⟩
    · rw [if_neg (not_lt.mpr (expire_outvoted hparams h h' hgrows hno hrest))]
      split_ifs
      · exact ⟨true, rfl⟩
      · exact ⟨false, rfl⟩
    · cases hstatus
    · cases hstatus

/-- The default parameters. -/
def defaultTallyParams : TallyParams where
  quorum := 334000000000000000
  threshold := 500000000000000000
  veto := 334000000000000000
  yesInVotePeriod := 667000000000000000

theorem balanced_default : defaultTallyParams.Balanced :=
  ⟨by decide, by decide, by decide, by decide, by decide, by decide⟩

/-- 67 of 100 have voted yes. -/
def earlyTally : TallyResult :=
  ⟨Dec.newDec 100, Dec.newDec 67, Dec.newDec 67, 0, 0, 0⟩

/-- The other 33 veto. -/
def vetoedTally : TallyResult :=
  ⟨Dec.newDec 100, Dec.newDec 100, Dec.newDec 67, 0, 0, Dec.newDec 33⟩

/-- The proposal passes early, and after the veto of everybody else. -/
theorem early_close_agrees_vetoed :
    (tallyStatusInVotePeriod defaultTallyParams earlyTally).toOption = some (.passed, false) ∧
      ∃ distribute, tallyStatusExpireVotePeriod defaultTallyParams vetoedTally =
        .ok (.passed, distribute) := by
  have hearly : (tallyStatusInVotePeriod defaultTallyParams earlyTally).toOption =
      some (.passed, false) := by decide +kernel
  exact ⟨hearly, (early_close_agrees defaultTallyParams earlyTally vetoedTally balanced_default
    ⟨by decide, by decide, by decide, by decide, by decide, by decide, by decide⟩
    ⟨by decide, by decide, by decide, by decide, by decide, by decide, by decide⟩
    ⟨by decide, by decide, by decide, by decide, by decide⟩).1 false
      (toOption_eq_some.mp hearly)⟩

end Gov

end Okexchain
