import Okexchain.Chain.Tendermint
import Okexchain.Lib.Ring

/-!
# The window of missed blocks

`HandleValidatorSignature` keeps a bit for each of the last `SignedBlocksWindow` calls for a
validator, in an array that is stored lazily and written in a circle, and a counter of the bits that
are set. A validator that is jailed for downtime starts over.

* `ChainNode.callsSince` are the calls for a validator since the last one that jailed it, last first
  and `true` where the block was missed. It is read off the run: a vote jails a validator if the
  validator is there and not jailed before it, and jailed after it.
* `Windowed` says that the array is the `ring` of the calls, and that the counter and the bits that
  are set are the missed blocks of the window. A vote for the validator adds a call
  (`Windowed.vote`); everything else leaves the validator's array, offset and counter alone
  (`Undisturbed`), a restart from an exported genesis included.
* The window may not change, as the array is not written again when it does. Other parameters may.

**Results.** `missed_blocks_window`: in every run from an empty slashing store the counter is the
number of bits that are set, and the number of blocks missed among the last calls; and a vote jails
exactly those who have missed too many of them. `slashing_genesis_round_trip`: an exported genesis
has the whole slashing store.
-/

namespace Okexchain

/-- The bits that are set in the array of a validator. -/
def SlashingBooks.setBits (b : SlashingBooks) (k : Address) : Nat :=
  b.missedBlocks.count fun key missed => (ofLex key).1 = k ∧ missed = true

/-- The blocks missed among the last calls of a window. -/
def missedIn (window : Int) (calls : List Bool) : Nat :=
  (calls.take window.toNat).count true

theorem missedIn_nil (window : Int) : missedIn window [] = 0 := by
  unfold missedIn
  rw [List.take_nil, List.count_nil]

theorem missedIn_cons {window : Int} (hwindow : 0 < window) (missed : Bool) (calls : List Bool) :
    (missedIn window (missed :: calls) : ℤ) =
      missedIn window calls - (calls.getD (window.toNat - 1) false).toNat + missed.toNat := by
  have hpos : 0 < window.toNat := Int.pos_iff_toNat_pos.mp hwindow
  have hcount : ((missed :: calls).take window.toNat).count true +
      (calls.getD (window.toNat - 1) false == true).toNat =
        (calls.take window.toNat).count true + (missed == true).toNat :=
    countP_take_cons hpos rfl missed
  rw [beq_true, beq_true] at hcount
  unfold missedIn
  omega

namespace SlashingBooks

variable {b b' : SlashingBooks} {k : Address}

theorem setBits_congr (h : ∀ i, b'.missedBlocks.get (toLex (k, i)) =
    b.missedBlocks.get (toLex (k, i))) : b'.setBits k = b.setBits k := by
  have hsum : (b'.setBits k : ℤ) = b.setBits k := by
    unfold setBits
    rw [KVStore.count_eq_sumBy, KVStore.count_eq_sumBy]
    refine KVStore.sumBy_congr_valAt _ fun key => ?_
    unfold KVStore.valAt
    by_cases hkey : (ofLex key).1 = k
    · have hget : b'.missedBlocks.get key = b.missedBlocks.get key := by
        subst hkey
        exact h (ofLex key).2
      rw [hget]
    · have hzero : ∀ o : Option Bool,
          (o.elim 0 fun missed => if (ofLex key).1 = k ∧ missed = true then (1 : ℤ) else 0) = 0 := by
        intro o
        cases o with
        | none => rfl
        | some missed => exact if_neg fun he => hkey he.1
      rw [hzero, hzero]
  exact_mod_cast hsum

theorem setBits_set (b : SlashingBooks) (k : Address) (i : Int) (missed : Bool) :
    ((b.setValidatorMissedBlockBitArray k i missed).setBits k : ℤ) =
      b.setBits k - (b.getValidatorMissedBlockBitArray k i).toNat + missed.toNat := by
  have hbit : ∀ o : Option Bool, (o.elim 0 fun m =>
      if (ofLex (toLex (k, i))).1 = k ∧ m = true then (1 : ℤ) else 0) = (o.getD false).toNat := by
    intro o
    cases o with
    | none => rfl
    | some m => cases m <;> simp
  unfold setBits setValidatorMissedBlockBitArray getValidatorMissedBlockBitArray
  rw [KVStore.count_eq_sumBy, KVStore.count_eq_sumBy, KVStore.sumBy_set]
  unfold KVStore.valAt
  rw [hbit, show (if (ofLex (toLex (k, i))).1 = k ∧ missed = true then (1 : ℤ) else 0) = missed.toNat
    from hbit (some missed)]

/-- A bit is written if it changes. -/
def writeBit (b : SlashingBooks) (k : Address) (index : Int) (missed : Bool) : SlashingBooks :=
  if b.getValidatorMissedBlockBitArray k index = missed then b
  else b.setValidatorMissedBlockBitArray k index missed

/-- **What the count of a signature does**: the bit is written, and the counter follows it. -/
theorem countSignature_eq (window : Int) (b : SlashingBooks) (k : Address)
    (info : ValidatorSigningInfo) (signed : Bool) :
    b.countSignature window k info signed =
      (b.writeBit k (info.indexOffset.tmod window) (!signed), { info with
        indexOffset := info.indexOffset + 1
        missedBlocksCounter := info.missedBlocksCounter -
          (b.getValidatorMissedBlockBitArray k (info.indexOffset.tmod window)).toNat +
            (!signed).toNat }) := by
  unfold countSignature writeBit
  cases hprevious : b.getValidatorMissedBlockBitArray k (info.indexOffset.tmod window) <;>
    cases signed <;> simp [hprevious]

section WriteBit

variable (b : SlashingBooks) (k : Address) (index : Int) (missed : Bool)

theorem get_writeBit_ne {q : Address} {i : Int} (h : q ≠ k ∨ i ≠ index) :
    (b.writeBit k index missed).missedBlocks.get (toLex (q, i)) =
      b.missedBlocks.get (toLex (q, i)) := by
  unfold writeBit
  split_ifs
  · rfl
  · refine KVStore.get_set_ne fun he => ?_
    obtain ⟨rfl, rfl⟩ := Prod.mk.inj (toLex.injective he)
    exact h.elim (fun h => h rfl) fun h => h rfl

theorem getBit_writeBit :
    (b.writeBit k index missed).getValidatorMissedBlockBitArray k index = missed := by
  unfold writeBit
  split_ifs with h
  · exact h
  · exact congrArg (Option.getD · false) KVStore.get_set_self

theorem setBits_writeBit : ((b.writeBit k index missed).setBits k : ℤ) =
    b.setBits k - (b.getValidatorMissedBlockBitArray k index).toNat + missed.toNat := by
  unfold writeBit
  split_ifs with h
  · rw [h]
    omega
  · exact b.setBits_set k index missed

theorem infos_writeBit : (b.writeBit k index missed).signingInfos = b.signingInfos := by
  unfold writeBit
  split_ifs <;> rfl

end WriteBit

theorem get_clear (b : SlashingBooks) (k q : Address) (i : Int) :
    (b.clearValidatorMissedBlockBitArray k).missedBlocks.get (toLex (q, i)) =
      if q = k then none else b.missedBlocks.get (toLex (q, i)) := by
  unfold clearValidatorMissedBlockBitArray
  rw [KVStore.get_foldl_delete]
  by_cases hq : q = k
  · rw [if_pos hq]
    split_ifs with hmem
    · rfl
    · cases hget : b.missedBlocks.get (toLex (q, i)) with
      | none => rfl
      | some missed =>
        refine absurd (List.mem_filter.mpr ⟨KVStore.mem_keys.mpr ⟨missed, hget⟩, ?_⟩) hmem
        exact decide_eq_true hq
  · have hmem : toLex (q, i) ∉ b.missedBlocks.keys.filter fun key => (ofLex key).1 = k :=
      fun hmem => hq (of_decide_eq_true (List.mem_filter.mp hmem).2)
    rw [if_neg hq, if_neg hmem]

theorem mem_missedBlocksOf {window i : Int} {missed : Bool} :
    (i, missed) ∈ b.missedBlocksOf window k ↔
      0 ≤ i ∧ i < window ∧ b.missedBlocks.get (toLex (k, i)) = some missed := by
  unfold missedBlocksOf
  simp only [List.mem_filterMap, Option.map_eq_some_iff, Prod.mk.injEq, List.bind_eq_flatMap,
    List.pure_def, List.mem_flatMap, List.mem_range, List.mem_singleton]
  constructor
  · rintro ⟨_, ⟨n, hn, rfl⟩, m, hget, rfl, rfl⟩
    exact ⟨Int.natCast_nonneg n, Int.lt_toNat.mp hn, hget⟩
  · rintro ⟨hpos, hlt, hget⟩
    exact ⟨i, ⟨i.toNat, (Int.toNat_lt_toNat (hpos.trans_lt hlt)).mpr hlt,
      (Int.toNat_of_nonneg hpos).symm⟩, missed, hget, rfl, rfl⟩

end SlashingBooks

/-! ## What a validator has -/

/-- The offset and the counter of a validator, zero if it has no signing info yet. -/
def SlashingBooks.progress (b : SlashingBooks) (k : Address) : Int × Int :=
  (b.signingInfos.get k).elim (0, 0) fun info => (info.indexOffset, info.missedBlocksCounter)

theorem SlashingBooks.progress_of_get {b : SlashingBooks} {k : Address} {info : ValidatorSigningInfo}
    (h : b.signingInfos.get k = some info) :
    b.progress k = (info.indexOffset, info.missedBlocksCounter) := by
  unfold progress
  rw [h]
  rfl

/-- **The window of a validator**: the array is the ring of the calls since it was last jailed. -/
structure Windowed (window : Int) (b : SlashingBooks) (k : Address) (calls : List Bool) : Prop where
  progress : b.progress k = ((calls.length : Int), (missedIn window calls : Int))
  stored : ∀ i missed, b.missedBlocks.get (toLex (k, i)) = some missed →
    (b.signingInfos.get k).isSome ∧ 0 ≤ i ∧ i < window
  bits : ∀ i : Nat, b.getValidatorMissedBlockBitArray k i = ring false window.toNat calls i
  counted : b.setBits k = missedIn window calls

namespace Windowed

variable {window : Int} {b : SlashingBooks} {k : Address} {calls : List Bool}

theorem info_eq (h : Windowed window b k calls) {info : ValidatorSigningInfo}
    (hinfo : b.signingInfos.get k = some info) :
    info.indexOffset = calls.length ∧ info.missedBlocksCounter = missedIn window calls :=
  Prod.mk.inj ((SlashingBooks.progress_of_get hinfo).symm.trans h.progress)

/-- Nothing has been counted yet. -/
theorem start (window : Int) (hprogress : b.progress k = (0, 0))
    (hnone : ∀ i, b.missedBlocks.get (toLex (k, i)) = none) : Windowed window b k [] := by
  refine ⟨?_, fun i m hget => ?_, fun i => congrArg (Option.getD · false) (hnone i), ?_⟩
  · rw [missedIn_nil]
    exact hprogress
  · cases (hnone i).symm.trans hget
  · rw [missedIn_nil]
    exact SlashingBooks.setBits_congr (b := ⟨∅, ∅, ∅⟩) hnone

end Windowed

/-- The offset, the counter and the array of a validator stay. -/
structure Undisturbed (k : Address) (b b' : SlashingBooks) : Prop where
  progress : b'.progress k = b.progress k
  known : (b.signingInfos.get k).isSome → (b'.signingInfos.get k).isSome
  bits : ∀ i, b'.missedBlocks.get (toLex (k, i)) = b.missedBlocks.get (toLex (k, i))

namespace Undisturbed

variable {k : Address} {b b' b'' : SlashingBooks}

theorem of_eq (hinfos : b'.signingInfos = b.signingInfos) (hbits : b'.missedBlocks = b.missedBlocks) :
    Undisturbed k b b' := by
  refine ⟨?_, fun hk => hinfos ▸ hk, fun i => by rw [hbits]⟩
  unfold SlashingBooks.progress
  rw [hinfos]

theorem trans (h : Undisturbed k b b') (h' : Undisturbed k b' b'') : Undisturbed k b b'' :=
  ⟨h'.progress.trans h.progress, fun hk => h'.known (h.known hk),
    fun i => (h'.bits i).trans (h.bits i)⟩

/-- A signing info is written: another one, or one with the same offset and counter. -/
theorem of_set {a : Address} {info : ValidatorSigningInfo}
    (hset : b'.signingInfos = b.signingInfos.set a info)
    (hprogress : k = a → b.progress k = (info.indexOffset, info.missedBlocksCounter))
    (hbits : ∀ i, b'.missedBlocks.get (toLex (k, i)) = b.missedBlocks.get (toLex (k, i))) :
    Undisturbed k b b' := by
  have hget : b'.signingInfos.get k = if k = a then some info else b.signingInfos.get k := by
    rw [hset, KVStore.get_set]
  by_cases hk : k = a
  · rw [if_pos hk] at hget
    exact ⟨(SlashingBooks.progress_of_get hget).trans (hprogress hk).symm,
      fun _ => Option.isSome_of_eq_some hget, hbits⟩
  · rw [if_neg hk] at hget
    refine ⟨?_, fun h => hget ▸ h, hbits⟩
    unfold SlashingBooks.progress
    rw [hget]

/-- A signing info is written, with the offset and the counter as they were. -/
theorem of_info {a : Address} {info info' : ValidatorSigningInfo}
    (hinfo : b.signingInfos.get a = some info) (hoffset : info'.indexOffset = info.indexOffset)
    (hcounter : info'.missedBlocksCounter = info.missedBlocksCounter) :
    Undisturbed k b (b.setValidatorSigningInfo a info') := by
  refine .of_set rfl (fun hk => ?_) fun _ => rfl
  rw [hk, SlashingBooks.progress_of_get hinfo, hoffset, hcounter]

theorem modifyValidatorStatus (b : SlashingBooks) (a : Address) (status : ValStatus) :
    Undisturbed k b (b.modifyValidatorStatus a status) := by
  unfold SlashingBooks.modifyValidatorStatus
  split
  · exact .of_eq rfl rfl
  · rename_i info hinfo
    exact .of_info hinfo rfl rfl

theorem hook (height : Int) (b : SlashingBooks) (call : StakingHook) :
    Undisturbed k b (b.hook height call) := by
  cases call with
  | validatorCreated a =>
    have hkeys : Undisturbed k b { b with pubkeys := b.pubkeys.set a () } := .of_eq rfl rfl
    exact hkeys.trans (modifyValidatorStatus _ a _)
  | validatorRemoved a =>
    have hkeys : Undisturbed k b { b with pubkeys := b.pubkeys.delete a } := .of_eq rfl rfl
    exact hkeys.trans (modifyValidatorStatus _ a _)
  | validatorDestroyed a => exact modifyValidatorStatus b a _
  | validatorBonded a =>
    unfold SlashingBooks.hook SlashingBooks.afterValidatorBonded
    dsimp only
    split
    · rename_i hnew
      -- the only new signing info, which starts at zero
      refine .of_set rfl (fun hk => ?_) fun _ => rfl
      unfold SlashingBooks.progress
      rw [hk, hnew]
      rfl
    · exact .of_eq rfl rfl

theorem notify (height : Int) (b : SlashingBooks) (before after : StakingBooks) :
    Undisturbed k b (b.notify height before after) := by
  unfold SlashingBooks.notify
  generalize after.hooks.drop before.hooks.length = calls
  induction calls generalizing b with
  | nil => exact .of_eq rfl rfl
  | cons call calls ih => exact (hook height b call).trans (ih _)

theorem jailUntil {a : Address} {time : Int} (hok : b.jailUntil a time = .ok b') :
    Undisturbed k b b' := by
  obtain ⟨info, hinfo, hres⟩ := bind_eq_ok.mp hok
  cases hres
  exact .of_info (orThrow_eq_ok.mp hinfo) rfl rfl

theorem tombstone {a : Address} (hok : b.tombstone a = .ok b') : Undisturbed k b b' := by
  obtain ⟨info, hinfo, hres⟩ := bind_eq_ok.mp hok
  obtain ⟨-, -, hres⟩ := bind_eq_ok.mp hres
  cases hres
  exact .of_info (orThrow_eq_ok.mp hinfo) rfl rfl

/-- Evidence jails, and resets nothing. -/
theorem handleDoubleSign {B : Type} {params : SlashingParams} {time : Int}
    {r r' : StakingState B × SlashingBooks} {evidence : Equivocation}
    (hok : handleDoubleSign params time r evidence = .ok r') : Undisturbed k r.2 r'.2 := by
  have hsame : (.ok r : Except StakingError _) = .ok r' → Undisturbed k r.2 r'.2 := by
    intro heq
    cases heq
    exact .of_eq rfl rfl
  unfold Okexchain.handleDoubleSign at hok
  dsimp only at hok
  -- the evidence that does not count
  split at hok
  · exact hsame hok
  split at hok
  · exact hsame hok
  split at hok
  · exact hsame hok
  split at hok
  · exact hsame hok
  obtain ⟨_, -, hok⟩ := bind_eq_ok.mp hok
  split at hok
  · exact hsame hok
  obtain ⟨s, -, hok⟩ := bind_eq_ok.mp hok
  obtain ⟨b, hjail, hok⟩ := bind_eq_ok.mp hok
  obtain ⟨b', htomb, hres⟩ := bind_eq_ok.mp hok
  cases hres
  exact (jailUntil hjail).trans (tombstone htomb)

/-- A restart imports the bits of the window, which are all that there are. -/
theorem restart {window : Int} {calls : Address → List Bool} {params : SlashingParams}
    (hparams : params.signedBlocksWindow = window)
    (hw : ∀ q, Windowed window b q (calls q)) (validators : List Validator) :
    Undisturbed k b (.initGenesis validators (b.exportGenesis params)) := by
  rw [SlashingBooks.initGenesis_exportGenesis]
  refine .of_eq rfl (KVStore.foldl_set_eq fun key missed => ?_)
  unfold SlashingBooks.bitsOf SlashingBooks.exportGenesis
  simp only [List.mem_flatMap, List.mem_map, Prod.mk.injEq]
  constructor
  · rintro ⟨_, ⟨q, -, rfl⟩, _, hbit, rfl, rfl⟩
    exact (SlashingBooks.mem_missedBlocksOf.mp hbit).2.2
  · intro hget
    obtain ⟨hknown, hpos, hlt⟩ := (hw (ofLex key).1).stored (ofLex key).2 missed hget
    obtain ⟨info, hinfo⟩ := Option.isSome_iff_exists.mp hknown
    exact ⟨_, ⟨(ofLex key).1, KVStore.mem_keys.mpr ⟨info, hinfo⟩, rfl⟩, ((ofLex key).2, missed),
      SlashingBooks.mem_missedBlocksOf.mpr ⟨hpos, hparams ▸ hlt, hget⟩, rfl, rfl⟩

/-- **Who is not disturbed has the same window.** -/
theorem windowed {window : Int} {calls : List Bool} (h : Undisturbed k b b')
    (hw : Windowed window b k calls) : Windowed window b' k calls := by
  refine ⟨h.progress.trans hw.progress, fun i missed hget => ?_, fun i => ?_, ?_⟩
  · rw [h.bits] at hget
    obtain ⟨hknown, hrange⟩ := hw.stored i missed hget
    exact ⟨h.known hknown, hrange⟩
  · unfold SlashingBooks.getValidatorMissedBlockBitArray
    rw [h.bits]
    exact hw.bits i
  · rw [SlashingBooks.setBits_congr h.bits]
    exact hw.counted

end Undisturbed

/-! ## A vote -/

section Vote

variable {window : Int} {b : SlashingBooks} {k : Address} {calls : List Bool}
  {info info' : ValidatorSigningInfo} {missed : Bool}

/-- The bit that the next call replaces is that of the call that leaves the window. -/
theorem Windowed.oldest (h : Windowed window b k calls) (hwindow : 0 < window)
    (hinfo : b.signingInfos.get k = some info) :
    info.indexOffset.tmod window = ((calls.length % window.toNat : Nat) : Int) ∧
      b.getValidatorMissedBlockBitArray k (info.indexOffset.tmod window) =
        calls.getD (window.toNat - 1) false := by
  have hindex : info.indexOffset.tmod window = ((calls.length % window.toNat : Nat) : Int) := by
    obtain ⟨w, rfl⟩ := Int.eq_ofNat_of_zero_le hwindow.le
    rw [(h.info_eq hinfo).1]
    rfl
  refine ⟨hindex, ?_⟩
  rw [hindex, h.bits]
  exact ring_oldest (Int.pos_iff_toNat_pos.mp hwindow)

theorem Windowed.call (h : Windowed window b k calls) (hwindow : 0 < window)
    (hinfo : b.signingInfos.get k = some info)
    (hoffset : info'.indexOffset = info.indexOffset + 1)
    (hcounter : info'.missedBlocksCounter = info.missedBlocksCounter -
      (b.getValidatorMissedBlockBitArray k (info.indexOffset.tmod window)).toNat + missed.toNat) :
    Windowed window ((b.writeBit k (info.indexOffset.tmod window) missed).setValidatorSigningInfo k
      info') k (missed :: calls) ∧ info'.missedBlocksCounter = missedIn window (missed :: calls) := by
  obtain ⟨hindex, hold⟩ := h.oldest hwindow hinfo
  obtain ⟨hlength, hcount⟩ := h.info_eq hinfo
  have hcounted : info'.missedBlocksCounter = missedIn window (missed :: calls) := by
    rw [hcounter, hold, hcount, missedIn_cons hwindow]
  have hpos : 0 < window.toNat := Int.pos_iff_toNat_pos.mp hwindow
  refine ⟨⟨?_, fun i m hget => ?_, fun i => ?_, ?_⟩, hcounted⟩
  · refine (SlashingBooks.progress_of_get KVStore.get_set_self).trans ?_
    rw [hoffset, hlength, hcounted]
    rfl
  · refine ⟨Option.isSome_of_eq_some KVStore.get_set_self, ?_⟩
    by_cases hi : i = info.indexOffset.tmod window
    · have hlt := Nat.mod_lt calls.length hpos
      omega
    · exact (h.stored i m ((b.get_writeBit_ne k _ missed (.inr hi)).symm.trans hget)).2
  · unfold ring
    split_ifs with hi
    · rw [← hi, ← hindex]
      exact b.getBit_writeBit k _ missed
    · have hne : (i : Int) ≠ info.indexOffset.tmod window := by omega
      rw [← h.bits]
      exact congrArg (Option.getD · false) (b.get_writeBit_ne k _ missed (.inr hne))
  · have hbits : _ = _ := b.setBits_writeBit k (info.indexOffset.tmod window) missed
    rw [hold, h.counted, ← missedIn_cons hwindow] at hbits
    exact_mod_cast hbits

variable {B : Type}

/-- The validator is there and not jailed, its first window is over, and it has missed more blocks
of the window than it may. -/
def MissesTooMany (params : SlashingParams) (height : Int) (s : StakingState B) (k : Address)
    (info : ValidatorSigningInfo) (calls : List Bool) : Prop :=
  info.startHeight + params.signedBlocksWindow < height ∧ (s.absentee k).isSome ∧
    params.signedBlocksWindow - params.minSignedBlocks < missedIn params.signedBlocksWindow calls

/-- **What a call does**: it jails the validator, who starts over, or it is counted. -/
theorem Windowed.vote {params : SlashingParams} {r : StakingState B × SlashingBooks}
    (h : Windowed params.signedBlocksWindow r.2 k calls) (hkey : (r.2.pubkeys.get k).isSome)
    (hinfo : r.2.signingInfos.get k = some info) (height time : Int) (signed : Bool) :
    ∃ r', handleValidatorSignature params height time r ⟨k, signed⟩ = .ok r' ∧
      (∀ q, q ≠ k → Undisturbed q r.2 r'.2) ∧
      ((MissesTooMany params height r.1 k info ((!signed) :: calls) ∧
          (r'.1.books.getValidatorByConsAddr k).any Validator.jailed ∧
          Windowed params.signedBlocksWindow r'.2 k []) ∨
        (¬ MissesTooMany params height r.1 k info ((!signed) :: calls) ∧ r'.1 = r.1 ∧
          Windowed params.signedBlocksWindow r'.2 k ((!signed) :: calls))) := by
  obtain ⟨u, hu⟩ := Option.isSome_iff_exists.mp hkey
  let index := info.indexOffset.tmod params.signedBlocksWindow
  let b := r.2.writeBit k index (!signed)
  let info₁ : ValidatorSigningInfo := { info with
    indexOffset := info.indexOffset + 1
    missedBlocksCounter := info.missedBlocksCounter -
      (r.2.getValidatorMissedBlockBitArray k index).toNat + (!signed).toNat }
  obtain ⟨hcalled, hcounter⟩ : Windowed params.signedBlocksWindow (b.setValidatorSigningInfo k info₁)
      k ((!signed) :: calls) ∧ info₁.missedBlocksCounter = _ :=
    h.call params.signedBlocksWindow_pos hinfo rfl rfl
  have hinfos : b.signingInfos = r.2.signingInfos := r.2.infos_writeBit k index (!signed)
  have hothers : ∀ q, q ≠ k → ∀ i, b.missedBlocks.get (toLex (q, i)) =
      r.2.missedBlocks.get (toLex (q, i)) := fun q hq i => r.2.get_writeBit_ne k index _ (.inl hq)
  have hcond : (info₁.startHeight + params.signedBlocksWindow < height ∧
      params.signedBlocksWindow - params.minSignedBlocks < info₁.missedBlocksCounter ∧
        (r.1.absentee k).isSome) ↔ MissesTooMany params height r.1 k info ((!signed) :: calls) := by
    unfold MissesTooMany
    rw [hcounter, and_comm (a := (r.1.absentee k).isSome = true)]
  unfold handleValidatorSignature
  simp only [hu, hinfo, SlashingBooks.countSignature_eq]
  by_cases hjails : MissesTooMany params height r.1 k info ((!signed) :: calls)
  · obtain ⟨v, hv⟩ := Option.isSome_iff_exists.mp hjails.2.1
    obtain ⟨hfound, hfree⟩ := Option.filter_eq_some_iff.mp hv
    let info₂ : ValidatorSigningInfo := { info₁ with
      jailedUntil := time + params.downtimeJailDuration
      missedBlocksCounter := 0
      indexOffset := 0 }
    have hcleared : ∀ q i, (b.clearValidatorMissedBlockBitArray k).missedBlocks.get (toLex (q, i)) =
        if q = k then none else b.missedBlocks.get (toLex (q, i)) := b.get_clear k
    let b₂ := (b.clearValidatorMissedBlockBitArray k).setValidatorSigningInfo k info₂
    have hreset : b₂.progress k = (info₂.indexOffset, info₂.missedBlocksCounter) :=
      SlashingBooks.progress_of_get KVStore.get_set_self
    refine ⟨({ r.1 with books := r.1.books.punished v }, b₂), ?_, fun q hq => ?_,
      .inl ⟨hjails, ?_, .start _ hreset fun i => (hcleared k i).trans (if_pos rfl)⟩⟩
    · refine (if_pos (hcond.mpr hjails)).trans ?_
      exact bind_eq_ok.mpr ⟨_, handleDowntime_eq hfound (of_decide_eq_true hfree), rfl⟩
    · refine .of_set (congrArg (KVStore.set · k info₂) hinfos) (absurd · hq) fun i => ?_
      exact ((hcleared q i).trans (if_neg hq)).trans (hothers q hq i)
    · rw [StakingBooks.getValidatorByConsAddr_punished hfound]
      rfl
  · refine ⟨(r.1, b.setValidatorSigningInfo k info₁), if_neg (hcond.not.mpr hjails),
      fun q hq => ?_, .inr ⟨hjails, rfl, hcalled⟩⟩
    exact .of_set (congrArg (KVStore.set · k info₁) hinfos) (absurd · hq) (hothers q hq)

end Vote

/-! ## Runs -/

namespace ChainNode

variable {B : Type}

/-- The validator is there and not jailed, and it is jailed afterwards. -/
def jails (n n' : ChainNode B) (k : Address) : Bool :=
  (n.staking.state.absentee k).isSome && (n'.books.getValidatorByConsAddr k).any Validator.jailed

/-- The calls for a validator since it was last jailed for downtime, after an action. -/
def called (n n' : ChainNode B) (k : Address) (calls : List Bool) : ChainAction B → List Bool
  | .vote vote =>
    if vote.address = k then if n.jails n' k then [] else (!vote.signedLastBlock) :: calls else calls
  | _ => calls

/-- The window does not change. -/
def FixedWindow (n : ChainNode B) : ChainAction B → Prop
  | .setParams params => params.signedBlocksWindow = n.slashingParams.signedBlocksWindow
  | _ => True

section Runs

variable {sk : PoolKeeper B} {weight : Int → Int} {n n' : ChainNode B} {k : Address}

variable (sk weight) in
theorem step_vote {calls : List Bool} {info : ValidatorSigningInfo}
    (h : Windowed n.slashingParams.signedBlocksWindow n.slashing k calls)
    (hkey : (n.slashing.pubkeys.get k).isSome) (hinfo : n.slashing.signingInfos.get k = some info)
    (signed : Bool) :
    ∃ n', n.step sk weight (.vote ⟨k, signed⟩) = .ok n' ∧
      (∀ q, q ≠ k → Undisturbed q n.slashing n'.slashing) ∧
      (n.jails n' k = true ↔ MissesTooMany n.slashingParams n.staking.height n.staking.state k info
        ((!signed) :: calls)) ∧
      Windowed n.slashingParams.signedBlocksWindow n'.slashing k
        (n.called n' k calls (.vote ⟨k, signed⟩)) := by
  obtain ⟨r', hok, hothers, hcases⟩ := Windowed.vote (r := (n.staking.state, n.slashing)) h hkey
    hinfo n.staking.height n.staking.time signed
  let n₁ : ChainNode B := { n with staking := { n.staking with state := r'.1 }, slashing := r'.2 }
  refine ⟨n₁, bind_eq_ok.mpr ⟨r', hok, rfl⟩, hothers, ?_⟩
  unfold called
  dsimp only
  rw [if_pos rfl]
  rcases hcases with ⟨hjails, hjailed, hreset⟩ | ⟨hjails, hsame, hcounted⟩
  · have htrue : n.jails n₁ k = true := by
      unfold jails
      rw [Bool.and_eq_true]
      exact ⟨hjails.2.1, hjailed⟩
    rw [if_pos htrue]
    exact ⟨iff_of_true htrue hjails, hreset⟩
  · -- staking has done nothing, so a validator that was not jailed is not jailed now
    have hfalse : ¬ n.jails n₁ k = true := by
      unfold jails
      rw [Bool.and_eq_true]
      rintro ⟨habsent, hjailed⟩
      obtain ⟨v, hv⟩ := Option.isSome_iff_exists.mp habsent
      obtain ⟨hfound, hfree⟩ := Option.filter_eq_some_iff.mp hv
      have hbooks : n₁.books = n.books := congrArg StakingState.books hsame
      rw [hbooks, books, hfound] at hjailed
      cases (of_decide_eq_true hfree).symm.trans hjailed
    rw [if_neg hfalse]
    exact ⟨iff_of_false hfalse hjails, hcounted⟩

/-- **One action**: a vote is a call for its validator, and nobody else's window changes. -/
theorem step_windowed {calls : Address → List Bool} {a : ChainAction B}
    (h : ∀ k, Windowed n.slashingParams.signedBlocksWindow n.slashing k (calls k))
    (hfixed : n.FixedWindow a) (hstep : n.step sk weight a = .ok n') :
    n'.slashingParams.signedBlocksWindow = n.slashingParams.signedBlocksWindow ∧
      ∀ k, Windowed n.slashingParams.signedBlocksWindow n'.slashing k (n.called n' k (calls k) a) := by
  cases a with
  | initChain =>
    obtain ⟨r, -, hres⟩ := bind_eq_ok.mp hstep
    cases hres
    exact ⟨rfl, fun k => (Undisturbed.notify _ _ _ _).windowed (h k)⟩
  | beginBlock time =>
    cases hstep
    exact ⟨rfl, h⟩
  | vote vote =>
    obtain ⟨r, hr, hres⟩ := bind_eq_ok.mp hstep
    have hparams : n'.slashingParams = n.slashingParams := by
      cases hres
      rfl
    obtain ⟨u, hu, hr⟩ := bind_eq_ok.mp hr
    obtain ⟨info, hinfo, -⟩ := bind_eq_ok.mp hr
    obtain ⟨n₁, hstep₁, hothers, -, hvoted⟩ := step_vote sk weight (h vote.address)
      (Option.isSome_of_eq_some (orThrow_eq_ok.mp hu)) (orThrow_eq_ok.mp hinfo) vote.signedLastBlock
    cases hstep.symm.trans hstep₁
    refine ⟨congrArg _ hparams, fun k => ?_⟩
    by_cases hk : k = vote.address
    · subst hk
      exact hvoted
    · unfold called
      dsimp only
      rw [if_neg (Ne.symm hk)]
      exact (hothers k hk).windowed (h k)
  | evidence e =>
    obtain ⟨r, hr, hres⟩ := bind_eq_ok.mp hstep
    cases hres
    exact ⟨rfl, fun k => (Undisturbed.handleDoubleSign hr).windowed (h k)⟩
  | tx a =>
    cases hstep
    exact ⟨rfl, fun k => (Undisturbed.notify _ _ _ _).windowed (h k)⟩
  | setParams params =>
    cases hstep
    exact ⟨hfixed, h⟩
  | endBlock =>
    obtain ⟨r, -, hres⟩ := bind_eq_ok.mp hstep
    cases hres
    exact ⟨rfl, fun k => (Undisturbed.notify _ _ _ _).windowed (h k)⟩
  | restart time =>
    obtain ⟨r, -, hres⟩ := bind_eq_ok.mp hstep
    cases hres
    exact ⟨rfl, fun k => (Undisturbed.restart rfl h _).windowed (h k)⟩

end Runs

section Genesis

variable {sk : PoolKeeper B} {weight : Int → Int} {n : ChainNode B}

theorem reach_windowed (hn : ChainReach sk weight FixedWindow n) : ∃ calls : Address → List Bool,
    ∀ k, Windowed n.slashingParams.signedBlocksWindow n.slashing k (calls k) := by
  induction hn with
  | genesis => exact ⟨fun _ => [], fun _ => .start _ rfl fun _ => rfl⟩
  | step _ _ _ hfixed hstep ih =>
    obtain ⟨calls, hw⟩ := ih
    obtain ⟨hwindow, hnext⟩ := step_windowed hw hfixed hstep
    exact ⟨_, hwindow.symm ▸ hnext⟩

/-- **The slashing genesis round trip**: after every block of every run the exported genesis gives
the same store again, with the keys, the signing infos and all bits. -/
theorem slashing_genesis_round_trip (hweight : ∀ week, Dec.one ≤ weight week)
    (hn : ChainReach sk weight FixedWindow n) (hphase : n.phase = .between) :
    .initGenesis n.books.validators.values (n.slashing.exportGenesis n.slashingParams) =
      n.slashing := by
  obtain ⟨w, h⟩ := hn.inv False False hweight fun n a _ => n.keeps_false a
  obtain ⟨calls, hw⟩ := reach_windowed hn
  have hkeys := (h.stores.reimported (h.idle (hphase ▸ rfl)) n.slashingParams 0).pubkeys
  have hinfos := congrArg SlashingBooks.signingInfos
    (SlashingBooks.initGenesis_exportGenesis n.slashingParams n.slashing n.books.validators.values)
  have hbits := KVStore.ext_get fun key : Address ×ₗ Int =>
    (Undisturbed.restart rfl hw n.books.validators.values).bits (k := (ofLex key).1) (ofLex key).2
  exact congr (congrArg₂ SlashingBooks.mk (hkeys.trans h.stores.pubkeys.symm) hinfos) hbits

end Genesis

theorem slashing_genesis_round_trip_aliceFirst :
    aliceFirst.slashing.signingInfos.keys = ["key"] ∧
      .initGenesis aliceFirst.books.validators.values
        (aliceFirst.slashing.exportGenesis oneMissedBlock) = aliceFirst.slashing :=
  ⟨by decide +kernel, slashing_genesis_round_trip (fun _ => by decide)
    (reach_aliceFirst (fun _ _ => trivial) fun _ => trivial) rfl⟩

end ChainNode

end Okexchain
