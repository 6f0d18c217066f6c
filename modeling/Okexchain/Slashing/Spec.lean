import Okexchain.Slashing.Keeper
import Okexchain.Staking.Agreement

/-!
# Slashing: what the hooks and the begin of a block keep

The two stores agree (`StoresOK`): slashing knows the keys of all validators, and has a signing info
for every key that was ever bonded. If `guarded`, validators with a tombstoned key are jailed. If
`strict`, no validator that is to be kicked out can be let out of jail in the same block.

* The hooks keep what a signing info says about jail (`Remembers`), and tombstone nobody.
* A vote and an evidence only jail, like the actions `downtime` and `doubleSign` of the staking
  module.

**Results.** `StoresOK.acted`: every action of the staking module keeps the agreement.
`handleValidatorSignature_ends`, `handleDoubleSign_ends`: so do the calls at the begin of a block,
and they halt the chain only when a vote is not from a validator that is there and not unbonded.
-/

namespace Okexchain

/-! ## Hooks -/

/-- Every signing info says the same about jail. -/
def Remembers (b b' : SlashingBooks) : Prop :=
  ∀ k info, b.signingInfos.get k = some info → ∃ info', b'.signingInfos.get k = some info' ∧
    info'.tombstoned = info.tombstoned ∧ info'.jailedUntil = info.jailedUntil

/-- The signing info does not let the validator out of jail. -/
def SlashingBooks.Refuses (b : SlashingBooks) (time : Int) (k : Address) : Prop :=
  ∃ info, b.signingInfos.get k = some info ∧ (info.tombstoned = true ∨ time < info.jailedUntil)

namespace Remembers

variable {b b' b'' : SlashingBooks}

theorem refl (b : SlashingBooks) : Remembers b b := fun _ info h => ⟨info, h, rfl, rfl⟩

theorem trans (h : Remembers b b') (h' : Remembers b' b'') : Remembers b b'' := by
  intro k info hinfo
  obtain ⟨info', hinfo', htomb, huntil⟩ := h k info hinfo
  obtain ⟨info'', hinfo'', htomb', huntil'⟩ := h' k info' hinfo'
  exact ⟨info'', hinfo'', htomb'.trans htomb, huntil'.trans huntil⟩

theorem isSome (h : Remembers b b') {k : Address} (hk : (b.signingInfos.get k).isSome) :
    (b'.signingInfos.get k).isSome := by
  obtain ⟨info, hinfo⟩ := Option.isSome_iff_exists.mp hk
  obtain ⟨info', hinfo', -⟩ := h k info hinfo
  rw [hinfo']
  rfl

theorem refuses (h : Remembers b b') {time : Int} {k : Address} (hk : b.Refuses time k) :
    b'.Refuses time k := by
  obtain ⟨info, hinfo, hrefuses⟩ := hk
  obtain ⟨info', hinfo', htomb, huntil⟩ := h k info hinfo
  refine ⟨info', hinfo', ?_⟩
  rwa [htomb, huntil]

/-- One signing info is written, and says the same about jail. -/
theorem of_set {a : Address} {info info' : ValidatorSigningInfo}
    (hget : b.signingInfos.get a = some info)
    (hset : b'.signingInfos = b.signingInfos.set a info') (htomb : info'.tombstoned = info.tombstoned)
    (huntil : info'.jailedUntil = info.jailedUntil) : Remembers b b' := by
  intro k i hi
  rw [hset, KVStore.get_set]
  split_ifs with hk
  · rw [hk, hget] at hi
    cases hi
    exact ⟨info', rfl, htomb, huntil⟩
  · exact ⟨i, hi, rfl, rfl⟩

end Remembers

namespace SlashingBooks

variable {b : SlashingBooks} {height : Int}

theorem allowsUnjail_of_refuses {time : Int} {k : Address} (h : b.Refuses time k) :
    b.allowsUnjail time k = false := by
  obtain ⟨info, hinfo, hrefuses⟩ := h
  unfold allowsUnjail
  rw [hinfo]
  refine decide_eq_false fun hall => ?_
  rcases hrefuses with htomb | huntil
  · cases hall.2.1.symm.trans htomb
  · exact absurd hall.2.2 (not_le.mpr huntil)

theorem not_tombstoned_of_allowsUnjail {time : Int} {k : Address}
    (h : b.allowsUnjail time k = true) : b.isTombstoned k = false := by
  unfold allowsUnjail at h
  unfold isTombstoned
  split at h
  · cases h
  · rename_i info hinfo
    rw [hinfo]
    exact (of_decide_eq_true h).2.1

theorem modifyValidatorStatus_remembers (b : SlashingBooks) (k : Address) (status : ValStatus) :
    Remembers b (b.modifyValidatorStatus k status) := by
  unfold modifyValidatorStatus
  split
  · exact .refl _
  · rename_i info hinfo
    exact .of_set hinfo rfl rfl rfl

theorem isTombstoned_modifyValidatorStatus (b : SlashingBooks) (k q : Address)
    (status : ValStatus) : (b.modifyValidatorStatus k status).isTombstoned q = b.isTombstoned q := by
  unfold modifyValidatorStatus
  split
  · rfl
  · rename_i info hinfo
    unfold isTombstoned setValidatorSigningInfo
    dsimp only
    rw [KVStore.get_set]
    split_ifs with hq
    · rw [hq, hinfo]
      rfl
    · rfl

theorem pubkeys_modifyValidatorStatus (b : SlashingBooks) (k : Address) (status : ValStatus) :
    (b.modifyValidatorStatus k status).pubkeys = b.pubkeys := by
  unfold modifyValidatorStatus
  split <;> rfl

theorem hook_remembers (b : SlashingBooks) (call : StakingHook) :
    Remembers b (b.hook height call) := by
  cases call with
  | validatorCreated k =>
    exact fun q info hinfo =>
      modifyValidatorStatus_remembers { b with pubkeys := b.pubkeys.set k () } k .created q info hinfo
  | validatorRemoved k =>
    exact fun q info hinfo =>
      modifyValidatorStatus_remembers { b with pubkeys := b.pubkeys.delete k } k .destroyed q info
        hinfo
  | validatorDestroyed k => exact modifyValidatorStatus_remembers b k _
  | validatorBonded k =>
    unfold hook afterValidatorBonded
    dsimp only
    split
    · rename_i hnone
      intro q info hinfo
      refine ⟨info, (KVStore.get_set_ne ?_).trans hinfo, rfl, rfl⟩
      rintro rfl
      cases hnone.symm.trans hinfo
    · exact .refl _

theorem isTombstoned_hook (b : SlashingBooks) (call : StakingHook) (q : Address) :
    (b.hook height call).isTombstoned q = b.isTombstoned q := by
  cases call with
  | validatorCreated k => exact isTombstoned_modifyValidatorStatus { b with pubkeys := _ } k q _
  | validatorRemoved k => exact isTombstoned_modifyValidatorStatus { b with pubkeys := _ } k q _
  | validatorDestroyed k => exact isTombstoned_modifyValidatorStatus b k q _
  | validatorBonded k =>
    unfold hook afterValidatorBonded
    dsimp only
    split
    · rename_i hnone
      unfold isTombstoned setValidatorSigningInfo
      dsimp only
      rw [KVStore.get_set]
      split_ifs with hq
      · rw [hq, hnone]
        rfl
      · rfl
    · rfl

theorem isSome_hook_bonded (b : SlashingBooks) (k : Address) :
    ((b.hook height (.validatorBonded k)).signingInfos.get k).isSome := by
  unfold hook afterValidatorBonded
  dsimp only
  split
  · rw [setValidatorSigningInfo, KVStore.get_set_self]
    rfl
  · rename_i info hinfo
    rw [hinfo]
    rfl

variable {calls : List StakingHook}

theorem foldl_hook_remembers (height : Int) (b : SlashingBooks) (calls : List StakingHook) :
    Remembers b (calls.foldl (hook height) b) := by
  induction calls generalizing b with
  | nil => exact .refl b
  | cons call calls ih => exact (hook_remembers b call).trans (ih _)

theorem isTombstoned_foldl_hook (b : SlashingBooks) (calls : List StakingHook) (q : Address) :
    (calls.foldl (hook height) b).isTombstoned q = b.isTombstoned q := by
  induction calls generalizing b with
  | nil => rfl
  | cons call calls ih => exact (ih _).trans (isTombstoned_hook b call q)

theorem isSome_foldl_hook {k : Address} (hk : .validatorBonded k ∈ calls) :
    ((calls.foldl (hook height) b).signingInfos.get k).isSome := by
  induction calls generalizing b with
  | nil => exact absurd hk List.not_mem_nil
  | cons call calls ih =>
    rcases List.mem_cons.mp hk with rfl | hk
    · exact (foldl_hook_remembers height _ calls).isSome (isSome_hook_bonded b k)
    · exact ih hk

/-- Slashing hears of every key that comes and goes. -/
theorem pubkeys_foldl_hook {hooks : List StakingHook} (h : b.pubkeys = registered hooks) :
    (calls.foldl (hook height) b).pubkeys = registered (hooks ++ calls) := by
  induction calls generalizing b hooks with
  | nil => rwa [List.append_nil]
  | cons call calls ih =>
    have hone : (b.hook height call).pubkeys = registered (hooks ++ [call]) := by
      have hregistered : registered (hooks ++ [call]) = _ := List.foldl_append
      rw [hregistered]
      cases call with
      | validatorCreated k =>
        refine (pubkeys_modifyValidatorStatus _ k _).trans ?_
        dsimp only
        rw [h]
        rfl
      | validatorRemoved k =>
        refine (pubkeys_modifyValidatorStatus _ k _).trans ?_
        dsimp only
        rw [h]
        rfl
      | validatorDestroyed k => exact (pubkeys_modifyValidatorStatus _ k _).trans h
      | validatorBonded k =>
        unfold hook afterValidatorBonded
        dsimp only
        split <;> exact h
    have hrest := ih hone
    rwa [List.append_assoc] at hrest

end SlashingBooks

/-! ## The two stores -/

/-- The validator is there, and is not unbonded. -/
def StakingBooks.Serves (b : StakingBooks) (k : Address) : Prop :=
  ∃ q s t, s ≠ .unbonded ∧ b.Place q k s t

/-- Slashing writes signing infos: none gets lost, and none lets a validator out of jail. -/
structure Records (time : Int) (b b' : SlashingBooks) : Prop where
  pubkeys : b'.pubkeys = b.pubkeys
  infos : ∀ k, (b.signingInfos.get k).isSome → (b'.signingInfos.get k).isSome
  refuses : ∀ k, b.Refuses time k → b'.Refuses time k

theorem Records.refl (time : Int) (b : SlashingBooks) : Records time b b :=
  ⟨rfl, fun _ => id, fun _ => id⟩

theorem Records.of_set {time : Int} {b b' : SlashingBooks} {a : Address}
    {info info' : ValidatorSigningInfo} (hpubkeys : b'.pubkeys = b.pubkeys)
    (hget : b.signingInfos.get a = some info)
    (hset : b'.signingInfos = b.signingInfos.set a info')
    (htomb : info.tombstoned = true → info'.tombstoned = true)
    (huntil : time < info.jailedUntil → info'.tombstoned = true ∨ time < info'.jailedUntil) :
    Records time b b' := by
  refine ⟨hpubkeys, fun k hk => ?_, fun k hk => ?_⟩
  · rw [hset, KVStore.get_set]
    split_ifs
    · rfl
    · exact hk
  · obtain ⟨i, hi, hrefuses⟩ := hk
    by_cases hka : k = a
    · rw [hka, hget] at hi
      cases hi
      refine ⟨info', ?_, hrefuses.elim (fun ht => .inl (htomb ht)) huntil⟩
      rw [hset, hka, KVStore.get_set_self]
    · refine ⟨i, ?_, hrefuses⟩
      rw [hset, KVStore.get_set_ne hka]
      exact hi

/-- The stores of staking and slashing agree. -/
structure StoresOK {B : Type} (sk : PoolKeeper B) (guarded strict : Prop) (time : Int)
    (w : ValidatorSet) (s : StakingState B) (sl : SlashingBooks) : Prop where
  staking : StakingInv sk s.books
  ok : ValidatorsOK (fun k => guarded ∧ sl.isTombstoned k = true) strict w s.books
  pubkeys : sl.pubkeys = registered s.books.hooks
  infos : ∀ k, .validatorBonded k ∈ s.books.hooks → (sl.signingInfos.get k).isSome
  held : strict → ∀ a ∈ s.books.abandonedValidatorAddrs, s.books.Dismissed a ∨
    ∃ k st t, st ≠ .unbonded ∧ s.books.Place a k st t ∧ sl.Refuses time k

section Stores

variable {B : Type} {sk : PoolKeeper B} {guarded strict : Prop} {time : Int} {w : ValidatorSet}
  {s s' : StakingState B} {sl sl' : SlashingBooks}

theorem ValidatorsOK.rebanned {banned banned' : Address → Prop} {b : StakingBooks}
    (h : ValidatorsOK banned strict w b)
    (hbanned : ∀ a, b.Has a (fun v => banned' v.consAddress) → b.Has a fun v => v.jailed = true) :
    ValidatorsOK banned' strict w b :=
  { h with banned := hbanned }

namespace StoresOK

/-- A validator that is there and not unbonded has its key and its signing info. -/
theorem known (h : StoresOK sk guarded strict time w s sl) {k : Address} (hk : s.books.Serves k) :
    sl.pubkeys.get k = some () ∧ (sl.signingInfos.get k).isSome := by
  obtain ⟨q, st, t, hst, v, hv, hcons, hstatus, -⟩ := hk
  refine ⟨?_, h.infos k (h.ok.known q k ⟨v, hv, hcons, hstatus ▸ hst⟩)⟩
  rw [h.pubkeys]
  exact (h.ok.registered k).mpr ⟨q, v, hv, hcons⟩

/-- An action of the staking module, of which slashing hears, next to signing infos that slashing
writes itself. -/
theorem acted {a : StakingAction B} (h : StoresOK sk guarded strict time w s sl)
    (hinv : StakingInv sk s'.books) (hacts : Acts a s.books s'.books)
    (horder : a.Orderly (fun k => guarded ∧ sl.isTombstoned k = true) strict s.books)
    (hrecords : Records time sl sl') (htomb : ∀ k, sl'.isTombstoned k = true →
      sl.isTombstoned k = true ∨ ∀ q, s'.books.Has q (fun v => v.consAddress = k) →
        s'.books.Has q fun v => v.jailed = true)
    (hnew : strict → ∀ v, s.books.getValidator v.operatorAddress = some v → a.Abandons v →
      (∃ d, a = .destroyValidator d) ∨ ∃ k st t, st ≠ .unbonded ∧
        s.books.Place v.operatorAddress k st t ∧ sl'.Refuses time k) (height : Int) :
    StoresOK sk guarded strict time w s' (sl'.notify height s.books s'.books) := by
  obtain ⟨calls, hcalls, -⟩ := hacts.hooks
  have hagree := hacts.agreement horder h.ok
  have hnotify : sl'.notify height s.books s'.books =
      calls.foldl (SlashingBooks.hook height) sl' := by
    unfold SlashingBooks.notify
    rw [hcalls, List.drop_left]
  rw [hnotify]
  have hremembers := SlashingBooks.foldl_hook_remembers height sl' calls
  refine ⟨hinv, hagree.rebanned ?_, ?_, fun k hk => ?_, fun hs a ha => ?_⟩
  · rintro q ⟨v, hv, hguarded, hk⟩
    rw [SlashingBooks.isTombstoned_foldl_hook] at hk
    rcases htomb _ hk with hk | hjailed
    · exact hagree.banned q ⟨v, hv, hguarded, hk⟩
    · exact hjailed q ⟨v, hv, rfl⟩
  · rw [hcalls]
    exact SlashingBooks.pubkeys_foldl_hook (hrecords.pubkeys.trans h.pubkeys)
  · rw [hcalls] at hk
    rcases List.mem_append.mp hk with hk | hk
    · exact hremembers.isSome (hrecords.infos k (h.infos k hk))
    · exact SlashingBooks.isSome_foldl_hook hk
  · have hkept : (s.books.Dismissed a ∨ ∃ k st t, st ≠ .unbonded ∧ s.books.Place a k st t ∧
        sl'.Refuses time k) → s'.books.Dismissed a ∨ ∃ k st t, st ≠ .unbonded ∧
        s'.books.Place a k st t ∧ (calls.foldl (SlashingBooks.hook height) sl').Refuses time k := by
      refine Or.imp hacts.dismissed ?_
      rintro ⟨k, st, t, hst, hplace, hrefuses⟩
      exact ⟨k, st, t, hst, hacts.places hst hplace, hremembers.refuses hrefuses⟩
    have hold : a ∈ s.books.abandonedValidatorAddrs → s.books.Dismissed a ∨
        ∃ k st t, st ≠ .unbonded ∧ s.books.Place a k st t ∧ sl'.Refuses time k := by
      refine fun ha => (h.held hs a ha).imp id ?_
      rintro ⟨k, st, t, hst, hplace, hrefuses⟩
      exact ⟨k, st, t, hst, hplace, hrecords.refuses k hrefuses⟩
    rcases hacts.abandoned with hsame | ⟨v, hget, habandons, hlist, hdismissed⟩
    · rw [hsame] at ha
      exact hkept (hold ha)
    · rw [hlist] at ha
      rcases List.mem_append.mp ha with ha | ha
      · exact hkept (hold ha)
      · obtain rfl := List.mem_singleton.mp ha
        rcases hnew hs v hget habandons with hdestroy | hrefuses
        · exact .inl (hdismissed hdestroy)
        · exact hkept (.inr hrefuses)

/-- Slashing writes signing infos, and staking does nothing. -/
theorem recorded (h : StoresOK sk guarded strict time w s sl) (hrecords : Records time sl sl')
    (htomb : ∀ k, sl'.isTombstoned k = sl.isTombstoned k) :
    StoresOK sk guarded strict time w s sl' := by
  refine ⟨h.staking, ?_, hrecords.pubkeys.trans h.pubkeys,
    fun k hk => hrecords.infos k (h.infos k hk), fun hs a ha => (h.held hs a ha).imp id ?_⟩
  · simpa only [htomb] using h.ok
  · rintro ⟨k, st, t, hst, hplace, hrefuses⟩
    exact ⟨k, st, t, hst, hplace, hrecords.refuses k hrefuses⟩

/-- The validator set is another one, slashing has heard of it, and nobody is to be kicked out. -/
theorem rolled {w' : ValidatorSet} (h : StoresOK sk guarded strict time w s sl)
    (hinv : StakingInv sk s'.books)
    (hok : ValidatorsOK (fun k => guarded ∧ sl.isTombstoned k = true) strict w' s'.books)
    (hhooks : s.books.hooks <+: s'.books.hooks) (hnone : s'.books.abandonedValidatorAddrs = [])
    (height : Int) : StoresOK sk guarded strict time w' s' (sl.notify height s.books s'.books) := by
  obtain ⟨calls, hcalls⟩ := hhooks
  have hnotify : sl.notify height s.books s'.books =
      calls.foldl (SlashingBooks.hook height) sl := by
    unfold SlashingBooks.notify
    rw [← hcalls, List.drop_left]
  rw [hnotify]
  refine ⟨hinv, ?_, ?_, fun k hk => ?_, fun _ a ha => ?_⟩
  · simpa only [SlashingBooks.isTombstoned_foldl_hook] using hok
  · rw [← hcalls]
    exact SlashingBooks.pubkeys_foldl_hook h.pubkeys
  · rw [← hcalls] at hk
    rcases List.mem_append.mp hk with hk | hk
    · exact (SlashingBooks.foldl_hook_remembers height sl calls).isSome (h.infos k hk)
    · exact SlashingBooks.isSome_foldl_hook hk
  · rw [hnone] at ha
    exact absurd ha List.not_mem_nil

/-- A block begins: nobody is to be kicked out yet. -/
theorem begins (h : StoresOK sk guarded strict time w s sl)
    (hnone : s.books.abandonedValidatorAddrs = []) (time' : Int) :
    StoresOK sk guarded strict time' w s sl := by
  refine ⟨h.staking, h.ok, h.pubkeys, h.infos, fun _ a ha => ?_⟩
  rw [hnone] at ha
  exact absurd ha List.not_mem_nil

end StoresOK

/-! ## A vote -/

namespace SlashingBooks

variable {b : SlashingBooks} {window : Int} {k : Address} {info : ValidatorSigningInfo}
  {signed : Bool}

/-- The count of a signature leaves everything else alone. -/
theorem countSignature_spec (window : Int) (b : SlashingBooks) (k : Address)
    (info : ValidatorSigningInfo) (signed : Bool) :
    (b.countSignature window k info signed).1.pubkeys = b.pubkeys ∧
      (b.countSignature window k info signed).1.signingInfos = b.signingInfos ∧
      (b.countSignature window k info signed).2.tombstoned = info.tombstoned ∧
      (b.countSignature window k info signed).2.jailedUntil = info.jailedUntil := by
  unfold countSignature
  dsimp only
  split_ifs <;> exact ⟨rfl, rfl, rfl, rfl⟩

theorem isTombstoned_of_set {b' : SlashingBooks} {info' : ValidatorSigningInfo}
    (hget : b.signingInfos.get k = some info) (hset : b'.signingInfos = b.signingInfos.set k info')
    (htomb : info'.tombstoned = info.tombstoned) (q : Address) :
    b'.isTombstoned q = b.isTombstoned q := by
  unfold isTombstoned
  rw [hset, KVStore.get_set]
  split_ifs with hq
  · rw [hq, hget]
    exact htomb
  · rfl

theorem notify_self (height : Int) (b : SlashingBooks) {before after : StakingBooks}
    (h : after.hooks = before.hooks) : b.notify height before after = b := by
  unfold notify
  rw [h, List.drop_length]
  rfl

end SlashingBooks

/-- What a call at the begin of a block does, next to the agreement. -/
structure Judged (a : StakingAction B) (s : StakingState B) (sl : SlashingBooks)
    (s' : StakingState B) (sl' : SlashingBooks) : Prop where
  acts : Acts a s.books s'.books
  params : s'.params = s.params
  tombstones : ∀ k, sl.isTombstoned k = true → sl'.isTombstoned k = true

/-- **`HandleValidatorSignature`** keeps the agreement, if no unbonded validator is punished. -/
theorem handleValidatorSignature_ends (h : StoresOK sk guarded strict time w s sl)
    (params : SlashingParams) (height : Int) {vote : VoteInfo}
    (hattends : strict → ∀ q, ¬ s.books.Has q fun v =>
      v.consAddress = vote.address ∧ v.jailed = false ∧ v.status = .unbonded) :
    Ends (handleValidatorSignature params height time (s, sl) vote)
      (fun r => StoresOK sk guarded strict time w r.1 r.2 ∧
        Judged (.downtime vote.address) s sl r.1 r.2)
      fun _ => ¬ s.books.Serves vote.address := by
  unfold handleValidatorSignature
  refine Ends.bind (Ends.orThrow fun hnone hserves => ?_) ?_
  · cases hnone.symm.trans (h.known hserves).1
  intro u _ _
  refine Ends.bind (Ends.orThrow fun hnone hserves => ?_) ?_
  · have hsome := (h.known hserves).2
    rw [hnone] at hsome
    cases hsome
  intro info _ hinfo
  obtain ⟨hpubkeys, hinfos, htomb, huntil⟩ := sl.countSignature_spec params.signedBlocksWindow
    vote.address info vote.signedLastBlock
  generalize sl.countSignature params.signedBlocksWindow vote.address info vote.signedLastBlock = r
    at hpubkeys hinfos htomb huntil
  obtain ⟨b, info₁⟩ := r
  dsimp only at hpubkeys hinfos htomb huntil ⊢
  split_ifs with hpunish
  · obtain ⟨v, hv⟩ := Option.isSome_iff_exists.mp hpunish.2.2
    obtain ⟨hfound, hfree⟩ := Option.filter_eq_some_iff.mp hv
    obtain ⟨hget, hcons⟩ := h.ok.getValidatorByConsAddr hfound
    rw [decide_eq_true_eq] at hfree
    have heq := handleDowntime_eq hfound hfree
    refine Ends.bind (Ends.eq_ok heq) fun s' _ hs' => ?_
    rw [hs']
    have hacts : Acts (.downtime vote.address : StakingAction B) s.books (s.books.punished v) :=
      punished_acts hget ⟨hcons, hfree⟩ nofun
    have htrace : StakingTrace sk (fun _ _ => True) time s []
        { s with books := s.books.punished v } := handleDowntime_trace h.staking.shares heq
    have hlate : time < time + params.downtimeJailDuration :=
      lt_add_of_pos_right time params.downtimeJailDuration_pos
    have hsaved : strict → ∀ u, s.books.getValidator u.operatorAddress = some u →
        (.downtime vote.address : StakingAction B).Abandons u → u.status ≠ .unbonded :=
      fun hs u hu habandons hstatus => hattends hs _ ⟨u, hu, habandons.1, habandons.2, hstatus⟩
    let info₂ : ValidatorSigningInfo := { info₁ with
      jailedUntil := time + params.downtimeJailDuration
      missedBlocksCounter := 0
      indexOffset := 0 }
    let sl' : SlashingBooks :=
      (b.clearValidatorMissedBlockBitArray vote.address).setValidatorSigningInfo vote.address info₂
    have hset : sl'.signingInfos = sl.signingInfos.set vote.address info₂ :=
      congrArg (KVStore.set · _ _) hinfos
    have htombs : ∀ k, sl'.isTombstoned k = sl.isTombstoned k :=
      SlashingBooks.isTombstoned_of_set hinfo hset htomb
    refine Ends.pure ⟨?_, hacts, rfl, fun k hk => (htombs k).trans hk⟩
    have hrecords : Records time sl sl' :=
      .of_set hpubkeys hinfo hset (fun ht => htomb.trans ht) fun _ => .inr hlate
    have hrefuses : sl'.Refuses time vote.address := ⟨info₂, KVStore.get_set_self, .inr hlate⟩
    have hstores := h.acted (h.staking.trace htrace) hacts
      ⟨fun _ hk => hk.elim, fun _ _ hu => hu.elim, hsaved⟩ hrecords
      (fun k hk => .inl ((htombs k).symm.trans hk))
      (fun hs u hu habandons => .inr ⟨_, _, _, hsaved hs u hu habandons,
        ⟨u, hu, habandons.1, rfl, rfl⟩, hrefuses⟩) height
    have hquiet : (s.books.punished v).hooks = s.books.hooks := rfl
    rwa [SlashingBooks.notify_self height _ hquiet] at hstores
  · have hset : (b.setValidatorSigningInfo vote.address info₁).signingInfos =
        sl.signingInfos.set vote.address info₁ := congrArg (KVStore.set · _ _) hinfos
    have htombs := SlashingBooks.isTombstoned_of_set hinfo hset htomb
    exact Ends.pure ⟨h.recorded (.of_set hpubkeys hinfo hset (fun ht => htomb.trans ht)
      fun hu => .inr (huntil ▸ hu)) htombs, .refl _, rfl, fun k hk => (htombs k).trans hk⟩

/-! ## Evidence -/

theorem SlashingBooks.jailUntil_tombstone {k : Address} {info : ValidatorSigningInfo}
    (hinfo : sl.signingInfos.get k = some info) (hnot : info.tombstoned = false) (until_ : Int) :
    ∃ b, sl.jailUntil k until_ = .ok b ∧ b.tombstone k = .ok { sl with
      signingInfos := sl.signingInfos.set k
        { info with jailedUntil := until_, tombstoned := true } } := by
  refine ⟨_, bind_eq_ok.mpr ⟨info, orThrow_eq_ok.mpr hinfo, rfl⟩, ?_⟩
  refine bind_eq_ok.mpr ⟨{ info with jailedUntil := until_ },
    orThrow_eq_ok.mpr KVStore.get_set_self, bind_eq_ok.mpr ⟨(), require_eq_ok.mpr hnot, ?_⟩⟩
  unfold setValidatorSigningInfo
  rw [KVStore.set_set]
  rfl

/-- The staking store after `HandleDoubleSign`. -/
def StakingBooks.convicted (b : StakingBooks) (v : Validator) : StakingBooks :=
  if v.jailed then b.withAbandoned v else b.punished v

/-- The validator is jailed, to be kicked out, and keeps its place. -/
theorem StakingBooks.convicted_spec {b : StakingBooks} {v : Validator}
    (hget : b.getValidator v.operatorAddress = some v) (hstatus : v.status ≠ .unbonded) :
    Acts (.doubleSign v.consAddress : StakingAction B) b (b.convicted v) ∧ (b.convicted v).hooks = b.hooks ∧
      (b.convicted v).Has v.operatorAddress (fun u => u.jailed = true) ∧
      ∀ q u, (b.convicted v).getValidator q = some u → q = v.operatorAddress ∨
        b.getValidator q = some u := by
  unfold convicted
  cases hjailed : v.jailed with
  | true =>
    exact ⟨withAbandoned_acts hget ⟨rfl, hstatus⟩ nofun hjailed hstatus, rfl, ⟨v, hget, hjailed⟩,
      fun _ _ hu => .inr hu⟩
  | false =>
    refine ⟨punished_acts hget ⟨rfl, hstatus⟩ nofun, rfl,
      ⟨{ v with jailed := true }, KeyedStore.get_put_self, rfl⟩, fun q u hu => ?_⟩
    by_cases hq : q = v.operatorAddress
    · exact .inl hq
    · have hother := StakingBooks.get_punished (b := b) (v := v) q
      rw [if_neg hq] at hother
      exact .inr (hother.symm.trans hu)

/-- **`HandleDoubleSign`** keeps the agreement and never halts the chain. -/
theorem handleDoubleSign_ends (h : StoresOK sk guarded strict time w s sl)
    (params : SlashingParams) (evidence : Equivocation) :
    Ends (handleDoubleSign params time (s, sl) evidence)
      (fun r => StoresOK sk guarded strict time w r.1 r.2 ∧
        Judged (.doubleSign evidence.consensusAddress) s sl r.1 r.2 ∧
        (sl.isTombstoned evidence.consensusAddress = true → r.1 = s)) fun _ => False := by
  have hrefl : StoresOK sk guarded strict time w s sl ∧
      Judged (.doubleSign evidence.consensusAddress) s sl s sl ∧
      (sl.isTombstoned evidence.consensusAddress = true → s = s) :=
    ⟨h, ⟨.refl _, rfl, fun _ => id⟩, fun _ => rfl⟩
  unfold handleDoubleSign
  dsimp only
  refine Ends.ite (fun _ => hrefl) fun _ => Ends.ite (fun _ => hrefl) fun _ => ?_
  cases hv : s.books.getValidatorByConsAddr evidence.consensusAddress with
  | none => exact hrefl
  | some v =>
    obtain ⟨hget, hcons⟩ := h.ok.getValidatorByConsAddr hv
    refine Ends.ite (fun _ => hrefl) fun hstatus => ?_
    have hserves : s.books.Serves evidence.consensusAddress :=
      ⟨v.operatorAddress, v.status, _, hstatus, v, hget, hcons, rfl, rfl⟩
    refine Ends.bind (Ends.orThrow fun hnone => ?_) ?_
    · have hsome := (h.known hserves).2
      rw [hnone] at hsome
      cases hsome
    intro info _ hinfo
    refine Ends.ite (fun _ => Ends.pure hrefl) fun htomb => ?_
    have hnot : info.tombstoned = false := by
      unfold SlashingBooks.isTombstoned at htomb
      rwa [hinfo, Option.elim_some, Bool.not_eq_true] at htomb
    have heq : s.handleDoubleSign evidence.consensusAddress =
        .ok { s with books := s.books.convicted v } :=
      hcons ▸ handleDoubleSign_eq h.ok hget hstatus
    obtain ⟨hacts, hquiet, hjailed, hothers⟩ :=
      StakingBooks.convicted_spec (B := B) hget hstatus
    refine Ends.bind (Ends.eq_ok heq) fun s' _ hs' => ?_
    rw [hs']
    let info' : ValidatorSigningInfo :=
      { info with jailedUntil := doubleSignJailEndTime, tombstoned := true }
    let sl' : SlashingBooks :=
      { sl with signingInfos := sl.signingInfos.set evidence.consensusAddress info' }
    obtain ⟨sl₁, hjail, htombstone⟩ : ∃ b, sl.jailUntil evidence.consensusAddress
        doubleSignJailEndTime = .ok b ∧ b.tombstone evidence.consensusAddress = .ok sl' :=
      SlashingBooks.jailUntil_tombstone hinfo hnot doubleSignJailEndTime
    refine Ends.bind (Ends.eq_ok hjail) fun _ _ hb => ?_
    rw [hb]
    refine Ends.bind (Ends.eq_ok htombstone) fun _ _ hb => ?_
    rw [hb]
    refine Ends.pure ⟨?_, ⟨hcons ▸ hacts, rfl, fun k hk => ?_⟩, fun ht => absurd ht htomb⟩
    swap
    · unfold SlashingBooks.isTombstoned at hk ⊢
      rw [KVStore.get_set]
      split_ifs
      · rfl
      · exact hk
    have hrecords : Records time sl sl' := .of_set rfl hinfo rfl (fun _ => rfl) fun _ => .inl rfl
    have hrefuses : sl'.Refuses time evidence.consensusAddress :=
      ⟨info', KVStore.get_set_self, .inl rfl⟩
    have htrace : StakingTrace sk (fun _ _ => True) time s []
        { s with books := s.books.convicted v } := handleDoubleSign_trace h.staking.shares heq
    have hstores := h.acted (h.staking.trace htrace) hacts
      ⟨fun _ hk => hk.elim, fun _ _ hu => hu.elim, fun _ _ _ habandons => habandons.2⟩ hrecords
      ?_ ?_ 0
    · rwa [SlashingBooks.notify_self 0 _ hquiet] at hstores
    · intro k hk
      by_cases hkey : k = evidence.consensusAddress
      · right
        rintro q ⟨u, hu, hucons⟩
        rcases hothers q u hu with rfl | hold
        · exact hjailed
        -- The key belongs to one validator.
        have hq : u.operatorAddress = q := KeyedStore.key_of_get hold
        have hsame := getValidatorByConsAddr_eq (v := u) h.ok (hq.symm ▸ hold)
        rw [hucons, hkey, hv] at hsame
        cases hsame
        exact hq ▸ hjailed
      · left
        unfold SlashingBooks.isTombstoned at hk ⊢
        rwa [KVStore.get_set_ne hkey] at hk
    · exact fun _ u hu habandons => .inr ⟨_, _, _, habandons.2, ⟨u, hu, habandons.1, rfl, rfl⟩,
        hcons.symm ▸ hrefuses⟩

end Stores

end Okexchain
