import Okexchain.Dex.Deposits

/-!
# Who may give a pair away

A pair changes hands in two steps: its owner offers it (`handleMsgTransferOwnership`, which also
withdraws the deposits) and the account it was offered to takes it in time
(`handleMsgConfirmOwnership`). Between the two, `ConfirmOwnership` is stored under the product's
name.

* `Offered`: the history has the owner's offer, and no listing of the product after it.
* `NoDeposits`: the pairs that are being transferred have no deposits.

The offer outlives the pair it was made for: delisting a pair leaves it behind, so after a listing
by another owner the old offer can still be taken (`confirm_after_relisting`). Runs in which no
product is listed while an offer for it stands are free of this.

**Results.** `confirm_offered`: in those runs a pair is only taken on an offer of its owner made
since its listing. `confirm_without_deposits`: in all runs a pair has no deposits when it is taken.
-/

namespace Okexchain

variable {B : Type} {sk : SupplyKeeper B}

theorem DexState.isTransferring_iff {now : Int} {s : DexState B} {product : String} :
    s.isTransferring now product = true ↔
      ∃ c, s.confirmOwnerships.get product = some c ∧ now ≤ c.expire := by
  unfold isTransferring
  cases s.confirmOwnerships.get product with
  | none => simp
  | some c => simp

/-! ## Offers -/

/-- The history has the offer `c`, and the product was not listed again after it. -/
def Offered (history : List DexEvent) (product : String) (c : ConfirmOwnership) : Prop :=
  ∃ before after time window,
    history = before ++ .transferred product c.fromAddress c.toAddress time window :: after ∧
      .listed product ∉ after ∧ c.expire = time + window

theorem Offered.append {history evs : List DexEvent} {product : String} {c : ConfirmOwnership}
    (h : Offered history product c) (hevs : .listed product ∉ evs) :
    Offered (history ++ evs) product c := by
  obtain ⟨before, after, time, window, rfl, hafter, hexpire⟩ := h
  refine ⟨before, after ++ evs, time, window, by rw [List.append_assoc, List.cons_append], ?_,
    hexpire⟩
  rw [List.mem_append]
  exact fun hc => hc.elim hafter hevs

/-- An offer that stands was made by the owner of the pair. -/
structure OfferOK (history : List DexEvent) (s : DexState B) (product : String)
    (c : ConfirmOwnership) : Prop where
  keyed : c.product = product
  offered : Offered history product c
  owner : ∀ tp, s.getTokenPair product = some tp → tp.owner = c.fromAddress

/-- A product is listed only when no offer for it stands. -/
def unlistedOffers (now : Int) (s : DexState B) (product : String) : Prop :=
  s.isTransferring now product = false

/-- An effect that leaves an offer where it is: the owner stays, and the product is not listed. -/
theorem OfferOK.next {history evs : List DexEvent} {s s' : DexState B} {product : String}
    {c : ConfirmOwnership} (h : OfferOK history s product c)
    (hevs : .listed product ∉ evs)
    (hpairs : ∀ tp', s'.getTokenPair product = some tp' →
      ∃ tp, s.getTokenPair product = some tp ∧ tp'.owner = tp.owner) :
    OfferOK (history ++ evs) s' product c where
  keyed := h.keyed
  offered := h.offered.append hevs
  owner := fun tp' htp' => by
    obtain ⟨tp, htp, howner⟩ := hpairs tp' htp'
    rw [howner]
    exact h.owner tp htp

/-- Writing a pair with its old owner keeps all owners. -/
theorem DexState.owner_of_update {s s' : DexState B} {tp tp' : TokenPair} {product : String}
    (hget : s.getTokenPair tp.name = some tp)
    (hget' : ∀ q, s'.getTokenPair q = if q = tp'.name then some tp' else s.getTokenPair q)
    (hname : tp'.name = tp.name) (howner : tp'.owner = tp.owner) :
    ∀ tp₁, s'.getTokenPair product = some tp₁ →
      ∃ tp₀, s.getTokenPair product = some tp₀ ∧ tp₁.owner = tp₀.owner := by
  intro tp₁ h₁
  rw [hget'] at h₁
  split_ifs at h₁ with hp
  · cases h₁
    exact ⟨tp, by rw [hp, hname]; exact hget, howner⟩
  · exact ⟨tp₁, h₁, rfl⟩

theorem keeps_offers (sk : SupplyKeeper B) : DexKeeps sk unlistedOffers fun ctx history s =>
    ∀ product c, s.confirmOwnerships.get product = some c → ctx.time ≤ c.expire →
      OfferOK history s product c where
  genesis ctx s h product c hc := by
    rw [h.confirmOwnerships] at hc
    cases hc
  effect ctx history s evs s' he hnonneg h product c hc htime := by
    cases he with
    | host bank operators productLocks params hbank =>
      exact (h product c hc htime).next List.not_mem_nil fun tp htp => ⟨tp, htp, rfl⟩
    | list tp hnew hzero huser hok =>
      have hne : product ≠ tp.name := fun hp => by
        have hact : s.isTransferring ctx.time tp.name = true :=
          DexState.isTransferring_iff.mpr ⟨c, hp ▸ hc, htime⟩
        have hok : s.isTransferring ctx.time tp.name = false := hok
        rw [hact] at hok
        cases hok
      refine (h product c hc htime).next (by simp [hne]) fun tp' htp' => ⟨tp', ?_, rfl⟩
      rwa [DexState.get_saveTokenPair, if_neg hne] at htp'
    | deposit tp amount bank hget hpos hidle hbank =>
      exact (h product c hc htime).next List.not_mem_nil
        (DexState.owner_of_update hget (DexState.get_updateTokenPair _) rfl rfl)
    | withdraw tp amount hget hpos hle =>
      exact (h product c hc htime).next (by simp)
        (DexState.owner_of_update hget (DexState.get_updateTokenPair _) rfl rfl)
    | delist tp hget hzero =>
      refine (h product c hc htime).next (by simp) fun tp' htp' => ⟨tp', ?_, rfl⟩
      rw [DexState.get_deleteTokenPairByName] at htp'
      split_ifs at htp'
      exact htp'
    | transfer tp target hget hzero =>
      have hc : (s.confirmOwnerships.set tp.name _).get product = some c := hc
      rw [KVStore.get_set] at hc
      split_ifs at hc with hp
      · cases hc
        subst hp
        refine ⟨rfl, ⟨history, [], _, _, rfl, List.not_mem_nil, rfl⟩, fun tp' htp' => ?_⟩
        rw [show s.getTokenPair tp.name = some tp' from htp'] at hget
        cases hget
        rfl
      · exact (h product c hc htime).next (by simp) fun tp' htp' => ⟨tp', htp', rfl⟩
    | confirm tp c₀ hget hc₀ htime₀ huser =>
      have hc : (s.confirmOwnerships.delete c₀.product).get product = some c := hc
      rw [(h tp.name c₀ hc₀ htime₀).keyed, KVStore.get_delete] at hc
      split_ifs at hc with hp
      refine (h product c hc htime).next (by simp) fun tp' htp' => ⟨tp', ?_, rfl⟩
      have hget' := s.get_updateTokenPair { tp with owner := c₀.toAddress } product
      rw [if_neg (show ¬ product = ({ tp with owner := c₀.toAddress } : TokenPair).name from hp)]
        at hget'
      exact hget'.symm.trans htp'
  endBlock n h product c hc htime := by
    have hc : (n.state.endBlocker sk n.ctx.time).state.confirmOwnerships.get product = some c := hc
    rw [DexState.endBlocker_frame.2.1] at hc
    refine (h product c hc htime).next ?_ fun tp htp => ⟨tp, ?_, rfl⟩
    · rw [List.mem_map]
      rintro ⟨info, -, he⟩
      cases he
    · have htp : (n.state.endBlocker sk n.ctx.time).state.dex.getTokenPair product = some tp := htp
      rwa [DexState.endBlocker_frame.1] at htp
  nextBlock ctx history s time hle h product c hc htime :=
    h product c hc (le_trans hle htime)

/-- **A pair is only taken on its owner's offer** of that pair to the taker, made since it was
listed and not longer ago than the window of the time, in runs in which no product is listed while
an offer for it stands. -/
theorem confirm_offered {n : DexNode B} (hn : DexReach sk unlistedOffers n)
    {msg : MsgConfirmOwnership} {s' : DexState B}
    (h : n.state.handleMsgConfirmOwnership n.ctx msg = .ok s') :
    ∃ tp before after time window, n.state.getTokenPair msg.product = some tp ∧
      n.history = before ++ .transferred msg.product tp.owner msg.address time window :: after ∧
      .listed msg.product ∉ after ∧ n.ctx.time ≤ time + window := by
  obtain ⟨-, hoffers⟩ := (keeps_offers sk).reach hn
  obtain ⟨c, tp, hc, hget, hexpire, hto, -⟩ := DexState.handleMsgConfirmOwnership_cases h
  obtain ⟨-, ⟨before, after, time, window, hhist, hafter, hexp⟩, howner⟩ :=
    hoffers msg.product c hc hexpire
  refine ⟨tp, before, after, time, window, hget, ?_, hafter, hexp ▸ hexpire⟩
  rw [howner tp hget, ← hto]
  exact hhist

/-- Alice lists a pair and offers it to Carol. -/
def offerToCarol : List (DexAction (KVStore Address Coins)) :=
  [.list ⟨"alice", "abc", "okt", 1⟩, .transferOwnership ⟨"alice", "carol", "abc_okt"⟩]

theorem confirm_offered_carol :
    ∃ tp before after time window,
      (dexStart.run simpleSupply offerToCarol).state.getTokenPair "abc_okt" = some tp ∧
      (dexStart.run simpleSupply offerToCarol).history =
        before ++ .transferred "abc_okt" tp.owner "carol" time window :: after ∧
      .listed "abc_okt" ∉ after ∧ 0 ≤ time + window := by
  have halice : simpleSupply.IsUser "alice" := isUser_simpleSupply (by decide)
  have hn : DexReach simpleSupply unlistedOffers (dexStart.run simpleSupply offerToCarol) :=
    .run (reach_dexStart _) ⟨⟨by decide, halice, rfl⟩, ⟨by decide, halice⟩, trivial⟩
  have hok : ((dexStart.run simpleSupply offerToCarol).state.handleMsgConfirmOwnership ⟨1, 0⟩
      ⟨"abc_okt", "carol"⟩).isOk = true := by decide +kernel
  cases h : (dexStart.run simpleSupply offerToCarol).state.handleMsgConfirmOwnership ⟨1, 0⟩
      ⟨"abc_okt", "carol"⟩ with
  | error err =>
    rw [h] at hok
    cases hok
  | ok s' => exact confirm_offered hn h

/-- Alice's pair is delisted while her offer stands, and Bob lists the product. -/
def relistByBob : List (DexAction (KVStore Address Coins)) :=
  offerToCarol ++ [.delist "abc" "okt", .list ⟨"bob", "abc", "okt", 1⟩]

/-- Carol takes Bob's pair on Alice's offer. -/
theorem confirm_after_relisting :
    DexReach simpleSupply (fun _ _ _ => True) (dexStart.run simpleSupply relistByBob) ∧
    ((dexStart.run simpleSupply relistByBob).state.getTokenPair "abc_okt").map TokenPair.owner =
      some "bob" ∧
    (((dexStart.run simpleSupply relistByBob).step simpleSupply
      (.confirmOwnership ⟨"abc_okt", "carol"⟩)).state.getTokenPair "abc_okt").map TokenPair.owner =
        some "carol" ∧
    (dexStart.run simpleSupply relistByBob).history =
      [.listed "abc_okt", .transferred "abc_okt" "alice" "carol" 0 50, .delisted "abc_okt",
        .listed "abc_okt"] := by
  have halice : simpleSupply.IsUser "alice" := isUser_simpleSupply (by decide)
  have hbob : simpleSupply.IsUser "bob" := isUser_simpleSupply (by decide)
  refine ⟨.run (reach_dexStart _) ?_, by decide +kernel, by decide +kernel, by decide +kernel⟩
  exact ⟨⟨by decide, halice, trivial⟩, ⟨by decide, halice⟩, trivial,
    ⟨by decide, hbob, trivial⟩, trivial⟩

/-! ## Deposits -/

/-- The pairs that are being transferred have no deposits. -/
def DexState.NoDeposits (now : Int) (s : DexState B) : Prop :=
  ∀ product tp, s.isTransferring now product = true → s.getTokenPair product = some tp →
    tp.deposits = 0

theorem keeps_noDeposits (sk : SupplyKeeper B) (listOK : Int → DexState B → String → Prop) :
    DexKeeps sk listOK fun ctx _ s => s.NoDeposits ctx.time where
  genesis ctx s h product tp hact := by
    obtain ⟨c, hc, -⟩ := DexState.isTransferring_iff.mp hact
    rw [h.confirmOwnerships] at hc
    cases hc
  effect ctx history s evs s' he hnonneg h product tp₁ hact hget₁ := by
    cases he with
    | host bank operators productLocks params hbank => exact h product tp₁ hact hget₁
    | list tp hnew hzero huser hok =>
      rw [DexState.get_saveTokenPair] at hget₁
      split_ifs at hget₁
      · cases hget₁
        exact hzero
      · exact h product tp₁ hact hget₁
    | deposit tp amount bank hget hpos hidle hbank =>
      have hact : s.isTransferring ctx.time product = true := hact
      have hne : product ≠ tp.name := fun hp => by
        rw [hp, hidle] at hact
        cases hact
      rw [DexState.get_updateTokenPair] at hget₁
      exact h product tp₁ hact ((if_neg hne).symm.trans hget₁)
    | withdraw tp amount hget hpos hle =>
      have hact : s.isTransferring ctx.time product = true := hact
      -- a pair without deposits has nothing to withdraw
      have hne : product ≠ tp.name := fun hp => by
        have := h tp.name tp (hp ▸ hact) hget
        omega
      rw [DexState.get_updateTokenPair] at hget₁
      exact h product tp₁ hact ((if_neg hne).symm.trans hget₁)
    | delist tp hget hzero =>
      rw [DexState.get_deleteTokenPairByName] at hget₁
      split_ifs at hget₁
      exact h product tp₁ hact hget₁
    | transfer tp target hget hzero =>
      obtain ⟨c, hc, htime⟩ := DexState.isTransferring_iff.mp hact
      have hc : (s.confirmOwnerships.set tp.name _).get product = some c := hc
      have hget₁ : s.getTokenPair product = some tp₁ := hget₁
      rw [KVStore.get_set] at hc
      split_ifs at hc with hp
      · rw [hp, hget] at hget₁
        cases hget₁
        exact hzero
      · exact h product tp₁ (DexState.isTransferring_iff.mpr ⟨c, hc, htime⟩) hget₁
    | confirm tp c₀ hget hc₀ htime₀ huser =>
      let tp' : TokenPair := { tp with owner := c₀.toAddress }
      have hzero : tp.deposits = 0 :=
        h tp.name tp (DexState.isTransferring_iff.mpr ⟨c₀, hc₀, htime₀⟩) hget
      obtain ⟨c, hc, htime⟩ := DexState.isTransferring_iff.mp hact
      have hc : (s.confirmOwnerships.delete c₀.product).get product = some c := hc
      have hget₁ : (s.updateTokenPair tp').getTokenPair product = some tp₁ := hget₁
      rw [KVStore.get_delete] at hc
      rw [DexState.get_updateTokenPair] at hget₁
      split_ifs at hc hget₁
      · rw [← Option.some.inj hget₁]
        exact hzero
      · exact h product tp₁ (DexState.isTransferring_iff.mpr ⟨c, hc, htime⟩) hget₁
  endBlock n h product tp hact hget := by
    have hget : (n.state.endBlocker sk n.ctx.time).state.dex.getTokenPair product = some tp := hget
    obtain ⟨c, hc, htime⟩ := DexState.isTransferring_iff.mp hact
    have hc : (n.state.endBlocker sk n.ctx.time).state.confirmOwnerships.get product = some c := hc
    rw [DexState.endBlocker_frame.1] at hget
    rw [DexState.endBlocker_frame.2.1] at hc
    exact h product tp (DexState.isTransferring_iff.mpr ⟨c, hc, htime⟩) hget
  nextBlock ctx history s time hle h product tp hact hget := by
    obtain ⟨c, hc, htime⟩ := DexState.isTransferring_iff.mp hact
    exact h product tp (DexState.isTransferring_iff.mpr ⟨c, hc, le_trans hle htime⟩) hget

/-- **No deposits change hands.** In every run, a transfer turns all deposits of the pair into a
withdrawal of the owner who offers it, and when the pair is taken it still has none. -/
theorem confirm_without_deposits {listOK : Int → DexState B → String → Prop} {n : DexNode B}
    (hn : DexReach sk listOK n) :
    (∀ msg s', n.state.handleMsgTransferOwnership sk n.ctx msg = .ok s' →
      ∃ tp, n.state.getTokenPair msg.product = some tp ∧ tp.owner = msg.fromAddress ∧
        s'.getTokenPair msg.product = some { tp with deposits := 0 } ∧
        s'.withdrawing msg.fromAddress = n.state.withdrawing msg.fromAddress + tp.deposits) ∧
    (∀ msg s', n.state.handleMsgConfirmOwnership n.ctx msg = .ok s' →
      ∃ tp, n.state.getTokenPair msg.product = some tp ∧ tp.deposits = 0 ∧
        s'.getTokenPair msg.product = some { tp with owner := msg.address }) := by
  obtain ⟨-, hnonneg, hbacked⟩ := (keeps_backed sk listOK).reach hn
  obtain ⟨-, hzero⟩ := (keeps_noDeposits sk listOK).reach hn
  constructor
  · intro msg s' h
    obtain ⟨tp, s₁, s₂, hget, howner, hall, hfee, rfl⟩ :=
      DexState.handleMsgTransferOwnership_cases h
    obtain ⟨bank, -, rfl⟩ := Option.map_eq_some_iff.mp hfee
    have hname := DexState.name_of_get hget
    have htp : n.state.getTokenPair tp.name = some tp := hname ▸ hget
    refine ⟨tp, hget, howner, ?_, ?_⟩
    · rw [← hname]
      have heffects : Effects sk (fun _ _ _ => True) n.ctx.time n.state _ s₁ ∧ _ ∧ _ :=
        DexState.withdrawAll_effects htp (hnonneg _ _ hget) hall
      exact heffects.2.1
    · rw [← howner]
      have hmoved := hbacked.withdrawing_withdrawAll hnonneg htp hall
      exact hmoved
  · intro msg s' h
    obtain ⟨c, tp, hc, hget, hexpire, -, rfl⟩ := DexState.handleMsgConfirmOwnership_cases h
    have hact := DexState.isTransferring_iff.mpr ⟨c, hc, hexpire⟩
    refine ⟨tp, hget, hzero msg.product tp hact hget, ?_⟩
    rw [← DexState.name_of_get hget]
    exact (DexState.get_updateTokenPair _ _).trans (if_pos rfl)

/-- Alice lists a pair, deposits 10 and offers the pair to Carol. -/
def depositAndOffer : List (DexAction (KVStore Address Coins)) :=
  [.list ⟨"alice", "abc", "okt", 1⟩, .deposit ⟨"abc_okt", ⟨bondDenom, 10⟩, "alice"⟩,
    .transferOwnership ⟨"alice", "carol", "abc_okt"⟩]

theorem confirm_without_deposits_carol :
    (dexStart.run simpleSupply depositAndOffer).state.withdrawing "alice" = 10 ∧
    ∃ s', (dexStart.run simpleSupply depositAndOffer).state.handleMsgConfirmOwnership
        (dexStart.run simpleSupply depositAndOffer).ctx ⟨"abc_okt", "carol"⟩ = .ok s' ∧
      ∃ tp, (dexStart.run simpleSupply depositAndOffer).state.getTokenPair "abc_okt" = some tp ∧
        tp.deposits = 0 ∧ s'.getTokenPair "abc_okt" = some { tp with owner := "carol" } := by
  have halice : simpleSupply.IsUser "alice" := isUser_simpleSupply (by decide)
  have hn : DexReach simpleSupply (fun _ _ _ => True) (dexStart.run simpleSupply depositAndOffer) :=
    .run (reach_dexStart _) ⟨⟨by decide, halice, trivial⟩, ⟨by decide, halice⟩,
      ⟨by decide, halice⟩, trivial⟩
  have hok : ((dexStart.run simpleSupply depositAndOffer).state.handleMsgConfirmOwnership
      (dexStart.run simpleSupply depositAndOffer).ctx ⟨"abc_okt", "carol"⟩).isOk = true := by
    decide +kernel
  refine ⟨by decide +kernel, ?_⟩
  cases h : (dexStart.run simpleSupply depositAndOffer).state.handleMsgConfirmOwnership
      (dexStart.run simpleSupply depositAndOffer).ctx ⟨"abc_okt", "carol"⟩ with
  | error err =>
    rw [h] at hok
    cases hok
  | ok s' => exact ⟨s', rfl, (confirm_without_deposits hn).2 ⟨"abc_okt", "carol"⟩ s' h⟩

end Okexchain
