import Okexchain.Dex.Run

/-!
# Deposits and withdrawals

What the dex module holds is what it owes: the deposits of the pairs and the withdrawals that wait
for their time. Withdrawals of one account are merged into one entry of `withdrawInfos`, whose place
in the queue `withdrawTimes` moves with every merge; `EndBlocker` walks the queue up to the time of
the block.

* `Backed` is the invariant: the balance of the module, the shape of the two stores, and for each
  account that what it has withdrawn is what it was paid and what is waiting.
* `completeNext_backed` is one turn of the loop of `EndBlocker`, `completeAll` the loop. The loop
  deletes from the stores it ranges over; the keys are distinct and no account has two of them, so
  a turn leaves the entries of the later ones alone.

**Results.** `deposits_backed`: in every run the module's balance is what it owes, an account has
one queue entry when it has a withdrawal and none otherwise, and the end of a block pays the
withdrawals that are due, once, and nothing else.
-/

namespace Okexchain

variable {B : Type} {sk : SupplyKeeper B}

/-! ## What the module owes -/

namespace DexState

/-- The deposits of all pairs. -/
def totalDeposits (s : DexState B) : Int :=
  s.dex.tokenPairs.pairs.sumBy fun _ tp => tp.deposits

/-- The withdrawals of all accounts. -/
def totalWithdrawing (s : DexState B) : Int :=
  s.withdrawInfos.sumBy fun _ info => info.deposits

/-- The withdrawal of one account. -/
def withdrawing (s : DexState B) (addr : Address) : Int :=
  s.withdrawInfos.valAt (fun _ info => info.deposits) addr

end DexState

/-- The part of an event that adds to the withdrawals of an account. -/
def DexEvent.withdrawnBy (addr : Address) : DexEvent → Int
  | .withdrawn owner amount => if owner = addr then amount else 0
  | _ => 0

/-- The part of an event that pays a withdrawal of an account. -/
def DexEvent.paidTo (addr : Address) : DexEvent → Int
  | .paid owner amount => if owner = addr then amount else 0
  | _ => 0

/-- The sum of a quantity over a history. -/
def historyTotal (f : DexEvent → Int) (history : List DexEvent) : Int := (history.map f).sum

theorem historyTotal_append (f : DexEvent → Int) (history evs : List DexEvent) :
    historyTotal f (history ++ evs) = historyTotal f history + historyTotal f evs := by
  unfold historyTotal
  rw [List.map_append, List.sum_append]

/-- The two stores of withdrawals agree. -/
structure WithdrawQueue (sk : SupplyKeeper B) (s : DexState B) : Prop where
  infos : ∀ addr info, s.withdrawInfos.get addr = some info →
    info.owner = addr ∧ sk.IsUser addr ∧ 0 < info.deposits
  times : ∀ time addr, (s.withdrawTimes.get (toLex (time, addr))).isSome ↔
    ∃ info, s.withdrawInfos.get addr = some info ∧ info.completeTime = time

/-- The module holds what it owes. -/
structure Backed (sk : SupplyKeeper B) (history : List DexEvent) (s : DexState B) : Prop where
  module : sk.moduleCoins s.bank dexModuleName =
    coin bondDenom (s.totalDeposits + s.totalWithdrawing)
  owners : ∀ product tp, s.getTokenPair product = some tp → sk.IsUser tp.owner
  queue : WithdrawQueue sk s
  account : ∀ addr, historyTotal (DexEvent.withdrawnBy addr) history =
    historyTotal (DexEvent.paidTo addr) history + s.withdrawing addr

/-! ## A withdrawal -/

section Withdrawal

variable {now : Int} {s : DexState B} {target : Address} {amount : Int}

/-- The entry of an account after a withdrawal. -/
theorem WithdrawQueue.mergedWithdraw (h : WithdrawQueue sk s) (completeTime : Int) :
    s.mergedWithdraw target amount completeTime =
      ⟨target, s.withdrawing target + amount, completeTime⟩ := by
  unfold DexState.mergedWithdraw DexState.withdrawing
  cases hget : s.withdrawInfos.get target with
  | none => rw [KVStore.valAt_of_none _ hget, zero_add]
  | some info =>
    rw [KVStore.valAt_of_get _ hget, ← (h.infos target info hget).1]

theorem WithdrawQueue.withdrawInfos_queueWithdraw (h : WithdrawQueue sk s) :
    (s.queueWithdraw now target amount).withdrawInfos = s.withdrawInfos.set target
      ⟨target, s.withdrawing target + amount, now + s.params.withdrawPeriod⟩ := by
  show s.withdrawInfos.set (s.mergedWithdraw target amount _).owner _ = _
  rw [h.mergedWithdraw]

/-- The waiting entry of an account is its only one, so without it the account has none. -/
theorem WithdrawQueue.get_dequeued (h : WithdrawQueue sk s) (time : Int) (addr : Address) :
    ((s.dequeued target).get (toLex (time, addr))).isSome ↔
      addr ≠ target ∧ ∃ info, s.withdrawInfos.get addr = some info ∧ info.completeTime = time := by
  unfold DexState.dequeued
  cases hget : s.withdrawInfos.get target with
  | none =>
    show (s.withdrawTimes.get _).isSome ↔ _
    rw [h.times]
    refine ⟨?_, fun hr => hr.2⟩
    rintro ⟨info, hinfo, htime⟩
    refine ⟨fun he => ?_, info, hinfo, htime⟩
    rw [he, hget] at hinfo
    cases hinfo
  | some info =>
    show ((s.withdrawTimes.delete _).get _).isSome ↔ _
    rw [KVStore.get_delete]
    by_cases hk : toLex (time, addr) = toLex (info.completeTime, target)
    · obtain ⟨-, rfl⟩ := Prod.mk.inj (toLex.injective hk)
      rw [if_pos hk]
      simp
    · rw [if_neg hk, h.times]
      refine ⟨?_, fun hr => hr.2⟩
      rintro ⟨info', hinfo', htime⟩
      refine ⟨fun he => hk ?_, info', hinfo', htime⟩
      subst he
      rw [hget] at hinfo'
      cases hinfo'
      rw [htime]

theorem WithdrawQueue.queueWithdraw (h : WithdrawQueue sk s) (huser : sk.IsUser target)
    (hpos : 0 < amount) : WithdrawQueue sk (s.queueWithdraw now target amount) where
  infos addr info hinfo := by
    rw [h.withdrawInfos_queueWithdraw, KVStore.get_set] at hinfo
    split_ifs at hinfo with ha
    · cases hinfo
      have hold : 0 ≤ s.withdrawing target := by
        unfold DexState.withdrawing
        cases hget : s.withdrawInfos.get target with
        | none => rw [KVStore.valAt_of_none _ hget]
        | some info =>
          rw [KVStore.valAt_of_get _ hget]
          exact (h.infos target info hget).2.2.le
      exact ⟨ha.symm, ha ▸ huser, by show 0 < s.withdrawing target + amount; omega⟩
    · exact h.infos addr info hinfo
  times time addr := by
    rw [h.withdrawInfos_queueWithdraw]
    show (((s.dequeued target).set (toLex (now + s.params.withdrawPeriod, target)) ()).get _).isSome
      ↔ _
    rw [KVStore.get_set, KVStore.get_set]
    by_cases ha : addr = target
    · subst ha
      rw [if_pos rfl]
      by_cases ht : time = now + s.params.withdrawPeriod
      · subst ht
        rw [if_pos rfl]
        simp
      · have hne : toLex (time, addr) ≠ toLex (now + s.params.withdrawPeriod, addr) := fun he =>
          ht (Prod.mk.inj (toLex.injective he)).1
        rw [if_neg hne, h.get_dequeued]
        simp [Ne.symm ht]
    · have hne : toLex (time, addr) ≠ toLex (now + s.params.withdrawPeriod, target) := fun he =>
        ha (Prod.mk.inj (toLex.injective he)).2
      rw [if_neg ha, if_neg hne, h.get_dequeued]
      exact and_iff_right ha

theorem WithdrawQueue.totalWithdrawing_queueWithdraw (h : WithdrawQueue sk s) :
    (s.queueWithdraw now target amount).totalWithdrawing = s.totalWithdrawing + amount := by
  unfold DexState.totalWithdrawing
  rw [h.withdrawInfos_queueWithdraw, KVStore.sumBy_set]
  show _ - s.withdrawing target + (s.withdrawing target + amount) = _
  ring

theorem WithdrawQueue.withdrawing_queueWithdraw (h : WithdrawQueue sk s) (addr : Address) :
    (s.queueWithdraw now target amount).withdrawing addr =
      s.withdrawing addr + if target = addr then amount else 0 := by
  unfold DexState.withdrawing KVStore.valAt
  rw [h.withdrawInfos_queueWithdraw, KVStore.get_set]
  by_cases ha : addr = target
  · subst ha
    rw [if_pos rfl, if_pos rfl]
    rfl
  · rw [if_neg ha, if_neg (Ne.symm ha), add_zero]

end Withdrawal

/-! ## The handlers -/

section Handlers

variable {s s' : DexState B}

theorem totalDeposits_update {tp : TokenPair} (tp' : TokenPair)
    (hget : s.getTokenPair tp'.name = some tp) :
    (s.updateTokenPair tp').totalDeposits = s.totalDeposits - tp.deposits + tp'.deposits :=
  KVStore.sumBy_set_old _ hget

theorem totalDeposits_save {tp : TokenPair} (hget : s.getTokenPair tp.name = none) :
    (s.saveTokenPair tp).totalDeposits = s.totalDeposits + tp.deposits :=
  KVStore.sumBy_set_new _ hget

theorem totalDeposits_delete {tp : TokenPair} {owner : Address}
    (hget : s.getTokenPair tp.name = some tp) :
    (s.deleteTokenPairByName owner tp.name).totalDeposits = s.totalDeposits - tp.deposits := by
  show (s.dex.tokenPairs.pairs.delete tp.name).sumBy _ = _
  rw [KVStore.sumBy_delete, KVStore.valAt_of_get _ hget]
  rfl

/-- Writing a pair whose owner is a user keeps all owners users. -/
theorem owners_update (tp : TokenPair)
    (h : ∀ product tp, s.getTokenPair product = some tp → sk.IsUser tp.owner)
    (huser : sk.IsUser tp.owner)
    (hget : ∀ product, s'.getTokenPair product =
      if product = tp.name then some tp else s.getTokenPair product) :
    ∀ product tp, s'.getTokenPair product = some tp → sk.IsUser tp.owner := by
  intro product tp' h'
  rw [hget] at h'
  split_ifs at h'
  · cases h'
    exact huser
  · exact h product tp' h'

/-- An effect that neither withdraws nor pays, and leaves the withdrawals alone. -/
theorem Backed.frame {history evs : List DexEvent} (h : Backed sk history s)
    (hmodule : sk.moduleCoins s'.bank dexModuleName =
      sk.moduleCoins s.bank dexModuleName + coin bondDenom (s'.totalDeposits - s.totalDeposits))
    (howners : ∀ product tp, s'.getTokenPair product = some tp → sk.IsUser tp.owner)
    (hinfos : s'.withdrawInfos = s.withdrawInfos) (htimes : s'.withdrawTimes = s.withdrawTimes)
    (hevs : ∀ addr, historyTotal (DexEvent.withdrawnBy addr) evs = 0 ∧
      historyTotal (DexEvent.paidTo addr) evs = 0) :
    Backed sk (history ++ evs) s' where
  module := by
    rw [hmodule, h.module, ← coin_add]
    unfold DexState.totalWithdrawing
    rw [hinfos]
    congr 1
    ring
  owners := howners
  queue := ⟨hinfos ▸ h.queue.infos, hinfos ▸ htimes ▸ h.queue.times⟩
  account addr := by
    obtain ⟨hw, hp⟩ := hevs addr
    rw [historyTotal_append, historyTotal_append, hw, hp, add_zero, add_zero, h.account]
    unfold DexState.withdrawing
    rw [hinfos]

theorem Backed.effect {listOK : Int → DexState B → String → Prop} {now : Int}
    {history evs : List DexEvent} (h : Backed sk history s)
    (he : Effect sk listOK now s evs s') : Backed sk (history ++ evs) s' := by
  have hquiet : ∀ e : DexEvent, (∀ addr, e.withdrawnBy addr = 0 ∧ e.paidTo addr = 0) →
      ∀ addr, historyTotal (DexEvent.withdrawnBy addr) [e] = 0 ∧
        historyTotal (DexEvent.paidTo addr) [e] = 0 := by
    intro e hz addr
    simp [historyTotal, hz addr]
  cases he with
  | host bank operators productLocks params hbank =>
    refine h.frame ?_ h.owners rfl rfl fun _ => ⟨rfl, rfl⟩
    show sk.moduleCoins bank dexModuleName = _ + coin bondDenom (s.totalDeposits - s.totalDeposits)
    rw [hbank, sub_self, coin_zero, add_zero]
  | list tp hnew hzero huser hok =>
    refine h.frame ?_ (owners_update tp h.owners huser (s.get_saveTokenPair tp)) rfl rfl
      (hquiet _ fun _ => ⟨rfl, rfl⟩)
    rw [totalDeposits_save hnew, hzero, add_zero, sub_self, coin_zero, add_zero]
    rfl
  | deposit tp amount bank hget hpos hidle hbank =>
    let tp' : TokenPair := { tp with deposits := tp.deposits + amount }
    have huser : sk.IsUser tp'.owner := h.owners tp.name tp hget
    refine h.frame ?_ (owners_update tp' h.owners huser (DexState.get_updateTokenPair tp')) rfl rfl
      fun _ => ⟨rfl, rfl⟩
    show sk.moduleCoins bank dexModuleName =
      _ + coin bondDenom ((s.updateTokenPair tp').totalDeposits - s.totalDeposits)
    rw [hbank, totalDeposits_update tp' hget]
    congr 2
    show amount = s.totalDeposits - tp.deposits + (tp.deposits + amount) - s.totalDeposits
    ring
  | withdraw tp amount hget hpos hle =>
    let tp' : TokenPair := { tp with deposits := tp.deposits - amount }
    have huser : sk.IsUser tp'.owner := h.owners tp.name tp hget
    have hqueue : WithdrawQueue sk (s.queueWithdraw now tp.owner amount) :=
      h.queue.queueWithdraw huser hpos
    refine ⟨?_, owners_update tp' h.owners huser (DexState.get_updateTokenPair tp'),
      ⟨hqueue.infos, hqueue.times⟩, fun addr => ?_⟩
    · -- what leaves the deposits of the pair is what joins the withdrawals
      show sk.moduleCoins s.bank dexModuleName = coin bondDenom
        ((s.updateTokenPair tp').totalDeposits +
          (s.queueWithdraw now tp.owner amount).totalWithdrawing)
      rw [h.module, totalDeposits_update tp' hget, h.queue.totalWithdrawing_queueWithdraw]
      congr 1
      show s.totalDeposits + s.totalWithdrawing =
        s.totalDeposits - tp.deposits + (tp.deposits - amount) + (s.totalWithdrawing + amount)
      ring
    · have hw : historyTotal (DexEvent.withdrawnBy addr) [.withdrawn tp.owner amount] =
          if tp.owner = addr then amount else 0 := List.sum_singleton
      have hp : historyTotal (DexEvent.paidTo addr) [.withdrawn tp.owner amount] = 0 := rfl
      rw [historyTotal_append, historyTotal_append, hw, hp, add_zero, h.account]
      show _ = _ + (s.queueWithdraw now tp.owner amount).withdrawing addr
      rw [h.queue.withdrawing_queueWithdraw, add_assoc]
  | delist tp hget hzero =>
    refine h.frame ?_ (fun product tp' h' => ?_) rfl rfl (hquiet _ fun _ => ⟨rfl, rfl⟩)
    · rw [totalDeposits_delete hget, hzero, sub_zero, sub_self, coin_zero, add_zero]
      rfl
    · rw [DexState.get_deleteTokenPairByName] at h'
      split_ifs at h'
      exact h.owners product tp' h'
  | transfer tp target hget hzero =>
    refine h.frame ?_ h.owners rfl rfl (hquiet _ fun _ => ⟨rfl, rfl⟩)
    show sk.moduleCoins s.bank dexModuleName =
      _ + coin bondDenom (s.totalDeposits - s.totalDeposits)
    rw [sub_self, coin_zero, add_zero]
  | confirm tp c hget hc htime huser =>
    let tp' : TokenPair := { tp with owner := c.toAddress }
    refine h.frame ?_ (owners_update tp' h.owners huser (s.get_updateTokenPair tp')) rfl rfl
      (hquiet _ fun _ => ⟨rfl, rfl⟩)
    show sk.moduleCoins s.bank dexModuleName =
      _ + coin bondDenom ((s.updateTokenPair tp').totalDeposits - s.totalDeposits)
    have hdep : (s.updateTokenPair tp').totalDeposits = s.totalDeposits :=
      (totalDeposits_update tp' hget).trans (sub_add_cancel _ _)
    rw [hdep, sub_self, coin_zero, add_zero]

theorem Backed.effects {listOK : Int → DexState B → String → Prop} {now : Int}
    {history evs : List DexEvent} (h : Backed sk history s)
    (he : Effects sk listOK now s evs s') : Backed sk (history ++ evs) s' := by
  induction he with
  | refl => rwa [List.append_nil]
  | tail _ he ih =>
    rw [← List.append_assoc]
    exact ih.effect he

/-- Transferring a pair withdraws its deposits for the owner. -/
theorem Backed.withdrawing_withdrawAll {now : Int} {history : List DexEvent} {tp : TokenPair}
    (h : Backed sk history s) (hnonneg : s.NonNegDeposits)
    (hget : s.getTokenPair tp.name = some tp) (hall : s.withdrawAll now tp tp.owner = .ok s') :
    s'.withdrawing tp.owner = s.withdrawing tp.owner + tp.deposits := by
  have hdep := hnonneg tp.name tp hget
  have heffects : Effects sk (fun _ _ _ => True) now s (withdrawAllEvents tp tp.owner) s' :=
    (DexState.withdrawAll_effects hget hdep hall).1
  have hbefore := h.account tp.owner
  have hafter := (h.effects heffects).account tp.owner
  have hw : historyTotal (DexEvent.withdrawnBy tp.owner) (withdrawAllEvents tp tp.owner) =
      tp.deposits := by
    unfold withdrawAllEvents
    split_ifs with hpos
    · exact List.sum_singleton.trans (if_pos rfl)
    · exact (by omega : (0 : Int) = tp.deposits)
  have hp : historyTotal (DexEvent.paidTo tp.owner) (withdrawAllEvents tp tp.owner) = 0 := by
    unfold withdrawAllEvents
    split_ifs <;> rfl
  rw [historyTotal_append, historyTotal_append, hw, hp, add_zero] at hafter
  omega

end Handlers

/-! ## The end of a block -/

/-- The event of a paid withdrawal. -/
def WithdrawInfo.paidEvent (info : WithdrawInfo) : DexEvent := .paid info.owner info.deposits

/-- The state after a withdrawal has been paid. -/
def DexState.paidOut (s : DexState B) (bank : B) (info : WithdrawInfo) : DexState B :=
  { s with
    bank := bank
    withdrawInfos := s.withdrawInfos.delete info.owner
    withdrawTimes := s.withdrawTimes.delete (toLex (info.completeTime, info.owner)) }

section EndBlock

variable {history : List DexEvent} {s : DexState B} {info : WithdrawInfo}

theorem DexState.withdrawing_paidOut {bank : B} (hget : s.withdrawInfos.get info.owner = some info)
    (addr : Address) : (s.paidOut bank info).withdrawing addr =
      s.withdrawing addr - if info.owner = addr then info.deposits else 0 := by
  show (s.withdrawInfos.delete info.owner).valAt _ addr = s.withdrawInfos.valAt _ addr - _
  by_cases ha : info.owner = addr
  · subst ha
    rw [if_pos rfl, KVStore.valAt_of_get _ hget, sub_self]
    exact KVStore.valAt_of_none _ KVStore.get_delete_self
  · rw [if_neg ha, sub_zero]
    unfold KVStore.valAt
    rw [KVStore.get_delete_ne (Ne.symm ha)]

/-- Paying a withdrawal takes it from what is owed. -/
theorem Backed.paidOut {bank : B} (h : Backed sk history s)
    (hget : s.withdrawInfos.get info.owner = some info)
    (hsend : sk.sendCoinsFromModuleToAccount s.bank dexModuleName info.owner
      (coin bondDenom info.deposits) = some bank) :
    Backed sk (history ++ [info.paidEvent]) (s.paidOut bank info) where
  module := by
    have huser := (h.queue.infos info.owner info hget).2.1
    have htotal : (s.paidOut bank info).totalWithdrawing = s.totalWithdrawing - info.deposits := by
      show (s.withdrawInfos.delete info.owner).sumBy _ = _
      rw [KVStore.sumBy_delete, KVStore.valAt_of_get _ hget]
      rfl
    show sk.getCoins bank (sk.moduleAddress dexModuleName) = coin bondDenom (s.totalDeposits + _)
    have hmodule := h.module
    unfold SupplyKeeper.moduleCoins at hmodule
    rw [SupplyKeeper.getCoins_source hsend (huser.module_ne _), hmodule, htotal, ← coin_sub]
    congr 1
    ring
  owners := h.owners
  queue := {
    infos := fun addr info' hinfo => by
      have hinfo : (s.withdrawInfos.delete info.owner).get addr = some info' := hinfo
      rw [KVStore.get_delete] at hinfo
      split_ifs at hinfo
      exact h.queue.infos addr info' hinfo
    times := fun time addr => by
      show ((s.withdrawTimes.delete _).get _).isSome ↔
        ∃ info', (s.withdrawInfos.delete info.owner).get addr = some info' ∧ _
      rw [KVStore.get_delete, KVStore.get_delete]
      by_cases ha : addr = info.owner
      · -- the only entry of the account is the one deleted
        rw [if_pos ha]
        have hnone : (if toLex (time, addr) = toLex (info.completeTime, info.owner) then none
            else s.withdrawTimes.get (toLex (time, addr))) = none := by
          split_ifs with hk
          · rfl
          · refine Option.not_isSome_iff_eq_none.mp fun hsome => hk ?_
            obtain ⟨info', hinfo', rfl⟩ := (h.queue.times time addr).mp hsome
            rw [ha, hget] at hinfo'
            cases hinfo'
            rw [ha]
        rw [hnone]
        simp
      · have hne : toLex (time, addr) ≠ toLex (info.completeTime, info.owner) := fun he =>
          ha (Prod.mk.inj (toLex.injective he)).2
        rw [if_neg ha, if_neg hne]
        exact h.queue.times time addr }
  account addr := by
    have hw : historyTotal (DexEvent.withdrawnBy addr) [info.paidEvent] = 0 := rfl
    have hp : historyTotal (DexEvent.paidTo addr) [info.paidEvent] =
        if info.owner = addr then info.deposits else 0 := List.sum_singleton
    rw [historyTotal_append, historyTotal_append, hw, hp, add_zero, h.account,
      DexState.withdrawing_paidOut hget]
    ring

/-- The module can pay every withdrawal. -/
theorem Backed.completeWithdraw {addr : Address} (h : Backed sk history s)
    (hnonneg : s.NonNegDeposits) (hget : s.withdrawInfos.get addr = some info) :
    ∃ bank, sk.sendCoinsFromModuleToAccount s.bank dexModuleName info.owner
        (coin bondDenom info.deposits) = some bank ∧
      s.completeWithdraw sk addr =
        .ok ({ s with bank := bank, withdrawInfos := s.withdrawInfos.delete addr }, info) := by
  obtain ⟨-, -, hpos⟩ := h.queue.infos addr info hget
  have hdeposits : 0 ≤ s.totalDeposits := KVStore.sumBy_nonneg _ fun product tp => hnonneg product tp
  have hone : info.deposits ≤ s.totalWithdrawing :=
    KVStore.le_sumBy _ (fun a i hi => (h.queue.infos a i hi).2.2.le) hget
  have hsome : (sk.sendCoinsFromModuleToAccount s.bank dexModuleName info.owner
      (coin bondDenom info.deposits)).isSome := by
    refine sk.sendCoins_isSome (coin_nonneg hpos.le bondDenom) fun d => ?_
    have hmodule := h.module
    unfold SupplyKeeper.moduleCoins at hmodule
    rw [hmodule, coin_apply, coin_apply]
    split_ifs <;> omega
  obtain ⟨bank, hbank⟩ := Option.isSome_iff_exists.mp hsome
  refine ⟨bank, hbank, ?_⟩
  unfold DexState.completeWithdraw
  rw [hget]
  simp only [hbank]

/-- **One turn of the loop** pays the withdrawal of its key. -/
theorem completeNext_backed {acc : DexState.Completed B} {time : Int} {addr : Address}
    (h : Backed sk history acc.state) (hnonneg : acc.state.NonNegDeposits)
    (hkey : (acc.state.withdrawTimes.get (toLex (time, addr))).isSome) :
    ∃ info bank, acc.state.withdrawInfos.get info.owner = some info ∧ info.owner = addr ∧
      sk.sendCoinsFromModuleToAccount acc.state.bank dexModuleName info.owner
        (coin bondDenom info.deposits) = some bank ∧
      DexState.completeNext sk acc (toLex (time, addr)) =
        ⟨acc.state.paidOut bank info, acc.paid ++ [info], acc.failed⟩ := by
  obtain ⟨info, hget, rfl⟩ := (h.queue.times time addr).mp hkey
  obtain ⟨rfl, -⟩ := h.queue.infos addr info hget
  obtain ⟨bank, hbank, hcomplete⟩ := h.completeWithdraw hnonneg hget
  refine ⟨info, bank, hget, rfl, hbank, ?_⟩
  unfold DexState.completeNext
  rw [ofLex_toLex]
  dsimp only
  rw [hcomplete]
  rfl

/-- What the loop has done when it started at `acc` and went over `keys`. -/
structure PaidAll (sk : SupplyKeeper B) (history : List DexEvent) (acc : DexState.Completed B)
    (keys : List (Int ×ₗ Address)) (r : DexState.Completed B) : Prop where
  backed : Backed sk (history ++ r.paid.map WithdrawInfo.paidEvent) r.state
  failed : r.failed = acc.failed
  infos : ∀ addr, r.state.withdrawInfos.get addr =
    if addr ∈ keys.map fun key => (ofLex key).2 then none else acc.state.withdrawInfos.get addr
  coins : ∀ addr, sk.IsUser addr → sk.getCoins r.state.bank addr =
    sk.getCoins acc.state.bank addr +
      coin bondDenom (acc.state.withdrawing addr - r.state.withdrawing addr)

/-- **The loop** pays the withdrawals of all its keys. -/
theorem completeAll {keys : List (Int ×ₗ Address)} {acc : DexState.Completed B}
    (hnodup : keys.Nodup)
    (h : Backed sk (history ++ acc.paid.map WithdrawInfo.paidEvent) acc.state)
    (hnonneg : acc.state.NonNegDeposits)
    (hkeys : ∀ key ∈ keys, (acc.state.withdrawTimes.get key).isSome) :
    PaidAll sk history acc keys (keys.foldl (DexState.completeNext sk) acc) := by
  -- The keys left keep their entries: a turn deletes its own key only.
  induction keys generalizing acc with
  | nil =>
    refine ⟨h, rfl, fun addr => rfl, fun addr _ => ?_⟩
    show _ = _ + coin bondDenom (acc.state.withdrawing addr - acc.state.withdrawing addr)
    rw [sub_self, coin_zero, add_zero]
    rfl
  | cons key keys ih =>
    obtain ⟨⟨time, addr⟩, rfl⟩ := toLex.surjective key
    obtain ⟨hnew, hdistinct⟩ := List.nodup_cons.mp hnodup
    obtain ⟨info, bank, hget, rfl, hsend, hnext⟩ :=
      completeNext_backed h hnonneg (hkeys _ List.mem_cons_self)
    rw [List.foldl_cons, hnext]
    have htime : time = info.completeTime := by
      obtain ⟨info', hget', htime⟩ :=
        (h.queue.times time info.owner).mp (hkeys _ List.mem_cons_self)
      rw [hget] at hget'
      cases hget'
      exact htime.symm
    subst htime
    have hbacked : Backed sk (history ++ (acc.paid ++ [info]).map WithdrawInfo.paidEvent)
        (acc.state.paidOut bank info) := by
      rw [List.map_append, ← List.append_assoc]
      exact h.paidOut hget hsend
    have hrest : ∀ key ∈ keys, ((acc.state.paidOut bank info).withdrawTimes.get key).isSome := by
      intro key hkey
      show ((acc.state.withdrawTimes.delete _).get key).isSome
      have hne : key ≠ toLex (info.completeTime, info.owner) := fun he => hnew (he ▸ hkey)
      rw [KVStore.get_delete_ne hne]
      exact hkeys key (List.mem_cons_of_mem _ hkey)
    have hall : PaidAll sk history ⟨acc.state.paidOut bank info, acc.paid ++ [info], acc.failed⟩
        keys _ := ih hdistinct hbacked hnonneg hrest
    refine ⟨hall.backed, hall.failed, fun addr => ?_, fun addr huser => ?_⟩
    · rw [hall.infos]
      show (if _ then none else (acc.state.withdrawInfos.delete info.owner).get addr) = _
      rw [KVStore.get_delete, List.map_cons]
      by_cases ha : addr = info.owner
      · subst ha
        rw [if_pos rfl, ite_self]
        exact (if_pos List.mem_cons_self).symm
      · rw [if_neg ha]
        refine if_congr ?_ rfl rfl
        rw [List.mem_cons]
        exact (or_iff_right ha).symm
    · rw [hall.coins addr huser]
      show sk.getCoins bank addr + coin bondDenom ((acc.state.paidOut bank info).withdrawing addr - _)
        = _
      rw [sk.getCoins_sendCoins hsend, if_neg (huser _), sub_zero,
        DexState.withdrawing_paidOut hget]
      by_cases ha : addr = info.owner
      · subst ha
        rw [if_pos rfl, if_pos rfl, add_assoc, ← coin_add]
        congr 2
        ring
      · rw [if_neg ha, if_neg (Ne.symm ha), add_zero, sub_zero]

end EndBlock

theorem mem_dueKeys {s : DexState B} {now : Int} {key : Int ×ₗ Address} :
    key ∈ s.dueKeys now ↔ (s.withdrawTimes.get key).isSome ∧ (ofLex key).1 ≤ now := by
  unfold DexState.dueKeys
  rw [List.mem_filter, KVStore.mem_keys, decide_eq_true_eq, Option.isSome_iff_exists]

theorem Backed.endBlocker {history : List DexEvent} {s : DexState B} (now : Int)
    (h : Backed sk history s) (hnonneg : s.NonNegDeposits) :
    PaidAll sk history ⟨s, [], []⟩ (s.dueKeys now) (s.endBlocker sk now) := by
  refine completeAll (s.withdrawTimes.nodup_keys.filter _) ?_ hnonneg
    fun key hkey => (mem_dueKeys.mp hkey).1
  rw [List.map_nil, List.append_nil]
  exact h

/-- The accounts that are paid are those whose withdrawal is due. -/
theorem Backed.infos_endBlocker {history : List DexEvent} {s : DexState B} (now : Int)
    (h : Backed sk history s) (hnonneg : s.NonNegDeposits) (addr : Address) :
    (s.endBlocker sk now).state.withdrawInfos.get addr =
      (s.withdrawInfos.get addr).filter fun info => decide (now < info.completeTime) := by
  rw [(h.endBlocker now hnonneg).infos]
  have hdue : addr ∈ (s.dueKeys now).map (fun key => (ofLex key).2) ↔
      ∃ info, s.withdrawInfos.get addr = some info ∧ info.completeTime ≤ now := by
    rw [List.mem_map]
    constructor
    · rintro ⟨key, hkey, rfl⟩
      obtain ⟨hsome, htime⟩ := mem_dueKeys.mp hkey
      obtain ⟨info, hinfo, hct⟩ := (h.queue.times (ofLex key).1 (ofLex key).2).mp hsome
      exact ⟨info, hinfo, hct ▸ htime⟩
    · rintro ⟨info, hinfo, htime⟩
      have hsome := (h.queue.times info.completeTime addr).mpr ⟨info, hinfo, rfl⟩
      exact ⟨_, mem_dueKeys.mpr ⟨hsome, htime⟩, rfl⟩
  cases hget : s.withdrawInfos.get addr with
  | none => exact ite_self none
  | some info =>
    by_cases htime : info.completeTime ≤ now
    · rw [if_pos (hdue.mpr ⟨info, hget, htime⟩), Option.filter_some, if_neg (by simpa using htime)]
    · have hnot : ¬ addr ∈ (s.dueKeys now).map (fun key => (ofLex key).2) := by
        rw [hdue]
        rintro ⟨info', hinfo', htime'⟩
        rw [hget] at hinfo'
        cases hinfo'
        exact htime htime'
      rw [if_neg hnot, Option.filter_some, if_pos (by simpa using htime)]

/-! ## Runs -/

theorem keeps_backed (sk : SupplyKeeper B) (listOK : Int → DexState B → String → Prop) :
    DexKeeps sk listOK fun _ history s => s.NonNegDeposits ∧ Backed sk history s where
  genesis ctx s h := by
    have hpairs : ∀ product, s.getTokenPair product = none := by
      intro product
      show s.dex.tokenPairs.pairs.get product = none
      rw [h.pairs]
      rfl
    refine ⟨fun product tp hget => ?_, ?_, fun product tp hget => ?_, ⟨fun addr info hget => ?_,
      fun time addr => ?_⟩, fun addr => ?_⟩
    · rw [hpairs] at hget
      cases hget
    · rw [h.module]
      unfold DexState.totalDeposits DexState.totalWithdrawing
      rw [h.pairs, h.withdrawInfos, KVStore.sumBy_empty, KVStore.sumBy_empty, add_zero, coin_zero]
    · rw [hpairs] at hget
      cases hget
    · rw [h.withdrawInfos] at hget
      cases hget
    · rw [h.withdrawTimes, h.withdrawInfos]
      simp
    · unfold DexState.withdrawing
      rw [h.withdrawInfos]
      rfl
  effect ctx history s evs s' he hnonneg h := ⟨hnonneg.effect he, h.2.effect he⟩
  endBlock n h := by
    refine ⟨fun product tp hget => h.1 product tp ?_, (h.2.endBlocker n.ctx.time h.1).backed⟩
    have hget : (n.state.endBlocker sk n.ctx.time).state.dex.getTokenPair product = some tp := hget
    rwa [DexState.endBlocker_frame.1] at hget
  nextBlock ctx history s time hle h := h

/-- **Deposits are backed and withdrawals are paid once.** In every run: the module holds the
deposits and the withdrawals; an account with a withdrawal has one entry in the queue, at its time;
what an account has withdrawn is what it was paid and what is waiting; every waiting withdrawal can
be paid; and the end of a block pays each account its withdrawal if that is due. -/
theorem deposits_backed {listOK : Int → DexState B → String → Prop} {n : DexNode B}
    (hn : DexReach sk listOK n) :
    sk.moduleCoins n.state.bank dexModuleName =
      coin bondDenom (n.state.totalDeposits + n.state.totalWithdrawing) ∧
    (∀ time addr, (n.state.withdrawTimes.get (toLex (time, addr))).isSome ↔
      ∃ info, n.state.withdrawInfos.get addr = some info ∧ info.completeTime = time) ∧
    (∀ addr, historyTotal (DexEvent.withdrawnBy addr) n.history =
      historyTotal (DexEvent.paidTo addr) n.history + n.state.withdrawing addr) ∧
    (∀ addr info, n.state.withdrawInfos.get addr = some info →
      (n.state.completeWithdraw sk addr).isOk) ∧
    let r := n.state.endBlocker sk n.ctx.time
    r.failed = [] ∧
    (∀ addr, r.state.withdrawInfos.get addr =
      (n.state.withdrawInfos.get addr).filter fun info => decide (n.ctx.time < info.completeTime)) ∧
    (∀ addr, sk.IsUser addr → sk.getCoins r.state.bank addr = sk.getCoins n.state.bank addr +
      coin bondDenom (n.state.withdrawing addr - r.state.withdrawing addr)) := by
  obtain ⟨-, hnonneg, hbacked⟩ := (keeps_backed sk listOK).reach hn
  have hpaid := hbacked.endBlocker n.ctx.time hnonneg
  refine ⟨hbacked.module, hbacked.queue.times, hbacked.account, fun addr info hget => ?_,
    hpaid.failed, hbacked.infos_endBlocker n.ctx.time hnonneg, hpaid.coins⟩
  obtain ⟨bank, -, hcomplete⟩ := hbacked.completeWithdraw hnonneg hget
  rw [hcomplete]
  rfl

/-- Alice deposits 10, withdraws 4 at time 0 and 1 at time 60, and the block of time 160 comes. -/
def withdrawTwice : List (DexAction (KVStore Address Coins)) :=
  [.list ⟨"alice", "abc", "okt", 1⟩, .deposit ⟨"abc_okt", ⟨bondDenom, 10⟩, "alice"⟩,
    .withdraw ⟨"abc_okt", ⟨bondDenom, 4⟩, "alice"⟩, .endBlock, .nextBlock 60,
    .withdraw ⟨"abc_okt", ⟨bondDenom, 1⟩, "alice"⟩, .endBlock, .nextBlock 160]

theorem deposits_backed_alice :
    (dexStart.run simpleSupply withdrawTwice).state.withdrawing "alice" = 5 ∧
    ((dexStart.run simpleSupply withdrawTwice).state.endBlocker simpleSupply 160).failed = [] ∧
    ((dexStart.run simpleSupply withdrawTwice).state.endBlocker simpleSupply
      160).state.withdrawInfos.get "alice" = none := by
  have halice : simpleSupply.IsUser "alice" := isUser_simpleSupply (by decide)
  have h60 : (dexStart.run simpleSupply (withdrawTwice.take 4)).ctx.time ≤ 60 := by decide +kernel
  have h160 : (dexStart.run simpleSupply (withdrawTwice.take 7)).ctx.time ≤ 160 := by
    decide +kernel
  have hn : DexReach simpleSupply (fun _ _ _ => True) (dexStart.run simpleSupply withdrawTwice) :=
    .run (reach_dexStart _) ⟨⟨by decide, halice, trivial⟩, ⟨by decide, halice⟩,
      ⟨by decide, halice⟩, trivial, h60, ⟨by decide, halice⟩, trivial, h160, trivial⟩
  have hinfo : (dexStart.run simpleSupply withdrawTwice).state.withdrawInfos.get "alice" =
      some ⟨"alice", 5, 160⟩ := by decide +kernel
  obtain ⟨-, -, -, -, hfailed, hinfos, -⟩ := deposits_backed hn
  refine ⟨?_, hfailed, (hinfos "alice").trans ?_⟩
  · exact KVStore.valAt_of_get _ hinfo
  · rw [hinfo]
    decide +kernel

end Okexchain
