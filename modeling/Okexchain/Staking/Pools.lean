import Okexchain.Staking.Run

/-!
# The pools are backed

The bonded pool is to hold the tokens of all delegators and the self delegations of all validators,
the not-bonded pool what is undelegated.

* A withdrawal adds to the undelegation that is there. `WithdrawMinSelfDelegation` does not look: it
  writes its own undelegation over the other, whose tokens stay in the pool and belong to nobody
  (`pools_unbacked`).
* When the operator has no undelegation at that time, every effect moves what it records.
* Another bond denomination than `okt` makes no difference: the transfer of
  `WithdrawMinSelfDelegation`, which is always in `okt`, then fails.

**Results.** `PoolsBacked.effect`: what every effect keeps of the pools and the queue of
undelegations, with what is lost. `PoolsOK.effect`: when nothing is lost, the pools stay backed.
`pools_backed`: in every run in which validators are destroyed only by operators without an
undelegation, the pools hold exactly what is recorded, and `ModuleAccountInvariantsCustom` is not
broken.
-/

namespace Okexchain

/-! ## What is recorded -/

namespace StakingBooks

/-- The tokens of all delegators. -/
def totalTokens (b : StakingBooks) : Int := b.delegators.store.sumBy fun _ d => d.tokens

/-- The self delegations of all validators. -/
def totalMinSelfDelegation (b : StakingBooks) : Int :=
  b.validators.store.sumBy fun _ v => v.minSelfDelegation

/-- What all undelegations are worth. -/
def totalQuantity (b : StakingBooks) : Int := b.undelegationInfos.store.sumBy fun _ u => u.quantity

variable {b b' : StakingBooks}

/-- Validators that follow a change of votes keep their self delegations. -/
theorem totalMinSelfDelegation_follows {δ : Address → Int}
    (h : ∀ a, FollowsAt (δ a) (b.getValidator a) (b'.getValidator a)) :
    b'.totalMinSelfDelegation = b.totalMinSelfDelegation := by
  refine KVStore.sumBy_congr_valAt _ fun a => ?_
  have hfollows := h a
  unfold KVStore.valAt
  show (b'.getValidator a).elim 0 _ = (b.getValidator a).elim 0 _
  cases hv : b.getValidator a with
  | none =>
    rw [hv] at hfollows
    rw [hfollows.1]
  | some v =>
    rw [hv] at hfollows
    cases hv' : b'.getValidator a with
    | none =>
      rw [hv'] at hfollows
      exact hfollows.1.symm
    | some v' =>
      rw [hv'] at hfollows
      exact hfollows.1

/-- One validator is new, or has changed. -/
theorem totalMinSelfDelegation_change {a : Address}
    (h : ∀ q, q ≠ a → b'.getValidator q = b.getValidator q) :
    b'.totalMinSelfDelegation = b.totalMinSelfDelegation -
      (b.getValidator a).elim 0 Validator.minSelfDelegation +
        (b'.getValidator a).elim 0 Validator.minSelfDelegation :=
  KVStore.sumBy_change _ h

theorem totalTokens_votes (h : SameVotes b b') : b'.totalTokens = b.totalTokens := by
  unfold totalTokens
  rw [h.delegators]

theorem totalQuantity_same (h : SameUndelegations b b') : b'.totalQuantity = b.totalQuantity := by
  unfold totalQuantity
  rw [h.infos]

theorem totalQuantity_addUndelegation (b : StakingBooks) (d : Address) (quantity t : Int) :
    (b.addUndelegation d quantity t).totalQuantity = b.totalQuantity + quantity := by
  have hother : ∀ e, e ≠ d → (b.addUndelegation d quantity t).getUndelegating e =
      b.getUndelegating e := fun e he => by
    rw [getUndelegating_addUndelegation, if_neg he]
  have hchange : (b.addUndelegation d quantity t).totalQuantity = b.totalQuantity -
      quantityOf (b.getUndelegating d) +
        quantityOf ((b.addUndelegation d quantity t).getUndelegating d) :=
    KVStore.sumBy_change _ hother
  rw [getUndelegating_addUndelegation, if_pos rfl] at hchange
  have hsum : quantityOf (some ⟨d, quantityOf (b.getUndelegating d) + quantity, t⟩) =
      quantityOf (b.getUndelegating d) + quantity := rfl
  omega

theorem totalQuantity_deleteUndelegating {d : Address} {info : UndelegationInfo}
    (hinfo : b.getUndelegating d = some info) :
    (b.deleteUndelegating d).totalQuantity = b.totalQuantity - info.quantity := by
  refine (KVStore.sumBy_delete _).trans ?_
  rw [KVStore.valAt_of_get _ hinfo]
  rfl

/-- A pool that holds what is undelegated, or more, can pay every undelegation. -/
theorem covers {denom : String} {pool : Coins} {lost : Int}
    (hpool : pool = coin denom (b.totalQuantity + lost)) (hlost : 0 ≤ lost)
    (hnonneg : ∀ a info, b.getUndelegating a = some info → 0 ≤ info.quantity) {a : Address}
    {info : UndelegationInfo} (hinfo : b.getUndelegating a = some info) (d : String) :
    coin denom info.quantity d ≤ pool d := by
  have hle : info.quantity ≤ b.totalQuantity :=
    KVStore.le_sumBy (f := fun _ u => UndelegationInfo.quantity u) hnonneg hinfo
  rw [hpool, coin_apply, coin_apply]
  split_ifs <;> omega

/-! ### The queue -/

/-- The queue holds the entry of every undelegation, and no other. -/
def QueueExact (b : StakingBooks) : Prop :=
  ∀ t a, (b.undelegateQueue.get (toLex (t, a))).isSome ↔
    ∃ info, b.getUndelegating a = some info ∧ info.completionTime = t

/-- An entry is set in a queue that has no other entry of its account. -/
theorem queue_set {m : KVStore (Int ×ₗ Address) Unit} {d : Address} {t : Int}
    (m' : KVStore (Int ×ₗ Address) Unit)
    (hown : ∀ u, u ≠ t → m'.get (toLex (u, d)) = none)
    (hother : ∀ u a, a ≠ d → m'.get (toLex (u, a)) = m.get (toLex (u, a))) (u : Int) (a : Address) :
    ((m'.set (toLex (t, d)) ()).get (toLex (u, a))).isSome ↔
      if a = d then u = t else (m.get (toLex (u, a))).isSome := by
  by_cases ha : a = d
  · rw [if_pos ha, ha]
    by_cases hu : u = t
    · rw [hu, KVStore.get_set_self]
      exact ⟨fun _ => rfl, fun _ => rfl⟩
    · rw [KVStore.get_set_ne fun hkey => hu (Prod.mk.inj (toLex.injective hkey)).1, hown u hu]
      exact ⟨nofun, fun he => absurd he hu⟩
  · rw [if_neg ha, KVStore.get_set_ne fun hkey => ha (Prod.mk.inj (toLex.injective hkey)).2,
      hother u a ha]

namespace QueueExact

theorem same (h : b.QueueExact) (hsame : SameUndelegations b b') : b'.QueueExact := by
  intro t a
  unfold getUndelegating
  rw [hsame.queue, hsame.infos]
  exact h t a

/-- An account has no other entry than that of its undelegation. -/
theorem no_entry (h : b.QueueExact) {d : Address} {t : Int}
    (hnot : ∀ info, b.getUndelegating d = some info → info.completionTime ≠ t) :
    b.undelegateQueue.get (toLex (t, d)) = none := by
  cases hentry : b.undelegateQueue.get (toLex (t, d)) with
  | none => rfl
  | some u =>
    obtain ⟨info, hinfo, ht⟩ := (h t d).mp (by rw [hentry]; rfl)
    exact absurd ht (hnot info hinfo)

/-- The entry of a withdrawal takes the place of the one that is there. -/
theorem get_addUndelegation (h : b.QueueExact) (d : Address) (quantity t : Int) (u : Int)
    (a : Address) :
    ((b.addUndelegation d quantity t).undelegateQueue.get (toLex (u, a))).isSome ↔
      if a = d then u = t else (b.undelegateQueue.get (toLex (u, a))).isSome := by
  unfold addUndelegation
  cases hinfo : b.getUndelegating d with
  | none =>
    refine queue_set b.undelegateQueue (fun u _ => h.no_entry fun i hi => ?_)
      (fun _ _ _ => rfl) u a
    rw [hinfo] at hi
    cases hi
  | some info =>
    refine queue_set (b.undelegateQueue.delete (toLex (info.completionTime, d)))
      (fun u _ => ?_) (fun u a ha => ?_) u a
    · rw [KVStore.get_delete]
      split_ifs with hkey
      · rfl
      · refine h.no_entry fun i hi ht => hkey ?_
        rw [hinfo] at hi
        cases hi
        rw [ht]
    · exact KVStore.get_delete_ne fun hkey => ha (Prod.mk.inj (toLex.injective hkey)).2

/-- One account has a new undelegation, and its entry only. -/
theorem change (h : b.QueueExact) {d : Address} {info : UndelegationInfo}
    (hinfos : ∀ a, b'.getUndelegating a = if a = d then some info else b.getUndelegating a)
    (hqueue : ∀ u a, (b'.undelegateQueue.get (toLex (u, a))).isSome ↔
      if a = d then u = info.completionTime else (b.undelegateQueue.get (toLex (u, a))).isSome) :
    b'.QueueExact := by
  intro u a
  rw [hqueue, hinfos]
  split_ifs with ha
  · exact ⟨fun hu => ⟨info, rfl, hu.symm⟩, fun ⟨i, hi, hu⟩ => by cases hi; exact hu.symm⟩
  · exact h u a

/-- An entry is paid, with its undelegation. -/
theorem pay (h : b.QueueExact) {d : Address} {info : UndelegationInfo}
    (hinfo : b.getUndelegating d = some info) :
    ((b.deleteAddrByTimeKey info.completionTime d).deleteUndelegating d).QueueExact := by
  intro u a
  have hinfos : ((b.deleteAddrByTimeKey info.completionTime d).deleteUndelegating
      d).getUndelegating a = if a = d then none else b.getUndelegating a := KeyedStore.get_delete
  have hqueue : ((b.deleteAddrByTimeKey info.completionTime d).deleteUndelegating
      d).undelegateQueue.get (toLex (u, a)) = if toLex (u, a) = toLex (info.completionTime, d)
        then none else b.undelegateQueue.get (toLex (u, a)) := KVStore.get_delete
  rw [hinfos, hqueue]
  by_cases ha : a = d
  · rw [if_pos ha]
    refine iff_of_false ?_ nofun
    split_ifs with hkey
    · exact nofun
    · rw [ha, h.no_entry fun i hi hu => hkey ?_]
      · exact nofun
      · cases hinfo.symm.trans hi
        rw [ha, hu]
  · rw [if_neg ha, if_neg fun hkey => ha (Prod.mk.inj (toLex.injective hkey)).2]
    exact h u a

end QueueExact

end StakingBooks

/-! ## Backed pools -/

/-- The pools hold exactly what is recorded, in the bond denomination. -/
structure PoolsOK (denom : String) (l : StakingLedger) : Prop where
  bonded : l.bonded = coin denom (l.books.totalTokens + l.books.totalMinSelfDelegation)
  notBonded : l.notBonded = coin denom l.books.totalQuantity

/-- A validator is destroyed by an operator without an undelegation. -/
def NoUndelegation (b : StakingBooks) (a : Address) : Prop := b.getUndelegating a = none

section Effects

variable {user : Address → Prop} {destroyOK : StakingBooks → Address → Prop}
  {params : StakingParams} {time : Int} {l l' : StakingLedger} {evs : List StakingEvent}

/-- A pool of one denomination has no `okt` to give unless that is the denomination. -/
theorem denom_of_covered {denom : String} {pool : Coins} {total amount : Int}
    (hpool : pool = coin denom total) (hpos : 0 < amount) (hcovered : amount ≤ pool bondDenom) :
    denom = bondDenom := by
  rw [hpool, coin_apply] at hcovered
  split_ifs at hcovered with hdenom
  · exact hdenom
  · omega

/-- **Every effect keeps the bonded pool backed**, whoever destroys a validator. -/
theorem StakingEffect.bonded
    (h : l.bonded = coin params.bondDenom (l.books.totalTokens + l.books.totalMinSelfDelegation))
    (hshares : SharesOK l.books) (he : StakingEffect user destroyOK params time l evs l') :
    l'.bonded = coin params.bondDenom
      (l'.books.totalTokens + l'.books.totalMinSelfDelegation) := by
  cases he with
  | retally d o o' hrev htokens hsame =>
    have hsum : l'.books.totalTokens = l.books.totalTokens - tokensOf o + tokensOf o' :=
      hrev.sumBy Delegator.tokens
    rw [hsame.bonded, h, StakingBooks.totalMinSelfDelegation_follows hrev.validators, hsum, htokens,
      sub_add_cancel]
  | validators hfollows hvotes hindex hsame =>
    rw [hsame.bonded, h, StakingBooks.totalTokens_votes hvotes,
      StakingBooks.totalMinSelfDelegation_follows hfollows]
  | deposit d o r quantity hrev hpos htokens hund hbonded hnotBonded =>
    have hsum : l'.books.totalTokens = l.books.totalTokens - tokensOf o + tokensOf (some r) :=
      hrev.sumBy Delegator.tokens
    have hr : tokensOf (some r) = tokensOf o + quantity := htokens
    rw [hbonded, h, ← coin_add, StakingBooks.totalMinSelfDelegation_follows hrev.validators, hsum,
      hr]
    congr 1
    omega
  | withdraw d o o' quantity huser hrev hpos htokens hund hbonded hnotBonded =>
    have hsum : l'.books.totalTokens = l.books.totalTokens - tokensOf o + tokensOf o' :=
      hrev.sumBy Delegator.tokens
    rw [hbonded, h, ← coin_sub, StakingBooks.totalMinSelfDelegation_follows hrev.validators, hsum,
      htokens]
    congr 1
    omega
  | create a v hnew hvalidators hv hmsd hvotes hindex hund hbonded hnotBonded =>
    have helsewhere : ∀ q, q ≠ a → l'.books.getValidator q = l.books.getValidator q :=
      fun q hq => by rw [hvalidators, if_neg hq]
    have hsum : l'.books.totalMinSelfDelegation =
        l.books.totalMinSelfDelegation - 0 + v.minSelfDelegation := by
      rw [StakingBooks.totalMinSelfDelegation_change helsewhere, hnew, hvalidators, if_pos rfl]
      rfl
    rw [hbonded, h, ← coin_add, StakingBooks.totalTokens_votes hvotes, hsum]
    congr 1
    omega
  | destroy a v huser hok hget hmsd helsewhere hhere hvotes hindex hund hcovered hbonded
      hnotBonded =>
    have hpos : 0 < v.minSelfDelegation :=
      lt_of_le_of_ne (hshares.msd a v hget).1 (Ne.symm hmsd)
    have hdenom := denom_of_covered h hpos hcovered
    have hleft : (l'.books.getValidator a).elim 0 Validator.minSelfDelegation = 0 := by
      cases hv' : l'.books.getValidator a with
      | none => rfl
      | some v' =>
        rw [hv'] at hhere
        exact hhere.1
    have hsum : l'.books.totalMinSelfDelegation =
        l.books.totalMinSelfDelegation - v.minSelfDelegation + 0 := by
      rw [StakingBooks.totalMinSelfDelegation_change helsewhere, hget, hleft]
      rfl
    rw [hbonded, h, hdenom, ← coin_sub, StakingBooks.totalTokens_votes hvotes, hsum]
    congr 1
    omega
  | pay key info hentry htime hinfo hbooks hbonded hnotBonded =>
    rw [hbonded, h, hbooks]
    rfl
  | lapse key htime hnothing hbooks hbonded hnotBonded =>
    rw [hbonded, h, hbooks]
    rfl

/-- The pool can pay every undelegation. -/
def Payable (denom : String) (l : StakingLedger) : Prop :=
  ∀ a info, l.books.getUndelegating a = some info →
    0 ≤ info.quantity ∧ ∀ d, coin denom info.quantity d ≤ l.notBonded d

/-- **The not-bonded pool** holds what is undelegated and what was `lost`. More is lost when an
operator's undelegation is written over; otherwise the queue stays exact. -/
theorem StakingEffect.notBonded {lost : Int}
    (hbond : l.bonded =
      coin params.bondDenom (l.books.totalTokens + l.books.totalMinSelfDelegation))
    (h : l.notBonded = coin params.bondDenom (l.books.totalQuantity + lost))
    (hshares : SharesOK l.books) (he : StakingEffect user destroyOK params time l evs l') :
    (l'.notBonded = coin params.bondDenom (l'.books.totalQuantity + lost) ∧
      (Payable params.bondDenom l → l.books.QueueExact → l'.books.QueueExact)) ∨
      ∃ a info, destroyOK l.books a ∧ l.books.getUndelegating a = some info ∧
        l'.notBonded = coin params.bondDenom (l'.books.totalQuantity + (lost + info.quantity)) := by
  cases he with
  | retally d o o' hrev htokens hsame =>
    refine .inl ⟨?_, fun _ hq => hq.same hsame.undelegations⟩
    rw [hsame.notBonded, h, StakingBooks.totalQuantity_same hsame.undelegations]
  | validators hfollows hvotes hindex hsame =>
    refine .inl ⟨?_, fun _ hq => hq.same hsame.undelegations⟩
    rw [hsame.notBonded, h, StakingBooks.totalQuantity_same hsame.undelegations]
  | deposit d o r quantity hrev hpos htokens hund hbonded hnotBonded =>
    refine .inl ⟨?_, fun _ hq => hq.same hund⟩
    rw [hnotBonded, h, StakingBooks.totalQuantity_same hund]
  | withdraw d o o' quantity huser hrev hpos htokens hund hbonded hnotBonded =>
    refine .inl ⟨?_, fun _ hq => StakingBooks.QueueExact.same (hq.change (fun a =>
      l.books.getUndelegating_addUndelegation d a quantity _) fun u a =>
        hq.get_addUndelegation d quantity _ u a) hund⟩
    rw [hnotBonded, h, ← coin_add, StakingBooks.totalQuantity_same hund,
      StakingBooks.totalQuantity_addUndelegation, add_right_comm]
  | create a v hnew hvalidators hv hmsd hvotes hindex hund hbonded hnotBonded =>
    refine .inl ⟨?_, fun _ hq => hq.same hund⟩
    rw [hnotBonded, h, StakingBooks.totalQuantity_same hund]
  | destroy a v huser hok hget hmsd helsewhere hhere hvotes hindex hund hcovered hbonded
      hnotBonded =>
    have hpos : 0 < v.minSelfDelegation :=
      lt_of_le_of_ne (hshares.msd a v hget).1 (Ne.symm hmsd)
    have hdenom := denom_of_covered hbond hpos hcovered
    have hquantity : l'.books.totalQuantity = l.books.totalQuantity -
        quantityOf (l.books.getUndelegating a) + v.minSelfDelegation := by
      rw [StakingBooks.totalQuantity_same hund]
      exact KVStore.sumBy_set _
    have hpool : l'.notBonded = coin params.bondDenom (l'.books.totalQuantity +
        (lost + quantityOf (l.books.getUndelegating a))) := by
      rw [hnotBonded, h, hdenom, ← coin_add, hquantity]
      congr 1
      omega
    cases hinfo : l.books.getUndelegating a with
    | none =>
      rw [hinfo, quantityOf, Option.elim, add_zero] at hpool
      have hexact : l.books.QueueExact → ((l.books.setUndelegating ⟨a, v.minSelfDelegation,
          time + params.unbondingTime⟩).setAddrByTimeKey (time + params.unbondingTime)
            a).QueueExact := fun hq => hq.change (fun q => KeyedStore.get_put) fun u q => by
        refine StakingBooks.queue_set l.books.undelegateQueue
          (fun u _ => hq.no_entry fun i hi => ?_) (fun _ _ _ => rfl) u q
        rw [hinfo] at hi
        cases hi
      exact .inl ⟨hpool, fun _ hq => (hexact hq).same hund⟩
    | some info =>
      rw [hinfo] at hpool
      exact .inr ⟨a, info, hok, hinfo, hpool⟩
  | pay key info hentry htime hinfo hbooks hbonded hnotBonded =>
    have hquantity : l'.books.totalQuantity = l.books.totalQuantity - info.quantity := by
      rw [hbooks, ← StakingBooks.totalQuantity_deleteUndelegating hinfo]
      rfl
    refine .inl ⟨?_, fun _ hq => ?_⟩
    · rw [hnotBonded, h, ← coin_sub, hquantity, sub_add_eq_add_sub]
    · obtain ⟨i, hi, ht⟩ := (hq (ofLex key).1 (ofLex key).2).mp hentry
      cases hinfo.symm.trans hi
      rw [hbooks, ← ht]
      exact hq.pay hinfo
  | lapse key htime hnothing hbooks hbonded hnotBonded =>
    refine .inl ⟨?_, fun hpay hq => hq.same ?_⟩
    · rw [hnotBonded, h, hbooks]
      rfl
    · rw [hbooks]
      refine ⟨rfl, KVStore.delete_eq_self (hq.no_entry fun info hinfo _ => ?_)⟩
      exact hnothing info hinfo (hpay _ info hinfo).1 (hpay _ info hinfo).2

/-- The pools hold what is recorded, and what was `lost` when undelegations were written over. As
long as nothing was lost, the queue holds the entries of the undelegations. -/
structure PoolsBacked (denom : String) (lost : Int) (l : StakingLedger) : Prop where
  bonded : l.bonded = coin denom (l.books.totalTokens + l.books.totalMinSelfDelegation)
  notBonded : l.notBonded = coin denom (l.books.totalQuantity + lost)
  nonneg : 0 ≤ lost
  quantity : ∀ a info, l.books.getUndelegating a = some info → 0 < info.quantity
  queue : lost = 0 → l.books.QueueExact

/-- Every undelegation is worth something. -/
theorem StakingEffect.quantity
    (h : ∀ a info, l.books.getUndelegating a = some info → 0 < info.quantity)
    (hshares : SharesOK l.books) (he : StakingEffect user destroyOK params time l evs l') :
    ∀ a info, l'.books.getUndelegating a = some info → 0 < info.quantity := by
  have hsame : ∀ {b' : StakingBooks}, SameUndelegations b' l'.books →
      (∀ a info, b'.getUndelegating a = some info → 0 < info.quantity) →
      ∀ a info, l'.books.getUndelegating a = some info → 0 < info.quantity := by
    intro b' hund hb' a info hinfo
    unfold StakingBooks.getUndelegating at hinfo
    rw [hund.infos] at hinfo
    exact hb' a info hinfo
  cases he with
  | retally d o o' hrev htokens hsame' => exact hsame hsame'.undelegations h
  | validators hfollows hvotes hindex hsame' => exact hsame hsame'.undelegations h
  | deposit d o r quantity hrev hpos htokens hund => exact hsame hund h
  | create a v hnew hvalidators hv hmsd hvotes hindex hund => exact hsame hund h
  | withdraw d o o' quantity huser hrev hpos htokens hund =>
    refine hsame hund fun a info hinfo => ?_
    rw [StakingBooks.getUndelegating_addUndelegation] at hinfo
    split_ifs at hinfo
    · cases hinfo
      cases hold : l.books.getUndelegating d with
      | none => exact add_pos_of_nonneg_of_pos le_rfl hpos
      | some i => exact add_pos (h d i hold) hpos
    · exact h a info hinfo
  | destroy a v huser hok hget hmsd helsewhere hhere hvotes hindex hund =>
    refine hsame hund fun q info hinfo => ?_
    have hput : (if q = a then some _ else l.books.getUndelegating q) = some info :=
      KeyedStore.get_put.symm.trans hinfo
    split_ifs at hput
    · cases hput
      exact lt_of_le_of_ne (hshares.msd a v hget).1 (Ne.symm hmsd)
    · exact h q info hput
  | pay key info hentry htime hinfo hbooks =>
    intro a i hi
    rw [hbooks] at hi
    have hput : (if a = (ofLex key).2 then none else l.books.getUndelegating a) = some i :=
      KeyedStore.get_delete.symm.trans hi
    split_ifs at hput
    exact h a i hput
  | lapse key htime hnothing hbooks =>
    rw [hbooks]
    exact h

/-- **What every effect keeps**, whoever destroys a validator. -/
theorem PoolsBacked.effect {lost : Int} (h : PoolsBacked params.bondDenom lost l) (hshares : SharesOK l.books)
    (he : StakingEffect user destroyOK params time l evs l') :
    ∃ lost', PoolsBacked params.bondDenom lost' l' := by
  have hbonded := he.bonded h.bonded hshares
  have hquantity := he.quantity h.quantity hshares
  rcases he.notBonded h.bonded h.notBonded hshares with ⟨hpool, hqueue⟩ | ⟨a, info, -, hinfo, hpool⟩
  · refine ⟨lost, hbonded, hpool, h.nonneg, hquantity, fun hlost => hqueue (fun a info hinfo => ?_)
      (h.queue hlost)⟩
    exact ⟨(h.quantity a info hinfo).le, StakingBooks.covers h.notBonded h.nonneg
      (fun a info hinfo => (h.quantity a info hinfo).le) hinfo⟩
  · have hpos := h.quantity a info hinfo
    have hnonneg := h.nonneg
    exact ⟨lost + info.quantity, hbonded, hpool, by omega, hquantity, fun hlost => by omega⟩

/-- **Every effect keeps the pools backed**, when no undelegation is written over. -/
theorem PoolsOK.effect (h : PoolsOK params.bondDenom l) (hshares : SharesOK l.books)
    (he : StakingEffect user NoUndelegation params time l evs l') :
    PoolsOK params.bondDenom l' := by
  have hquantity : l.notBonded = coin params.bondDenom (l.books.totalQuantity + 0) := by
    rw [add_zero]
    exact h.notBonded
  refine ⟨he.bonded h.bonded hshares, ?_⟩
  rcases he.notBonded h.bonded hquantity hshares with ⟨hsame, -⟩ | ⟨a, info, hnone, hinfo, -⟩
  · rwa [add_zero] at hsame
  · cases hnone.symm.trans hinfo

end Effects

/-! ## Runs -/

section Runs

variable {B : Type} {sk : PoolKeeper B} {weight : Int → Int} {n : StakingNode B}

/-- Nothing outside the module changes the bond denomination or moves coins of the pools. -/
def PoolsUntouched (sk : PoolKeeper B) (n : StakingNode B) : StakingAction B → Prop
  | .outside params bank => params.bondDenom = n.state.params.bondDenom ∧
    sk.moduleCoins bank bondedPoolName = sk.moduleCoins n.state.bank bondedPoolName ∧
    sk.moduleCoins bank notBondedPoolName = sk.moduleCoins n.state.bank notBondedPoolName
  | _ => True

theorem PoolsUntouched.of_inside {a : StakingAction B}
    (h : ∀ params bank, a ≠ .outside params bank) : PoolsUntouched sk n a := by
  cases a with
  | outside params bank => exact absurd rfl (h params bank)
  | _ => exact trivial

/-- A validator is destroyed only by an operator without an undelegation. -/
def DestroysFree (n : StakingNode B) (a : StakingAction B) : Prop :=
  ∀ d, a = .destroyValidator d → NoUndelegation n.state.books d

theorem StakingReach.poolsOK {rule : StakingNode B → StakingAction B → Prop}
    (hweight : ∀ week, Dec.one ≤ weight week)
    (hrule : ∀ n a, rule n a → PoolsUntouched sk n a ∧ DestroysFree n a)
    (h : StakingReach sk weight rule n) : PoolsOK n.state.params.bondDenom (n.state.ledger sk) := by
  induction h with
  | genesis h =>
    obtain ⟨total, epoch, last, hbooks⟩ := h.books
    unfold StakingState.ledger
    dsimp only
    rw [hbooks, h.bonded, h.notBonded]
    exact ⟨(coin_zero _).symm, (coin_zero _).symm⟩
  | @step n a hn hvalid ha ih =>
    have hinv := hn.inv hweight
    obtain ⟨huntouched, hfree⟩ := hrule n a ha
    rcases StakingNode.step_trace NoUndelegation hinv hweight hvalid hfree with
      ⟨-, hparams, evs, -, htrace⟩ | ⟨time, rfl⟩ | ⟨params, bank, rfl⟩
    · rw [hparams]
      exact (htrace.keeps (P := fun l => StakingInv sk l.books ∧ PoolsOK n.state.params.bondDenom l)
        (fun he h => ⟨h.1.effect he, h.2.effect h.1.shares he⟩) ⟨hinv, ih⟩).2
    · exact ih
    · obtain ⟨hdenom, hbonded, hnotBonded⟩ := huntouched
      refine ⟨?_, ?_⟩
      · show sk.moduleCoins bank bondedPoolName = coin params.bondDenom _
        rw [hbonded, hdenom]
        exact ih.bonded
      · show sk.moduleCoins bank notBondedPoolName = coin params.bondDenom _
        rw [hnotBonded, hdenom]
        exact ih.notBonded

/-- **The pools in every run**, whoever destroys a validator. -/
theorem StakingReach.backed {rule : StakingNode B → StakingAction B → Prop}
    (hweight : ∀ week, Dec.one ≤ weight week) (hrule : ∀ n a, rule n a → PoolsUntouched sk n a)
    (h : StakingReach sk weight rule n) :
    ∃ lost, PoolsBacked n.state.params.bondDenom lost (n.state.ledger sk) := by
  induction h with
  | genesis h =>
    obtain ⟨total, epoch, last, hbooks⟩ := h.books
    unfold StakingState.ledger
    dsimp only
    rw [hbooks, h.bonded, h.notBonded]
    refine ⟨0, (coin_zero _).symm, (coin_zero _).symm, le_rfl, fun a info hinfo => ?_,
      fun _ t a => iff_of_false nofun ?_⟩
    · cases hinfo
    · rintro ⟨info, hinfo, -⟩
      cases hinfo
  | @step n a hn hvalid ha ih =>
    have hinv := hn.inv hweight
    have huntouched := hrule n a ha
    rcases StakingNode.step_trace (fun _ _ => True) hinv hweight hvalid (fun _ _ => trivial) with
      ⟨-, hparams, evs, -, htrace⟩ | ⟨time, rfl⟩ | ⟨params, bank, rfl⟩
    · rw [hparams]
      exact (htrace.keeps (P := fun l => StakingInv sk l.books ∧
        ∃ lost, PoolsBacked n.state.params.bondDenom lost l)
        (fun he h => ⟨h.1.effect he, h.2.elim fun lost hlost => hlost.effect h.1.shares he⟩)
        ⟨hinv, ih⟩).2
    · exact ih
    · obtain ⟨hdenom, hbonded, hnotBonded⟩ := huntouched
      obtain ⟨lost, hlost⟩ := ih
      refine ⟨lost, ?_, ?_, hlost.nonneg, hlost.quantity, hlost.queue⟩
      · show sk.moduleCoins bank bondedPoolName = coin params.bondDenom _
        rw [hbonded, hdenom]
        exact hlost.bonded
      · show sk.moduleCoins bank notBondedPoolName = coin params.bondDenom _
        rw [hnotBonded, hdenom]
        exact hlost.notBonded

/-- If the not-bonded pool holds what is undelegated, the queue holds its entries. -/
theorem PoolsBacked.queueExact {denom : String} {lost : Int} {l : StakingLedger}
    (h : PoolsBacked denom lost l) (hpool : l.notBonded = coin denom l.books.totalQuantity) :
    l.books.QueueExact := by
  refine h.queue ?_
  have heq := congrArg (fun c : Coins => c denom) (h.notBonded.symm.trans hpool)
  rw [coin_apply, coin_apply, if_pos rfl, if_pos rfl] at heq
  omega

/-- The registered invariant compares the pools with what is recorded. -/
theorem PoolsOK.invariant {s : StakingState B} (h : PoolsOK s.params.bondDenom (s.ledger sk)) :
    s.moduleAccountInvariantsCustom sk = false := by
  have hbonded : sk.moduleCoins s.bank bondedPoolName s.params.bondDenom =
      s.books.totalTokens + s.books.totalMinSelfDelegation := by
    have := congrArg (fun c : Coins => c s.params.bondDenom) h.bonded
    rwa [coin_apply, if_pos rfl] at this
  have hnotBonded : sk.moduleCoins s.bank notBondedPoolName s.params.bondDenom =
      s.books.totalQuantity := by
    have := congrArg (fun c : Coins => c s.params.bondDenom) h.notBonded
    rwa [coin_apply, if_pos rfl] at this
  unfold StakingState.moduleAccountInvariantsCustom
  simp only [KeyedStore.foldl_add_values, zero_add]
  rw [hbonded, hnotBonded, add_comm]
  unfold StakingBooks.totalTokens StakingBooks.totalMinSelfDelegation StakingBooks.totalQuantity
  simp only [ne_eq, not_true_eq_false, decide_false, Bool.or_self]

/-- **The pools are backed** in every run, as long as validators are destroyed only by operators
without an undelegation: the bonded pool holds the delegators' tokens and the self delegations, the
not-bonded pool what is undelegated, and nothing else. -/
theorem pools_backed (hweight : ∀ week, Dec.one ≤ weight week)
    (h : StakingReach sk weight (fun n a => PoolsUntouched sk n a ∧ DestroysFree n a) n) :
    sk.moduleCoins n.state.bank bondedPoolName = coin n.state.params.bondDenom
      (n.state.books.totalTokens + n.state.books.totalMinSelfDelegation) ∧
    sk.moduleCoins n.state.bank notBondedPoolName =
      coin n.state.params.bondDenom n.state.books.totalQuantity ∧
    n.state.moduleAccountInvariantsCustom sk = false := by
  have hpools := h.poolsOK hweight fun _ _ hrule => hrule
  exact ⟨hpools.bonded, hpools.notBonded, hpools.invariant⟩

end Runs

/-- Alice withdraws 40 of the 100 she has deposited beside her self delegation. -/
def aliceWithdraws : StakingNode (KVStore Address Coins) :=
  stakingStart.run simplePools (fun _ => Dec.one) [createAlice,
    .deposit ⟨"alice", ⟨bondDenom, Dec.newDec 100⟩⟩,
    .withdraw ⟨"alice", ⟨bondDenom, Dec.newDec 40⟩⟩, .endBlock]

/-- She then destroys her validator. -/
def aliceLeaves : StakingNode (KVStore Address Coins) :=
  aliceWithdraws.run simplePools (fun _ => Dec.one) [.destroyValidator "alice", .endBlock]

theorem reach_aliceWithdraws
    {rule : StakingNode (KVStore Address Coins) → StakingAction (KVStore Address Coins) → Prop}
    (hrule : ∀ n a, (∀ d, a ≠ .destroyValidator d) → (∀ params bank, a ≠ .outside params bank) →
      (∀ time, a ≠ .beginBlock time) → rule n a) :
    StakingReach simplePools (fun _ => Dec.one) rule aliceWithdraws := by
  refine (reach_stakingStart _ _).run ⟨⟨createAlice_valid, ?_⟩, ⟨⟨by decide, isUser_alice⟩, ?_⟩,
    ⟨⟨by decide, isUser_alice⟩, ?_⟩, ⟨trivial, ?_⟩, trivial⟩
  all_goals exact hrule _ _ nofun nofun nofun

theorem pools_backed_aliceWithdraws :
    simplePools.moduleCoins aliceWithdraws.state.bank notBondedPoolName =
        coin bondDenom (Dec.newDec 40) ∧
      aliceWithdraws.state.moduleAccountInvariantsCustom simplePools = false := by
  have hn : StakingReach simplePools (fun _ => Dec.one)
      (fun n a => PoolsUntouched simplePools n a ∧ DestroysFree n a) aliceWithdraws :=
    reach_aliceWithdraws fun n a hdestroy houtside _ =>
      ⟨.of_inside houtside, fun d hd => absurd hd (hdestroy d)⟩
  exact ⟨by decide +kernel, (pools_backed (fun _ => le_rfl) hn).2.2⟩

/-- **The pools are not always backed.** Alice destroys her validator while her withdrawal is on its
way: the 10 of her self delegation are written over the 40, which stay in the pool. -/
theorem pools_unbacked : ∃ n, StakingReach simplePools (fun _ => Dec.one)
    (PoolsUntouched simplePools) n ∧
      simplePools.moduleCoins n.state.bank notBondedPoolName = coin bondDenom (Dec.newDec 50) ∧
      n.state.books.totalQuantity = Dec.newDec 10 ∧
      n.state.moduleAccountInvariantsCustom simplePools = true := by
  refine ⟨aliceLeaves, ?_, by decide +kernel, by decide +kernel, by decide +kernel⟩
  have hn : StakingReach simplePools (fun _ => Dec.one) (PoolsUntouched simplePools)
      aliceWithdraws := reach_aliceWithdraws fun n a _ houtside _ => .of_inside houtside
  exact hn.run ⟨⟨⟨by decide, isUser_alice⟩, trivial⟩, ⟨trivial, trivial⟩, trivial⟩

end Okexchain
