import Okexchain.Staking.Pools

/-!
# The unbonding lock

What an account unbonds at time `t` is paid by an `EndBlocker` at `t + U` or later, where `U` is the
unbonding time; and it is paid.

* The undelegations of an account are merged into one record, whose completion time is that of the
  last one. The queue is to hold one entry for it, at that time.
* A withdrawal moves the entry. `WithdrawMinSelfDelegation` leaves the entry of an earlier
  undelegation behind: when that entry is due, the self delegation is paid too early, and what it
  was written over is never paid (`unbonding_hurried`).
* Tokens are all alike, so the lock compares totals: what has been paid up to some time is at most
  what was unbonded `U` before it.

**Results.** `Unbonding.effect`: what each effect keeps. `unbonding_lock`: in every run in which
validators are destroyed only by operators without an undelegation, nothing is paid early, the queue
holds exactly the entries of the undelegations, and an `EndBlocker` pays everything that is due.
-/

namespace Okexchain

/-! ## Totals of the history -/

/-- What an account has unbonded at times with `P`. -/
def unbondedOf (a : Address) (P : Int → Prop) [DecidablePred P] (history : List StakingEvent) : Int :=
  (history.map fun
    | .unbonded addr quantity time => if addr = a ∧ P time then quantity else 0
    | .paid _ _ _ => 0).sum

/-- What an account has been paid at times with `P`. -/
def paidOf (a : Address) (P : Int → Prop) [DecidablePred P] (history : List StakingEvent) : Int :=
  (history.map fun
    | .unbonded _ _ _ => 0
    | .paid addr quantity time => if addr = a ∧ P time then quantity else 0).sum

section Totals

variable {a d : Address} {P : Int → Prop} [DecidablePred P] {h : List StakingEvent} {q t : Int}

theorem unbondedOf_unbond : unbondedOf a P (h ++ [.unbonded d q t]) =
    unbondedOf a P h + if d = a ∧ P t then q else 0 := by
  unfold unbondedOf
  rw [List.map_append, List.sum_append]
  exact congrArg _ List.sum_singleton

theorem unbondedOf_pay : unbondedOf a P (h ++ [.paid d q t]) = unbondedOf a P h := by
  unfold unbondedOf
  rw [List.map_append, List.sum_append]
  exact add_zero _

theorem paidOf_pay : paidOf a P (h ++ [.paid d q t]) =
    paidOf a P h + if d = a ∧ P t then q else 0 := by
  unfold paidOf
  rw [List.map_append, List.sum_append]
  exact congrArg _ List.sum_singleton

theorem paidOf_unbond : paidOf a P (h ++ [.unbonded d q t]) = paidOf a P h := by
  unfold paidOf
  rw [List.map_append, List.sum_append]
  exact add_zero _

/-- When every time has `P`, nothing is left out. -/
theorem unbondedOf_all (hall : ∀ q t, .unbonded a q t ∈ h → P t) :
    unbondedOf a P h = unbondedOf a (fun _ => True) h := by
  refine congrArg List.sum (List.map_congr_left fun e he => ?_)
  cases e with
  | unbonded addr quantity time =>
    refine if_congr ⟨fun hp => ⟨hp.1, trivial⟩, fun hp => ⟨hp.1, ?_⟩⟩ rfl rfl
    rw [hp.1] at he
    exact hall quantity time he
  | paid addr quantity time => rfl

theorem paidOf_all (hall : ∀ q t, .paid a q t ∈ h → P t) :
    paidOf a P h = paidOf a (fun _ => True) h := by
  refine congrArg List.sum (List.map_congr_left fun e he => ?_)
  cases e with
  | unbonded addr quantity time => rfl
  | paid addr quantity time =>
    refine if_congr ⟨fun hp => ⟨hp.1, trivial⟩, fun hp => ⟨hp.1, ?_⟩⟩ rfl rfl
    rw [hp.1] at he
    exact hall quantity time he

end Totals

/-! ## The invariant -/

/-- When an event happened. -/
def StakingEvent.time : StakingEvent → Int
  | .unbonded _ _ t => t
  | .paid _ _ t => t

/-- The undelegations, their queue and the history agree at time `now`. -/
structure Unbonding (U now : Int) (history : List StakingEvent) (b : StakingBooks) : Prop where
  /-- The queue holds the entry of every undelegation, and no other. -/
  queue : ∀ t a, (b.undelegateQueue.get (toLex (t, a))).isSome ↔
    ∃ info, b.getUndelegating a = some info ∧ info.completionTime = t
  quantity : ∀ a info, b.getUndelegating a = some info → 0 ≤ info.quantity
  /-- What is not paid yet is in the undelegation. -/
  balance : ∀ a, unbondedOf a (fun _ => True) history =
    paidOf a (fun _ => True) history + quantityOf (b.getUndelegating a)
  past : ∀ e ∈ history, e.time ≤ now
  /-- An undelegation is complete when the last unbonding is. -/
  complete : ∀ a info, b.getUndelegating a = some info →
    (∀ q t, .unbonded a q t ∈ history → t + U ≤ info.completionTime) ∧
      ∃ q t, .unbonded a q t ∈ history ∧ t + U = info.completionTime
  lock : ∀ a T, paidOf a (fun t => t ≤ T) history ≤ unbondedOf a (fun t => t + U ≤ T) history

namespace Unbonding

variable {U now : Int} {history : List StakingEvent} {b b' : StakingBooks}

theorem same (h : Unbonding U now history b) (hsame : SameUndelegations b b') :
    Unbonding U now history b' := by
  have hget : ∀ a, b'.getUndelegating a = b.getUndelegating a := fun a => by
    unfold StakingBooks.getUndelegating
    rw [hsame.infos]
  refine ⟨fun t a => ?_, fun a info hinfo => ?_, fun a => ?_, h.past, fun a info hinfo => ?_, h.lock⟩
  · rw [hsame.queue, hget]
    exact h.queue t a
  · rw [hget] at hinfo
    exact h.quantity a info hinfo
  · rw [hget]
    exact h.balance a
  · rw [hget] at hinfo
    exact h.complete a info hinfo

/-- **Something is unbonded**: it is added to the undelegation, and the entry in the queue moves. -/
theorem unbond (h : Unbonding U now history b) {d : Address} {quantity : Int} (hpos : 0 ≤ quantity)
    (hinfos : ∀ a, b'.getUndelegating a =
      if a = d then some ⟨d, quantityOf (b.getUndelegating d) + quantity, now + U⟩
      else b.getUndelegating a)
    (hqueue : ∀ t a, (b'.undelegateQueue.get (toLex (t, a))).isSome ↔
      if a = d then t = now + U else (b.undelegateQueue.get (toLex (t, a))).isSome) :
    Unbonding U now (history ++ [.unbonded d quantity now]) b' := by
  have hmem : ∀ {a q t}, StakingEvent.unbonded a q t ∈ history ++ [.unbonded d quantity now] →
      .unbonded a q t ∈ history ∨ a = d ∧ t = now := by
    intro a q t he
    rcases List.mem_append.mp he with he | he
    · exact .inl he
    · cases List.mem_singleton.mp he
      exact .inr ⟨rfl, rfl⟩
  have hquantity : 0 ≤ quantityOf (b.getUndelegating d) := by
    cases hd : b.getUndelegating d with
    | none => exact le_rfl
    | some info => exact h.quantity d info hd
  refine ⟨fun t a => ?_, fun a info hinfo => ?_, fun a => ?_, fun e he => ?_, fun a info hinfo => ?_,
    fun a T => ?_⟩
  · rw [hqueue, hinfos]
    split_ifs with ha
    · constructor
      · rintro rfl
        exact ⟨_, rfl, rfl⟩
      · rintro ⟨info, hinfo, rfl⟩
        cases hinfo
        rfl
    · exact h.queue t a
  · rw [hinfos] at hinfo
    split_ifs at hinfo with ha
    · cases hinfo
      exact add_nonneg hquantity hpos
    · exact h.quantity a info hinfo
  · rw [unbondedOf_unbond, paidOf_unbond, hinfos, h.balance a]
    by_cases ha : a = d
    · rw [if_pos ha, if_pos ⟨ha.symm, trivial⟩, ha]
      show _ = _ + (quantityOf (b.getUndelegating d) + quantity)
      omega
    · rw [if_neg ha, if_neg fun hd => ha hd.1.symm, add_zero]
  · rcases List.mem_append.mp he with he | he
    · exact h.past e he
    · rw [List.mem_singleton.mp he]
      exact le_rfl
  · rw [hinfos] at hinfo
    split_ifs at hinfo with ha
    · cases hinfo
      refine ⟨fun q t ht => ?_, quantity, now, ?_, rfl⟩
      · have htime : t ≤ now := by
          rcases hmem ht with ht | ht
          · exact h.past _ ht
          · exact ht.2.le
        show t + U ≤ now + U
        omega
      · rw [ha]
        exact List.mem_append_right _ List.mem_cons_self
    · obtain ⟨hall, q, t, ht, heq⟩ := h.complete a info hinfo
      refine ⟨fun q t ht => ?_, q, t, List.mem_append_left _ ht, heq⟩
      rcases hmem ht with ht | ht
      · exact hall q t ht
      · exact absurd ht.1 ha
  · rw [unbondedOf_unbond, paidOf_unbond]
    have hlock := h.lock a T
    split_ifs <;> omega

/-- **An undelegation is paid** when its completion time has come. -/
theorem pay (h : Unbonding U now history b) {d : Address} {info : UndelegationInfo}
    (hinfo : b.getUndelegating d = some info) (hdue : info.completionTime ≤ now) :
    Unbonding U now (history ++ [.paid d info.quantity now])
      ((b.deleteAddrByTimeKey info.completionTime d).deleteUndelegating d) := by
  have hget : ∀ a, ((b.deleteAddrByTimeKey info.completionTime d).deleteUndelegating d).getUndelegating
      a = if a = d then none else b.getUndelegating a := fun a => KeyedStore.get_delete
  have hmem : ∀ {a q t}, StakingEvent.unbonded a q t ∈ history ++ [.paid d info.quantity now] →
      .unbonded a q t ∈ history := by
    intro a q t he
    rcases List.mem_append.mp he with he | he
    · exact he
    · cases List.mem_singleton.mp he
  obtain ⟨hall, -⟩ := h.complete d info hinfo
  have hbalance := h.balance d
  rw [hinfo] at hbalance
  have hpast : ∀ e ∈ history ++ [.paid d info.quantity now], e.time ≤ now := by
    intro e he
    rcases List.mem_append.mp he with he | he
    · exact h.past e he
    · rw [List.mem_singleton.mp he]
      exact le_rfl
  refine ⟨fun t a => ?_, fun a i hi => ?_, fun a => ?_, hpast, fun a i hi => ?_, fun a T => ?_⟩
  · have hqueue := h.queue t a
    rw [hget]
    show ((b.undelegateQueue.delete _).get _).isSome = true ↔ _
    by_cases ha : a = d
    · -- the only entry of this account is gone
      rw [if_pos ha]
      refine ⟨fun hsome => ?_, fun ⟨i, hi, _⟩ => by cases hi⟩
      rw [KVStore.get_delete] at hsome
      split_ifs at hsome with hkey
      · cases hsome
      · obtain ⟨i, hi, ht⟩ := hqueue.mp hsome
        rw [ha, hinfo] at hi
        cases hi
        exact absurd (by rw [ha, ht]) hkey
    · rw [if_neg ha, KVStore.get_delete_ne fun hkey => ha (Prod.mk.inj (toLex.injective hkey)).2]
      exact hqueue
  · rw [hget] at hi
    split_ifs at hi
    exact h.quantity a i hi
  · rw [unbondedOf_pay, paidOf_pay, hget]
    by_cases ha : a = d
    · rw [if_pos ha, if_pos ⟨ha.symm, trivial⟩, ha, hbalance]
      show _ = _ + 0
      exact (add_zero _).symm
    · rw [if_neg ha, if_neg fun hd => ha hd.1.symm, add_zero]
      exact h.balance a
  · rw [hget] at hi
    split_ifs at hi
    obtain ⟨hall, q, t, ht, heq⟩ := h.complete a i hi
    exact ⟨fun q t ht => hall q t (hmem ht), q, t, List.mem_append_left _ ht, heq⟩
  · rw [unbondedOf_pay, paidOf_pay]
    have hlock := h.lock a T
    split_ifs with hpaid
    · -- everything unbonded is due, so what has been paid is not more than it
      obtain ⟨rfl, hT⟩ := hpaid
      rw [unbondedOf_all fun q t ht => (hall q t ht).trans (hdue.trans hT),
        paidOf_all fun q t ht => (h.past _ ht).trans hT, hbalance]
      rfl
    · omega

end Unbonding

section Effects

variable {user : Address → Prop} {params : StakingParams} {time : Int} {l l' : StakingLedger}
  {evs history : List StakingEvent}

/-- **What every effect keeps.** -/
theorem Unbonding.effect (h : Unbonding params.unbondingTime time history l.books)
    (hshares : SharesOK l.books) (hpools : PoolsOK params.bondDenom l)
    (he : StakingEffect user NoUndelegation params time l evs l') :
    Unbonding params.unbondingTime time (history ++ evs) l'.books := by
  cases he with
  | retally d o o' hrev htokens hsame =>
    rw [List.append_nil]
    exact h.same hsame.undelegations
  | validators hfollows hvotes hindex hsame =>
    rw [List.append_nil]
    exact h.same hsame.undelegations
  | deposit d o r quantity hrev hpos htokens hund =>
    rw [List.append_nil]
    exact h.same hund
  | create a v hnew hvalidators hv hmsd hvotes hindex hund =>
    rw [List.append_nil]
    exact h.same hund
  | withdraw d o o' quantity huser hrev hpos htokens hund =>
    refine (h.unbond hpos.le (fun a => ?_) fun t a => ?_).same hund
    · exact l.books.getUndelegating_addUndelegation d a quantity _
    · exact StakingBooks.QueueExact.get_addUndelegation h.queue d quantity _ t a
  | destroy a v huser hok hget hmsd helsewhere hhere hvotes hindex hund =>
    have hnone : l.books.getUndelegating a = none := hok
    refine (h.unbond (hshares.msd a v hget).1 (fun q => ?_) fun t q => ?_).same hund
    · rw [hnone, quantityOf, Option.elim, zero_add]
      exact KeyedStore.get_put
    · refine StakingBooks.queue_set l.books.undelegateQueue
        (fun u _ => StakingBooks.QueueExact.no_entry h.queue fun i hi => ?_) (fun _ _ _ => rfl) t q
      rw [hnone] at hi
      cases hi
  | pay key info hentry htime hinfo hbooks =>
    obtain ⟨i, hi, ht⟩ := (h.queue (ofLex key).1 (ofLex key).2).mp hentry
    cases hinfo.symm.trans hi
    rw [hbooks, ← ht]
    exact h.pay hinfo (ht.le.trans htime)
  | lapse key htime hnothing hbooks =>
    rw [List.append_nil]
    refine h.same ?_
    rw [hbooks]
    refine ⟨rfl, KVStore.delete_eq_self
      (StakingBooks.QueueExact.no_entry h.queue fun info hinfo _ => ?_)⟩
    have hpool : l.notBonded = coin params.bondDenom (l.books.totalQuantity + 0) := by
      rw [add_zero]
      exact hpools.notBonded
    exact hnothing info hinfo (h.quantity _ info hinfo)
      (StakingBooks.covers hpool le_rfl h.quantity hinfo)

end Effects

/-! ## Runs -/

section Runs

variable {B : Type} {sk : PoolKeeper B} {weight : Int → Int} {n : StakingNode B}

/-- The time of blocks does not decrease, and the unbonding time is fixed. -/
def UnbondingClock (n : StakingNode B) : StakingAction B → Prop
  | .beginBlock time => n.time ≤ time
  | .outside params _ => params.unbondingTime = n.state.params.unbondingTime
  | _ => True

theorem UnbondingClock.of_inside {a : StakingAction B} (hbegin : ∀ time, a ≠ .beginBlock time)
    (houtside : ∀ params bank, a ≠ .outside params bank) : UnbondingClock n a := by
  cases a with
  | beginBlock time => exact absurd rfl (hbegin time)
  | outside params bank => exact absurd rfl (houtside params bank)
  | _ => exact trivial

/-- The rule of the runs in which the lock holds. -/
structure UnbondingRule (sk : PoolKeeper B) (n : StakingNode B) (a : StakingAction B) : Prop where
  pools : PoolsUntouched sk n a
  clock : UnbondingClock n a
  destroys : DestroysFree n a

theorem StakingReach.unbonding (hweight : ∀ week, Dec.one ≤ weight week)
    (h : StakingReach sk weight (UnbondingRule sk) n) :
    Unbonding n.state.params.unbondingTime n.time n.history n.state.books := by
  induction h with
  | genesis h =>
    obtain ⟨total, epoch, last, hbooks⟩ := h.books
    dsimp only
    rw [hbooks]
    refine ⟨fun t a => ⟨fun h => ?_, fun ⟨_, h, _⟩ => ?_⟩, fun a info h => ?_, fun a => rfl,
      fun e he => absurd he List.not_mem_nil, fun a info h => ?_, fun a T => le_rfl⟩
    all_goals cases h
  | @step n a hn hvalid hrule ih =>
    have hinv := hn.inv hweight
    have hpools := hn.poolsOK hweight fun _ _ hrule => ⟨hrule.pools, hrule.destroys⟩
    rcases StakingNode.step_trace NoUndelegation hinv hweight hvalid hrule.destroys with
      ⟨htime, hparams, evs, hhistory, htrace⟩ | ⟨time, rfl⟩ | ⟨params, bank, rfl⟩
    · rw [htime, hparams, hhistory]
      refine (htrace.relates (P := fun l => StakingInv sk l.books ∧
          PoolsOK n.state.params.bondDenom l)
        (R := fun l evs l' => ∀ history, Unbonding n.state.params.unbondingTime n.time history
          l.books → Unbonding n.state.params.unbondingTime n.time (history ++ evs) l'.books)
        (fun he h => ⟨⟨h.1.effect he, h.2.effect h.1.shares he⟩, fun history hu =>
          hu.effect h.1.shares h.2 he⟩)
        (fun l history hu => ?_) (fun hl hl' history hu => ?_) ⟨hinv, hpools⟩).2 n.history ih
      · rwa [List.append_nil]
      · rw [← List.append_assoc]
        exact hl' _ (hl _ hu)
    · have hle : n.time ≤ time := hrule.clock
      exact ⟨ih.queue, ih.quantity, ih.balance, fun e he => (ih.past e he).trans hle, ih.complete,
        ih.lock⟩
    · have hsame : params.unbondingTime = n.state.params.unbondingTime := hrule.clock
      show Unbonding params.unbondingTime n.time n.history n.state.books
      rw [hsame]
      exact ih

/-- An account without an undelegation has been paid everything. -/
theorem Unbonding.settled {U now : Int} {history : List StakingEvent} {b : StakingBooks}
    (h : Unbonding U now history b) {a : Address} (hnone : b.getUndelegating a = none) :
    paidOf a (fun _ => True) history = unbondedOf a (fun _ => True) history := by
  have hbalance := h.balance a
  rw [hnone] at hbalance
  exact (hbalance.trans (add_zero _)).symm

/-- After an `EndBlocker` that comes when everything an account has unbonded is complete, the
account has no undelegation. -/
theorem StakingReach.endBlock_completes (hweight : ∀ week, Dec.one ≤ weight week)
    (h : StakingReach sk weight (UnbondingRule sk) n) {s' : StakingState B}
    {updates : List ValidatorUpdate} {paid : List (Address × Int)}
    (hok : n.state.endBlocker sk n.height n.time = .ok (s', updates, paid)) {a : Address}
    (hdue : ∀ q t, .unbonded a q t ∈ n.history → t + n.state.params.unbondingTime ≤ n.time) :
    (n.step sk weight .endBlock).state.books.getUndelegating a = none := by
  have hstep : n.step sk weight .endBlock =
      { n with state := s', history := n.history ++ paidEvents n.time paid } := by
    unfold StakingNode.step
    rw [hok]
    rfl
  have hn' : StakingReach sk weight (UnbondingRule sk) (n.step sk weight .endBlock) :=
    h.step trivial ⟨trivial, trivial, nofun⟩
  have hunbonding := hn'.unbonding hweight
  obtain ⟨hleft, hparams, -⟩ := endBlocker_trace NoUndelegation (h.inv hweight).users hok
  rw [hstep] at hunbonding ⊢
  dsimp only at hunbonding ⊢
  cases hinfo : s'.books.getUndelegating a with
  | none => rfl
  | some info =>
    have hlater := hleft _ ((hunbonding.queue info.completionTime a).mpr ⟨info, hinfo, rfl⟩)
    obtain ⟨-, q, t, ht, hcomplete⟩ := hunbonding.complete a info hinfo
    have hold : .unbonded a q t ∈ n.history := by
      rcases List.mem_append.mp ht with ht | ht
      · exact ht
      · obtain ⟨e, -, he⟩ := List.mem_map.mp ht
        cases he
    have hsoon := hdue q t hold
    rw [hparams] at hcomplete
    have hlater' : n.time < info.completionTime := hlater
    omega

/-- **The unbonding lock holds and every undelegation is paid**, as long as validators are destroyed
only by operators without an undelegation. Up to any time, an account is paid at most what it had
unbonded `U` before; the queue has exactly one entry for an undelegation, at its completion time; an
account without an undelegation has been paid everything; and so has, after an `EndBlocker`, an
account all of whose unbondings are complete. -/
theorem unbonding_lock (hweight : ∀ week, Dec.one ≤ weight week)
    (h : StakingReach sk weight (UnbondingRule sk) n) :
    (∀ a T, paidOf a (fun t => t ≤ T) n.history ≤
      unbondedOf a (fun t => t + n.state.params.unbondingTime ≤ T) n.history) ∧
    (∀ a info t, n.state.books.getUndelegating a = some info →
      ((n.state.books.undelegateQueue.get (toLex (t, a))).isSome ↔ t = info.completionTime)) ∧
    (∀ a, n.state.books.getUndelegating a = none →
      paidOf a (fun _ => True) n.history = unbondedOf a (fun _ => True) n.history) ∧
    ∀ r, n.state.endBlocker sk n.height n.time = .ok r → ∀ a,
      (∀ q t, .unbonded a q t ∈ n.history → t + n.state.params.unbondingTime ≤ n.time) →
        paidOf a (fun _ => True) (n.step sk weight .endBlock).history =
          unbondedOf a (fun _ => True) (n.step sk weight .endBlock).history := by
  have hunbonding := h.unbonding hweight
  refine ⟨hunbonding.lock, fun a info t hinfo => ?_, fun a => hunbonding.settled, fun r hok a hdue => ?_⟩
  · rw [hunbonding.queue, hinfo]
    refine ⟨?_, fun ht => ⟨info, rfl, ht.symm⟩⟩
    rintro ⟨i, hi, rfl⟩
    cases hi
    rfl
  · have hn' : StakingReach sk weight (UnbondingRule sk) (n.step sk weight .endBlock) :=
      h.step trivial ⟨trivial, trivial, nofun⟩
    exact (hn'.unbonding hweight).settled (h.endBlock_completes hweight hok hdue)

end Runs

/-- Alice, who has withdrawn 40 at time 0, comes to time 100. -/
def aliceWaits : StakingNode (KVStore Address Coins) :=
  aliceWithdraws.run simplePools (fun _ => Dec.one) [.beginBlock 100]

theorem unbonding_lock_aliceWaits :
    (aliceWaits.step simplePools (fun _ => Dec.one) .endBlock).history =
        [.unbonded "alice" (Dec.newDec 40) 0, .paid "alice" (Dec.newDec 40) 100] ∧
      paidOf "alice" (fun t => t ≤ 99) aliceWaits.history ≤
        unbondedOf "alice" (fun t => t + 100 ≤ 99) aliceWaits.history := by
  have hwithdraws : StakingReach simplePools (fun _ => Dec.one) (UnbondingRule simplePools)
      aliceWithdraws := reach_aliceWithdraws fun n a hdestroy houtside hbegin =>
    ⟨.of_inside houtside, .of_inside hbegin houtside, fun d hd => absurd hd (hdestroy d)⟩
  have hle : aliceWithdraws.time ≤ 100 := by decide +kernel
  have hn : StakingReach simplePools (fun _ => Dec.one) (UnbondingRule simplePools) aliceWaits :=
    hwithdraws.run ⟨⟨trivial, trivial, hle, nofun⟩, trivial⟩
  exact ⟨by decide +kernel, (unbonding_lock (fun _ => le_rfl) hn).1 "alice" 99⟩

/-- Alice withdraws 4 at time 0, and destroys her validator at time 50. -/
def aliceHurries : StakingNode (KVStore Address Coins) :=
  stakingStart.run simplePools (fun _ => Dec.one) [createAlice,
    .deposit ⟨"alice", ⟨bondDenom, Dec.newDec 100⟩⟩,
    .withdraw ⟨"alice", ⟨bondDenom, Dec.newDec 4⟩⟩, .endBlock, .beginBlock 50,
    .destroyValidator "alice", .endBlock]

/-- The next blocks are at times 100 and 150. -/
def aliceAt100 : StakingNode (KVStore Address Coins) :=
  aliceHurries.run simplePools (fun _ => Dec.one) [.beginBlock 100, .endBlock]

/-- The block at time 150, up to its end. -/
def aliceAt150 : StakingNode (KVStore Address Coins) :=
  aliceAt100.run simplePools (fun _ => Dec.one) [.beginBlock 150, .endBlock]

/-- **The lock can be broken.** The queue has two entries for Alice's undelegation. From the one
that the withdrawal of 4 has left behind, the 10 of the self delegation, unbonded at time 50, are
paid at time 100 already. And at time 150, when everything is complete, 4 have not been paid. -/
theorem unbonding_hurried :
    (StakingReach simplePools (fun _ => Dec.one)
      (fun n a => PoolsUntouched simplePools n a ∧ UnbondingClock n a) aliceAt150) ∧
    aliceAt150.time = 150 ∧ aliceAt150.state.params.unbondingTime = 100 ∧
    (aliceHurries.state.books.undelegateQueue.get (toLex (100, "alice"))).isSome ∧
    (aliceHurries.state.books.undelegateQueue.get (toLex (150, "alice"))).isSome ∧
    aliceAt100.history = [.unbonded "alice" (Dec.newDec 4) 0, .unbonded "alice" (Dec.newDec 10) 50,
      .paid "alice" (Dec.newDec 10) 100] ∧
    unbondedOf "alice" (fun t => t + 100 ≤ 100) aliceAt100.history <
      paidOf "alice" (fun t => t ≤ 100) aliceAt100.history ∧
    paidOf "alice" (fun _ => True) aliceAt150.history = Dec.newDec 10 ∧
    unbondedOf "alice" (fun _ => True) aliceAt150.history = Dec.newDec 14 := by
  have hle : ∀ {t t' : Int} {n : StakingNode (KVStore Address Coins)}, n.time = t → t ≤ t' →
      UnbondingClock n (.beginBlock t' : StakingAction (KVStore Address Coins)) :=
    fun hn ht => hn.le.trans ht
  have hhurries : StakingReach simplePools (fun _ => Dec.one)
      (fun n a => PoolsUntouched simplePools n a ∧ UnbondingClock n a) aliceHurries :=
    (reach_stakingStart _ _).run ⟨⟨createAlice_valid, trivial, trivial⟩,
      ⟨⟨by decide, isUser_alice⟩, trivial, trivial⟩, ⟨⟨by decide, isUser_alice⟩, trivial, trivial⟩,
      ⟨trivial, trivial, trivial⟩, ⟨trivial, trivial, hle (t := 0) (by decide +kernel) (by decide)⟩,
      ⟨⟨by decide, isUser_alice⟩, trivial, trivial⟩, ⟨trivial, trivial, trivial⟩, trivial⟩
  have h100 : StakingReach simplePools (fun _ => Dec.one)
      (fun n a => PoolsUntouched simplePools n a ∧ UnbondingClock n a) aliceAt100 :=
    hhurries.run ⟨⟨trivial, trivial, hle (t := 50) (by decide +kernel) (by decide)⟩,
      ⟨trivial, trivial, trivial⟩, trivial⟩
  have h150 : StakingReach simplePools (fun _ => Dec.one)
      (fun n a => PoolsUntouched simplePools n a ∧ UnbondingClock n a) aliceAt150 :=
    h100.run ⟨⟨trivial, trivial, hle (t := 100) (by decide +kernel) (by decide)⟩,
      ⟨trivial, trivial, trivial⟩, trivial⟩
  exact ⟨h150, by decide +kernel⟩

end Okexchain
