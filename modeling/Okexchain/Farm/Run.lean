import Okexchain.Farm.Spec

/-!
# Runs of the farm module

A node is the module's state at a height, with the history of what has been paid in and out. Its
actions are the messages, the execution of a whitelist proposal, `BeginBlocker`, the next block, and
`outside`: what other modules do to what the farm module shares with them (transfers, minting,
parameters, swap pairs).

* A failed or panicking message leaves the node as it was. So does a `BeginBlocker` that panics,
  where the chain would halt.
* Messages come from accounts that can sign, so never from a module account, and have passed
  `ValidateBasic`.
* `FarmReach sk createOK` are the nodes of the runs from an empty farm module in which a pool is
  created only when `createOK` holds of the books and its name.

`FarmEffect` lists all that the handlers can do to the books and the two accounts they account for,
with the events they leave in the history. `BeginBlocker` is a chain of credits.

**Results.** `FarmNode.step_effects`: a step is a chain of effects, or the next block. So what the
effects keep holds in every run (`FarmKeeps.reach`).
-/

namespace Okexchain

variable {B : Type}

/-- What has been paid into and out of a pool. -/
inductive FarmEvent where
  | provided (poolName : PoolName) (coins : Coins)
  | allocated (poolName : PoolName) (coins : Coins)
  | claimed (poolName : PoolName) (addr : Address) (coins : Coins)
  | returned (poolName : PoolName) (coins : Coins)
deriving DecidableEq

/-! ## Effects -/

/-- What the handlers check of a changed lock: a new one is at least the pool's minimum, and an old
one that was stays so or is emptied. -/
def LockChange (pool : FarmPool) (old : Option LockInfo) (change : Int) : Prop :=
  match old with
  | none => 0 < change ∧ pool.minLockAmount.amount ≤ change
  | some li => 0 < li.amount.amount → pool.minLockAmount.amount ≤ li.amount.amount →
    li.amount.amount + change = 0 ∨
      0 < li.amount.amount + change ∧ pool.minLockAmount.amount ≤ li.amount.amount + change

/-- What the handlers do. -/
inductive FarmEffect (height : Nat) (createOK : FarmBooks → PoolName → Prop) :
    FarmLedger → List FarmEvent → FarmLedger → Prop where
  | create {l l' : FarmLedger} (params : FarmParams) (msg : MsgCreatePool)
      (h : FarmState.Created height l params msg l') (hbasic : msg.validateBasic = none)
      (hok : createOK l.books msg.poolName) : FarmEffect height createOK l [] l'
  | destroy {l l' : FarmLedger} (pool : FarmPool) (cur : PoolCurrentRewards)
      (h : FarmState.Destroyed height l pool cur l') : FarmEffect height createOK l
        [.returned pool.name (pool.afterYield cur.startBlockHeight height).totalAccumulatedRewards] l'
  | provide {l l' : FarmLedger} (pool : FarmPool) (cur : PoolCurrentRewards)
      (hist : PoolHistoricalRewards) (info : YieldedTokenInfo) (msg : MsgProvide)
      (h : FarmState.Provided height l pool cur hist info msg l')
      (hbasic : msg.validateBasic = none) :
      FarmEffect height createOK l [.provided pool.name msg.amount.toCoins] l'
  | relock {l l' : FarmLedger} (pool : FarmPool) (cur : PoolCurrentRewards)
      (hist : PoolHistoricalRewards) (addr : Address) (old : Option LockInfo) (change : Int)
      (rewards : Coins) (h : FarmState.Relock height l pool cur hist addr old change rewards l')
      (hchange : LockChange pool old change) :
      FarmEffect height createOK l [.claimed pool.name addr rewards] l'
  | credit {l : FarmLedger} (pool : FarmPool) (cur : PoolCurrentRewards) (amount : Int)
      (hpool : l.books.farmPools.get pool.name = some pool)
      (hcur : l.books.currentRewards.get pool.name = some cur) (hnonneg : 0 ≤ amount) :
      FarmEffect height createOK l [.allocated pool.name (coin bondDenom amount)]
        ⟨l.books.credit pool cur amount, l.farm, l.yield + coin bondDenom amount⟩
  | enlist {l : FarmLedger} (pool : FarmPool)
      (hpool : l.books.farmPools.get pool.name = some pool) :
      FarmEffect height createOK l [] { l with books := l.books.setWhitelist pool.name }
  | delist {l : FarmLedger} (poolName : PoolName) :
      FarmEffect height createOK l [] { l with books := l.books.deleteWhiteList poolName }

/-- A chain of effects, with all their events. -/
inductive FarmEffects (height : Nat) (createOK : FarmBooks → PoolName → Prop) :
    FarmLedger → List FarmEvent → FarmLedger → Prop where
  | refl (l : FarmLedger) : FarmEffects height createOK l [] l
  | head {l l' l'' : FarmLedger} {evs evs' : List FarmEvent}
      (he : FarmEffect height createOK l evs l') (h : FarmEffects height createOK l' evs' l'') :
      FarmEffects height createOK l (evs ++ evs') l''

theorem FarmEffect.single {height : Nat} {createOK : FarmBooks → PoolName → Prop}
    {l l' : FarmLedger} {evs : List FarmEvent} (h : FarmEffect height createOK l evs l') :
    FarmEffects height createOK l evs l' := by
  have := FarmEffects.head h (.refl l')
  rwa [List.append_nil] at this

/-! ## The begin of a block -/

namespace FarmState

variable {sk : SupplyKeeper B} {height : Nat} {s s' : FarmState B}
  {createOK : FarmBooks → PoolName → Prop}

/-- The collected pools are the stored ones, in the order of the whitelist. -/
theorem calculateAllocateInfo_cases {names : List PoolName} {pools : List (FarmPool × Int)}
    (h : s.calculateAllocateInfo names = .ok pools) :
    (∀ e ∈ pools, s.books.farmPools.get e.1.name = some e.1 ∧ 0 < e.2) ∧
      (pools.map fun e => e.1.name).Sublist names := by
  induction names generalizing pools with
  | nil =>
    cases h
    exact ⟨fun e he => (by cases he), .slnil⟩
  | cons name names ih =>
    unfold calculateAllocateInfo at h
    simp only [bind_eq_ok, orThrow_eq_ok, pure_eq_ok] at h
    obtain ⟨pool, hpool, value, -, rest, hrest, rfl⟩ := h
    obtain ⟨hall, hsub⟩ := ih hrest
    split_ifs with hvalue
    · exact ⟨hall, hsub.cons _⟩
    · have hname : pool.name = name := KeyedStore.key_of_get hpool
      refine ⟨?_, ?_⟩
      · rintro e he
        obtain rfl | he := List.mem_cons.mp he
        · exact ⟨hname ▸ hpool, not_le.mp hvalue⟩
        · exact hall e he
      · rw [List.map_cons, hname]
        exact hsub.cons_cons _

/-- The loop of `BeginBlocker` is a chain of credits. -/
theorem allocate_effects {yielded total remaining left : Int} {pools : List (FarmPool × Int)}
    {b b' : FarmBooks} {allocated : List (PoolName × Int)} (farm yield : Coins)
    (hpools : ∀ e ∈ pools, b.farmPools.get e.1.name = some e.1)
    (hnodup : (pools.map fun e => e.1.name).Nodup)
    (h : allocate yielded total pools remaining b = .ok (b', left, allocated)) :
    FarmEffects height createOK ⟨b, farm, yield⟩
      (allocated.map fun a => .allocated a.1 (coin bondDenom a.2))
      ⟨b', farm, yield + coin bondDenom (remaining - left)⟩ := by
  induction pools generalizing remaining b allocated yield with
  | nil =>
    cases h
    rw [sub_self, coin_zero, add_zero]
    exact .refl _
  | cons e pools ih =>
    obtain ⟨pool, value⟩ := e
    obtain ⟨hnew, hdistinct⟩ := List.nodup_cons.mp hnodup
    unfold allocate at h
    simp only [bind_eq_ok, require_eq_ok, exists_const, FarmBooks.getPoolCurrentRewards_eq_ok,
      pure_eq_ok, Prod.exists, Prod.mk.injEq] at h
    obtain ⟨hnonneg, cur, hcur, b₁, left₁, rest, hrest, rfl, rfl, rfl⟩ := h
    generalize (if pools.isEmpty = true then remaining else
      Dec.quoTruncate (Dec.mulTruncate value yielded) total) = amount at hnonneg hrest ⊢
    have hcredit : FarmEffect height createOK ⟨b, farm, yield⟩ _ _ :=
      .credit pool cur amount (hpools _ List.mem_cons_self) hcur hnonneg
    have hkept : ∀ e ∈ pools, (b.credit pool cur amount).farmPools.get e.1.name = some e.1 := by
      intro e he
      have hne : e.1.name ≠ pool.name := fun heq =>
        hnew (List.mem_map.mpr ⟨e, he, heq⟩)
      refine Eq.trans (KeyedStore.get_put_ne ?_) (hpools e (List.mem_cons_of_mem _ he))
      exact hne
    have hchain := FarmEffects.head hcredit (ih (yield + coin bondDenom amount) hkept hdistinct hrest)
    rw [add_assoc, ← coin_add] at hchain
    have hsum : amount + (remaining - amount - left₁) = remaining - left₁ := by ring
    rw [hsum] at hchain
    exact hchain

/-- **`BeginBlocker`** is a chain of credits that takes what it credits to the yield account. -/
theorem beginBlocker_effects {allocated : List (PoolName × Int)}
    (h : s.beginBlocker sk = .ok (s', allocated)) :
    FarmEffects height createOK (s.ledger sk)
      (allocated.map fun a => .allocated a.1 (coin bondDenom a.2)) (s'.ledger sk) := by
  have hfm : sk.moduleAddress farmModuleName ≠ sk.moduleAddress mintFarmingAccount :=
    SupplyKeeper.moduleAddress_ne (by decide)
  have hym : sk.moduleAddress yieldFarmingAccount ≠ sk.moduleAddress mintFarmingAccount :=
    SupplyKeeper.moduleAddress_ne (by decide)
  have hfy : sk.moduleAddress farmModuleName ≠ sk.moduleAddress yieldFarmingAccount :=
    SupplyKeeper.moduleAddress_ne (by decide)
  unfold beginBlocker at h
  simp only at h
  generalize sk.moduleCoins s.bank mintFarmingAccount bondDenom = minted at h
  split_ifs at h with hmint hyield
  · cases h
    exact .refl _
  · simp only [bind_eq_ok, orThrow_eq_ok, pure_eq_ok, Prod.mk.injEq] at h
    obtain ⟨bank, hburn, rfl, rfl⟩ := h
    have hsame : FarmState.ledger sk { s with bank := bank } = s.ledger sk := by
      unfold ledger SupplyKeeper.moduleCoins
      simp only
      rw [sk.getCoins_burnCoins hburn, sk.getCoins_burnCoins hburn, if_neg hfm, if_neg hym,
        sub_zero, sub_zero]
    rw [hsame]
    exact .refl _
  · simp only [bind_eq_ok] at h
    obtain ⟨pools, hpools, h⟩ := h
    obtain ⟨hall, hsub⟩ := calculateAllocateInfo_cases hpools
    split_ifs at h
    · cases h
      exact .refl _
    · simp only [bind_eq_ok, orThrow_eq_ok, require_eq_ok, exists_const, pure_eq_ok, Prod.exists,
        Prod.mk.injEq] at h
      obtain ⟨b, left, allocs, halloc, rfl, bank, hsend, rfl, rfl⟩ := h
      have hchain : FarmEffects height createOK (s.ledger sk) _ _ :=
        allocate_effects (sk.moduleCoins s.bank farmModuleName)
          (sk.moduleCoins s.bank yieldFarmingAccount) (fun e he => (hall e he).1)
          (hsub.nodup s.books.whitelist.nodup_keys) halloc
      have hledger : FarmState.ledger sk { s with books := b, bank := bank } =
          ⟨b, sk.moduleCoins s.bank farmModuleName,
            sk.moduleCoins s.bank yieldFarmingAccount + coin bondDenom (minted - 0)⟩ := by
        have hfarm : sk.moduleCoins bank farmModuleName = sk.moduleCoins s.bank farmModuleName :=
          SupplyKeeper.getCoins_other hsend hfm hfy
        have hgain : sk.moduleCoins bank yieldFarmingAccount = _ :=
          SupplyKeeper.getCoins_target hsend hym.symm
        unfold ledger
        simp only
        rw [hfarm, hgain, sub_zero]
        rfl
      rw [hledger]
      exact hchain

/-! ## The handlers -/

theorem handleManageWhiteListProposal_effects {proposal : ManageWhiteListProposal}
    (h : s.handleManageWhiteListProposal proposal = .ok s') :
    FarmEffects height createOK (s.ledger sk) [] (s'.ledger sk) := by
  unfold handleManageWhiteListProposal checkMsgManageWhiteListProposal at h
  cases hadd : proposal.isAdded with
  | true =>
    simp only [hadd, if_true, bind_eq_ok, orThrow_eq_ok, pure_eq_ok] at h
    obtain ⟨-, ⟨pool, hpool, -⟩, rfl⟩ := h
    have hname : pool.name = proposal.poolName := KeyedStore.key_of_get hpool
    rw [← hname] at hpool ⊢
    have heff : FarmEffect height createOK (s.ledger sk) [] _ := .enlist pool hpool
    exact heff.single
  | false =>
    simp only [hadd, Bool.false_eq_true, if_false, bind_eq_ok, require_eq_ok, exists_const,
      pure_eq_ok] at h
    obtain ⟨-, rfl⟩ := h
    have heff : FarmEffect height createOK (s.ledger sk) [] _ := .delist proposal.poolName
    exact heff.single

theorem handleMsgLock_effects {msg : MsgLock} {rewards : Coins}
    (hbasic : msg.validateBasic = none) (huser : sk.IsUser msg.address)
    (h : s.handleMsgLock sk height msg = .ok (s', rewards)) :
    FarmEffects height createOK (s.ledger sk) [.claimed msg.poolName msg.address rewards]
      (s'.ledger sk) := by
  have hpos := MsgLock.amount_pos hbasic
  obtain ⟨pool, cur, hist, old, hname, hrelock, hmin⟩ := handleMsgLock_relock huser hpos h
  rw [← hname]
  refine (FarmEffect.relock pool cur hist msg.address old msg.amount.amount rewards hrelock
    ?_).single
  cases old with
  | none => exact ⟨hpos, hmin rfl⟩
  | some li =>
    intro hli hle
    exact .inr ⟨by omega, by omega⟩

theorem handleMsgUnlock_effects {msg : MsgLock} {rewards : Coins} (huser : sk.IsUser msg.address)
    (h : s.handleMsgUnlock sk height msg = .ok (s', rewards)) :
    FarmEffects height createOK (s.ledger sk) [.claimed msg.poolName msg.address rewards]
      (s'.ledger sk) := by
  obtain ⟨pool, cur, hist, li, hname, hrelock, hle, hmin⟩ := handleMsgUnlock_relock huser h
  rw [← hname]
  refine (FarmEffect.relock pool cur hist msg.address (some li) _ rewards hrelock ?_).single
  intro hli _
  obtain hzero | hmin := hmin
  · exact .inl (by omega)
  · by_cases hzero : li.amount.amount + -msg.amount.amount = 0
    · exact .inl hzero
    · exact .inr ⟨by omega, by omega⟩

theorem handleMsgClaim_effects {msg : MsgClaim} {rewards : Coins} (huser : sk.IsUser msg.address)
    (h : s.handleMsgClaim sk height msg = .ok (s', rewards)) :
    FarmEffects height createOK (s.ledger sk) [.claimed msg.poolName msg.address rewards]
      (s'.ledger sk) := by
  obtain ⟨pool, cur, hist, li, hname, hrelock⟩ := handleMsgClaim_relock huser h
  rw [← hname]
  refine (FarmEffect.relock pool cur hist msg.address (some li) 0 rewards hrelock ?_).single
  intro hli hle
  rw [add_zero]
  exact .inr ⟨hli, hle⟩

end FarmState

/-! ## Nodes -/

/-- What other modules write. -/
structure FarmOutside (B : Type) where
  params : FarmParams
  swap : SwapView
  bank : B

/-- The actions of a node. -/
inductive FarmAction (B : Type) where
  | createPool (msg : MsgCreatePool)
  | destroyPool (msg : MsgDestroyPool)
  | provide (msg : MsgProvide)
  | lock (msg : MsgLock)
  | unlock (msg : MsgLock)
  | claim (msg : MsgClaim)
  | manageWhiteList (proposal : ManageWhiteListProposal)
  | beginBlock
  | nextBlock
  | outside (c : FarmOutside B)

/-- A node. -/
structure FarmNode (B : Type) where
  height : Nat
  state : FarmState B
  history : List FarmEvent

/-- The node after a handler. -/
def FarmNode.deliver (n : FarmNode B) {α : Type} (r : Except FarmError (FarmState B × α))
    (events : α → List FarmEvent) : FarmNode B :=
  match r with
  | .error _ => n
  | .ok (s, a) => { n with state := s, history := n.history ++ events a }

/-- One action of a node. -/
def FarmNode.step (sk : SupplyKeeper B) (n : FarmNode B) : FarmAction B → FarmNode B
  | .createPool msg =>
    n.deliver ((n.state.handleMsgCreatePool sk n.height msg).map fun s => (s, ())) fun _ => []
  | .destroyPool msg =>
    n.deliver (n.state.handleMsgDestroyPool sk n.height msg) fun returned =>
      [.returned msg.poolName returned]
  | .provide msg =>
    n.deliver ((n.state.handleMsgProvide sk n.height msg).map fun s => (s, ())) fun _ =>
      [.provided msg.poolName msg.amount.toCoins]
  | .lock msg =>
    n.deliver (n.state.handleMsgLock sk n.height msg) fun rewards =>
      [.claimed msg.poolName msg.address rewards]
  | .unlock msg =>
    n.deliver (n.state.handleMsgUnlock sk n.height msg) fun rewards =>
      [.claimed msg.poolName msg.address rewards]
  | .claim msg =>
    n.deliver (n.state.handleMsgClaim sk n.height msg) fun rewards =>
      [.claimed msg.poolName msg.address rewards]
  | .manageWhiteList proposal =>
    n.deliver ((n.state.handleManageWhiteListProposal proposal).map fun s => (s, ())) fun _ => []
  | .beginBlock =>
    n.deliver (n.state.beginBlocker sk) fun allocated =>
      allocated.map fun a => .allocated a.1 (coin bondDenom a.2)
  | .nextBlock => { n with height := n.height + 1 }
  | .outside c =>
    { n with state := { n.state with params := c.params, swap := c.swap, bank := c.bank } }

/-- The error an action ends with, if it does. -/
def FarmNode.failure (sk : SupplyKeeper B) (n : FarmNode B) : FarmAction B → Option FarmError
  | .createPool msg => Okexchain.failure (n.state.handleMsgCreatePool sk n.height msg)
  | .destroyPool msg => Okexchain.failure (n.state.handleMsgDestroyPool sk n.height msg)
  | .provide msg => Okexchain.failure (n.state.handleMsgProvide sk n.height msg)
  | .lock msg => Okexchain.failure (n.state.handleMsgLock sk n.height msg)
  | .unlock msg => Okexchain.failure (n.state.handleMsgUnlock sk n.height msg)
  | .claim msg => Okexchain.failure (n.state.handleMsgClaim sk n.height msg)
  | .manageWhiteList proposal => Okexchain.failure (n.state.handleManageWhiteListProposal proposal)
  | .beginBlock => Okexchain.failure (n.state.beginBlocker sk)
  | .nextBlock => none
  | .outside _ => none

/-- The actions a run may take at a node. -/
def FarmAllowed (sk : SupplyKeeper B) (createOK : FarmBooks → PoolName → Prop) (n : FarmNode B) :
    FarmAction B → Prop
  | .createPool msg => msg.validateBasic = none ∧ sk.IsUser msg.owner ∧
    createOK n.state.books msg.poolName
  | .destroyPool msg => msg.validateBasic = none ∧ sk.IsUser msg.owner
  | .provide msg => msg.validateBasic = none ∧ sk.IsUser msg.address
  | .lock msg => msg.validateBasic = none ∧ sk.IsUser msg.address
  | .unlock msg => msg.validateBasic = none ∧ sk.IsUser msg.address
  | .claim msg => msg.validateBasic = none ∧ sk.IsUser msg.address
  | .manageWhiteList _ => True
  | .beginBlock => True
  | .nextBlock => True
  | .outside c =>
    sk.moduleCoins c.bank farmModuleName = sk.moduleCoins n.state.bank farmModuleName ∧
      sk.moduleCoins c.bank yieldFarmingAccount = sk.moduleCoins n.state.bank yieldFarmingAccount

/-- An empty farm module. -/
structure FarmGenesis (sk : SupplyKeeper B) (s : FarmState B) : Prop where
  books : s.books = ⟨∅, ∅, ∅, ∅, ∅, ∅⟩
  farm : sk.moduleCoins s.bank farmModuleName = 0
  yield : sk.moduleCoins s.bank yieldFarmingAccount = 0

/-- The nodes of the runs from an empty farm module. -/
inductive FarmReach (sk : SupplyKeeper B) (createOK : FarmBooks → PoolName → Prop) :
    FarmNode B → Prop where
  | genesis {height : Nat} {s : FarmState B} (h : FarmGenesis sk s) :
      FarmReach sk createOK ⟨height, s, []⟩
  | step {n : FarmNode B} {a : FarmAction B} (hn : FarmReach sk createOK n)
      (ha : FarmAllowed sk createOK n a) : FarmReach sk createOK (n.step sk a)

section Runs

variable {sk : SupplyKeeper B} {createOK : FarmBooks → PoolName → Prop} {n : FarmNode B}

theorem FarmNode.deliver_effects {α : Type} {r : Except FarmError (FarmState B × α)}
    {events : α → List FarmEvent}
    (hr : ∀ s' a, r = .ok (s', a) →
      FarmEffects n.height createOK (n.state.ledger sk) (events a) (s'.ledger sk)) :
    ∃ evs, FarmEffects n.height createOK (n.state.ledger sk) evs
        ((n.deliver r events).state.ledger sk) ∧
      (n.deliver r events).height = n.height ∧ (n.deliver r events).history = n.history ++ evs := by
  cases r with
  | error e => exact ⟨[], .refl _, rfl, (List.append_nil _).symm⟩
  | ok r => exact ⟨events r.2, hr r.1 r.2 rfl, rfl, rfl⟩

/-- **What a step does**: a chain of effects, or the next block. -/
theorem FarmNode.step_effects {a : FarmAction B} (ha : FarmAllowed sk createOK n a) :
    (∃ evs, FarmEffects n.height createOK (n.state.ledger sk) evs ((n.step sk a).state.ledger sk) ∧
      (n.step sk a).height = n.height ∧ (n.step sk a).history = n.history ++ evs) ∨
    a = .nextBlock := by
  have hunit : ∀ {x : Except FarmError (FarmState B)} {s' : FarmState B} {u : Unit},
      (x.map fun s => (s, ())) = .ok (s', u) → x = .ok s' := by
    intro x s' u hx
    cases x with
    | error e => cases hx
    | ok s => cases hx; rfl
  cases a with
  | createPool msg =>
    refine .inl (n.deliver_effects fun s' u hr => ?_)
    have hcreated := FarmState.handleMsgCreatePool_created ha.2.1 (hunit hr)
    exact (FarmEffect.create _ msg hcreated ha.1 ha.2.2).single
  | destroyPool msg =>
    refine .inl (n.deliver_effects fun s' returned hr => ?_)
    obtain ⟨pool, cur, hname, hdestroyed, rfl⟩ := FarmState.handleMsgDestroyPool_destroyed ha.2 hr
    rw [← hname]
    exact (FarmEffect.destroy pool cur hdestroyed).single
  | provide msg =>
    refine .inl (n.deliver_effects fun s' u hr => ?_)
    obtain ⟨pool, cur, hist, info, hname, hprovided⟩ :=
      FarmState.handleMsgProvide_provided ha.2 (hunit hr)
    rw [← hname]
    exact (FarmEffect.provide pool cur hist info msg hprovided ha.1).single
  | lock msg =>
    exact .inl (n.deliver_effects fun s' r hr => FarmState.handleMsgLock_effects ha.1 ha.2 hr)
  | unlock msg =>
    exact .inl (n.deliver_effects fun s' r hr => FarmState.handleMsgUnlock_effects ha.2 hr)
  | claim msg =>
    exact .inl (n.deliver_effects fun s' r hr => FarmState.handleMsgClaim_effects ha.2 hr)
  | manageWhiteList proposal =>
    exact .inl (n.deliver_effects fun s' u hr =>
      FarmState.handleManageWhiteListProposal_effects (hunit hr))
  | beginBlock =>
    exact .inl (n.deliver_effects fun s' r hr => FarmState.beginBlocker_effects hr)
  | nextBlock => exact .inr rfl
  | outside c =>
    refine .inl ⟨[], ?_, rfl, (List.append_nil _).symm⟩
    have hsame : (n.step sk (.outside c)).state.ledger sk = n.state.ledger sk := by
      unfold FarmState.ledger
      show FarmLedger.mk n.state.books (sk.moduleCoins c.bank _) (sk.moduleCoins c.bank _) = _
      rw [ha.1, ha.2]
    rw [hsame]
    exact .refl _

/-- A property of the history and the ledger that the effects keep. -/
structure FarmKeeps (createOK : FarmBooks → PoolName → Prop)
    (P : List FarmEvent → FarmLedger → Prop) : Prop where
  genesis : P [] ⟨⟨∅, ∅, ∅, ∅, ∅, ∅⟩, 0, 0⟩
  effect : ∀ height history l evs l', FarmEffect height createOK l evs l' → P history l →
    P (history ++ evs) l'

/-- **What is kept holds in every run.** -/
theorem FarmKeeps.reach {P : List FarmEvent → FarmLedger → Prop} (hP : FarmKeeps createOK P)
    (hn : FarmReach sk createOK n) : P n.history (n.state.ledger sk) := by
  induction hn with
  | @genesis height s h =>
    have hledger : s.ledger sk = ⟨⟨∅, ∅, ∅, ∅, ∅, ∅⟩, 0, 0⟩ := by
      unfold FarmState.ledger
      rw [h.books, h.farm, h.yield]
    rw [hledger]
    exact hP.genesis
  | @step n a hn ha ih =>
    obtain ⟨evs, heffs, -, hhistory⟩ | rfl := FarmNode.step_effects ha
    · rw [hhistory]
      generalize (n.step sk a).state.ledger sk = l' at heffs
      generalize n.state.ledger sk = l at ih heffs
      generalize n.history = history at ih
      clear hhistory
      induction heffs generalizing history with
      | refl => rwa [List.append_nil]
      | head he _ ih' =>
        rw [← List.append_assoc]
        exact ih' _ (hP.effect _ _ _ _ _ he ih)
    · exact ih

/-! ## Runs as lists of actions -/

/-- The node after a list of actions. -/
def FarmNode.run (sk : SupplyKeeper B) (n : FarmNode B) (actions : List (FarmAction B)) :
    FarmNode B :=
  actions.foldl (FarmNode.step sk) n

/-- Every action of the list is one a run may take when its turn comes. -/
def FarmAllowedRun (sk : SupplyKeeper B) (createOK : FarmBooks → PoolName → Prop) :
    FarmNode B → List (FarmAction B) → Prop
  | _, [] => True
  | n, a :: actions => FarmAllowed sk createOK n a ∧ FarmAllowedRun sk createOK (n.step sk a) actions

theorem FarmReach.run (hn : FarmReach sk createOK n) {actions : List (FarmAction B)}
    (hall : FarmAllowedRun sk createOK n actions) : FarmReach sk createOK (n.run sk actions) := by
  induction actions generalizing n with
  | nil => exact hn
  | cons a actions ih => exact ih (.step hn hall.1) hall.2

/-- The node some blocks later. -/
def FarmNode.wait (n : FarmNode B) (blocks : Nat) : FarmNode B :=
  { n with height := n.height + blocks }

theorem FarmReach.wait (hn : FarmReach sk createOK n) (blocks : Nat) :
    FarmReach sk createOK (n.wait blocks) := by
  induction blocks with
  | zero => exact hn
  | succ blocks ih =>
    have hnext : FarmAllowed sk createOK (n.wait blocks) .nextBlock := trivial
    exact ih.step hnext

end Runs

/-! ## A small farm

Alice, who has the token `okt`, owns pools for those who lock `lpt`, as Bob and Carol do, on
`simpleSupply`. -/

/-- A new pool costs a deposit of 10. -/
def farmParams : FarmParams where
  quoteSymbol := "usdk"
  createPoolFee := ⟨bondDenom, 0⟩
  createPoolDeposit := ⟨bondDenom, Dec.newDec 10⟩
  yieldNativeToken := true
  createPoolFee_nonneg := by decide
  createPoolDeposit_nonneg := by decide

/-- The farm before its first pool. -/
def farmStart : FarmNode (KVStore Address Coins) where
  height := 1
  state := {
    books := ⟨∅, ∅, ∅, ∅, ∅, ∅⟩
    params := farmParams
    swap := ⟨fun _ _ => none, fun _ _ _ => none⟩
    bank := (((∅ : KVStore Address Coins).set "alice" (coin bondDenom (Dec.newDec 1000))).set "bob"
      (coin "lpt" (Dec.newDec 1000))).set "carol" (coin "lpt" (Dec.newDec 1000)) }
  history := []

theorem reach_farmStart (createOK : FarmBooks → PoolName → Prop) :
    FarmReach simpleSupply createOK farmStart :=
  .genesis ⟨rfl, rfl, rfl⟩

/-- The pool named by the byte of the letter a. -/
def poolA : PoolName := [⟨97, by decide⟩]

/-- Alice's pool yields 1 a block from height 2 on; Bob locks 30 and Carol 10 at height 1. -/
def poolAOpen : FarmNode (KVStore Address Coins) :=
  farmStart.run simpleSupply [.createPool ⟨"alice", poolA, ⟨"lpt", Dec.newDec 5⟩, bondDenom⟩,
    .provide ⟨poolA, "alice", ⟨bondDenom, Dec.newDec 100⟩, Dec.newDec 1, 2⟩,
    .lock ⟨poolA, "bob", ⟨"lpt", Dec.newDec 30⟩⟩, .lock ⟨poolA, "carol", ⟨"lpt", Dec.newDec 10⟩⟩]

theorem reach_poolAOpen {createOK : FarmBooks → PoolName → Prop}
    (hok : createOK farmStart.state.books poolA) :
    FarmReach simpleSupply createOK poolAOpen :=
  have halice : simpleSupply.IsUser "alice" := isUser_simpleSupply (by decide)
  have hbob : simpleSupply.IsUser "bob" := isUser_simpleSupply (by decide)
  have hcarol : simpleSupply.IsUser "carol" := isUser_simpleSupply (by decide)
  .run (reach_farmStart _) ⟨⟨by decide, halice, hok⟩, ⟨by decide, halice⟩, ⟨by decide, hbob⟩,
    ⟨by decide, hcarol⟩, trivial⟩

end Okexchain
