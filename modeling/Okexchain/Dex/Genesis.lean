import Okexchain.Dex.Deposits
import Okexchain.Lib.Checked

/-!
# The exported genesis of the dex module

Model of `x/dex/genesis.go`: `InitGenesis` and `ExportGenesis`, over the stores of the module with
the IDs of token pairs, which `SaveTokenPair` hands out and nothing else reads.

* `DexStores` is the state of the handlers with the ID of every pair and the maximal ID. An ID is a
  `uint64`, so the one after the last is zero, and a pair with ID zero is given a new one when it is
  saved.
* A call is an action of the module (a message, the execution of a delist proposal, the end of a
  block, what other modules do), or gov switching the `Delisting` flag of a pair
  (`AfterDepositPeriodPassed`, `RejectedHandler`).
* Of an operator only the address that receives the fees is kept; the other fields are copied by
  export and import.

`ExportGenesis` writes pairs, withdrawals, locks, operators and the maximal ID; the index of a
user's pairs and the queue of withdrawal times are rebuilt from them. Ownership transfers that wait
for their confirmation are not written.

**Results.**
* `DexStores.Sound`: the queue agrees with the withdrawals, every pair is in the index under its
  owner, and IDs are below the maximal one. It holds in every run (`StoresReach.sound`).
* `dex_genesis_round_trip_iff`: import gives the stores back exactly when no transfer is stored and
  the index has no entry of a former owner. `offer_lost_in_export` is an offer that cannot be
  accepted after a restart.
-/

namespace Okexchain

variable {B : Type}

/-! ## The stores -/

/-- The stores of the dex module. -/
structure DexStores (B : Type) where
  state : DexState B
  /-- The field `ID` of every stored pair. -/
  tokenPairIDs : KVStore String Nat
  maxTokenPairID : Nat

/-- `GenesisState`. A pair comes with its ID. -/
structure DexGenesisState where
  params : DexParams
  tokenPairs : List (TokenPair × Nat)
  withdrawInfos : List WithdrawInfo
  productLocks : List (String × ProductLock)
  operators : List (Address × Address)
  maxTokenPairID : Nat

namespace DexStores

/-- The part of `SaveTokenPair` that is about IDs. -/
def saveID (st : DexStores B) (product : String) (id : Nat) : DexStores B :=
  let id := if id = 0 then (st.maxTokenPairID + 1) % 2 ^ 64 else id
  { st with
    tokenPairIDs := st.tokenPairIDs.set product id
    maxTokenPairID := if st.maxTokenPairID < id then id else st.maxTokenPairID }

/-- `SaveTokenPair` of a pair with an ID. -/
def saveTokenPair (st : DexStores B) (tp : TokenPair × Nat) : DexStores B :=
  { st.saveID tp.1.name tp.2 with state := st.state.saveTokenPair tp.1 }

/-- The entries of a withdrawal: `SetWithdrawInfo` and `SetWithdrawCompleteTimeAddress`. -/
def setWithdraw (st : DexStores B) (info : WithdrawInfo) : DexStores B :=
  { st with state := { st.state with
    withdrawInfos := st.state.withdrawInfos.set info.owner info
    withdrawTimes := st.state.withdrawTimes.set (toLex (info.completeTime, info.owner)) () } }

/-- `LockTokenPair`. -/
def lockTokenPair (st : DexStores B) (lock : String × ProductLock) : DexStores B :=
  { st with state := { st.state with dex := st.state.dex.lockTokenPair lock.1 lock.2 } }

/-- Empty stores next to a bank. -/
def empty (params : DexParams) (bank : B) : DexStores B where
  state := {
    dex := ⟨⟨∅, TokenPairStore.named_empty⟩, ∅, ∅⟩
    userTokenPairs := ∅
    confirmOwnerships := ∅
    withdrawInfos := ∅
    withdrawTimes := ∅
    params := params
    bank := bank }
  tokenPairIDs := ∅
  maxTokenPairID := 0

/-- `SetOperator`. -/
def setOperator (st : DexStores B) (operator : Address × Address) : DexStores B :=
  { st with state := { st.state with dex := { st.state.dex with
    operators := st.state.dex.operators.set operator.1 operator.2 } } }

/-- `InitGenesis` on empty stores, next to a bank that has the module account. -/
def initGenesis (bank : B) (data : DexGenesisState) : DexStores B :=
  let st := data.operators.foldl setOperator (empty data.params bank)
  let st := { st with maxTokenPairID := data.maxTokenPairID }
  let st := data.tokenPairs.foldl saveTokenPair st
  let st := data.withdrawInfos.foldl setWithdraw st
  data.productLocks.foldl lockTokenPair st

/-- `ExportGenesis`. -/
def exportGenesis (st : DexStores B) : DexGenesisState where
  params := st.state.params
  tokenPairs := st.state.dex.tokenPairs.pairs.entries.map fun e =>
    (e.2, (st.tokenPairIDs.get e.1).getD 0)
  withdrawInfos := st.state.withdrawInfos.entries.map Prod.snd
  productLocks := st.state.dex.productLocks.entries
  operators := st.state.dex.operators.entries
  maxTokenPairID := st.maxTokenPairID

/-- The stores after a restart from their export, with the same bank. -/
def restarted (st : DexStores B) : DexStores B := initGenesis st.state.bank st.exportGenesis

end DexStores

/-! ## Runs -/

/-- What happens to the stores. -/
inductive DexCall (B : Type) where
  | action (a : DexAction B)
  | setDelisting (product : String) (delisting : Bool)

namespace DexStores

/-- The IDs after an action: a product that was listed gets one, one that was delisted loses it. -/
def withIDs (sk : SupplyKeeper B) (ctx : BlockContext) (st : DexStores B) :
    DexAction B → DexStores B
  | .list msg =>
    match st.state.handleMsgList sk ctx msg with
    | .ok _ => st.saveID (msg.listAsset ++ "_" ++ msg.quoteAsset) 0
    | .error _ => st
  | .delist baseAsset quoteAsset =>
    match st.state.handleDelistProposal ctx baseAsset quoteAsset with
    | .ok _ => { st with tokenPairIDs := st.tokenPairIDs.delete (baseAsset ++ "_" ++ quoteAsset) }
    | .error _ => st
  | _ => st

/-- One call in a block, with the block after it. -/
def step (sk : SupplyKeeper B) (ctx : BlockContext) (st : DexStores B) :
    DexCall B → BlockContext × DexStores B
  | .action a =>
    let n := DexNode.step sk ⟨ctx, st.state, []⟩ a
    (n.ctx, { st.withIDs sk ctx a with state := n.state })
  | .setDelisting product delisting =>
    match st.state.getTokenPair product with
    | none => (ctx, st)
    | some tp => (ctx, { st with
        state := st.state.updateTokenPair { tp with delisting := delisting } })

/-- What a call reports: the error of a message that fails, and the withdrawals that the end of a
block has paid and those it could not pay. -/
def result (sk : SupplyKeeper B) (ctx : BlockContext) (st : DexStores B) :
    DexCall B → Except DexError (List WithdrawInfo × List Address)
  | .action (.list msg) => (st.state.handleMsgList sk ctx msg).map fun _ => ([], [])
  | .action (.deposit msg) => (st.state.handleMsgDeposit sk ctx msg).map fun _ => ([], [])
  | .action (.withdraw msg) => (st.state.handleMsgWithDraw ctx msg).map fun _ => ([], [])
  | .action (.transferOwnership msg) =>
    (st.state.handleMsgTransferOwnership sk ctx msg).map fun _ => ([], [])
  | .action (.confirmOwnership msg) =>
    (st.state.handleMsgConfirmOwnership ctx msg).map fun _ => ([], [])
  | .action (.createOperator msg) =>
    (st.state.handleMsgCreateOperator sk msg).map fun _ => ([], [])
  | .action (.updateOperator msg) => (st.state.handleMsgUpdateOperator msg).map fun _ => ([], [])
  | .action (.delist baseAsset quoteAsset) =>
    (st.state.handleDelistProposal ctx baseAsset quoteAsset).map fun _ => ([], [])
  | .action .endBlock =>
    let r := st.state.endBlocker sk ctx.time
    .ok (r.paid, r.failed)
  | _ => .ok ([], [])

/-- The results of a sequence of calls and the stores it leaves. -/
def behaviour (sk : SupplyKeeper B) : BlockContext → DexStores B → List (DexCall B) →
    List (Except DexError (List WithdrawInfo × List Address)) × DexStores B
  | _, st, [] => ([], st)
  | ctx, st, c :: calls =>
    let (ctx', st') := st.step sk ctx c
    let r := behaviour sk ctx' st' calls
    (st.result sk ctx c :: r.1, r.2)

end DexStores

/-- The stores of the runs from an empty dex module. -/
inductive StoresReach (sk : SupplyKeeper B) : BlockContext → DexStores B → Prop where
  | genesis {ctx : BlockContext} {st : DexStores B} (h : DexGenesis sk st.state)
      (hids : st.tokenPairIDs = ∅) (hmax : st.maxTokenPairID < 2 ^ 64) : StoresReach sk ctx st
  | action {ctx : BlockContext} {st : DexStores B} {a : DexAction B} (h : StoresReach sk ctx st)
      (ha : DexAllowed sk (fun _ _ _ => True) ⟨ctx, st.state, []⟩ a) :
      StoresReach sk (st.step sk ctx (.action a)).1 (st.step sk ctx (.action a)).2
  | setDelisting {ctx : BlockContext} {st : DexStores B} (product : String) (delisting : Bool)
      (h : StoresReach sk ctx st) :
      StoresReach sk ctx (st.step sk ctx (.setDelisting product delisting)).2

/-! ## What holds in every run -/

namespace DexState

/-- Every pair is in the index under its owner. -/
def Indexed (s : DexState B) : Prop :=
  ∀ product tp, s.getTokenPair product = some tp →
    (s.userTokenPairs.get (toLex (tp.owner, product))).isSome

section Indexed

variable {sk : SupplyKeeper B} {listOK : Int → DexState B → String → Prop} {now : Int}
  {s s' : DexState B} {evs : List DexEvent}

/-- A pair is replaced by one of the same owner, and the index stays. -/
theorem Indexed.update (h : s.Indexed) {tp tp' : TokenPair}
    (hpairs : ∀ product, s'.getTokenPair product =
      if product = tp'.name then some tp' else s.getTokenPair product)
    (hindex : s'.userTokenPairs = s.userTokenPairs) (hget : s.getTokenPair tp.name = some tp)
    (hname : tp'.name = tp.name) (howner : tp'.owner = tp.owner) : s'.Indexed := by
  intro product tp₁ h₁
  rw [hpairs] at h₁
  rw [hindex]
  split_ifs at h₁ with hp
  · cases h₁
    rw [hp, hname, howner]
    exact h _ _ hget
  · exact h _ _ h₁

theorem Indexed.effect (h : s.Indexed) (he : Effect sk listOK now s evs s') : s'.Indexed := by
  cases he with
  | host bank operators productLocks params hbank => exact h
  | list tp hnew hzero huser hok =>
    intro product tp₁ h₁
    rw [get_saveTokenPair] at h₁
    show ((s.userTokenPairs.set _ ()).get _).isSome
    rw [KVStore.get_set]
    split_ifs at h₁ with hp
    · cases h₁
      rw [if_pos (by rw [hp])]
      rfl
    · split_ifs
      · rfl
      · exact h _ _ h₁
  | deposit tp amount bank hget hpos hidle hbank =>
    exact h.update (get_updateTokenPair _) rfl hget rfl rfl
  | withdraw tp amount hget hpos hle => exact h.update (get_updateTokenPair _) rfl hget rfl rfl
  | delist tp hget hzero =>
    intro product tp₁ h₁
    rw [get_deleteTokenPairByName] at h₁
    split_ifs at h₁ with hp
    show ((s.userTokenPairs.delete _).get _).isSome
    rw [KVStore.get_delete_ne fun heq => hp (congrArg (fun q => (ofLex q).2) heq)]
    exact h _ _ h₁
  | transfer tp target hget hzero => exact h
  | confirm tp c hget hc htime huser =>
    -- the entry of the account that made the offer goes, the one of the new owner comes
    intro product tp₁ h₁
    change (s.updateTokenPair _).getTokenPair product = some tp₁ at h₁
    rw [get_updateTokenPair] at h₁
    show (((s.userTokenPairs.delete _).set _ ()).get _).isSome
    rw [KVStore.get_set]
    split_ifs at h₁ with hp
    · cases h₁
      rw [if_pos (by rw [hp]; rfl)]
      rfl
    · split_ifs
      · rfl
      · rw [KVStore.get_delete_ne fun heq => hp (congrArg (fun q => (ofLex q).2) heq)]
        exact h _ _ h₁

/-- Whether a product is listed after these events. -/
def listedAfter (product : String) (listed : Bool) (evs : List DexEvent) : Bool :=
  evs.foldl (fun listed e =>
    match e with
    | .listed p => listed || decide (p = product)
    | .delisted p => listed && !decide (p = product)
    | _ => listed) listed

theorem isSome_effect (he : Effect sk listOK now s evs s') (product : String) :
    (s'.getTokenPair product).isSome = listedAfter product (s.getTokenPair product).isSome evs := by
  have hupdate : ∀ {tp tp' : TokenPair}, s.getTokenPair tp.name = some tp → tp'.name = tp.name →
      (if product = tp'.name then some tp' else s.getTokenPair product).isSome =
        (s.getTokenPair product).isSome := by
    intro tp tp' hget hname
    split_ifs with hp
    · rw [hp, hname, hget]
      rfl
    · rfl
  cases he with
  | host bank operators productLocks params hbank => rfl
  | list tp hnew hzero huser hok =>
    rw [get_saveTokenPair]
    simp only [listedAfter, List.foldl_cons, List.foldl_nil]
    split_ifs with hp
    · rw [decide_eq_true hp.symm, Bool.or_true]
      rfl
    · rw [decide_eq_false fun h => hp h.symm, Bool.or_false]
  | deposit tp amount bank hget hpos hidle hbank =>
    rw [get_updateTokenPair]
    exact hupdate hget rfl
  | withdraw tp amount hget hpos hle =>
    rw [get_updateTokenPair]
    exact hupdate hget rfl
  | delist tp hget hzero =>
    rw [get_deleteTokenPairByName]
    simp only [listedAfter, List.foldl_cons, List.foldl_nil]
    split_ifs with hp
    · rw [decide_eq_true hp.symm, Bool.not_true, Bool.and_false]
      rfl
    · rw [decide_eq_false fun h => hp h.symm, Bool.not_false, Bool.and_true]
  | transfer tp target hget hzero => rfl
  | confirm tp c hget hc htime huser =>
    show ((s.updateTokenPair _).getTokenPair product).isSome = _
    rw [get_updateTokenPair]
    exact hupdate hget rfl

theorem isSome_effects (he : Effects sk listOK now s evs s') (product : String) :
    (s'.getTokenPair product).isSome = listedAfter product (s.getTokenPair product).isSome evs := by
  induction he with
  | refl => rfl
  | tail _ he ih =>
    rw [isSome_effect he, ih]
    exact List.foldl_append.symm

theorem Indexed.effects (h : s.Indexed) (he : Effects sk listOK now s evs s') : s'.Indexed := by
  induction he with
  | refl => exact h
  | tail _ he ih => exact ih.effect he

theorem NonNegDeposits.effects (h : s.NonNegDeposits) (he : Effects sk listOK now s evs s') :
    s'.NonNegDeposits := by
  induction he with
  | refl => exact h
  | tail _ he ih => exact ih.effect he

end Indexed

end DexState

namespace DexStores

variable {sk : SupplyKeeper B} {ctx : BlockContext} {st st' : DexStores B}

/-- What the IDs of the listed pairs satisfy. -/
structure IDsOK (st : DexStores B) : Prop where
  listed : ∀ product, (st.tokenPairIDs.get product).isSome =
    (st.state.getTokenPair product).isSome
  /-- An ID is at most the maximal one; it is zero only when there are no more. -/
  bound : ∀ product id, st.tokenPairIDs.get product = some id →
    id ≤ st.maxTokenPairID ∧ (id = 0 → st.maxTokenPairID + 1 = 2 ^ 64)
  max : st.maxTokenPairID < 2 ^ 64

/-- **What holds in every run.** -/
structure Sound (sk : SupplyKeeper B) (st : DexStores B) : Prop where
  nonneg : st.state.NonNegDeposits
  backed : ∃ history, Backed sk history st.state
  indexed : st.state.Indexed
  ids : st.IDsOK

theorem saveID_zero (product : String) :
    st.saveID product 0 = { st with
      tokenPairIDs := st.tokenPairIDs.set product ((st.maxTokenPairID + 1) % 2 ^ 64)
      maxTokenPairID :=
        if st.maxTokenPairID < (st.maxTokenPairID + 1) % 2 ^ 64 then
          (st.maxTokenPairID + 1) % 2 ^ 64
        else st.maxTokenPairID } := rfl

/-- A new ID keeps the IDs in order. -/
theorem IDsOK.saveID (h : st.IDsOK) {product : String} {s : DexState B}
    (hlisted : ∀ p, (s.getTokenPair p).isSome =
      ((st.state.getTokenPair p).isSome || decide (product = p))) :
    IDsOK { st.saveID product 0 with state := s } := by
  have hmax := h.max
  have hnew : (st.maxTokenPairID + 1) % 2 ^ 64 = st.maxTokenPairID + 1 ∧
        st.maxTokenPairID + 1 < 2 ^ 64 ∨
      (st.maxTokenPairID + 1) % 2 ^ 64 = 0 ∧ st.maxTokenPairID + 1 = 2 ^ 64 := by
    omega
  rw [saveID_zero]
  refine ⟨fun p => ?_, fun p id hget => ?_, ?_⟩
  · dsimp only
    rw [hlisted, KVStore.get_set]
    split_ifs with hp
    · rw [decide_eq_true hp.symm, Bool.or_true]
      rfl
    · rw [decide_eq_false fun hp' => hp hp'.symm, Bool.or_false]
      exact h.listed p
  · dsimp only at hget ⊢
    rw [KVStore.get_set] at hget
    split_ifs at hget with hp
    · cases hget
      split_ifs <;> omega
    · obtain ⟨hle, hzero⟩ := h.bound p id hget
      split_ifs <;> omega
  · dsimp only
    split_ifs <;> omega

theorem IDsOK.delete (h : st.IDsOK) {product : String} {s : DexState B}
    (hlisted : ∀ p, (s.getTokenPair p).isSome =
      ((st.state.getTokenPair p).isSome && !decide (product = p))) :
    IDsOK { st with tokenPairIDs := st.tokenPairIDs.delete product, state := s } := by
  refine ⟨fun p => ?_, fun p id hget => ?_, h.max⟩
  · dsimp only
    rw [hlisted, KVStore.get_delete]
    split_ifs with hp
    · rw [decide_eq_true hp.symm, Bool.not_true, Bool.and_false]
      rfl
    · rw [decide_eq_false fun hp' => hp hp'.symm, Bool.not_false, Bool.and_true]
      exact h.listed p
  · dsimp only at hget
    rw [KVStore.get_delete] at hget
    split_ifs at hget
    exact h.bound p id hget

/-- Nothing was listed or delisted. -/
theorem IDsOK.same (h : st.IDsOK) {s : DexState B}
    (hlisted : ∀ p, (s.getTokenPair p).isSome = (st.state.getTokenPair p).isSome) :
    IDsOK { st with state := s } :=
  ⟨fun p => (h.listed p).trans (hlisted p).symm, h.bound, h.max⟩

/-! ### A step -/

/-- An event that lists or delists nothing. -/
theorem listedAfter_quiet {product : String} {b : Bool} {evs : List DexEvent}
    (h : ∀ e ∈ evs, (∀ p, e ≠ .listed p) ∧ ∀ p, e ≠ .delisted p) :
    DexState.listedAfter product b evs = b := by
  unfold DexState.listedAfter
  induction evs with
  | nil => rfl
  | cons e evs ih =>
    obtain ⟨⟨hlisted, hdelisted⟩, hrest⟩ := List.forall_mem_cons.mp h
    rw [List.foldl_cons]
    cases e with
    | listed p => exact absurd rfl (hlisted p)
    | delisted p => exact absurd rfl (hdelisted p)
    | _ => exact ih hrest

theorem withdrawAllEvents_quiet (o : Option TokenPair) (owner : TokenPair → Address) :
    ∀ e ∈ o.elim [] fun tp => withdrawAllEvents tp (owner tp),
      (∀ p, e ≠ .listed p) ∧ ∀ p, e ≠ .delisted p := by
  intro e he
  cases o with
  | none => cases he
  | some tp =>
    unfold withdrawAllEvents at he
    dsimp only [Option.elim_some] at he
    split_ifs at he
    · cases List.mem_singleton.mp he
      exact ⟨nofun, nofun⟩
    · cases he

/-- What is listed after a step is what its events say. -/
theorem isSome_step {a : DexAction B} (hs : st.Sound sk)
    (ha : DexAllowed sk (fun _ _ _ => True) ⟨ctx, st.state, []⟩ a) (product : String) :
    ((DexNode.step sk ⟨ctx, st.state, []⟩ a).state.getTokenPair product).isSome =
      DexState.listedAfter product (st.state.getTokenPair product).isSome
        (DexNode.step sk ⟨ctx, st.state, []⟩ a).history := by
  obtain ⟨evs, s', heffs, hstep⟩ | rfl | ⟨time, rfl, -⟩ := DexNode.step_effects hs.nonneg ha
  · rw [hstep]
    exact DexState.isSome_effects heffs product
  · refine Eq.trans ?_ (listedAfter_quiet fun e he => ?_).symm
    · show ((st.state.endBlocker sk ctx.time).state.dex.getTokenPair product).isSome = _
      rw [DexState.endBlocker_frame.1]
      rfl
    · obtain ⟨info, -, rfl⟩ := List.mem_map.mp he
      exact ⟨nofun, nofun⟩
  · rfl

/-- The events of an action that is neither a listing nor a delisting. -/
theorem step_quiet {a : DexAction B} (hlist : ∀ msg, a ≠ .list msg)
    (hdelist : ∀ b q, a ≠ .delist b q) :
    ∀ e ∈ (DexNode.step sk ⟨ctx, st.state, []⟩ a).history,
      (∀ p, e ≠ .listed p) ∧ ∀ p, e ≠ .delisted p := by
  have hdeliver : ∀ {a : DexAction B} {r : Except DexError (DexState B)},
      (∀ e ∈ DexNode.events ⟨ctx, st.state, []⟩ a, (∀ p, e ≠ .listed p) ∧ ∀ p, e ≠ .delisted p) →
      ∀ e ∈ (DexNode.deliver ⟨ctx, st.state, []⟩ a r).history,
        (∀ p, e ≠ .listed p) ∧ ∀ p, e ≠ .delisted p := by
    intro a r hquiet e he
    cases r with
    | error err => cases he
    | ok s => exact hquiet e he
  have hnone : ∀ e ∈ ([] : List DexEvent), (∀ p, e ≠ .listed p) ∧ ∀ p, e ≠ .delisted p :=
    fun e he => absurd he List.not_mem_nil
  cases a with
  | list msg => exact absurd rfl (hlist msg)
  | delist b q => exact absurd rfl (hdelist b q)
  | deposit msg => exact hdeliver hnone
  | withdraw msg =>
    refine hdeliver fun e he => ?_
    cases List.mem_singleton.mp he
    exact ⟨nofun, nofun⟩
  | transferOwnership msg =>
    refine hdeliver fun e he => ?_
    obtain he | he := List.mem_append.mp he
    · exact withdrawAllEvents_quiet _ _ e he
    · cases List.mem_singleton.mp he
      exact ⟨nofun, nofun⟩
  | confirmOwnership msg =>
    refine hdeliver fun e he => ?_
    cases List.mem_singleton.mp he
    exact ⟨nofun, nofun⟩
  | createOperator msg => exact hdeliver hnone
  | updateOperator msg => exact hdeliver hnone
  | endBlock =>
    intro e he
    obtain ⟨info, -, rfl⟩ := List.mem_map.mp he
    exact ⟨nofun, nofun⟩
  | nextBlock time => exact hnone
  | outside c => exact hnone

theorem IDsOK.withIDs {a : DexAction B} (hs : st.Sound sk)
    (ha : DexAllowed sk (fun _ _ _ => True) ⟨ctx, st.state, []⟩ a) :
    IDsOK { st.withIDs sk ctx a with state := (DexNode.step sk ⟨ctx, st.state, []⟩ a).state } := by
  have hlisted := isSome_step hs ha
  have hother : (∀ msg, a ≠ .list msg) → (∀ b q, a ≠ .delist b q) → ∀ p,
      ((DexNode.step sk ⟨ctx, st.state, []⟩ a).state.getTokenPair p).isSome =
        (st.state.getTokenPair p).isSome :=
    fun hlist hdelist p => (hlisted p).trans (listedAfter_quiet (step_quiet hlist hdelist))
  cases a with
  | list msg =>
    cases hr : st.state.handleMsgList sk ctx msg with
    | error err =>
      simp only [DexStores.withIDs, DexNode.step, hr, DexNode.deliver]
      exact hs.ids
    | ok s =>
      simp only [DexNode.step, hr, DexNode.deliver] at hlisted
      simp only [DexStores.withIDs, DexNode.step, hr, DexNode.deliver]
      exact hs.ids.saveID hlisted
  | delist b q =>
    cases hr : st.state.handleDelistProposal ctx b q with
    | error err =>
      simp only [DexStores.withIDs, DexNode.step, hr, DexNode.deliver]
      exact hs.ids
    | ok s =>
      simp only [DexNode.step, hr, DexNode.deliver] at hlisted
      simp only [DexStores.withIDs, DexNode.step, hr, DexNode.deliver]
      refine hs.ids.delete fun p => (hlisted p).trans ?_
      -- before the delisting there may be a withdrawal of the deposits
      unfold DexState.listedAfter DexNode.events
      rw [List.nil_append, List.foldl_append]
      exact congrArg (· && !decide (b ++ "_" ++ q = p))
        (listedAfter_quiet (withdrawAllEvents_quiet _ _))
  | _ => exact hs.ids.same (hother nofun nofun)

theorem Sound.action {a : DexAction B} (hs : st.Sound sk)
    (ha : DexAllowed sk (fun _ _ _ => True) ⟨ctx, st.state, []⟩ a) :
    (st.step sk ctx (.action a)).2.Sound sk := by
  have hids := IDsOK.withIDs hs ha
  obtain ⟨history, hbacked⟩ := hs.backed
  obtain ⟨evs, s', heffs, hstep⟩ | rfl | ⟨time, rfl, -⟩ := DexNode.step_effects hs.nonneg ha
  · have hstate : (DexNode.step sk ⟨ctx, st.state, []⟩ a).state = s' := by rw [hstep]
    rw [hstate] at hids
    show Sound sk { st.withIDs sk ctx a with
      state := (DexNode.step sk ⟨ctx, st.state, []⟩ a).state }
    rw [hstate]
    exact ⟨DexState.NonNegDeposits.effects hs.nonneg heffs, ⟨_, hbacked.effects heffs⟩,
      DexState.Indexed.effects hs.indexed heffs, hids⟩
  · have hdex : (st.state.endBlocker sk ctx.time).state.dex = st.state.dex :=
      DexState.endBlocker_frame.1
    have hindex : (st.state.endBlocker sk ctx.time).state.userTokenPairs =
      st.state.userTokenPairs := DexState.endBlocker_frame.2.2
    have hpairs : ∀ product, (st.state.endBlocker sk ctx.time).state.getTokenPair product =
        st.state.getTokenPair product := by
      intro product
      unfold DexState.getTokenPair
      rw [hdex]
    refine ⟨fun product tp hget => hs.nonneg product tp ((hpairs product).symm.trans hget),
      ⟨_, (hbacked.endBlocker ctx.time hs.nonneg).backed⟩, fun product tp hget => ?_, hids⟩
    show ((st.state.endBlocker sk ctx.time).state.userTokenPairs.get _).isSome
    rw [hindex]
    exact hs.indexed product tp ((hpairs product).symm.trans hget)
  · exact ⟨hs.nonneg, hs.backed, hs.indexed, hids⟩

theorem Sound.setDelisting (hs : st.Sound sk) (product : String) (delisting : Bool) :
    (st.step sk ctx (.setDelisting product delisting)).2.Sound sk := by
  cases hget : st.state.getTokenPair product with
  | none =>
    simp only [step, hget]
    exact hs
  | some tp =>
    simp only [step, hget]
    have hget' : st.state.getTokenPair tp.name = some tp := by
      rw [DexState.name_of_get hget]
      exact hget
    obtain ⟨tp', htp', hname, howner, hdeposits⟩ : ∃ tp' : TokenPair,
        { tp with delisting := delisting } = tp' ∧ tp'.name = tp.name ∧ tp'.owner = tp.owner ∧
        tp'.deposits = tp.deposits := ⟨_, rfl, rfl, rfl, rfl⟩
    rw [htp']
    have hpairs := DexState.get_updateTokenPair (s := st.state) tp'
    obtain ⟨history, hbacked⟩ := hs.backed
    refine ⟨DexState.NonNegDeposits.update hs.nonneg (hdeposits ▸ hs.nonneg _ _ hget) hpairs,
      ⟨history ++ [], hbacked.frame ?_
        (owners_update tp' hbacked.owners (howner ▸ hbacked.owners _ _ hget) hpairs) rfl rfl
        fun _ => ⟨rfl, rfl⟩⟩,
      DexState.Indexed.update hs.indexed hpairs rfl hget' hname howner, hs.ids.same fun p => ?_⟩
    · have htotal := totalDeposits_update tp' (hname ▸ hget')
      rw [htotal, hdeposits, sub_add_cancel, sub_self, coin_zero, add_zero]
      rfl
    · rw [hpairs]
      split_ifs with hp
      · rw [hp, hname, hget']
        rfl
      · rfl

end DexStores

theorem StoresReach.sound {sk : SupplyKeeper B} {ctx : BlockContext} {st : DexStores B}
    (h : StoresReach sk ctx st) : st.Sound sk := by
  induction h with
  | @genesis ctx st h hids hmax =>
    have hpairs : ∀ product, st.state.getTokenPair product = none := by
      intro product
      show st.state.dex.tokenPairs.pairs.get product = none
      rw [h.pairs]
      rfl
    obtain ⟨hnonneg, hbacked⟩ := (keeps_backed sk fun _ _ _ => True).genesis ctx st.state h
    refine ⟨hnonneg, ⟨[], hbacked⟩, fun product tp hget => ?_, ⟨fun product => ?_,
      fun product id hget => ?_, hmax⟩⟩
    · rw [hpairs] at hget
      cases hget
    · rw [hpairs, hids]
      rfl
    · rw [hids] at hget
      cases hget
  | action h ha ih => exact ih.action ha
  | setDelisting product delisting h ih => exact ih.setDelisting product delisting

/-! ## Export and import -/

namespace DexStores

variable {sk : SupplyKeeper B} {st : DexStores B}

theorem foldl_setOperator (l : List (Address × Address)) (st : DexStores B) :
    l.foldl setOperator st = { st with state := { st.state with dex := { st.state.dex with
      operators := l.foldl (fun m e => m.set e.1 e.2) st.state.dex.operators } } } := by
  induction l generalizing st with
  | nil => rfl
  | cons e l ih => exact ih (st.setOperator e)

theorem foldl_lockTokenPair (l : List (String × ProductLock)) (st : DexStores B) :
    l.foldl lockTokenPair st = { st with state := { st.state with dex := { st.state.dex with
      productLocks := l.foldl (fun m e => m.set e.1 e.2) st.state.dex.productLocks } } } := by
  induction l generalizing st with
  | nil => rfl
  | cons e l ih => exact ih (st.lockTokenPair e)

theorem foldl_setWithdraw (l : List WithdrawInfo) (st : DexStores B) :
    l.foldl setWithdraw st = { st with state := { st.state with
      withdrawInfos := (l.map fun info => (info.owner, info)).foldl (fun m e => m.set e.1 e.2)
        st.state.withdrawInfos
      withdrawTimes := (l.map fun info => (toLex (info.completeTime, info.owner), ())).foldl
        (fun m e => m.set e.1 e.2) st.state.withdrawTimes } } := by
  induction l generalizing st with
  | nil => rfl
  | cons info l ih => exact ih (st.setWithdraw info)

/-- A pair with an ID in order is saved with that ID. -/
theorem saveTokenPair_eq {tp : TokenPair × Nat}
    (h : tp.2 ≤ st.maxTokenPairID ∧ (tp.2 = 0 → st.maxTokenPairID + 1 = 2 ^ 64)) :
    st.saveTokenPair tp = { st with
      state := st.state.saveTokenPair tp.1
      tokenPairIDs := st.tokenPairIDs.set tp.1.name tp.2 } := by
  have hid : (if tp.2 = 0 then (st.maxTokenPairID + 1) % 2 ^ 64 else tp.2) = tp.2 := by
    split_ifs with hzero
    · rw [h.2 hzero, hzero]
      rfl
    · rfl
  unfold saveTokenPair saveID
  simp only [hid, if_neg (not_lt.mpr h.1)]

/-- The pairs of a genesis, saved one after the other. -/
theorem foldl_saveTokenPair {l : List (TokenPair × Nat)} (st : DexStores B)
    (h : ∀ e ∈ l, e.2 ≤ st.maxTokenPairID ∧ (e.2 = 0 → st.maxTokenPairID + 1 = 2 ^ 64)) :
    l.foldl saveTokenPair st = { st with
      state := (l.map Prod.fst).foldl DexState.saveTokenPair st.state
      tokenPairIDs := (l.map fun e => (e.1.name, e.2)).foldl (fun m e => m.set e.1 e.2)
        st.tokenPairIDs } := by
  induction l generalizing st with
  | nil => rfl
  | cons e l ih =>
    obtain ⟨he, hl⟩ := List.forall_mem_cons.mp h
    rw [List.foldl_cons, saveTokenPair_eq he]
    exact ih _ hl

/-- The index as it is rebuilt: every pair under its owner. -/
def rebuiltIndex (s : DexState B) : KVStore (Address ×ₗ String) Unit :=
  ((s.dex.tokenPairs.pairs.entries.map Prod.snd).map fun tp =>
    (toLex (tp.owner, tp.name), ())).foldl (fun m e => m.set e.1 e.2) ∅

theorem foldl_save (l : List TokenPair) (s : DexState B) :
    ∃ pairs : TokenPairStore,
      pairs.pairs = (l.map fun tp => (tp.name, tp)).foldl (fun m e => m.set e.1 e.2)
        s.dex.tokenPairs.pairs ∧
      l.foldl DexState.saveTokenPair s = { s with
        dex := { s.dex with tokenPairs := pairs }
        userTokenPairs := (l.map fun tp => (toLex (tp.owner, tp.name), ())).foldl
          (fun m e => m.set e.1 e.2) s.userTokenPairs } := by
  induction l generalizing s with
  | nil => exact ⟨s.dex.tokenPairs, rfl, rfl⟩
  | cons tp l ih => exact ih (s.saveTokenPair tp)

theorem entries_map_name (s : DexState B) :
    (s.dex.tokenPairs.pairs.entries.map Prod.snd).map (fun tp => (tp.name, tp)) =
      s.dex.tokenPairs.pairs.entries := by
  rw [List.map_map]
  refine (List.map_congr_left fun e he => ?_).trans (List.map_id _)
  exact Prod.ext (s.dex.tokenPairs.named e.1 e.2 (KVStore.mem_entries.mp he)) rfl

theorem IDsOK.rebuilt (h : st.IDsOK) :
    (st.exportGenesis.tokenPairs.map fun e => (e.1.name, e.2)).foldl
      (fun m e => m.set e.1 e.2) ∅ = st.tokenPairIDs := by
  have hnamed : ∀ e ∈ st.state.dex.tokenPairs.pairs.entries, e.2.name = e.1 :=
    fun e he => st.state.dex.tokenPairs.named e.1 e.2 (KVStore.mem_entries.mp he)
  have hlist : (st.exportGenesis.tokenPairs.map fun e => (e.1.name, e.2)) =
      st.state.dex.tokenPairs.pairs.entries.map fun e =>
        (e.1, (st.tokenPairIDs.get e.1).getD 0) := by
    unfold exportGenesis
    rw [List.map_map]
    exact List.map_congr_left fun e he => Prod.ext (hnamed e he) rfl
  rw [hlist]
  refine KVStore.foldl_set_eq fun product id => ?_
  constructor
  · intro hmem
    obtain ⟨e, he, heq⟩ := List.mem_map.mp hmem
    cases heq
    have hget : st.state.getTokenPair e.1 = some e.2 := KVStore.mem_entries.mp he
    have hsome := h.listed e.1
    rw [hget] at hsome
    obtain ⟨id, hid⟩ := Option.isSome_iff_exists.mp hsome
    rw [hid]
    rfl
  · intro hid
    have hsome := h.listed product
    rw [hid] at hsome
    obtain ⟨tp, hget⟩ := Option.isSome_iff_exists.mp hsome.symm
    refine List.mem_map.mpr ⟨(product, tp), KVStore.mem_entries.mpr hget, ?_⟩
    rw [hid]
    rfl

theorem withdraws_rebuilt (hq : WithdrawQueue sk st.state) :
    (st.exportGenesis.withdrawInfos.map fun info => (info.owner, info)).foldl
        (fun m e => m.set e.1 e.2) ∅ = st.state.withdrawInfos ∧
      (st.exportGenesis.withdrawInfos.map fun info =>
          (toLex (info.completeTime, info.owner), ())).foldl (fun m e => m.set e.1 e.2) ∅ =
        st.state.withdrawTimes := by
  have howner : ∀ e ∈ st.state.withdrawInfos.entries, e.2.owner = e.1 :=
    fun e he => (hq.infos e.1 e.2 (KVStore.mem_entries.mp he)).1
  constructor
  · have hlist : (st.exportGenesis.withdrawInfos.map fun info => (info.owner, info)) =
        st.state.withdrawInfos.entries := by
      unfold exportGenesis
      rw [List.map_map]
      refine (List.map_congr_left fun e he => ?_).trans (List.map_id _)
      exact Prod.ext (howner e he) rfl
    rw [hlist]
    exact KVStore.foldl_set_entries _
  · have hlist : (st.exportGenesis.withdrawInfos.map fun info =>
        (toLex (info.completeTime, info.owner), ())) =
        st.state.withdrawInfos.entries.map fun e => (toLex (e.2.completeTime, e.1), ()) := by
      unfold exportGenesis
      rw [List.map_map]
      exact List.map_congr_left fun e he => by simp only [Function.comp, howner e he]
    rw [hlist]
    refine KVStore.foldl_set_eq fun key _ => ?_
    have htimes := hq.times (ofLex key).1 (ofLex key).2
    rw [List.mem_map]
    constructor
    · rintro ⟨e, he, heq⟩
      cases heq
      exact Option.eq_some_of_isSome (htimes.mpr ⟨e.2, KVStore.mem_entries.mp he, rfl⟩)
    · intro hget
      obtain ⟨info, hinfo, htime⟩ := htimes.mp (Option.isSome_iff_exists.mpr ⟨(), hget⟩)
      exact ⟨(_, info), KVStore.mem_entries.mpr hinfo, by simp only [htime]; rfl⟩

/-- **What a restart leaves**: everything but the transfers that wait, with a rebuilt index. -/
theorem Sound.restarted_eq (hs : st.Sound sk) :
    st.restarted = { st with state := { st.state with
      confirmOwnerships := ∅
      userTokenPairs := rebuiltIndex st.state } } := by
  obtain ⟨history, hbacked⟩ := hs.backed
  obtain ⟨hinfos, htimes⟩ := withdraws_rebuilt hbacked.queue
  have hbound : ∀ e ∈ st.exportGenesis.tokenPairs, e.2 ≤ st.maxTokenPairID ∧
      (e.2 = 0 → st.maxTokenPairID + 1 = 2 ^ 64) := by
    intro e he
    obtain ⟨e', he', rfl⟩ := List.mem_map.mp he
    have hget : st.state.getTokenPair e'.1 = some e'.2 := KVStore.mem_entries.mp he'
    have hsome := hs.ids.listed e'.1
    rw [hget] at hsome
    obtain ⟨id, hid⟩ := Option.isSome_iff_exists.mp hsome
    rw [hid]
    exact hs.ids.bound _ _ hid
  -- the pairs, with the operators already there
  have hsaved : ∀ s : DexState B, s.dex.tokenPairs.pairs = ∅ → s.userTokenPairs = ∅ →
      st.exportGenesis.tokenPairs.foldl saveTokenPair ⟨s, ∅, st.maxTokenPairID⟩ =
        ⟨{ s with
            dex := { s.dex with tokenPairs := st.state.dex.tokenPairs }
            userTokenPairs := rebuiltIndex st.state }, st.tokenPairIDs, st.maxTokenPairID⟩ := by
    intro s hnone hindex
    have hfst : st.exportGenesis.tokenPairs.map Prod.fst =
        st.state.dex.tokenPairs.pairs.entries.map Prod.snd := by
      unfold exportGenesis
      rw [List.map_map]
      rfl
    obtain ⟨pairs, hpairs, hsave⟩ :=
      foldl_save (st.state.dex.tokenPairs.pairs.entries.map Prod.snd) s
    rw [hnone, entries_map_name, KVStore.foldl_set_entries] at hpairs
    have hstore : pairs = st.state.dex.tokenPairs := by
      cases pairs
      cases hpairs
      rfl
    rw [foldl_saveTokenPair ⟨s, ∅, st.maxTokenPairID⟩ hbound, hs.ids.rebuilt, hfst, hsave, hstore,
      hindex]
    rfl
  have hstart : st.exportGenesis.operators.foldl setOperator (empty st.state.params st.state.bank) =
      ⟨{ (empty st.state.params st.state.bank).state with
          dex := ⟨⟨∅, TokenPairStore.named_empty⟩, st.state.dex.operators, ∅⟩ }, ∅, 0⟩ := by
    rw [foldl_setOperator]
    exact congrArg (fun m => DexStores.mk (DexState.mk (Dex.mk _ m _) _ _ _ _ _ _) _ _)
      (KVStore.foldl_set_entries _)
  unfold restarted initGenesis
  simp only [show st.exportGenesis.params = st.state.params from rfl, hstart]
  rw [show st.exportGenesis.maxTokenPairID = st.maxTokenPairID from rfl, hsaved _ rfl rfl,
    foldl_setWithdraw, foldl_lockTokenPair]
  have hlocks : st.exportGenesis.productLocks.foldl (fun m e => m.set e.1 e.2) ∅ =
    st.state.dex.productLocks := KVStore.foldl_set_entries _
  dsimp only [empty]
  rw [hinfos, htimes, hlocks]

/-- The index has no entry of anybody but the owner. -/
def NoFormerOwner (st : DexStores B) : Prop :=
  ∀ addr product, (st.state.userTokenPairs.get (toLex (addr, product))).isSome →
    ∃ tp, st.state.getTokenPair product = some tp ∧ tp.owner = addr

theorem get_rebuiltIndex (s : DexState B) (addr : Address) (product : String) :
    (rebuiltIndex s).get (toLex (addr, product)) = some () ↔
      ∃ tp, s.getTokenPair product = some tp ∧ tp.owner = addr := by
  have hnamed : ∀ e ∈ s.dex.tokenPairs.pairs.entries, e.2.name = e.1 :=
    fun e he => s.dex.tokenPairs.named e.1 e.2 (KVStore.mem_entries.mp he)
  have hlist : (s.dex.tokenPairs.pairs.entries.map Prod.snd).map
      (fun tp => (toLex (tp.owner, tp.name), ())) =
        s.dex.tokenPairs.pairs.entries.map fun e => (toLex (e.2.owner, e.1), ()) := by
    rw [List.map_map]
    exact List.map_congr_left fun e he => by simp only [Function.comp, hnamed e he]
  unfold rebuiltIndex
  rw [hlist, KVStore.get_foldl_set fun _ _ _ _ _ => rfl, List.mem_map]
  constructor
  · rintro (⟨e, he, heq⟩ | ⟨-, hempty⟩)
    · cases heq
      exact ⟨e.2, KVStore.mem_entries.mp he, rfl⟩
    · cases hempty
  · rintro ⟨tp, hget, rfl⟩
    exact .inl ⟨(product, tp), KVStore.mem_entries.mpr hget, rfl⟩

/-- **The rebuilt index is the old one** exactly when no former owner is left in it. -/
theorem Sound.rebuiltIndex_eq_iff (hs : st.Sound sk) :
    rebuiltIndex st.state = st.state.userTokenPairs ↔ st.NoFormerOwner := by
  constructor
  · intro h addr product hsome
    rw [← h] at hsome
    exact (get_rebuiltIndex _ _ _).mp (Option.eq_some_of_isSome hsome)
  · refine fun h => KVStore.ext_get fun key => Option.ext fun _ => ?_
    have hrebuilt := get_rebuiltIndex st.state (ofLex key).1 (ofLex key).2
    constructor
    · intro hget
      obtain ⟨tp, htp, howner⟩ := hrebuilt.mp hget
      have hsome := hs.indexed _ _ htp
      rw [howner] at hsome
      exact Option.eq_some_of_isSome hsome
    · exact fun hget => hrebuilt.mpr (h _ _ (Option.isSome_iff_exists.mpr ⟨(), hget⟩))

end DexStores

/-- **Export and import of the dex module.** In every run, import gives back every record of the
exported stores, and with them the results of every later sequence of calls, exactly when no
ownership transfer is stored and the index has no entry of a former owner. -/
theorem dex_genesis_round_trip_iff {sk : SupplyKeeper B} {ctx : BlockContext} {st : DexStores B}
    (h : StoresReach sk ctx st) :
    (st.restarted = st ∧
      ∀ ctx' calls, st.restarted.behaviour sk ctx' calls = st.behaviour sk ctx' calls) ↔
      st.state.confirmOwnerships = ∅ ∧ st.NoFormerOwner := by
  have hs := h.sound
  rw [← hs.rebuiltIndex_eq_iff]
  constructor
  · rintro ⟨heq, -⟩
    rw [hs.restarted_eq] at heq
    have hstate := congrArg DexStores.state heq
    exact ⟨(congrArg DexState.confirmOwnerships hstate).symm,
      congrArg DexState.userTokenPairs hstate⟩
  · rintro ⟨hoffers, hindex⟩
    have heq : st.restarted = st := by
      rw [hs.restarted_eq, hindex, ← hoffers]
    exact ⟨heq, fun ctx' calls => by rw [heq]⟩

/-! ### Two runs -/

/-- The stores after some calls, with the block. -/
def DexStores.after (sk : SupplyKeeper B) (start : BlockContext × DexStores B)
    (calls : List (DexCall B)) : BlockContext × DexStores B :=
  calls.foldl (fun p c => p.2.step sk p.1 c) start

/-- The calls a run may make, one after the other. -/
def CallsAllowed (sk : SupplyKeeper B) : BlockContext × DexStores B → List (DexCall B) → Prop
  | _, [] => True
  | p, .action a :: calls => DexAllowed sk (fun _ _ _ => True) ⟨p.1, p.2.state, []⟩ a ∧
    CallsAllowed sk (p.2.step sk p.1 (.action a)) calls
  | p, .setDelisting product delisting :: calls =>
    CallsAllowed sk (p.1, (p.2.step sk p.1 (.setDelisting product delisting)).2) calls

theorem DexStores.step_setDelisting_fst (sk : SupplyKeeper B) (ctx : BlockContext)
    (st : DexStores B) (product : String) (delisting : Bool) :
    (st.step sk ctx (.setDelisting product delisting)).1 = ctx := by
  cases hget : st.state.getTokenPair product <;> simp only [step, hget]

theorem StoresReach.after {sk : SupplyKeeper B} {p : BlockContext × DexStores B}
    (h : StoresReach sk p.1 p.2) {calls : List (DexCall B)} (hall : CallsAllowed sk p calls) :
    StoresReach sk (DexStores.after sk p calls).1 (DexStores.after sk p calls).2 := by
  induction calls generalizing p with
  | nil => exact h
  | cons c calls ih =>
    cases c with
    | action a => exact ih (.action h hall.1) hall.2
    | setDelisting product delisting =>
      have hctx := DexStores.step_setDelisting_fst sk p.1 p.2 product delisting
      have hstep : p.2.step sk p.1 (.setDelisting product delisting) =
          (p.1, (p.2.step sk p.1 (.setDelisting product delisting)).2) := Prod.ext hctx rfl
      have hrest := ih (p := (p.1, (p.2.step sk p.1 (.setDelisting product delisting)).2))
        (.setDelisting product delisting h) hall
      rw [← hstep] at hrest
      exact hrest

/-- The stores of the exchange before its first listing. -/
def dexStoresStart : BlockContext × DexStores (KVStore Address Coins) :=
  (⟨1, 0⟩, ⟨dexStart.state, ∅, 0⟩)

theorem reach_dexStoresStart :
    StoresReach simpleSupply dexStoresStart.1 dexStoresStart.2 :=
  .genesis ⟨rfl, rfl, rfl, rfl, rfl, rfl⟩ rfl (by decide)

/-- Alice lists a pair, deposits 10 and withdraws 4, and its delisting is being voted on. -/
def withdrawAndVote : List (DexCall (KVStore Address Coins)) :=
  [.action (.list ⟨"alice", "abc", "okt", 1⟩),
   .action (.deposit ⟨"abc_okt", ⟨bondDenom, 10⟩, "alice"⟩),
   .action (.withdraw ⟨"abc_okt", ⟨bondDenom, 4⟩, "alice"⟩),
   .setDelisting "abc_okt" true, .action .endBlock]

/-- After a restart nothing has changed; the withdrawal is waiting for time 100. -/
theorem dex_genesis_round_trip_alice :
    let st := (DexStores.after simpleSupply dexStoresStart withdrawAndVote).2
    st.state.withdrawTimes.keys = [toLex (100, "alice")] ∧
      st.tokenPairIDs.entries = [("abc_okt", 1)] ∧ st.restarted = st := by
  have halice : simpleSupply.IsUser "alice" := isUser_simpleSupply (by decide)
  have hreach : StoresReach simpleSupply
      (DexStores.after simpleSupply dexStoresStart withdrawAndVote).1
      (DexStores.after simpleSupply dexStoresStart withdrawAndVote).2 :=
    reach_dexStoresStart.after ⟨⟨by decide, halice, trivial⟩, ⟨by decide, halice⟩,
      ⟨by decide, halice⟩, trivial, trivial⟩
  have hoffers : (DexStores.after simpleSupply dexStoresStart
    withdrawAndVote).2.state.confirmOwnerships = ∅ := by decide +kernel
  have hindex : (DexStores.after simpleSupply dexStoresStart withdrawAndVote).2.NoFormerOwner :=
    hreach.sound.rebuiltIndex_eq_iff.mp (by decide +kernel)
  exact ⟨by decide +kernel, by decide +kernel, ((dex_genesis_round_trip_iff hreach).mpr
    ⟨hoffers, hindex⟩).1⟩

/-- Alice lists a pair and offers it to Carol, and the block ends. -/
def offerAtEnd : List (DexCall (KVStore Address Coins)) :=
  [.action (.list ⟨"alice", "abc", "okt", 1⟩),
   .action (.transferOwnership ⟨"alice", "carol", "abc_okt"⟩), .action .endBlock]

/-- Carol can accept the offer, but not after a restart. -/
theorem offer_lost_in_export :
    let st := (DexStores.after simpleSupply dexStoresStart offerAtEnd).2
    let accept : DexCall (KVStore Address Coins) :=
      .action (.confirmOwnership ⟨"abc_okt", "carol"⟩)
    StoresReach simpleSupply ⟨1, 0⟩ st ∧ st.result simpleSupply ⟨2, 10⟩ accept = .ok ([], []) ∧
      st.restarted.result simpleSupply ⟨2, 10⟩ accept =
        .error (.confirmOwnershipNotExist "carol") := by
  have halice : simpleSupply.IsUser "alice" := isUser_simpleSupply (by decide)
  have hctx : (DexStores.after simpleSupply dexStoresStart offerAtEnd).1 = ⟨1, 0⟩ := by
    decide +kernel
  have hreach : StoresReach simpleSupply
      (DexStores.after simpleSupply dexStoresStart offerAtEnd).1
      (DexStores.after simpleSupply dexStoresStart offerAtEnd).2 :=
    reach_dexStoresStart.after
      ⟨⟨by decide, halice, trivial⟩, ⟨by decide, halice⟩, trivial, trivial⟩
  rw [hctx] at hreach
  refine ⟨hreach, ?_, ?_⟩
  · exact toOption_eq_some.mp (by decide +kernel)
  · rw [hreach.sound.restarted_eq]
    rfl

end Okexchain
