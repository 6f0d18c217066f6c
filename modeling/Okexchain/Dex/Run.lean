import Okexchain.Dex.Handler

/-!
# Runs of the dex module

A node is the module's state in a block, with the history of what has been done. Its actions are
the messages, the execution of a delist proposal, `EndBlocker`, the next block (whose time is not
earlier), and `outside`: what other modules do to what the dex module shares with them (transfers,
product locks, parameter changes).

* A failed message leaves the node as it was.
* Messages come from accounts that can sign, so never from a module account, and have passed
  `ValidateBasic`.
* `DexReach sk listOK` are the nodes of the runs from an empty dex module in which a product is
  listed only when `listOK` holds of the time, the state and the product.

`Effect` lists all that the handlers can do to the state, with the events they leave in the history.

**Results.** `DexNode.step_effects`: a step other than the end of a block and the next block is a
chain of effects. So what the effects, the end of a block and the next block keep holds in every
run (`DexKeeps.reach`).
-/

namespace Okexchain

variable {B : Type}

/-- What has been done. -/
inductive DexEvent where
  | listed (product : String)
  | delisted (product : String)
  | transferred (product : String) (source target : Address) (time window : Int)
  | confirmed (product : String) (owner : Address)
  | withdrawn (owner : Address) (amount : Int)
  | paid (owner : Address) (amount : Int)
deriving DecidableEq, Repr

/-- What other modules write. -/
structure DexOutside (B : Type) where
  bank : B
  productLocks : KVStore String ProductLock
  params : DexParams

/-- The state after other modules have run. -/
def DexState.outside (s : DexState B) (c : DexOutside B) : DexState B :=
  { s with bank := c.bank, dex := { s.dex with productLocks := c.productLocks }, params := c.params }

/-- The actions of a node. -/
inductive DexAction (B : Type) where
  | list (msg : MsgList)
  | deposit (msg : MsgDeposit)
  | withdraw (msg : MsgDeposit)
  | transferOwnership (msg : MsgTransferOwnership)
  | confirmOwnership (msg : MsgConfirmOwnership)
  | createOperator (msg : MsgOperator)
  | updateOperator (msg : MsgOperator)
  | delist (baseAsset quoteAsset : String)
  | endBlock
  | nextBlock (time : Int)
  | outside (c : DexOutside B)

/-- A node. -/
structure DexNode (B : Type) where
  ctx : BlockContext
  state : DexState B
  history : List DexEvent

/-- The withdrawal that `withdrawAll` makes. -/
def withdrawAllEvents (tokenPair : TokenPair) (target : Address) : List DexEvent :=
  if 0 < tokenPair.deposits then [.withdrawn target tokenPair.deposits] else []

/-- The events of a successful action. -/
def DexNode.events (n : DexNode B) : DexAction B → List DexEvent
  | .list msg => [.listed (msg.listAsset ++ "_" ++ msg.quoteAsset)]
  | .withdraw msg => [.withdrawn msg.depositor msg.amount.amount]
  | .transferOwnership msg =>
    ((n.state.getTokenPair msg.product).elim [] fun tp => withdrawAllEvents tp msg.fromAddress) ++
      [.transferred msg.product msg.fromAddress msg.toAddress n.ctx.time
        n.state.params.ownershipConfirmWindow]
  | .confirmOwnership msg => [.confirmed msg.product msg.address]
  | .delist baseAsset quoteAsset =>
    ((n.state.getTokenPair (baseAsset ++ "_" ++ quoteAsset)).elim [] fun tp =>
      withdrawAllEvents tp tp.owner) ++ [.delisted (baseAsset ++ "_" ++ quoteAsset)]
  | _ => []

/-- The node after a handler. -/
def DexNode.deliver (n : DexNode B) (a : DexAction B) (r : Except DexError (DexState B)) :
    DexNode B :=
  match r with
  | .error _ => n
  | .ok s => { n with state := s, history := n.history ++ n.events a }

/-- One action of a node. -/
def DexNode.step (sk : SupplyKeeper B) (n : DexNode B) : DexAction B → DexNode B
  | .list msg => n.deliver (.list msg) (n.state.handleMsgList sk n.ctx msg)
  | .deposit msg => n.deliver (.deposit msg) (n.state.handleMsgDeposit sk n.ctx msg)
  | .withdraw msg => n.deliver (.withdraw msg) (n.state.handleMsgWithDraw n.ctx msg)
  | .transferOwnership msg =>
    n.deliver (.transferOwnership msg) (n.state.handleMsgTransferOwnership sk n.ctx msg)
  | .confirmOwnership msg =>
    n.deliver (.confirmOwnership msg) (n.state.handleMsgConfirmOwnership n.ctx msg)
  | .createOperator msg => n.deliver (.createOperator msg) (n.state.handleMsgCreateOperator sk msg)
  | .updateOperator msg => n.deliver (.updateOperator msg) (n.state.handleMsgUpdateOperator msg)
  | .delist baseAsset quoteAsset =>
    n.deliver (.delist baseAsset quoteAsset)
      (n.state.handleDelistProposal n.ctx baseAsset quoteAsset)
  | .endBlock =>
    let r := n.state.endBlocker sk n.ctx.time
    { n with
      state := r.state
      history := n.history ++ r.paid.map fun info => .paid info.owner info.deposits }
  | .nextBlock time => { n with ctx := ⟨n.ctx.height + 1, time⟩ }
  | .outside c => { n with state := n.state.outside c }

/-- The actions a run may take at a node. -/
def DexAllowed (sk : SupplyKeeper B) (listOK : Int → DexState B → String → Prop)
    (n : DexNode B) : DexAction B → Prop
  | .list msg => msg.validateBasic = none ∧ sk.IsUser msg.owner ∧
    listOK n.ctx.time n.state (msg.listAsset ++ "_" ++ msg.quoteAsset)
  | .deposit msg => msg.validateBasic = none ∧ sk.IsUser msg.depositor
  | .withdraw msg => msg.validateBasic = none ∧ sk.IsUser msg.depositor
  | .transferOwnership msg => msg.validateBasic = none ∧ sk.IsUser msg.fromAddress
  | .confirmOwnership msg => msg.validateBasic = none ∧ sk.IsUser msg.address
  | .createOperator msg => sk.IsUser msg.owner
  | .updateOperator msg => sk.IsUser msg.owner
  | .delist _ _ => True
  | .endBlock => True
  | .nextBlock time => n.ctx.time ≤ time
  | .outside c => sk.moduleCoins c.bank dexModuleName = sk.moduleCoins n.state.bank dexModuleName

/-- An empty dex module. -/
structure DexGenesis (sk : SupplyKeeper B) (s : DexState B) : Prop where
  pairs : s.dex.tokenPairs.pairs = ∅
  userTokenPairs : s.userTokenPairs = ∅
  confirmOwnerships : s.confirmOwnerships = ∅
  withdrawInfos : s.withdrawInfos = ∅
  withdrawTimes : s.withdrawTimes = ∅
  module : sk.moduleCoins s.bank dexModuleName = 0

/-- The nodes of the runs from an empty dex module. -/
inductive DexReach (sk : SupplyKeeper B) (listOK : Int → DexState B → String → Prop) :
    DexNode B → Prop where
  | genesis {ctx : BlockContext} {s : DexState B} (h : DexGenesis sk s) :
      DexReach sk listOK ⟨ctx, s, []⟩
  | step {n : DexNode B} {a : DexAction B} (hn : DexReach sk listOK n)
      (ha : DexAllowed sk listOK n a) : DexReach sk listOK (n.step sk a)

/-! ## What a step does -/

/-- The transfer of a pair that waits for the account it is offered to. -/
def TokenPair.offer (tp : TokenPair) (target : Address) (expire : Int) : ConfirmOwnership :=
  ⟨tp.name, tp.owner, target, expire⟩

/-- What the handlers do to the state. -/
inductive Effect (sk : SupplyKeeper B) (listOK : Int → DexState B → String → Prop) (now : Int) :
    DexState B → List DexEvent → DexState B → Prop where
  /-- The stores of other modules change, but not the balance of the dex module. -/
  | host {s : DexState B} (bank : B) (operators : KVStore Address Address)
      (productLocks : KVStore String ProductLock) (params : DexParams)
      (hbank : sk.moduleCoins bank dexModuleName = sk.moduleCoins s.bank dexModuleName) :
      Effect sk listOK now s [] { s with
        bank := bank
        dex := { s.dex with operators := operators, productLocks := productLocks }
        params := params }
  /-- A new pair without deposits. -/
  | list {s : DexState B} (tp : TokenPair) (hnew : s.getTokenPair tp.name = none)
      (hzero : tp.deposits = 0) (huser : sk.IsUser tp.owner) (hok : listOK now s tp.name) :
      Effect sk listOK now s [.listed tp.name] (s.saveTokenPair tp)
  /-- The owner adds to the deposits of a pair that is not being transferred. -/
  | deposit {s : DexState B} (tp : TokenPair) (amount : Int) (bank : B)
      (hget : s.getTokenPair tp.name = some tp) (hpos : 0 < amount)
      (hidle : s.isTransferring now tp.name = false)
      (hbank : sk.moduleCoins bank dexModuleName =
        sk.moduleCoins s.bank dexModuleName + coin bondDenom amount) :
      Effect sk listOK now s [] ({ s with bank := bank }.updateTokenPair
        { tp with deposits := tp.deposits + amount })
  /-- Deposits of a pair become a withdrawal of its owner. -/
  | withdraw {s : DexState B} (tp : TokenPair) (amount : Int)
      (hget : s.getTokenPair tp.name = some tp) (hpos : 0 < amount) (hle : amount ≤ tp.deposits) :
      Effect sk listOK now s [.withdrawn tp.owner amount]
        ((s.queueWithdraw now tp.owner amount).updateTokenPair
          { tp with deposits := tp.deposits - amount })
  /-- A pair without deposits is delisted. -/
  | delist {s : DexState B} (tp : TokenPair) (hget : s.getTokenPair tp.name = some tp)
      (hzero : tp.deposits = 0) :
      Effect sk listOK now s [.delisted tp.name] (s.deleteTokenPairByName tp.owner tp.name)
  /-- The owner of a pair without deposits offers it to another account. -/
  | transfer {s : DexState B} (tp : TokenPair) (target : Address)
      (hget : s.getTokenPair tp.name = some tp) (hzero : tp.deposits = 0) :
      Effect sk listOK now s
        [.transferred tp.name tp.owner target now s.params.ownershipConfirmWindow]
        { s with
          confirmOwnerships :=
            let expire := now + s.params.ownershipConfirmWindow
            s.confirmOwnerships.set tp.name (tp.offer target expire) }
  /-- The account a pair was offered to takes it in time. -/
  | confirm {s : DexState B} (tp : TokenPair) (c : ConfirmOwnership)
      (hget : s.getTokenPair tp.name = some tp) (hc : s.confirmOwnerships.get tp.name = some c)
      (htime : now ≤ c.expire) (huser : sk.IsUser c.toAddress) :
      Effect sk listOK now s [.confirmed tp.name c.toAddress]
        { (s.updateTokenPair { tp with owner := c.toAddress }).updateUserTokenPair tp.name
            c.fromAddress c.toAddress with
          confirmOwnerships := s.confirmOwnerships.delete c.product }

/-- A chain of effects, with all their events. -/
inductive Effects (sk : SupplyKeeper B) (listOK : Int → DexState B → String → Prop) (now : Int) :
    DexState B → List DexEvent → DexState B → Prop where
  | refl (s : DexState B) : Effects sk listOK now s [] s
  | tail {s s' s'' : DexState B} {evs evs' : List DexEvent} (h : Effects sk listOK now s evs s')
      (he : Effect sk listOK now s' evs' s'') : Effects sk listOK now s (evs ++ evs') s''

section Cases

variable {sk : SupplyKeeper B} {listOK : Int → DexState B → String → Prop} {now : Int}
  {ctx : BlockContext} {s s' : DexState B} {evs : List DexEvent}

theorem Effect.single (h : Effect sk listOK now s evs s') : Effects sk listOK now s evs s' :=
  .tail (.refl s) h

/-- A bank operation that leaves the dex module's account alone. -/
theorem Effect.bank {b : B}
    (hb : sk.moduleCoins b dexModuleName = sk.moduleCoins s.bank dexModuleName) :
    Effect sk listOK now s [] { s with bank := b } :=
  .host b s.dex.operators s.dex.productLocks s.params hb

namespace DexState

theorem name_of_get {product : String} {tp : TokenPair} (h : s.getTokenPair product = some tp) :
    tp.name = product := Dex.name_of_getTokenPair h

theorem payFee_cases {payer : Address} {fee : DecCoin} (huser : sk.IsUser payer)
    (h : s.payFee sk payer fee = some s') :
    ∃ b, sk.moduleCoins b dexModuleName = sk.moduleCoins s.bank dexModuleName ∧
      s' = { s with bank := b } := by
  obtain ⟨b, hb, rfl⟩ := Option.map_eq_some_iff.mp h
  refine ⟨b, SupplyKeeper.getCoins_other hb (huser.module_ne _) ?_, rfl⟩
  exact SupplyKeeper.moduleAddress_ne (by decide)

theorem deposit_cases {product : String} {source : Address} {amount : DecCoin}
    (huser : sk.IsUser source) (h : s.deposit sk product source amount = .ok s') :
    ∃ tp b, s.getTokenPair tp.name = some tp ∧ tp.name = product ∧
      sk.moduleCoins b dexModuleName =
        sk.moduleCoins s.bank dexModuleName + coin bondDenom amount.amount ∧
      s' = { s with bank := b }.updateTokenPair
        { tp with deposits := tp.deposits + amount.amount } := by
  unfold deposit at h
  split at h
  · cases h
  rename_i tp hget
  have hname := name_of_get hget
  split_ifs at h with howner hdenom
  split at h
  · cases h
  rename_i b hsend
  cases h
  refine ⟨tp, b, hname ▸ hget, hname, ?_, rfl⟩
  rw [← not_not.mp hdenom]
  exact SupplyKeeper.getCoins_target hsend (huser _)

theorem withdraw_cases {product : String} {target : Address} {amount : DecCoin}
    (h : s.withdraw now product target amount = .ok s') :
    ∃ tp, s.getTokenPair tp.name = some tp ∧ tp.name = product ∧ tp.owner = target ∧
      amount.amount ≤ tp.deposits ∧
      s' = (s.queueWithdraw now tp.owner amount.amount).updateTokenPair
        { tp with deposits := tp.deposits - amount.amount } := by
  unfold withdraw at h
  split at h
  · cases h
  rename_i tp hget
  have hname := name_of_get hget
  split_ifs at h with h1 h2 h3
  cases h
  have howner : tp.owner = target := not_not.mp h1
  exact ⟨tp, hname ▸ hget, hname, howner, not_lt.mp h3, by rw [howner]⟩

/-- Withdrawing all deposits leaves the pair without any. -/
theorem withdrawAll_effects {tp : TokenPair} (hget : s.getTokenPair tp.name = some tp)
    (hnonneg : 0 ≤ tp.deposits) (h : s.withdrawAll now tp tp.owner = .ok s') :
    Effects sk listOK now s (withdrawAllEvents tp tp.owner) s' ∧
      s'.getTokenPair tp.name = some { tp with deposits := 0 } ∧ s'.params = s.params := by
  unfold withdrawAll at h
  unfold withdrawAllEvents
  by_cases hpos : 0 < tp.deposits
  · rw [if_pos hpos] at h
    rw [if_pos hpos]
    split at h
    · cases h
    rename_i s₁ hw
    cases h
    obtain ⟨tp', hget', hname, -, hle, rfl⟩ := withdraw_cases hw
    rw [hname, hget] at hget'
    cases hget'
    refine ⟨(Effect.withdraw tp _ hget hpos hle).single, ?_, rfl⟩
    show (s.dex.tokenPairs.pairs.set tp.name { tp with deposits := tp.deposits - tp.deposits }).get
      tp.name = _
    rw [KVStore.get_set_self, sub_self]
  · have hzero : tp.deposits = 0 := by omega
    rw [if_neg hpos] at h
    rw [if_neg hpos]
    cases h
    refine ⟨.refl s, hget.trans ?_, rfl⟩
    rw [← hzero]

theorem handleMsgList_effects {msg : MsgList} (huser : sk.IsUser msg.owner)
    (hok : listOK ctx.time s (msg.listAsset ++ "_" ++ msg.quoteAsset))
    (h : s.handleMsgList sk ctx msg = .ok s') :
    Effects sk listOK ctx.time s [.listed (msg.listAsset ++ "_" ++ msg.quoteAsset)] s' := by
  unfold handleMsgList at h
  split_ifs at h with h1 h2 h3
  split at h
  · cases h
  rename_i s₁ hfee
  cases h
  obtain ⟨b, hb, rfl⟩ := payFee_cases huser hfee
  have hnew : s.getTokenPair (newTokenPair ctx.height msg).name = none :=
    Option.not_isSome_iff_eq_none.mp fun hc => h3 (.inl hc)
  have hlist : Effect sk listOK ctx.time s [.listed _] (s.saveTokenPair _) :=
    .list (newTokenPair ctx.height msg) hnew rfl huser hok
  exact .tail hlist.single (.bank hb)

theorem amount_pos {msg : MsgDeposit} (hbasic : msg.validateBasic = none) :
    0 < msg.amount.amount := by
  unfold MsgDeposit.validateBasic at hbasic
  split_ifs at hbasic with _ h2
  omega

theorem handleMsgDeposit_effects {msg : MsgDeposit} (hbasic : msg.validateBasic = none)
    (huser : sk.IsUser msg.depositor) (h : s.handleMsgDeposit sk ctx msg = .ok s') :
    Effects sk listOK ctx.time s [] s' := by
  unfold handleMsgDeposit at h
  split_ifs at h with hidle
  split at h
  · cases h
  rename_i s₁ hd
  cases h
  obtain ⟨tp, b, hget, hname, hsend, rfl⟩ := deposit_cases huser hd
  refine (Effect.deposit tp _ b hget (amount_pos hbasic) ?_ hsend).single
  rw [hname]
  exact Bool.eq_false_iff.mpr hidle

theorem handleMsgWithDraw_effects {msg : MsgDeposit} (hbasic : msg.validateBasic = none)
    (h : s.handleMsgWithDraw ctx msg = .ok s') :
    Effects sk listOK ctx.time s [.withdrawn msg.depositor msg.amount.amount] s' := by
  obtain ⟨tp, hget, -, howner, hle, rfl⟩ := withdraw_cases h
  rw [← howner]
  exact (Effect.withdraw tp _ hget (amount_pos hbasic) hle).single

theorem handleMsgTransferOwnership_cases {msg : MsgTransferOwnership}
    (h : s.handleMsgTransferOwnership sk ctx msg = .ok s') :
    ∃ tp s₁ s₂, s.getTokenPair msg.product = some tp ∧ tp.owner = msg.fromAddress ∧
      s.withdrawAll ctx.time tp tp.owner = .ok s₁ ∧
      s₁.payFee sk tp.owner s₁.params.transferOwnershipFee = some s₂ ∧
      s' = { s₂ with
        confirmOwnerships :=
          let expire := ctx.time + s₂.params.ownershipConfirmWindow
          s₂.confirmOwnerships.set tp.name (tp.offer msg.toAddress expire) } := by
  unfold handleMsgTransferOwnership at h
  split at h
  · cases h
  rename_i tp hget
  have hname := name_of_get hget
  split_ifs at h with h1 h2 h3
  have howner : tp.owner = msg.fromAddress := not_not.mp h1
  rw [← howner] at h
  split at h
  · cases h
  rename_i s₁ hall
  dsimp only at h
  split at h
  · cases h
  rename_i s₂ hfee
  cases h
  refine ⟨tp, s₁, s₂, hget, howner, hall, hfee, ?_⟩
  unfold TokenPair.offer
  rw [hname]

theorem handleMsgTransferOwnership_effects {msg : MsgTransferOwnership}
    (huser : sk.IsUser msg.fromAddress)
    (hnonneg : ∀ product tp, s.getTokenPair product = some tp → 0 ≤ tp.deposits)
    (h : s.handleMsgTransferOwnership sk ctx msg = .ok s') :
    Effects sk listOK ctx.time s
      (((s.getTokenPair msg.product).elim [] fun tp => withdrawAllEvents tp msg.fromAddress) ++
        [.transferred msg.product msg.fromAddress msg.toAddress ctx.time
          s.params.ownershipConfirmWindow]) s' := by
  obtain ⟨tp, s₁, s₂, hget, howner, hall, hfee, rfl⟩ := handleMsgTransferOwnership_cases h
  have hname := name_of_get hget
  have htp : s.getTokenPair tp.name = some tp := hname ▸ hget
  rw [← howner] at huser
  obtain ⟨hall, hzero, hparams⟩ := withdrawAll_effects htp (hnonneg _ _ hget) hall
  obtain ⟨b, hb, rfl⟩ := payFee_cases huser hfee
  have hoffer : Effect sk listOK ctx.time s₁ _ _ :=
    .transfer { tp with deposits := 0 } msg.toAddress hzero rfl
  have hchain := Effects.tail (.tail hall hoffer) (.bank hb)
  rw [List.append_nil] at hchain
  rw [hget, ← howner, ← hname, ← hparams]
  exact hchain

theorem handleMsgConfirmOwnership_cases {msg : MsgConfirmOwnership}
    (h : s.handleMsgConfirmOwnership ctx msg = .ok s') :
    ∃ c tp, s.confirmOwnerships.get msg.product = some c ∧ s.getTokenPair msg.product = some tp ∧
      ctx.time ≤ c.expire ∧ c.toAddress = msg.address ∧
      s' = { (s.updateTokenPair { tp with owner := msg.address }).updateUserTokenPair msg.product
          c.fromAddress msg.address with
        confirmOwnerships := s.confirmOwnerships.delete c.product } := by
  unfold handleMsgConfirmOwnership at h
  split at h
  · cases h
  rename_i c hc
  split_ifs at h with h1 h2
  split at h
  · cases h
  rename_i tp hget
  cases h
  exact ⟨c, tp, hc, hget, not_lt.mp h1, not_not.mp h2, rfl⟩

theorem handleMsgConfirmOwnership_effects {msg : MsgConfirmOwnership}
    (huser : sk.IsUser msg.address) (h : s.handleMsgConfirmOwnership ctx msg = .ok s') :
    Effects sk listOK ctx.time s [.confirmed msg.product msg.address] s' := by
  obtain ⟨c, tp, hc, hget, htime, hto, rfl⟩ := handleMsgConfirmOwnership_cases h
  have hname := name_of_get hget
  rw [← hto] at huser
  rw [← hname] at hget hc
  have heff : Effect sk listOK ctx.time s _ _ := .confirm tp c hget hc htime huser
  rw [hto, hname] at heff
  exact heff.single

theorem handleMsgCreateOperator_effects {msg : MsgOperator} (huser : sk.IsUser msg.owner)
    (h : s.handleMsgCreateOperator sk msg = .ok s') : Effects sk listOK now s [] s' := by
  unfold handleMsgCreateOperator at h
  split_ifs at h
  simp only at h
  split at h
  · cases h
  · rename_i s₁ hfee
    cases h
    obtain ⟨b, hb, rfl⟩ := payFee_cases huser hfee
    have heff : Effect sk listOK now s _ _ :=
      .host b (s.dex.operators.set msg.owner msg.handlingFeeAddress) s.dex.productLocks s.params hb
    exact heff.single

theorem handleMsgUpdateOperator_effects {msg : MsgOperator}
    (h : s.handleMsgUpdateOperator msg = .ok s') : Effects sk listOK now s [] s' := by
  unfold handleMsgUpdateOperator at h
  split_ifs at h
  cases h
  exact (Effect.host s.bank _ s.dex.productLocks s.params rfl).single

theorem handleDelistProposal_effects {baseAsset quoteAsset : String}
    (hnonneg : ∀ product tp, s.getTokenPair product = some tp → 0 ≤ tp.deposits)
    (h : s.handleDelistProposal ctx baseAsset quoteAsset = .ok s') :
    Effects sk listOK ctx.time s
      (((s.getTokenPair (baseAsset ++ "_" ++ quoteAsset)).elim [] fun tp =>
        withdrawAllEvents tp tp.owner) ++ [.delisted (baseAsset ++ "_" ++ quoteAsset)]) s' := by
  unfold handleDelistProposal at h
  simp only at h
  generalize baseAsset ++ "_" ++ quoteAsset = product at h ⊢
  split at h
  · cases h
  rename_i tp hget
  split_ifs at h
  split at h
  · cases h
  rename_i s₁ hall
  cases h
  obtain rfl := name_of_get hget
  obtain ⟨hall, hzero, -⟩ := withdrawAll_effects hget (hnonneg _ _ hget) hall
  rw [hget]
  exact .tail hall (.delist { tp with deposits := 0 } hzero rfl)

/-- The loop of `EndBlocker` pays and clears withdrawals; pairs, transfers and the index stay. -/
theorem completeNext_frame (sk : SupplyKeeper B) (acc : Completed B) (key : Int ×ₗ Address) :
    (completeNext sk acc key).state.dex = acc.state.dex ∧
      (completeNext sk acc key).state.confirmOwnerships = acc.state.confirmOwnerships ∧
      (completeNext sk acc key).state.userTokenPairs = acc.state.userTokenPairs := by
  unfold completeNext completeWithdraw
  simp only
  cases acc.state.withdrawInfos.get (ofLex key).2 with
  | none => exact ⟨rfl, rfl, rfl⟩
  | some info =>
    simp only
    cases sk.sendCoinsFromModuleToAccount acc.state.bank dexModuleName info.owner
      (coin bondDenom info.deposits) <;> exact ⟨rfl, rfl, rfl⟩

theorem endBlocker_frame : (s.endBlocker sk now).state.dex = s.dex ∧
    (s.endBlocker sk now).state.confirmOwnerships = s.confirmOwnerships ∧
    (s.endBlocker sk now).state.userTokenPairs = s.userTokenPairs := by
  unfold endBlocker
  suffices h : ∀ (keys : List (Int ×ₗ Address)) (acc : Completed B),
      (keys.foldl (completeNext sk) acc).state.dex = acc.state.dex ∧
        (keys.foldl (completeNext sk) acc).state.confirmOwnerships =
          acc.state.confirmOwnerships ∧
        (keys.foldl (completeNext sk) acc).state.userTokenPairs =
          acc.state.userTokenPairs from h _ _
  intro keys
  induction keys with
  | nil => exact fun acc => ⟨rfl, rfl, rfl⟩
  | cons key keys ih =>
    intro acc
    obtain ⟨h1, h2, h3⟩ := ih (completeNext sk acc key)
    obtain ⟨h4, h5, h6⟩ := completeNext_frame sk acc key
    exact ⟨h1.trans h4, h2.trans h5, h3.trans h6⟩

/-- No pair has negative deposits. -/
def NonNegDeposits (s : DexState B) : Prop :=
  ∀ product tp, s.getTokenPair product = some tp → 0 ≤ tp.deposits

theorem get_updateTokenPair (tp : TokenPair) (product : String) :
    (s.updateTokenPair tp).getTokenPair product =
      if product = tp.name then some tp else s.getTokenPair product :=
  KVStore.get_set

theorem get_saveTokenPair (tp : TokenPair) (product : String) :
    (s.saveTokenPair tp).getTokenPair product =
      if product = tp.name then some tp else s.getTokenPair product :=
  KVStore.get_set

theorem get_deleteTokenPairByName (owner : Address) (product product' : String) :
    (s.deleteTokenPairByName owner product).getTokenPair product' =
      if product' = product then none else s.getTokenPair product' :=
  KVStore.get_delete

/-- An updated pair is the one written, or one that was there. -/
theorem NonNegDeposits.update (h : s.NonNegDeposits) {tp : TokenPair} (htp : 0 ≤ tp.deposits)
    (hget : ∀ product, s'.getTokenPair product =
      if product = tp.name then some tp else s.getTokenPair product) : s'.NonNegDeposits := by
  intro product tp' h'
  rw [hget] at h'
  split_ifs at h'
  · cases h'
    exact htp
  · exact h product tp' h'

theorem NonNegDeposits.effect (h : s.NonNegDeposits) (he : Effect sk listOK now s evs s') :
    s'.NonNegDeposits := by
  cases he with
  | host bank operators productLocks params hbank => exact h
  | list tp hnew hzero huser hok => exact h.update hzero.ge (s.get_saveTokenPair tp)
  | deposit tp amount bank hget hpos hidle hbank =>
    have := h _ _ hget
    exact h.update (by show 0 ≤ tp.deposits + amount; omega) (get_updateTokenPair _)
  | withdraw tp amount hget hpos hle =>
    exact h.update (sub_nonneg.mpr hle) (get_updateTokenPair _)
  | delist tp hget hzero =>
    intro product tp' h'
    rw [get_deleteTokenPairByName] at h'
    split_ifs at h'
    exact h product tp' h'
  | transfer tp target hget hzero => exact h
  | confirm tp c hget hc htime huser =>
    have hdep : 0 ≤ ({ tp with owner := c.toAddress } : TokenPair).deposits := h tp.name tp hget
    exact h.update hdep (s.get_updateTokenPair _)

end DexState

end Cases

/-! ## Runs -/

/-- **What a step does**: a chain of effects, or the end of a block, or the next block. -/
theorem DexNode.step_effects {sk : SupplyKeeper B} {listOK : Int → DexState B → String → Prop}
    {n : DexNode B} {a : DexAction B} (hnonneg : n.state.NonNegDeposits)
    (ha : DexAllowed sk listOK n a) :
    (∃ evs s', Effects sk listOK n.ctx.time n.state evs s' ∧
      n.step sk a = { n with state := s', history := n.history ++ evs }) ∨
    a = .endBlock ∨ ∃ time, a = .nextBlock time ∧ n.ctx.time ≤ time := by
  have hdeliver : ∀ r : Except DexError (DexState B),
      (∀ s', r = .ok s' → Effects sk listOK n.ctx.time n.state (n.events a) s') →
      ∃ evs s', Effects sk listOK n.ctx.time n.state evs s' ∧
        n.deliver a r = { n with state := s', history := n.history ++ evs } := by
    intro r hr
    cases r with
    | error err => exact ⟨[], n.state, .refl _, by rw [List.append_nil]; rfl⟩
    | ok s' => exact ⟨_, s', hr s' rfl, rfl⟩
  cases a with
  | list msg =>
    exact .inl (hdeliver _ fun s' h => DexState.handleMsgList_effects ha.2.1 ha.2.2 h)
  | deposit msg =>
    exact .inl (hdeliver _ fun s' h => DexState.handleMsgDeposit_effects ha.1 ha.2 h)
  | withdraw msg => exact .inl (hdeliver _ fun s' h => DexState.handleMsgWithDraw_effects ha.1 h)
  | transferOwnership msg =>
    exact .inl (hdeliver _ fun s' h =>
      DexState.handleMsgTransferOwnership_effects ha.2 hnonneg h)
  | confirmOwnership msg =>
    exact .inl (hdeliver _ fun s' h => DexState.handleMsgConfirmOwnership_effects ha.2 h)
  | createOperator msg =>
    exact .inl (hdeliver _ fun s' h => DexState.handleMsgCreateOperator_effects ha h)
  | updateOperator msg =>
    exact .inl (hdeliver _ fun s' h => DexState.handleMsgUpdateOperator_effects h)
  | delist baseAsset quoteAsset =>
    exact .inl (hdeliver _ fun s' h => DexState.handleDelistProposal_effects hnonneg h)
  | endBlock => exact .inr (.inl rfl)
  | nextBlock time => exact .inr (.inr ⟨time, rfl, ha⟩)
  | outside c =>
    exact .inl ⟨[], _, (Effect.host c.bank n.state.dex.operators c.productLocks c.params ha).single,
      by rw [List.append_nil]; rfl⟩

/-- A property of the block, the history and the state that a run keeps. -/
structure DexKeeps (sk : SupplyKeeper B) (listOK : Int → DexState B → String → Prop)
    (P : BlockContext → List DexEvent → DexState B → Prop) : Prop where
  genesis : ∀ ctx s, DexGenesis sk s → P ctx [] s
  effect : ∀ ctx history s evs s', Effect sk listOK ctx.time s evs s' → s.NonNegDeposits →
    P ctx history s → P ctx (history ++ evs) s'
  endBlock : ∀ n : DexNode B, P n.ctx n.history n.state →
    P n.ctx (n.step sk .endBlock).history (n.step sk .endBlock).state
  nextBlock : ∀ ctx history s time, ctx.time ≤ time → P ctx history s →
    P ⟨ctx.height + 1, time⟩ history s

/-- **What is kept holds in every run.** -/
theorem DexKeeps.reach {sk : SupplyKeeper B} {listOK : Int → DexState B → String → Prop}
    {P : BlockContext → List DexEvent → DexState B → Prop} (hP : DexKeeps sk listOK P)
    {n : DexNode B} (hn : DexReach sk listOK n) :
    n.state.NonNegDeposits ∧ P n.ctx n.history n.state := by
  induction hn with
  | @genesis ctx s h =>
    refine ⟨fun product tp hget => ?_, hP.genesis ctx s h⟩
    have hget : s.dex.tokenPairs.pairs.get product = some tp := hget
    rw [h.pairs] at hget
    cases hget
  | @step n a hn ha ih =>
    obtain ⟨hnonneg, hPn⟩ := ih
    obtain ⟨evs, s', heffs, hstep⟩ | rfl | ⟨time, rfl, htime⟩ := DexNode.step_effects hnonneg ha
    · rw [hstep]
      show s'.NonNegDeposits ∧ P n.ctx (n.history ++ evs) s'
      clear hstep
      induction heffs with
      | refl => exact ⟨hnonneg, by rw [List.append_nil]; exact hPn⟩
      | tail _ he ih =>
        refine ⟨ih.1.effect he, ?_⟩
        rw [← List.append_assoc]
        exact hP.effect _ _ _ _ _ he ih.1 ih.2
    · refine ⟨fun product tp hget => hnonneg product tp ?_, hP.endBlock n hPn⟩
      have hget : (n.state.endBlocker sk n.ctx.time).state.dex.getTokenPair product = some tp := hget
      rwa [DexState.endBlocker_frame.1] at hget
    · exact ⟨hnonneg, hP.nextBlock n.ctx n.history n.state time htime hPn⟩

/-! ## Runs as lists of actions -/

/-- The node after a list of actions. -/
def DexNode.run (sk : SupplyKeeper B) (n : DexNode B) (actions : List (DexAction B)) : DexNode B :=
  actions.foldl (DexNode.step sk) n

/-- Every action of the list is one a run may take when its turn comes. -/
def DexAllowedRun (sk : SupplyKeeper B) (listOK : Int → DexState B → String → Prop) :
    DexNode B → List (DexAction B) → Prop
  | _, [] => True
  | n, a :: actions => DexAllowed sk listOK n a ∧ DexAllowedRun sk listOK (n.step sk a) actions

theorem DexReach.run {sk : SupplyKeeper B} {listOK : Int → DexState B → String → Prop}
    {n : DexNode B} (hn : DexReach sk listOK n) {actions : List (DexAction B)}
    (hall : DexAllowedRun sk listOK n actions) : DexReach sk listOK (n.run sk actions) := by
  induction actions generalizing n with
  | nil => exact hn
  | cons a actions ih => exact ih (.step hn hall.1) hall.2

/-! ## A small exchange

Three operators, one of them with coins, on `simpleSupply`. -/

theorem hundred_pos : (0 : Int) < 100 := by decide

/-- No fees; a withdrawal takes 100, an offer stands for 50. -/
def freeDexParams : DexParams where
  listFee := ⟨bondDenom, 0⟩
  transferOwnershipFee := ⟨bondDenom, 0⟩
  registerOperatorFee := ⟨bondDenom, 0⟩
  withdrawPeriod := 100
  ownershipConfirmWindow := 50
  listFee_nonneg := DecCoin.free_nonneg bondDenom
  transferOwnershipFee_nonneg := DecCoin.free_nonneg bondDenom
  registerOperatorFee_nonneg := DecCoin.free_nonneg bondDenom
  withdrawPeriod_pos := hundred_pos
  ownershipConfirmWindow_pos := by decide

/-- The exchange before its first listing. -/
def dexStart : DexNode (KVStore Address Coins) where
  ctx := ⟨1, 0⟩
  state := {
    dex := {
      tokenPairs := ⟨∅, TokenPairStore.named_empty⟩
      operators := (((∅ : KVStore Address Address).set "alice" "alice").set "bob" "bob").set
        "carol" "carol"
      productLocks := ∅ }
    userTokenPairs := ∅
    confirmOwnerships := ∅
    withdrawInfos := ∅
    withdrawTimes := ∅
    params := freeDexParams
    bank := (∅ : KVStore Address Coins).set "alice" (coin bondDenom (1000 * 10 ^ 18)) }
  history := []

theorem reach_dexStart (listOK : Int → DexState (KVStore Address Coins) → String → Prop) :
    DexReach simpleSupply listOK dexStart :=
  .genesis ⟨rfl, rfl, rfl, rfl, rfl, rfl⟩

end Okexchain
