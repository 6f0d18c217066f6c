import Okexchain.Order.Run

/-!
# A failed transaction and the disk cache

Model of a transaction in `DeliverTx` mode as the order module sees it: the messages of
`x/order/handler.go` among those of other modules, run on one branch of the store.

* `validateMsgHook` of `app/app.go` admits an order message only as the single message of its
  transaction. But `ValidateMsgHandlerDecorator` of `app/ante/validateMsg.go` runs the hook in
  `CheckTx` mode only: a block may hold a transaction with any list of messages, and `DeliverTx`
  executes it.
* The base application runs the messages in order and writes the branch if all of them succeed. The
  branch covers the stores. The disk cache is a field of the keeper: nothing takes its changes back
  (`State.deliverTx`).
* A message of another module (`BlockMsg.other`) fails or writes the stores that the order module
  shares with it. No other module writes the disk cache.
* A handler may panic, which fails the transaction like an error: before its first item when the gas
  does not suffice (`NewOrderHandler` then sets an infinite gas meter), and at a later item when an
  amount is out of the range of `sdk.Dec`. `BlockMsg.newOrders` and `BlockMsg.cancelOrders` carry
  the item at which this happens, if it does. It happens before the item has changed the cache.
* The state a transaction starts from is the one the ante handler leaves.

Every order placed adds one to `storeOrderNum`, every order cancelled adds its ID to
`closedOrderIDs`, and no message takes either back. So the work done on the cache can be read off it
(`DiskCache.work`).

**Results.** `failed_tx_cache_iff`: **a failed transaction leaves the cache as it was exactly when
none of the messages that ran placed or cancelled an order**. After `order_survives_failed_tx` the
cache holds the ID of an order that is not stored.
-/

namespace Okexchain

variable {B : Type}

/-! ## Transactions -/

/-- A message of a transaction. -/
inductive BlockMsg (B : Type) where
  | newOrders (msg : MsgNewOrders) (panicAt : Option Nat)
  | cancelOrders (msg : MsgCancelOrders) (panicAt : Option Nat)
  | other (act : State B → Option (Outside B))

/-- The items a handler gets to. -/
def reached {α : Type} (items : List α) : Option Nat → List α
  | none => items
  | some n => items.take n

namespace State

/-- What `ValidateBasic` says of a message; those of other modules are not looked into. -/
def basicOK : BlockMsg B → Bool
  | .newOrders msg _ => msg.validateBasic.isNone
  | .cancelOrders msg _ => msg.validateBasic.isNone
  | .other _ => true

/-- One message: the state where it stops, and whether it succeeds. -/
def execMsg (env : Env B) (height : Nat) (s : State B) : BlockMsg B → State B × Bool
  | .newOrders msg none =>
    let (s', _, err) := s.handleMsgNewOrders env height msg
    (s', err.isNone)
  | .newOrders msg (some n) =>
    ((handleNewOrders env height msg.sender (feeRatio msg) s (msg.orderItems.take n)).1, false)
  | .cancelOrders msg none =>
    let (s', _, err) := s.handleMsgCancelOrders env height msg
    (s', err.isNone)
  | .cancelOrders msg (some n) =>
    ((handleCancelOrders env height msg.sender s (msg.orderIDs.take n)).1, false)
  | .other act =>
    match act s with
    | none => (s, false)
    | some c => (s.outside c, true)

/-- The messages one after the other, up to the first that fails. -/
def runMsgs (env : Env B) (height : Nat) (s : State B) : List (BlockMsg B) → State B × Bool
  | [] => (s, true)
  | msg :: msgs =>
    let (s', ok) := s.execMsg env height msg
    if ok then s'.runMsgs env height msgs else (s', false)

/-- A transaction of the base application. If it fails, the stores are as before and the cache is
as the messages left it. -/
def deliverTx (env : Env B) (height : Nat) (s : State B) (tx : List (BlockMsg B)) : State B × Bool :=
  if tx ≠ [] ∧ tx.all basicOK then
    let (s', ok) := s.runMsgs env height tx
    if ok then (s', true) else ({ s with disk := s'.disk }, false)
  else (s, false)

/-! ## What is placed and cancelled -/

/-- How many items of the results were accepted. -/
def accepted (rs : List OrderResult) : Nat := rs.countP fun r => r.error.isNone

/-- How many orders a message places or cancels. -/
def touchedBy (env : Env B) (height : Nat) (s : State B) : BlockMsg B → Nat
  | .newOrders msg panicAt => accepted (handleNewOrders env height msg.sender (feeRatio msg) s
      (reached msg.orderItems panicAt)).2
  | .cancelOrders msg panicAt =>
    accepted (handleCancelOrders env height msg.sender s (reached msg.orderIDs panicAt)).2
  | .other _ => 0

/-- How many orders the messages place or cancel, up to the first that fails. -/
def touched (env : Env B) (height : Nat) (s : State B) : List (BlockMsg B) → Nat
  | [] => 0
  | msg :: msgs =>
    let (s', ok) := s.execMsg env height msg
    s.touchedBy env height msg + if ok then s'.touched env height msgs else 0

end State

/-! ## The work on the cache -/

/-- The orders placed and cancelled since the cache was reset, up to a constant. -/
def DiskCache.work (c : DiskCache) : Int := c.storeOrderNum + c.closedOrderIDs.length

theorem DiskCache.work_insertOrder (g : Growth) (c : DiskCache) (o : Order) :
    (c.insertOrder g o).work = c.work + 1 := by
  show c.storeOrderNum + 1 + _ = c.storeOrderNum + _ + 1
  exact add_right_comm _ _ _

theorem DiskCache.work_removeFromBook (c : DiskCache) (o : Order) :
    (c.removeFromBook o).work = c.work := by
  unfold removeFromBook
  cases c.getDepthBook o.product <;> rfl

theorem DiskCache.work_removeFromIDs (c : DiskCache) (o : Order) :
    (c.removeFromIDs o).work = c.work := by
  unfold removeFromIDs
  simp only
  split_ifs <;> rfl

theorem DiskCache.work_removeOrder (c : DiskCache) (o : Order) :
    (c.removeOrder o).work = c.work + 1 := by
  rw [← c.work_removeFromBook o, ← (c.removeFromBook o).work_removeFromIDs o]
  unfold removeOrder closeOrder work
  rw [List.length_append, List.length_singleton]
  push_cast
  exact (add_assoc _ _ _).symm

namespace State

variable {env : Env B} {height : Nat} {s s' s'' : State B} {sender : Address} {ratio : Int}
  {n m : Nat}

/-- `n` orders were placed or cancelled between the two states. -/
structure Worked (n : Nat) (s s' : State B) : Prop where
  work : s'.disk.work = s.disk.work + n
  same : n = 0 → s'.disk = s.disk

theorem Worked.refl (s : State B) : Worked 0 s s := ⟨(add_zero _).symm, fun _ => rfl⟩

theorem Worked.trans (h : Worked n s s') (h' : Worked m s' s'') : Worked (n + m) s s'' where
  work := by
    rw [h'.work, h.work]
    push_cast
    exact add_assoc _ _ _
  same := fun hz => (h'.same (by omega)).trans (h.same (by omega))

/-- The cache is unchanged exactly when nothing was done. -/
theorem Worked.disk_eq_iff (h : Worked n s s') : s'.disk = s.disk ↔ n = 0 := by
  refine ⟨fun hdisk => ?_, h.same⟩
  have hwork := h.work
  rw [hdisk] at hwork
  omega

theorem accepted_cons (r : OrderResult) (rs : List OrderResult) :
    accepted (r :: rs) = r.error.isNone.toNat + accepted rs := by
  unfold accepted
  rw [List.countP_cons, Nat.add_comm]
  cases r.error <;> rfl

theorem handleNewOrder_worked (env : Env B) (height : Nat) (sender : Address) (ratio : Int)
    (s : State B) (item : OrderItem) :
    Worked (s.handleNewOrder env height sender ratio item).2.error.isNone.toNat s
      (s.handleNewOrder env height sender ratio item).1 := by
  obtain ⟨hs, herr⟩ | ⟨s', o, hs, herr, -, -, hplace⟩ :=
    handleNewOrder_cases env height sender ratio s item
  · rw [hs, Option.isNone_eq_false_iff.mpr herr]
    exact .refl s
  · obtain ⟨led, -, -, rfl⟩ := placeOrder_cases hplace
    rw [hs, herr]
    exact ⟨DiskCache.work_insertOrder _ _ _, fun hz => absurd hz (by decide)⟩

theorem handleCancelOrder_worked (env : Env B) (height : Nat) (sender : Address) (s : State B)
    (orderID : String) :
    Worked (s.handleCancelOrder env height sender orderID).2.error.isNone.toNat s
      (s.handleCancelOrder env height sender orderID).1 := by
  obtain ⟨hs, herr⟩ | ⟨o, hs, herr, -⟩ := handleCancelOrder_cases env height sender s orderID
  · rw [hs, Option.isNone_eq_false_iff.mpr herr]
    exact .refl s
  · rw [hs, herr]
    exact ⟨DiskCache.work_removeOrder _ _, fun hz => absurd hz (by decide)⟩

theorem handleNewOrders_worked (s : State B) (items : List OrderItem) :
    Worked (accepted (handleNewOrders env height sender ratio s items).2) s
      (handleNewOrders env height sender ratio s items).1 := by
  induction items generalizing s with
  | nil => exact .refl s
  | cons item items ih =>
    have hitem := handleNewOrder_worked env height sender ratio s item
    have hrest := hitem.trans (ih _)
    rw [← accepted_cons] at hrest
    exact hrest

theorem handleCancelOrders_worked (s : State B) (orderIDs : List String) :
    Worked (accepted (handleCancelOrders env height sender s orderIDs).2) s
      (handleCancelOrders env height sender s orderIDs).1 := by
  induction orderIDs generalizing s with
  | nil => exact .refl s
  | cons orderID orderIDs ih =>
    have hitem := handleCancelOrder_worked env height sender s orderID
    have hrest := hitem.trans (ih _)
    rw [← accepted_cons] at hrest
    exact hrest

/-- **The step**: a message does the work of the orders it places and cancels. -/
theorem execMsg_worked (env : Env B) (height : Nat) (s : State B) (msg : BlockMsg B) :
    Worked (s.touchedBy env height msg) s (s.execMsg env height msg).1 := by
  cases msg with
  | newOrders msg panicAt =>
    cases panicAt with
    | none => exact s.handleNewOrders_worked msg.orderItems
    | some n => exact s.handleNewOrders_worked (msg.orderItems.take n)
  | cancelOrders msg panicAt =>
    cases panicAt with
    | none => exact s.handleCancelOrders_worked msg.orderIDs
    | some n => exact s.handleCancelOrders_worked (msg.orderIDs.take n)
  | other act =>
    show Worked 0 s _
    cases hact : act s with
    | none =>
      simp only [execMsg, hact]
      exact .refl s
    | some c =>
      simp only [execMsg, hact]
      exact ⟨(add_zero _).symm, fun _ => rfl⟩

/-- **The run**: so do the messages of a transaction, up to the first that fails. -/
theorem runMsgs_worked (env : Env B) (height : Nat) (s : State B) (msgs : List (BlockMsg B)) :
    Worked (s.touched env height msgs) s (s.runMsgs env height msgs).1 := by
  induction msgs generalizing s with
  | nil => exact .refl s
  | cons msg msgs ih =>
    have hstep := execMsg_worked env height s msg
    unfold runMsgs touched
    simp only
    split_ifs
    · exact hstep.trans (ih _)
    · exact hstep

/-- **A failed transaction leaves the cache as it was** exactly when it was not started, or none of
the messages that ran placed or cancelled an order. -/
theorem failed_tx_cache_iff (env : Env B) (height : Nat) (s : State B) (tx : List (BlockMsg B))
    (hfail : (s.deliverTx env height tx).2 = false) :
    (s.deliverTx env height tx).1.disk = s.disk ↔
      (tx ≠ [] ∧ tx.all basicOK → s.touched env height tx = 0) := by
  unfold deliverTx at hfail ⊢
  by_cases hvalid : tx ≠ [] ∧ tx.all basicOK
  · have hrun := runMsgs_worked env height s tx
    rw [if_pos hvalid] at hfail ⊢
    simp only at hfail ⊢
    split_ifs at hfail ⊢
    rw [← hrun.disk_eq_iff]
    exact ⟨fun h _ => h, fun h => h hvalid⟩
  · rw [if_neg hvalid]
    exact ⟨fun _ h => absurd h hvalid, fun _ => rfl⟩

/-! ## Two transactions -/

/-- The market in its first block. -/
def abcOpen : State (KVStore Address Coins) :=
  (abcMarket (freeParams 10 10 ten_pos ten_pos)).state.resetCache simpleEnv

/-- Alice wants to buy one `abc`. -/
def aliceBuys : BlockMsg (KVStore Address Coins) := .newOrders ⟨"alice", [abcItem .buy 10 1]⟩ none

/-- A message of another module that fails. -/
def failing : BlockMsg (KVStore Address Coins) := .other fun _ => none

/-- A message before the order of alice's fails, and the cache is as it was. -/
theorem failed_tx_cache_first :
    (abcOpen.deliverTx simpleEnv 1 [failing, aliceBuys]).2 = false ∧
      (abcOpen.deliverTx simpleEnv 1 [failing, aliceBuys]).1.disk = abcOpen.disk := by
  have hfail : (abcOpen.deliverTx simpleEnv 1 [failing, aliceBuys]).2 = false := by decide +kernel
  exact ⟨hfail, (failed_tx_cache_iff simpleEnv 1 abcOpen _ hfail).mpr fun _ => by decide +kernel⟩

/-- **The order of a failed transaction stays in the cache**: its ID is listed at its price, the
counters count it, and no order is stored under it. -/
theorem order_survives_failed_tx :
    (abcOpen.deliverTx simpleEnv 1 [aliceBuys, failing]).2 = false ∧
      (abcOpen.deliverTx simpleEnv 1 [aliceBuys, failing]).1.disk.getOrderIDs
        (formatOrderIDsKey "abc_okt" (Dec.newDec 10) .buy) = ["ID0000000001-1"] ∧
      (abcOpen.deliverTx simpleEnv 1 [aliceBuys, failing]).1.disk.openNum = 1 ∧
      (abcOpen.deliverTx simpleEnv 1 [aliceBuys, failing]).1.disk.storeOrderNum = 1 ∧
      (abcOpen.deliverTx simpleEnv 1 [aliceBuys, failing]).1.getOrder "ID0000000001-1" = none ∧
      abcOpen.disk.getOrderIDs (formatOrderIDsKey "abc_okt" (Dec.newDec 10) .buy) = [] :=
  ⟨by decide +kernel, by decide +kernel, by decide +kernel, by decide +kernel, by decide +kernel,
    by decide +kernel⟩

end State

end Okexchain
