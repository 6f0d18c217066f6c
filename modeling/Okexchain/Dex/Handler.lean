import Okexchain.Dex.Keeper
import Okexchain.Token.Supply
import Mathlib.Data.Prod.Lex

/-!
# The dex handlers

Model of `x/dex/handler.go`, `x/dex/proposal_handler.go`, `x/dex/endblocker.go` and the deposit and
withdrawal parts of `x/dex/keeper/keeper.go`.

* `DexState` is the token-pair store with the entries these functions write next to it: pending
  ownership transfers, withdrawals and the queue of their times, the index of a user's pairs, the
  parameters, and the stores of other modules behind the supply keeper.
* Times are integers (nanoseconds). A queue key is a formatted time followed by an address, and
  `sdk.FormatTimeBytes` keeps the order of times, so the queue is keyed by pairs in lexicographic
  order.
* A handler that returns an error leaves no trace, because the transaction's writes are discarded;
  so the result is the new state or the error. This covers the deletion of an expired transfer in
  `handleMsgConfirmOwnership`, which is followed by an error.
* `EndBlocker` ranges over an iterator opened before the loop. It logs a failed completion and goes
  on; `Completed` keeps both outcomes.
* Operators are kept as the address that receives their fees; website, height and transaction hash
  are read by nothing modelled here, and neither are pair IDs.
-/

namespace Okexchain

/-- `types.ModuleName`. -/
def dexModuleName : String := "dex"

/-- `ConfirmOwnership`: a transfer that waits for the new owner. -/
structure ConfirmOwnership where
  product : String
  fromAddress : Address
  toAddress : Address
  expire : Int
deriving DecidableEq, Repr

/-- `WithdrawInfo`. Deposits are held in the bond denomination. -/
structure WithdrawInfo where
  owner : Address
  deposits : Int
  completeTime : Int
deriving DecidableEq, Repr

/-- The parameters the handlers read, as `ParamSetPairs` validates them. -/
structure DexParams where
  listFee : DecCoin
  transferOwnershipFee : DecCoin
  registerOperatorFee : DecCoin
  withdrawPeriod : Int
  ownershipConfirmWindow : Int
  listFee_nonneg : 0 ≤ listFee.amount
  transferOwnershipFee_nonneg : 0 ≤ transferOwnershipFee.amount
  registerOperatorFee_nonneg : 0 ≤ registerOperatorFee.amount
  withdrawPeriod_pos : 0 < withdrawPeriod
  ownershipConfirmWindow_pos : 0 < ownershipConfirmWindow

/-- The errors of `x/dex/types/errors.go` the handlers return. -/
inductive DexError where
  | invalidCoins
  | initPriceIsNotPositive
  | addressIsRequired (addrType : String)
  | tokenPairIsRequired
  | tokenOfPairNotExist (baseAsset quoteAsset : String)
  | unknownOperator (addr : Address)
  | existOperator (addr : Address)
  | unauthorizedOperator (operator owner : Address)
  | tokenPairExisted (baseAsset quoteAsset : String)
  | tokenPairNotFound (product : String)
  | invalidTokenPair (product : String)
  | isTokenPairLocked (product : String)
  | insufficientFeeCoins (coins : Coins)
  | insufficientCoins
  | insufficientDepositCoins (coins : Coins)
  | insufficientWithdrawCoins (deposits amount : DecCoin)
  | mustTokenPairOwner (addr : Address) (product : String)
  | depositOnlySupportDenom (denom : String)
  | withdrawOnlySupportDenom (denom : String)
  | depositFailed (err : DexError)
  | withdrawFailed (err : DexError)
  | unauthorized (addr : Address) (product : String)
  | isTransferringOwner (product : String)
  | repeatedTransferOwner (product : String)
  | confirmOwnershipNotExist (addr : Address)
  | transferOwnerExpired (expire : Int)
  | invalidAddress (addr : Address)

/-- What the handlers read and write. -/
structure DexState (B : Type) where
  dex : Dex
  userTokenPairs : KVStore (Address ×ₗ String) Unit
  confirmOwnerships : KVStore String ConfirmOwnership
  withdrawInfos : KVStore Address WithdrawInfo
  withdrawTimes : KVStore (Int ×ₗ Address) Unit
  params : DexParams
  bank : B

/-- The block a message is delivered in. -/
structure BlockContext where
  height : Nat
  time : Int
deriving DecidableEq, Repr

/-! ## Messages -/

/-- `MsgList`. -/
structure MsgList where
  owner : Address
  listAsset : String
  quoteAsset : String
  initPrice : Int

/-- `MsgDeposit` and `MsgWithdraw`, which have the same fields and the same checks. -/
structure MsgDeposit where
  product : String
  amount : DecCoin
  depositor : Address

/-- `MsgTransferOwnership`. -/
structure MsgTransferOwnership where
  fromAddress : Address
  toAddress : Address
  product : String

/-- `MsgConfirmOwnership`. -/
structure MsgConfirmOwnership where
  product : String
  address : Address

/-- `MsgCreateOperator` and `MsgUpdateOperator`. -/
structure MsgOperator where
  owner : Address
  handlingFeeAddress : Address

/-- `MsgList.ValidateBasic`. -/
def MsgList.validateBasic (msg : MsgList) : Option DexError :=
  if msg.listAsset = msg.quoteAsset then some .invalidCoins
  else if msg.initPrice ≤ 0 then some .initPriceIsNotPositive
  else if msg.owner = "" then some (.addressIsRequired "owner")
  else none

/-- `MsgDeposit.ValidateBasic` and `MsgWithdraw.ValidateBasic`. -/
def MsgDeposit.validateBasic (msg : MsgDeposit) : Option DexError :=
  if msg.depositor = "" then some (.addressIsRequired "depositor")
  else if msg.amount.amount ≤ 0 then some .invalidCoins
  else none

/-- `MsgTransferOwnership.ValidateBasic`. -/
def MsgTransferOwnership.validateBasic (msg : MsgTransferOwnership) : Option DexError :=
  if msg.fromAddress = "" then some (.addressIsRequired "sender")
  else if msg.toAddress = "" then some (.addressIsRequired "recipient")
  else if msg.product = "" then some .tokenPairIsRequired
  else none

/-- `MsgConfirmOwnership.ValidateBasic`. -/
def MsgConfirmOwnership.validateBasic (msg : MsgConfirmOwnership) : Option DexError :=
  if msg.address = "" then some (.addressIsRequired "sender")
  else if msg.product = "" then some .tokenPairIsRequired
  else none

/-! ## The keeper -/

namespace DexState

variable {B : Type}

/-- `GetTokenPair`. -/
def getTokenPair (s : DexState B) (product : String) : Option TokenPair :=
  s.dex.getTokenPair product

/-- `UpdateTokenPair`. -/
def updateTokenPair (s : DexState B) (tp : TokenPair) : DexState B :=
  { s with dex := { s.dex with tokenPairs := s.dex.tokenPairs.save tp } }

/-- `SaveTokenPair`. -/
def saveTokenPair (s : DexState B) (tp : TokenPair) : DexState B :=
  { s.updateTokenPair tp with
    userTokenPairs := s.userTokenPairs.set (toLex (tp.owner, tp.name)) () }

/-- `DeleteTokenPairByName`. -/
def deleteTokenPairByName (s : DexState B) (owner : Address) (product : String) : DexState B :=
  { s with
    dex := { s.dex with tokenPairs := s.dex.tokenPairs.remove product }
    userTokenPairs := s.userTokenPairs.delete (toLex (owner, product)) }

/-- `UpdateUserTokenPair`. -/
def updateUserTokenPair (s : DexState B) (product : String) (owner target : Address) :
    DexState B :=
  { s with userTokenPairs :=
      (s.userTokenPairs.delete (toLex (owner, product))).set (toLex (target, product)) () }

/-- `Deposit`. -/
def deposit (sk : SupplyKeeper B) (s : DexState B) (product : String) (source : Address)
    (amount : DecCoin) : Except DexError (DexState B) :=
  match s.getTokenPair product with
  | none => .error (.invalidTokenPair product)
  | some tokenPair =>
    if tokenPair.owner ≠ source then .error (.mustTokenPairOwner source product)
    else if amount.denom ≠ bondDenom then .error (.depositOnlySupportDenom bondDenom)
    else
      match sk.sendCoinsFromAccountToModule s.bank source dexModuleName amount.toCoins with
      | none => .error (.insufficientDepositCoins amount.toCoins)
      | some bank =>
        .ok ({ s with bank := bank }.updateTokenPair
          { tokenPair with deposits := tokenPair.deposits + amount.amount })

/-- The withdrawal of an account after `amount` has been added to it: a new one, or the one that is
waiting, with its time moved. -/
def mergedWithdraw (s : DexState B) (target : Address) (amount completeTime : Int) :
    WithdrawInfo :=
  match s.withdrawInfos.get target with
  | none => ⟨target, amount, completeTime⟩
  | some info => { info with deposits := info.deposits + amount, completeTime := completeTime }

/-- The queue without the entry of the withdrawal that is waiting. -/
def dequeued (s : DexState B) (target : Address) : KVStore (Int ×ₗ Address) Unit :=
  match s.withdrawInfos.get target with
  | none => s.withdrawTimes
  | some info => s.withdrawTimes.delete (toLex (info.completeTime, target))

/-- Add to the withdrawal of an account: the entry and its place in the queue. -/
def queueWithdraw (now : Int) (s : DexState B) (target : Address) (amount : Int) : DexState B :=
  let completeTime := now + s.params.withdrawPeriod
  let info := s.mergedWithdraw target amount completeTime
  { s with
    withdrawInfos := s.withdrawInfos.set info.owner info
    withdrawTimes := (s.dequeued target).set (toLex (completeTime, target)) () }

/-- `Withdraw`. -/
def withdraw (now : Int) (s : DexState B) (product : String) (target : Address)
    (amount : DecCoin) : Except DexError (DexState B) :=
  match s.getTokenPair product with
  | none => .error (.invalidTokenPair product)
  | some tokenPair =>
    if tokenPair.owner ≠ target then .error (.mustTokenPairOwner target product)
    else if amount.denom ≠ bondDenom then .error (.withdrawOnlySupportDenom bondDenom)
    else if tokenPair.deposits < amount.amount then
      .error (.insufficientWithdrawCoins ⟨bondDenom, tokenPair.deposits⟩ amount)
    else
      .ok ((s.queueWithdraw now target amount.amount).updateTokenPair
        { tokenPair with deposits := tokenPair.deposits - amount.amount })

/-- Withdraw all deposits of a pair, if there are any. -/
def withdrawAll (now : Int) (s : DexState B) (tokenPair : TokenPair) (target : Address) :
    Except DexError (DexState B) :=
  if 0 < tokenPair.deposits then
    match s.withdraw now tokenPair.name target ⟨bondDenom, tokenPair.deposits⟩ with
    | .error err => .error (.withdrawFailed err)
    | .ok s => .ok s
  else .ok s

/-- `CompleteWithdraw`. -/
def completeWithdraw (sk : SupplyKeeper B) (s : DexState B) (addr : Address) :
    Except DexError (DexState B × WithdrawInfo) :=
  match s.withdrawInfos.get addr with
  | none => .error (.invalidAddress addr)
  | some info =>
    match sk.sendCoinsFromModuleToAccount s.bank dexModuleName info.owner
      (coin bondDenom info.deposits) with
    | none => .error (.insufficientDepositCoins (coin bondDenom info.deposits))
    | some bank => .ok ({ s with bank := bank, withdrawInfos := s.withdrawInfos.delete addr }, info)

/-! ## The handlers -/

/-- The transfer of a product waits for its confirmation. -/
def isTransferring (now : Int) (s : DexState B) (product : String) : Bool :=
  match s.confirmOwnerships.get product with
  | none => false
  | some confirm => decide (now ≤ confirm.expire)

/-- Pay a fee. -/
def payFee (sk : SupplyKeeper B) (s : DexState B) (payer : Address) (fee : DecCoin) :
    Option (DexState B) :=
  (sk.sendCoinsFromAccountToModule s.bank payer feeCollectorName fee.toCoins).map fun bank =>
    { s with bank := bank }

/-- The pair `handleMsgList` makes. -/
def newTokenPair (height : Nat) (msg : MsgList) : TokenPair where
  baseAssetSymbol := msg.listAsset
  quoteAssetSymbol := msg.quoteAsset
  initPrice := msg.initPrice
  maxPriceDigit := 4
  maxQuantityDigit := 4
  minQuantity := 10000000000
  delisting := false
  owner := msg.owner
  deposits := 0
  blockHeight := height

/-- `handleMsgList`. -/
def handleMsgList (sk : SupplyKeeper B) (ctx : BlockContext) (s : DexState B) (msg : MsgList) :
    Except DexError (DexState B) :=
  if ¬ sk.tokenExist s.bank msg.listAsset ∨ ¬ sk.tokenExist s.bank msg.quoteAsset then
    .error (.tokenOfPairNotExist msg.listAsset msg.quoteAsset)
  else if (s.dex.operators.get msg.owner).isNone then .error (.unknownOperator msg.owner)
  else if (s.getTokenPair (msg.listAsset ++ "_" ++ msg.quoteAsset)).isSome ∨
      (s.getTokenPair (msg.quoteAsset ++ "_" ++ msg.listAsset)).isSome then
    .error (.tokenPairExisted msg.listAsset msg.quoteAsset)
  else
    match s.payFee sk msg.owner s.params.listFee with
    | none => .error (.insufficientFeeCoins s.params.listFee.toCoins)
    | some s => .ok (s.saveTokenPair (newTokenPair ctx.height msg))

/-- `handleMsgDeposit`. -/
def handleMsgDeposit (sk : SupplyKeeper B) (ctx : BlockContext) (s : DexState B)
    (msg : MsgDeposit) : Except DexError (DexState B) :=
  if s.isTransferring ctx.time msg.product then .error (.isTransferringOwner msg.product)
  else
    match s.deposit sk msg.product msg.depositor msg.amount with
    | .error err => .error (.depositFailed err)
    | .ok s => .ok s

/-- `handleMsgWithDraw`. -/
def handleMsgWithDraw (ctx : BlockContext) (s : DexState B) (msg : MsgDeposit) :
    Except DexError (DexState B) :=
  s.withdraw ctx.time msg.product msg.depositor msg.amount

/-- `handleMsgTransferOwnership`. -/
def handleMsgTransferOwnership (sk : SupplyKeeper B) (ctx : BlockContext) (s : DexState B)
    (msg : MsgTransferOwnership) : Except DexError (DexState B) :=
  match s.getTokenPair msg.product with
  | none => .error (.tokenPairNotFound msg.product)
  | some tokenPair =>
    if tokenPair.owner ≠ msg.fromAddress then .error (.unauthorized msg.fromAddress msg.product)
    else if (s.dex.operators.get msg.toAddress).isNone then .error (.unknownOperator msg.toAddress)
    else if s.isTransferring ctx.time msg.product then .error (.repeatedTransferOwner msg.product)
    else
      match s.withdrawAll ctx.time tokenPair msg.fromAddress with
      | .error err => .error err
      | .ok s =>
        match s.payFee sk msg.fromAddress s.params.transferOwnershipFee with
        | none => .error (.insufficientFeeCoins s.params.transferOwnershipFee.toCoins)
        | some s =>
          let confirm : ConfirmOwnership := {
            product := msg.product
            fromAddress := msg.fromAddress
            toAddress := msg.toAddress
            expire := ctx.time + s.params.ownershipConfirmWindow }
          .ok { s with confirmOwnerships := s.confirmOwnerships.set confirm.product confirm }

/-- `handleMsgConfirmOwnership`. -/
def handleMsgConfirmOwnership (ctx : BlockContext) (s : DexState B) (msg : MsgConfirmOwnership) :
    Except DexError (DexState B) :=
  match s.confirmOwnerships.get msg.product with
  | none => .error (.confirmOwnershipNotExist msg.address)
  | some confirm =>
    if confirm.expire < ctx.time then .error (.transferOwnerExpired confirm.expire)
    else if confirm.toAddress ≠ msg.address then
      .error (.unauthorized confirm.toAddress msg.product)
    else
      match s.getTokenPair msg.product with
      | none => .error (.tokenPairNotFound msg.product)
      | some tokenPair =>
        let s := s.updateTokenPair { tokenPair with owner := msg.address }
        let s := s.updateUserTokenPair msg.product confirm.fromAddress msg.address
        .ok { s with confirmOwnerships := s.confirmOwnerships.delete confirm.product }

/-- `handleMsgCreateOperator`. -/
def handleMsgCreateOperator (sk : SupplyKeeper B) (s : DexState B) (msg : MsgOperator) :
    Except DexError (DexState B) :=
  if (s.dex.operators.get msg.owner).isSome then .error (.existOperator msg.owner)
  else
    let s := { s with dex := { s.dex with
      operators := s.dex.operators.set msg.owner msg.handlingFeeAddress } }
    match s.payFee sk msg.owner s.params.registerOperatorFee with
    | none => .error .insufficientCoins
    | some s => .ok s

/-- `handleMsgUpdateOperator`. An operator is stored under its own address. -/
def handleMsgUpdateOperator (s : DexState B) (msg : MsgOperator) : Except DexError (DexState B) :=
  if (s.dex.operators.get msg.owner).isNone then .error (.unknownOperator msg.owner)
  else .ok { s with dex := { s.dex with
    operators := s.dex.operators.set msg.owner msg.handlingFeeAddress } }

/-- `handleDelistProposal`. -/
def handleDelistProposal (ctx : BlockContext) (s : DexState B) (baseAsset quoteAsset : String) :
    Except DexError (DexState B) :=
  let tokenPairName := baseAsset ++ "_" ++ quoteAsset
  match s.getTokenPair tokenPairName with
  | none => .error (.tokenPairNotFound tokenPairName)
  | some tokenPair =>
    if s.dex.isTokenPairLocked tokenPairName then .error (.isTokenPairLocked tokenPairName)
    else
      match s.withdrawAll ctx.time tokenPair tokenPair.owner with
      | .error err => .error err
      | .ok s => .ok (s.deleteTokenPairByName tokenPair.owner tokenPairName)

/-! ## The end of a block -/

/-- What the loop of `EndBlocker` has done: the withdrawals it paid and the accounts whose
completion failed. -/
structure Completed (B : Type) where
  state : DexState B
  paid : List WithdrawInfo
  failed : List Address

/-- One step of the loop. -/
def completeNext (sk : SupplyKeeper B) (acc : Completed B) (key : Int ×ₗ Address) : Completed B :=
  let (oldTime, addr) := ofLex key
  match acc.state.completeWithdraw sk addr with
  | .error _ => { acc with failed := acc.failed ++ [addr] }
  | .ok (s, info) =>
    { acc with
      state := { s with withdrawTimes := s.withdrawTimes.delete (toLex (oldTime, addr)) }
      paid := acc.paid ++ [info] }

/-- The keys `IterateWithdrawAddress` visits: all up to the current time. -/
def dueKeys (now : Int) (s : DexState B) : List (Int ×ₗ Address) :=
  s.withdrawTimes.keys.filter fun key => decide ((ofLex key).1 ≤ now)

/-- `EndBlocker`. -/
def endBlocker (sk : SupplyKeeper B) (now : Int) (s : DexState B) : Completed B :=
  (s.dueKeys now).foldl (completeNext sk) ⟨s, [], []⟩

end DexState

end Okexchain
