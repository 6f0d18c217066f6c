import Okexchain.Token.Keeper

/-!
# EVM transactions: gas, refunds and logs

Model of `handleMsgEthereumTx` and `handleMsgEthermint` (`x/evm/handler.go`), of `TransitionDb` and
`RefundGas` (`x/evm/types/state_transition.go`) and of what the ante handlers of `app/ante` charge,
when a transaction is delivered.

* Gas is unsigned: a difference wraps around.
* `GasMeter` is the meter of the sdk. A consumption that goes over the limit panics, and has been
  added by then; one that overflows panics and leaves zero.
* `Interpreter` is go-ethereum's: it gets some gas and leaves at most as much. It may do anything
  else, so every message has its own. The logs it leaves are numbered on from the log size of the
  keeper; logs that are reverted are taken off the end.
* The refund is a deferred call. It is made when the handler returns, fails or panics, once the
  parameters have been read, and its own failure is a panic.
* `TransitionDb` sets `GasReturn` in its copy of the transition, so `RefundGas` sees zero.
* Reading the parameters and the chain configuration costs gas on the meter of the transaction.
-/

namespace Okexchain

/-- The gas meter of a transaction. -/
structure GasMeter where
  limit : UInt64
  consumed : UInt64
deriving DecidableEq

/-- `ConsumeGas`: the meter it leaves, and whether it panics. -/
def GasMeter.consumeGas (m : GasMeter) (amount : UInt64) : GasMeter × Bool :=
  if 2 ^ 64 ≤ m.consumed.toNat + amount.toNat then ({ m with consumed := 0 }, true)
  else ({ m with consumed := m.consumed + amount }, m.limit < m.consumed + amount)

/-- How a handler ends. -/
inductive Ending where
  | ok
  | error
  | panic
deriving DecidableEq

/-- What the interpreter leaves of a call or a creation. -/
structure Execution (L : Type) where
  leftOverGas : UInt64
  refund : UInt64
  failed : Bool
  logs : List L

/-- The interpreter, which does not give back more gas than it gets. -/
structure Interpreter (L : Type) where
  run : UInt64 → Execution L
  left_le : ∀ gas, (run gas).leftOverGas ≤ gas

/-- What the handlers read: the parameters and the chain configuration, with the gas this costs. -/
structure EvmConfig where
  paramsGas : UInt64
  configGas : UInt64
  foundConfig : Bool
  enableCreate : Bool
  enableCall : Bool

/-- The fields of a message that gas depends on. `intrinsicGas` is that of the payload, unless it
overflows. -/
structure EvmMsg where
  price : Nat
  gasLimit : UInt64
  recipient : Option Address
  intrinsicGas : Option UInt64

/-- `StateTransition`, with the fields of the message. -/
structure StateTransition extends EvmMsg where
  gasReturn : UInt64

/-- The transition that both handlers start from. -/
def EvmMsg.transition (msg : EvmMsg) : StateTransition :=
  ⟨msg, 0⟩

/-- The fields of the keeper that are reset at the begin of a block. -/
structure EvmKeeper where
  bloom : Nat
  txCount : Nat
  logSize : Nat
deriving DecidableEq

/-- The gas that `TransitionDb` hands to the interpreter, the gas that is used of it, and the gas to
return that it computes. -/
structure GasUse where
  gasLimit : UInt64
  gasConsumed : UInt64
  gasReturn : UInt64
deriving DecidableEq

/-- What `TransitionDb` leaves: the gas, if the interpreter is run, and the logs. -/
structure Transitioned (L : Type) where
  ending : Ending
  meter : GasMeter
  use : Option GasUse
  logs : List L

variable {L : Type}

namespace StateTransition

/-- Creations, or calls, are enabled. -/
def enabled (st : StateTransition) (cfg : EvmConfig) : Bool :=
  if st.recipient.isNone then cfg.enableCreate else cfg.enableCall

/-- What the interpreter uses of the gas. At most half of it is to be returned. -/
def gasUse (st : StateTransition) (m : GasMeter) (evm : Interpreter L) : GasUse :=
  let gasLimit := st.gasLimit - m.consumed
  let gasConsumed := gasLimit - (evm.run gasLimit).leftOverGas
  let refund := (evm.run gasLimit).refund
  ⟨gasLimit, gasConsumed, if gasConsumed / 2 > refund then refund else gasConsumed / 2⟩

/-- `TransitionDb`. The gas to return is set in the copy of the transition that the call has. -/
def transitionDb (st : StateTransition) (cfg : EvmConfig) (m : GasMeter) (evm : Interpreter L) :
    Transitioned L :=
  if st.intrinsicGas.isNone then ⟨.error, m, none, []⟩
  else if !st.enabled cfg then ⟨.error, m, none, []⟩
  else
    let use := st.gasUse m evm
    let e := evm.run use.gasLimit
    let charged := m.consumeGas use.gasConsumed
    if charged.2 then ⟨.panic, charged.1, some use, []⟩
    else if e.failed then ⟨.error, charged.1, some use, []⟩
    else ⟨.ok, charged.1, some use, e.logs⟩

/-- `RefundGas`: what is sent to the sender, unless the fee collector does not have it. -/
def refundGas (st : StateTransition) (m : GasMeter) (collector : Nat) : Option Nat :=
  let gasRemaining := st.gasLimit - m.consumed + st.gasReturn
  let feeReturn := st.price * gasRemaining.toNat
  if feeReturn = 0 then some 0 else if feeReturn ≤ collector then some feeReturn else none

end StateTransition

/-- What a handler leaves. -/
structure Handled (L : Type) extends Transitioned L where
  sent : Nat
  keeper : EvmKeeper

namespace EvmMsg

/-- `GetChainConfig` and `TransitionDb`. -/
def execute (msg : EvmMsg) (cfg : EvmConfig) (m : GasMeter) (evm : Interpreter L) :
    Transitioned L :=
  let read := m.consumeGas cfg.configGas
  if read.2 then ⟨.panic, read.1, none, []⟩
  else if !cfg.foundConfig then ⟨.error, read.1, none, []⟩
  else msg.transition.transitionDb cfg read.1 evm

/-- The deferred refund, which panics if it fails. -/
def settle (msg : EvmMsg) (collector : Nat) (k : EvmKeeper) (t : Transitioned L) : Handled L :=
  match msg.transition.refundGas t.meter collector with
  | some sent => ⟨t, sent, k⟩
  | none => ⟨{ t with ending := .panic }, 0, k⟩

end EvmMsg

/-- The bloom filter of logs is the union of those of each. -/
def logsBloom (bloom : L → Nat) (logs : List L) : Nat :=
  (logs.map bloom).foldl (· ||| ·) 0

/-- The keeper after an execution: the logs of a success are in the bloom filter, and counted. -/
def EvmKeeper.record (bloom : L → Nat) (k : EvmKeeper) (t : Transitioned L) : EvmKeeper :=
  let k := { k with txCount := k.txCount + 1 }
  if t.ending = .ok then
    { k with
      bloom := k.bloom ||| logsBloom bloom t.logs
      logSize := k.logSize + t.logs.length }
  else k

/-- `handleMsgEthereumTx` and `handleMsgEthermint`, which differ in where the fields of the message
are found. -/
def EvmMsg.handle (bloom : L → Nat) (cfg : EvmConfig) (collector : Nat) (k : EvmKeeper)
    (msg : EvmMsg) (m : GasMeter) (evm : Interpreter L) : Handled L :=
  let read := m.consumeGas cfg.paramsGas
  if read.2 then ⟨⟨.panic, read.1, none, []⟩, 0, k⟩
  else
    let t := msg.execute cfg read.1 evm
    msg.settle collector (k.record bloom t) t

/-- A transaction after its ante handler. That of an Ethereum transaction moves the price of its gas
limit to the fee collector and starts a meter with this limit; that of a `StdTx` moves the fee of
the transaction, of which `fee` is in the denomination of the EVM and paid by the sender of the
message, and has consumed gas on a meter with the limit of the transaction. -/
inductive EvmTx where
  | ethereum (msg : EvmMsg)
  | ethermint (msg : EvmMsg) (meter : GasMeter) (fee : Nat)

namespace EvmTx

def msg : EvmTx → EvmMsg
  | ethereum msg => msg
  | ethermint msg _ _ => msg

/-- The fee that the ante handler has moved. -/
def fee : EvmTx → Nat
  | ethereum msg => msg.price * msg.gasLimit.toNat
  | ethermint _ _ fee => fee

/-- The meter that the message is handled on. -/
def meter : EvmTx → GasMeter
  | ethereum msg => ⟨msg.gasLimit, 0⟩
  | ethermint _ meter _ => meter

end EvmTx

end Okexchain
