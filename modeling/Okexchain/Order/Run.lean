import Okexchain.Order.Handler

/-!
# Runs of the order module

A node is the module's state together with its position in the chain: the height and whether a
block is open. Its actions are those of the application: `BeginBlocker`, the two messages,
`EndBlocker`, and `outside`, which is everything other modules do to the stores the order module
shares with them (transfers, listings, delistings, parameter changes).
-/

namespace Okexchain

variable {B : Type}

/-- What other modules write. -/
structure Outside (B : Type) where
  bank : B
  tokenPairs : TokenPairStore
  operators : KVStore Address Address
  params : Params

/-- The state after other modules have run. -/
def State.outside (s : State B) (c : Outside B) : State B :=
  { s with
    ledger := { s.ledger with bank := c.bank }
    dex := { s.dex with tokenPairs := c.tokenPairs, operators := c.operators }
    params := c.params }

/-- The actions of a node. -/
inductive Action (B : Type) where
  | beginBlock
  | newOrders (msg : MsgNewOrders)
  | cancelOrders (msg : MsgCancelOrders)
  | outside (c : Outside B)
  | endBlock (iter : MapOrder)

/-- A node: the height of the last block begun, whether it is still open, and the state. -/
structure Node (B : Type) where
  inBlock : Bool
  height : Nat
  state : State B

/-- One action of a node; `none` when it is out of place, or when `EndBlocker` panics. -/
def Node.step (env : Env B) (n : Node B) : Action B → Option (Node B)
  | .beginBlock =>
    if n.inBlock then none
    else some { inBlock := true, height := n.height + 1, state := n.state.resetCache env }
  | .newOrders msg =>
    if n.inBlock then
      some { n with state := (n.state.handleMsgNewOrders env n.height msg).1 }
    else none
  | .cancelOrders msg =>
    if n.inBlock then
      some { n with state := (n.state.handleMsgCancelOrders env n.height msg).1 }
    else none
  | .outside c => some { n with state := n.state.outside c }
  | .endBlock iter =>
    if n.inBlock then
      (n.state.endBlocker env iter n.height).map fun s =>
        { n with inBlock := false, state := s }
    else none

/-! ## Runs as lists of actions -/

/-- The node after a list of actions. -/
def Node.run (env : Env B) (n : Node B) (actions : List (Action B)) : Option (Node B) :=
  actions.foldlM (fun n a => n.step env a) n

/-! ## A small market

One pair, a buyer and a seller, on `simpleEnv`. -/

/-- A pair as `handleMsgList` makes it. -/
def listedPair (base quote : String) (deposits blockHeight : Int) : TokenPair where
  baseAssetSymbol := base
  quoteAssetSymbol := quote
  initPrice := Dec.one
  maxPriceDigit := 4
  maxQuantityDigit := 4
  minQuantity := 10000000000
  delisting := false
  owner := "owner"
  deposits := deposits
  blockHeight := blockHeight

/-- Only `abc_okt` is listed. -/
def abcPairs : TokenPairStore where
  pairs := (∅ : KVStore String TokenPair).set "abc_okt" (listedPair "abc" "okt" 0 0)
  named := by
    intro product tp h
    rw [KVStore.get_set] at h
    split_ifs at h with hp
    · cases h
      rw [hp]
      decide
    · cases h

/-- No fees; orders expire after `expire` blocks, and a block has at most `deals` deals. -/
def freeParams (expire deals : Nat) (hexpire : 0 < expire) (hdeals : 0 < deals) : Params where
  orderExpireBlocks := expire
  maxDealsPerBlock := deals
  feePerBlock := ⟨"okt", 0⟩
  tradeFeeRate := 0
  orderExpireBlocks_pos := hexpire
  maxDealsPerBlock_pos := hdeals
  feePerBlock_nonneg := DecCoin.free_nonneg "okt"
  tradeFeeRate_nonneg := le_rfl
  tradeFeeRate_le_one := Dec.one_nonneg

/-- The number of blocks and of deals of most markets. -/
theorem ten_pos : 0 < 10 := by decide

/-- Alice has `okt`, Bob has `abc`. -/
def abcBank : KVStore Address Coins :=
  ((∅ : KVStore Address Coins).set "alice" (coin "okt" (Dec.newDec 1000))).set "bob"
    (coin "abc" (Dec.newDec 1000))

/-- The market before its first block. -/
def abcMarket (params : Params) : Node (KVStore Address Coins) where
  inBlock := false
  height := 0
  state := {
    store := OrderStore.empty
    disk := newDiskCache
    ledger := ⟨∅, ∅, abcBank, []⟩
    dex := ⟨abcPairs, ∅, ∅⟩
    params := params
    started := false }

/-- An order of the pair, with a whole price and quantity. -/
def abcItem (side : Side) (price quantity : Int) : OrderItem :=
  ⟨"abc_okt", side, Dec.newDec price, Dec.newDec quantity⟩

end Okexchain
