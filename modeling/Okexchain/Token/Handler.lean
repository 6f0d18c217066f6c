import Okexchain.Token.Msgs
import Mathlib.Data.Prod.Lex

/-!
# The token handlers

Model of `x/token/handler.go` with the part of `x/token/keeper.go` it writes through (`NewToken`,
`UpdateToken`, `addTokenSuffix`, the confirmations of a change of owner), and of
`handleMsgCreateExchange` of `x/ammswap/handler.go`, which registers a pool token here.

* A handler that returns an error or panics leaves no trace: the transaction is dropped. This holds
  for the deletion of an expired confirmation in `handleMsgConfirmOwnership` too.
* `TxContext.txHash` is the text of the hash of the transaction, whose digits give a new token its
  suffix.
* `swapPairs` is the store of the swap module, as far as `handleMsgCreateExchange` uses it.
-/

namespace Okexchain

namespace TokenModule

/-- The block and the transaction a message is handled in. -/
structure TxContext where
  height : Nat
  time : Int
  /-- `fmt.Sprintf("%x", tmhash.Sum(ctx.TxBytes()))`. -/
  txHash : String
deriving DecidableEq, Repr

/-- The store of the token module, the bank, and the pairs of the swap module. -/
structure TokenState (B : Type) where
  params : Params
  tokens : KeyedStore Token.symbol
  userTokens : KVStore (Address ×ₗ String) Unit
  /-- The counter under `TokenNumberKey`. -/
  tokenNumber : UInt64
  confirmOwnerships : KeyedStore ConfirmOwnership.symbol
  ledger : Ledger B
  swapPairs : KVStore String SwapTokenPair

namespace TokenState

variable {B : Type} (k : Keepers B) (s : TokenState B)

/-! ## The keeper -/

/-- `GetTokenInfo`: the zero record when there is none. -/
def getTokenInfo (symbol : String) : Token :=
  (s.tokens.get symbol).getD ⟨"", "", "", "", 0, 0, "", false⟩

/-- `GetUserTokensInfo`. -/
def getUserTokensInfo (owner : Address) : List Token :=
  (s.userTokens.keys.filter fun key => (ofLex key).1 = owner).map fun key =>
    s.getTokenInfo (ofLex key).2

/-- `TokenExist`. -/
def tokenExist (symbol : String) : Bool := (s.tokens.get symbol).isSome

/-- `NewToken`. -/
def newToken (token : Token) : TokenState B :=
  { s with
    tokens := s.tokens.put token
    userTokens := s.userTokens.set (toLex (token.owner, token.symbol)) ()
    tokenNumber := s.tokenNumber + 1 }

/-- `UpdateToken`. -/
def updateToken (token : Token) : TokenState B := { s with tokens := s.tokens.put token }

/-- `DeleteUserToken`. -/
def deleteUserToken (owner : Address) (symbol : String) : TokenState B :=
  { s with userTokens := s.userTokens.delete (toLex (owner, symbol)) }

/-- The bank after a call that succeeded. -/
def withBank (bank : B) : TokenState B := { s with ledger := { s.ledger with bank := bank } }

/-- The name `addTokenSuffix` tries at position `i` of the hash. -/
def suffixedName (originalSymbol hash : String) (i : Nat) : String :=
  originalSymbol ++ "-" ++
    String.ofList (((hash.toList.drop (3 * i)).take 3).map Char.toLower)

/-- The loop of `addTokenSuffix`, from position `i - 1` down. -/
def addTokenSuffixFrom (originalSymbol hash : String) : Nat → Option String
  | 0 => none
  | i + 1 =>
    let name := suffixedName originalSymbol hash i
    if !k.validateDenom name then none
    else if !s.tokenExist name then some name
    else addTokenSuffixFrom originalSymbol hash i

/-- `addTokenSuffix`. -/
def addTokenSuffix (ctx : TxContext) (originalSymbol : String) : Option String :=
  s.addTokenSuffixFrom k originalSymbol ctx.txHash (ctx.txHash.toList.length / 3)

/-- The fee a handler takes last. -/
def payFee (owner : Address) (fee : DecCoin) : Except TokenError (TokenState B) := do
  let bank ← orThrow
    (k.sendCoinsFromAccountToModule s.ledger.bank owner feeCollectorName fee.toCoins)
    .sendCoinsFromAccountToModuleFailed
  return s.withBank bank

/-- `SendCoinsFromAccountToAccount`. -/
def sendCoinsFromAccountToAccount (ctx : TxContext) (source target : Address) (amt : Coins) :
    Except TokenError (TokenState B) := do
  require (k.blacklistedAddr target = false) .sendCoinsFromAccountToAccountFailed
  require (¬ (k.higherThanMercury ctx.height ∧ k.isContractAddress s.ledger.bank target))
    .sendCoinsFromAccountToAccountFailed
  let bank ← orThrow (k.sendCoins s.ledger.bank source target amt)
    .sendCoinsFromAccountToAccountFailed
  return s.withBank bank

/-! ## Handlers -/

/-- The name of the token module's account, `types.ModuleName`. -/
def moduleName : String := "token"

/-- `handleMsgTokenIssue`. -/
def handleMsgTokenIssue (ctx : TxContext) (msg : MsgTokenIssue) :
    Except TokenError (TokenState B) := do
  let totalSupply ← orThrow (k.newDecFromStr msg.totalSupply) .getDecimalFromDecimalStringFailed
  require (totalSupply ≤ Dec.newDec totalSupplyUpperbound) .amountBiggerThanTotalSupplyUpperbound
  let newName ← orThrow (s.addTokenSuffix k ctx msg.originalSymbol) .invalidCoins
  let token : Token :=
    { description := msg.description
      symbol := newName
      originalSymbol := msg.originalSymbol
      wholeName := msg.wholeName
      originalTotalSupply := totalSupply
      type := 0
      owner := msg.owner
      mintable := msg.mintable }
  let coins ← orThrow (k.mustParseCoins token.symbol msg.totalSupply) .parsePanic
  let bank ← orThrow (k.mintCoins s.ledger.bank (k.moduleAddress moduleName) coins)
    .mintCoinsFailed
  let bank ← orThrow (k.sendCoinsFromModuleToAccount bank moduleName token.owner coins)
    .sendCoinsFromModuleToAccountFailed
  ((s.withBank bank).newToken token).payFee k token.owner s.params.feeIssue

/-- `handleMsgTokenBurn`. -/
def handleMsgTokenBurn (msg : MsgTokenAmount) : Except TokenError (TokenState B) := do
  let token := s.getTokenInfo msg.amount.denom
  require (token.owner = msg.owner) (.inputOwnerIsNotEqualTokenOwner msg.owner)
  let subCoins := msg.amount.toCoins
  let bank ← orThrow
    (k.sendCoinsFromAccountToModule s.ledger.bank msg.owner moduleName subCoins)
    .sendCoinsFromAccountToModuleFailed
  let bank ← orThrow (k.burnCoins bank (k.moduleAddress moduleName) subCoins) .burnCoinsFailed
  (s.withBank bank).payFee k msg.owner s.params.feeBurn

/-- `handleMsgTokenMint`. -/
def handleMsgTokenMint (msg : MsgTokenAmount) : Except TokenError (TokenState B) := do
  let token := s.getTokenInfo msg.amount.denom
  require (token.owner = msg.owner) (.inputOwnerIsNotEqualTokenOwner msg.owner)
  require token.mintable .tokenIsNotMintable
  let totalSupplyAfterMint := k.getSupplyByDenom s.ledger.bank msg.amount.denom + msg.amount.amount
  require (totalSupplyAfterMint ≤ Dec.newDec totalSupplyUpperbound)
    (.totalsupplyExceedsTheUpperLimit totalSupplyAfterMint)
  let mintCoins := msg.amount.toCoins
  let bank ← orThrow (k.mintCoins s.ledger.bank (k.moduleAddress moduleName) mintCoins)
    .mintCoinsFailed
  let bank ← orThrow (k.sendCoinsFromModuleToAccount bank moduleName msg.owner mintCoins)
    .sendCoinsFromModuleToAccountFailed
  (s.withBank bank).payFee k msg.owner s.params.feeMint

/-- `handleMsgMultiSend`. -/
def handleMsgMultiSend (ctx : TxContext) (msg : MsgMultiSend) :
    Except TokenError (TokenState B) := do
  require (k.getSendEnabled s.ledger.bank) .sendDisabled
  msg.transfers.foldlM
    (fun s transfer => s.sendCoinsFromAccountToAccount k ctx msg.source transfer.target
      transfer.coins) s

/-- `handleMsgSend`. -/
def handleMsgSend (ctx : TxContext) (msg : MsgSend) : Except TokenError (TokenState B) := do
  require (k.getSendEnabled s.ledger.bank) .sendDisabled
  s.sendCoinsFromAccountToAccount k ctx msg.fromAddress msg.toAddress msg.amount

/-- The pending confirmation stands in the way of another one: it exists and has not expired. -/
def awaitsConfirmation (ctx : TxContext) (symbol : String) : Bool :=
  match s.confirmOwnerships.get symbol with
  | none => false
  | some confirmOwnership => decide (ctx.time ≤ confirmOwnership.expire)

/-- A token in new hands: it leaves the list of its owner and is stored anew. -/
def changeOwner (tokenInfo : Token) (owner : Address) : TokenState B :=
  (s.deleteUserToken tokenInfo.owner tokenInfo.symbol).newToken { tokenInfo with owner := owner }

/-- `handleMsgTransferOwnership`. -/
def handleMsgTransferOwnership (ctx : TxContext) (msg : MsgTransferOwnership) :
    Except TokenError (TokenState B) := do
  let tokenInfo := s.getTokenInfo msg.symbol
  require (tokenInfo.owner = msg.fromAddress)
    (.inputFromAddressIsNotEqualTokenInfoOwner msg.fromAddress)
  require (s.awaitsConfirmation ctx msg.symbol = false) .confirmOwnershipNotExistOrBlockTimeAfter
  let s' :=
    if msg.toAddress = blackHoleAddress then s.changeOwner tokenInfo msg.toAddress
    else
      { s with
        confirmOwnerships := s.confirmOwnerships.put
          ⟨msg.symbol, msg.toAddress, ctx.time + s.params.ownershipConfirmWindow⟩ }
  s'.payFee k msg.fromAddress s.params.feeChown

/-- `handleMsgConfirmOwnership`. -/
def handleMsgConfirmOwnership (ctx : TxContext) (msg : MsgConfirmOwnership) :
    Except TokenError (TokenState B) := do
  let confirmOwnership ← orThrow (s.confirmOwnerships.get msg.symbol) .getConfirmOwnership
  require (ctx.time ≤ confirmOwnership.expire) .confirmOwnershipNotExistOrBlockTimeAfter
  require (confirmOwnership.address = msg.address)
    (.confirmOwnershipAddressNotEqualsMsgAddress msg.address)
  let s := s.changeOwner (s.getTokenInfo msg.symbol) msg.address
  return { s with confirmOwnerships := s.confirmOwnerships.delete confirmOwnership.symbol }

/-- `handleMsgTokenModify`. -/
def handleMsgTokenModify (msg : MsgTokenModify) : Except TokenError (TokenState B) := do
  let token := s.getTokenInfo msg.symbol
  require (token.owner = msg.owner) (.inputOwnerIsNotEqualTokenOwner msg.owner)
  require (msg.isWholeNameModified ∨ msg.isDescriptionModified)
    .wholeNameAndDescriptionIsNotModified
  let token :=
    { token with
      wholeName := if msg.isWholeNameModified then msg.wholeName else token.wholeName
      description := if msg.isDescriptionModified then msg.description else token.description }
  (s.updateToken token).payFee k msg.owner s.params.feeModify

/-! ## Pool tokens -/

/-- `InitPoolToken` of `x/ammswap/types/swap.go`. -/
def initPoolToken (poolTokenName : String) : Token where
  description := poolTokenName
  symbol := poolTokenName
  originalSymbol := poolTokenName
  wholeName := poolTokenName
  originalTotalSupply := 0
  owner := k.moduleAddress swapModuleName
  type := generateTokenType
  mintable := true

/-- `IsTokenExist` of the swap keeper. -/
def isTokenExist (token : String) : Except SwapError Unit := do
  require (s.tokenExist token) .tokenNotExist
  require ((s.getTokenInfo token).type ≠ generateTokenType) .invalidCoins

/-- `handleMsgCreateExchange` of the swap module. -/
def handleMsgCreateExchange (msg : MsgCreateExchange) : Except SwapError (TokenState B) := do
  s.isTokenExist msg.token0Name
  s.isTokenExist msg.token1Name
  let tokenPairName := msg.getSwapTokenPairName
  require (s.swapPairs.get tokenPairName).isNone .swapTokenPairExist
  let poolTokenName := getPoolTokenName msg.token0Name msg.token1Name
  require ((s.getTokenInfo poolTokenName).owner = "") .poolTokenPairExist
  let s := s.newToken (initPoolToken k poolTokenName)
  return { s with
    swapPairs := s.swapPairs.set tokenPairName (newSwapPair msg.token0Name msg.token1Name) }

end TokenState

/-! ## Messages -/

/-- The messages of the token module. -/
inductive TokenMsg where
  | issue (msg : MsgTokenIssue)
  | burn (msg : MsgTokenAmount)
  | mint (msg : MsgTokenAmount)
  | multiSend (msg : MsgMultiSend)
  | send (msg : MsgSend)
  | transferOwnership (msg : MsgTransferOwnership)
  | confirmOwnership (msg : MsgConfirmOwnership)
  | modify (msg : MsgTokenModify)

/-- `ValidateBasic`. -/
def TokenMsg.validateBasic {B : Type} (k : Keepers B) : TokenMsg → Except TokenError Unit
  | issue msg => msg.validateBasic k
  | burn msg => msg.validateBurn k
  | mint msg => msg.validateMint k
  | multiSend msg => msg.validateBasic
  | send msg => msg.validateBasic
  | transferOwnership msg => msg.validateBasic k
  | confirmOwnership msg => msg.validateBasic k
  | modify msg => msg.validateBasic k

namespace TokenState

variable {B : Type} (k : Keepers B) (s : TokenState B)

/-- `NewTokenHandler`. -/
def handle (ctx : TxContext) : TokenMsg → Except TokenError (TokenState B)
  | .issue msg => s.handleMsgTokenIssue k ctx msg
  | .burn msg => s.handleMsgTokenBurn k msg
  | .mint msg => s.handleMsgTokenMint k msg
  | .multiSend msg => s.handleMsgMultiSend k ctx msg
  | .send msg => s.handleMsgSend k ctx msg
  | .transferOwnership msg => s.handleMsgTransferOwnership k ctx msg
  | .confirmOwnership msg => s.handleMsgConfirmOwnership ctx msg
  | .modify msg => s.handleMsgTokenModify k msg

end TokenState

end TokenModule

end Okexchain
