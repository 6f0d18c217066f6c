import Okexchain.Swap.Types

/-!
# The swap keeper and its handlers

Model of `x/ammswap/keeper` and of `x/ammswap/handler.go`.

* `SwapState` is the module's store, its parameters, and what it shares with other modules: the
  token infos and the bank.
* `notices` is what `OnSwapToken` tells the observers. The source passes the pair after the swap;
  a notice here also keeps the pair before it, so that the reserve a coin was bought from can be
  named.
* A routed swap reads both pairs before it changes the first one and stores the second from that
  copy, as the source does. Its first leg pays the recipient and its second leg is paid by the
  sender.
* A handler that fails or panics leaves no trace: the transaction is rolled back.
-/

namespace Okexchain

/-- What `OnSwapToken` reports, with the pair before the swap. -/
structure SwapNotice where
  address : Address
  before : SwapTokenPair
  swapTokenPair : SwapTokenPair
  sellAmount : DecCoin
  buyAmount : DecCoin
deriving DecidableEq, Repr

/-- The swap module with what it reads and writes of others. -/
structure SwapState (B : Type) where
  pairs : KVStore String SwapTokenPair
  params : SwapParams
  tokens : KeyedStore Token.symbol
  bank : B
  notices : List SwapNotice

/-! ## Pricing -/

/-- `GetInputPrice`. -/
def getInputPrice (inputAmount inputReserve outputReserve feeRate : Int) : Option Int :=
  let inputAmountWithFee :=
    Dec.mulTruncate inputAmount (Dec.mulTruncate (Dec.one - feeRate) (Dec.newDec 1000))
  let denominator := Dec.mulTruncate inputReserve (Dec.newDec 1000) + inputAmountWithFee
  mulAndQuo inputAmountWithFee outputReserve denominator

/-- `CalculateTokenToBuy`. -/
def calculateTokenToBuy (swapTokenPair : SwapTokenPair) (sellToken : DecCoin)
    (buyTokenDenom : String) (params : SwapParams) : Except SwapError DecCoin := do
  let (inputReserve, outputReserve) :=
    if buyTokenDenom < sellToken.denom then
      (swapTokenPair.quotePooledCoin.amount, swapTokenPair.basePooledCoin.amount)
    else (swapTokenPair.basePooledCoin.amount, swapTokenPair.quotePooledCoin.amount)
  let tokenBuyAmt ← orThrow
    (getInputPrice sellToken.amount inputReserve outputReserve params.feeRate)
    (.panic .divisionByZero)
  DecCoin.newDecCoinFromDec buyTokenDenom tokenBuyAmt

namespace SwapState

variable {B : Type}

/-! ## The store -/

/-- `GetSwapTokenPair`. -/
def getSwapTokenPair (s : SwapState B) (tokenPairName : String) :
    Except SwapError SwapTokenPair :=
  orThrow (s.pairs.get tokenPairName) (.nonExistSwapTokenPair tokenPairName)

/-- `SetSwapTokenPair`. -/
def setSwapTokenPair (s : SwapState B) (tokenPairName : String) (swapTokenPair : SwapTokenPair) :
    SwapState B :=
  { s with pairs := s.pairs.set tokenPairName swapTokenPair }

/-- `GetTokenInfo` of the token keeper: a token that does not exist has no owner. -/
def getTokenInfo (s : SwapState B) (symbol : String) : Token :=
  (s.tokens.get symbol).getD ⟨"", "", 0⟩

/-- `IsTokenExist`. -/
def isTokenExist (s : SwapState B) (token : String) : Except SwapError Unit := do
  require (s.tokens.get token).isSome .tokenNotExist
  require ((s.getTokenInfo token).type ≠ generateTokenType) .invalidCoins

/-- `GetPoolTokenInfo`. -/
def getPoolTokenInfo (s : SwapState B) (symbol : String) : Except SwapError Token := do
  require ((s.getTokenInfo symbol).owner ≠ "") (.nonExistPoolToken symbol)
  return s.getTokenInfo symbol

/-- `NewPoolToken`. -/
def newPoolToken (sk : MintKeeper B) (s : SwapState B) (symbol : String) : SwapState B :=
  { s with tokens := s.tokens.put ⟨symbol, sk.moduleAddress swapModuleName, generateTokenType⟩ }

/-- `GetPoolTokenAmount`. -/
def getPoolTokenAmount (sk : MintKeeper B) (s : SwapState B) (poolTokenName : String) : Int :=
  sk.getSupplyByDenom s.bank poolTokenName

/-- `MintPoolCoinsToUser`. -/
def mintPoolCoinsToUser (sk : MintKeeper B) (bank : B) (coins : Coins) (addr : Address) :
    Option B := do
  let bank ← sk.mintCoins bank (sk.moduleAddress swapModuleName) coins
  sk.sendCoinsFromModuleToAccount bank swapModuleName addr coins

/-- `BurnPoolCoinsFromUser`. -/
def burnPoolCoinsFromUser (sk : MintKeeper B) (bank : B) (coins : Coins) (addr : Address) :
    Option B := do
  let bank ← sk.sendCoinsFromAccountToModule bank addr swapModuleName coins
  sk.burnCoins bank (sk.moduleAddress swapModuleName) coins

/-- `SendCoinsToPool`. -/
def sendCoinsToPool (sk : MintKeeper B) (bank : B) (coins : Coins) (addr : Address) : Option B :=
  sk.sendCoinsFromAccountToModule bank addr swapModuleName coins

/-- `SendCoinsFromPoolToAccount`. -/
def sendCoinsFromPoolToAccount (sk : MintKeeper B) (bank : B) (coins : Coins) (addr : Address) :
    Option B :=
  sk.sendCoinsFromModuleToAccount bank swapModuleName addr coins

/-- `common.HasSufficientCoins`. -/
def hasSufficientCoins (sk : MintKeeper B) (s : SwapState B) (addr : Address) (amt : DecCoin) :
    Except SwapError Unit :=
  require ((sk.getCoins s.bank addr - amt.toCoins).isNegative = false) .insufficientCoins

/-! ## Exchanges -/

/-- `handleMsgCreateExchange`. -/
def handleMsgCreateExchange (sk : MintKeeper B) (s : SwapState B) (msg : MsgCreateExchange) :
    Except SwapError (SwapState B) := do
  s.isTokenExist msg.token0Name
  s.isTokenExist msg.token1Name
  let tokenPairName := msg.getSwapTokenPairName
  require ((s.pairs.get tokenPairName).isNone) .swapTokenPairExist
  let poolTokenName := getPoolTokenName msg.token0Name msg.token1Name
  require ((s.getTokenInfo poolTokenName).owner = "") .poolTokenPairExist
  let s := s.newPoolToken sk poolTokenName
  return s.setSwapTokenPair tokenPairName (newSwapPair msg.token0Name msg.token1Name)

/-! ## Liquidity -/

/-- The base tokens and the liquidity of `handleMsgAddLiquidity`. -/
def addedAmounts (sk : MintKeeper B) (s : SwapState B) (msg : MsgAddLiquidity)
    (swapTokenPair : SwapTokenPair) : Except SwapError (Int × Int) := do
  let base := swapTokenPair.basePooledCoin.amount
  let quote := swapTokenPair.quotePooledCoin.amount
  if quote = 0 ∧ base = 0 then return (msg.maxBaseAmount.amount, Dec.newDec 1)
  else if 0 < base ∧ 0 < quote then
    let baseTokens ← orThrow (mulAndQuo msg.quoteAmount.amount base quote) (.panic .divisionByZero)
    let totalSupply := s.getPoolTokenAmount sk swapTokenPair.poolTokenName
    -- A deposit of base tokens is never nothing: it is at least the smallest amount.
    let baseTokens := if baseTokens = 0 then 1 else baseTokens
    require (totalSupply ≠ 0) (.isZeroValue "totalSupply")
    let liquidity ←
      orThrow (mulAndQuo msg.quoteAmount.amount totalSupply quote) (.panic .divisionByZero)
    require (liquidity ≠ 0) (.isZeroValue "liquidity")
    return (baseTokens, liquidity)
  else throw (.invalidTokenPair swapTokenPair)

/-- `handleMsgAddLiquidity`. -/
def handleMsgAddLiquidity (sk : MintKeeper B) (blockTime : Int) (s : SwapState B)
    (msg : MsgAddLiquidity) : Except SwapError (SwapState B) := do
  require (blockTime ≤ msg.deadline) .blockTimeBigThanDeadline
  let swapTokenPair ← s.getSwapTokenPair msg.getSwapTokenPairName
  let poolToken ← s.getPoolTokenInfo swapTokenPair.poolTokenName
  let (baseAmount, liquidity) ← s.addedAmounts sk msg swapTokenPair
  let baseTokens : DecCoin := ⟨msg.maxBaseAmount.denom, baseAmount⟩
  require (baseAmount ≤ msg.maxBaseAmount.amount) .baseTokensAmountBiggerThanMax
  require (msg.minLiquidity ≤ liquidity) (.lessThan "liquidity" "min liquidity")
  let coins := coinSort [msg.quoteAmount, baseTokens]
  let bank ← orThrow (sendCoinsToPool sk s.bank coins msg.sender) .sendCoinsFailed
  let quotePooledCoin ← swapTokenPair.quotePooledCoin.addCoin msg.quoteAmount
  let basePooledCoin ← swapTokenPair.basePooledCoin.addCoin baseTokens
  let s := s.setSwapTokenPair msg.getSwapTokenPairName
    { swapTokenPair with quotePooledCoin := quotePooledCoin, basePooledCoin := basePooledCoin }
  let poolCoins ← DecCoin.newDecCoinFromDec poolToken.symbol liquidity
  let bank ← orThrow (mintPoolCoinsToUser sk bank poolCoins.toCoins msg.sender) .mintPoolTokenFailed
  return { s with bank := bank }

/-- `handleMsgRemoveLiquidity`. -/
def handleMsgRemoveLiquidity (sk : MintKeeper B) (blockTime : Int) (s : SwapState B)
    (msg : MsgRemoveLiquidity) : Except SwapError (SwapState B) := do
  require (blockTime ≤ msg.deadline) .msgDeadlineLessThanBlockTime
  let swapTokenPair ← s.getSwapTokenPair msg.getSwapTokenPairName
  let base := swapTokenPair.basePooledCoin
  let quote := swapTokenPair.quotePooledCoin
  let poolTokenAmount := s.getPoolTokenAmount sk swapTokenPair.poolTokenName
  require (msg.liquidity ≤ poolTokenAmount) (.lessThan "pool token amount" "liquidity")
  let baseDec ← orThrow (mulAndQuo base.amount msg.liquidity poolTokenAmount)
    (.panic .divisionByZero)
  let quoteDec ← orThrow (mulAndQuo quote.amount msg.liquidity poolTokenAmount)
    (.panic .divisionByZero)
  let baseAmount ← DecCoin.newDecCoinFromDec base.denom baseDec
  let quoteAmount ← DecCoin.newDecCoinFromDec quote.denom quoteDec
  let baseIsLT ← baseAmount.isLT msg.minBaseAmount
  require (baseIsLT = false) (.lessThan "base amount" "min base amount")
  let quoteIsLT ← quoteAmount.isLT msg.minQuoteAmount
  require (quoteIsLT = false) (.lessThan "quote amount" "min quote amount")
  let coins := coinSort [baseAmount, quoteAmount]
  let bank ← orThrow (sendCoinsFromPoolToAccount sk s.bank coins msg.sender)
    .sendCoinsFromPoolToAccountFailed
  let quotePooledCoin ← quote.subCoin quoteAmount
  let basePooledCoin ← base.subCoin baseAmount
  let s := s.setSwapTokenPair msg.getSwapTokenPairName
    { swapTokenPair with quotePooledCoin := quotePooledCoin, basePooledCoin := basePooledCoin }
  let poolCoins ← DecCoin.newDecCoinFromDec swapTokenPair.poolTokenName msg.liquidity
  let bank ← orThrow (burnPoolCoinsFromUser sk bank poolCoins.toCoins msg.sender)
    .burnPoolTokenFailed
  return { s with bank := bank }

/-! ## Swaps -/

/-- The reserves of `swapTokenNativeToken` after the swap. -/
def swappedPair (swapTokenPair : SwapTokenPair) (tokenBuy : DecCoin) (msg : MsgTokenToToken) :
    Except SwapError SwapTokenPair := do
  if msg.minBoughtTokenAmount.denom < msg.soldTokenAmount.denom then
    let quotePooledCoin ← swapTokenPair.quotePooledCoin.addCoin msg.soldTokenAmount
    let basePooledCoin ← swapTokenPair.basePooledCoin.subCoin tokenBuy
    return { swapTokenPair with quotePooledCoin := quotePooledCoin, basePooledCoin := basePooledCoin }
  else
    let quotePooledCoin ← swapTokenPair.quotePooledCoin.subCoin tokenBuy
    let basePooledCoin ← swapTokenPair.basePooledCoin.addCoin msg.soldTokenAmount
    return { swapTokenPair with quotePooledCoin := quotePooledCoin, basePooledCoin := basePooledCoin }

/-- `swapTokenNativeToken`. -/
def swapTokenNativeToken (sk : MintKeeper B) (s : SwapState B) (swapTokenPair : SwapTokenPair)
    (tokenBuy : DecCoin) (msg : MsgTokenToToken) : Except SwapError (SwapState B) := do
  let bank ← orThrow (sendCoinsToPool sk s.bank msg.soldTokenAmount.toCoins msg.sender)
    .sendCoinsToPoolFailed
  let bank ← orThrow (sendCoinsFromPoolToAccount sk bank tokenBuy.toCoins msg.recipient)
    .sendCoinsFromPoolToAccountFailed
  let pair ← swappedPair swapTokenPair tokenBuy msg
  let s := s.setSwapTokenPair msg.getSwapTokenPairName pair
  return { s with
    bank := bank
    notices := s.notices ++
      [⟨msg.recipient, swapTokenPair, pair, msg.soldTokenAmount, tokenBuy⟩] }

/-- Both reserves of a pair are there. -/
def requirePooled (swapTokenPair : SwapTokenPair) : Except SwapError Unit :=
  require (swapTokenPair.basePooledCoin.amount ≠ 0 ∧ swapTokenPair.quotePooledCoin.amount ≠ 0)
    (.isZeroValue "base pooled coin or quote pooled coin")

/-- `swapToken`. -/
def swapToken (sk : MintKeeper B) (blockTime : Int) (s : SwapState B) (msg : MsgTokenToToken) :
    Except SwapError (SwapState B) := do
  s.hasSufficientCoins sk msg.sender msg.soldTokenAmount
  require (blockTime ≤ msg.deadline) .blockTimeBigThanDeadline
  let swapTokenPair ← s.getSwapTokenPair msg.getSwapTokenPairName
  requirePooled swapTokenPair
  let tokenBuy ← calculateTokenToBuy swapTokenPair msg.soldTokenAmount
    msg.minBoughtTokenAmount.denom s.params
  require (tokenBuy.amount ≠ 0) (.isZeroValue "token buy")
  require (msg.minBoughtTokenAmount.amount ≤ tokenBuy.amount)
    (.lessThan "token buy amount" "min bought token amount")
  s.swapTokenNativeToken sk swapTokenPair tokenBuy msg

/-- `swapTokenByRouter`. -/
def swapTokenByRouter (sk : MintKeeper B) (blockTime : Int) (s : SwapState B)
    (msg : MsgTokenToToken) : Except SwapError (SwapState B) := do
  require (blockTime ≤ msg.deadline) .blockTimeBigThanDeadline
  s.hasSufficientCoins sk msg.sender msg.soldTokenAmount
  let tokenPairOne := getSwapTokenPairName msg.soldTokenAmount.denom bondDenom
  let swapTokenPairOne ← orThrow (s.pairs.get tokenPairOne)
    (.nonExistSwapTokenPair msg.getSwapTokenPairName)
  requirePooled swapTokenPairOne
  let tokenPairTwo := getSwapTokenPairName msg.minBoughtTokenAmount.denom bondDenom
  let swapTokenPairTwo ← orThrow (s.pairs.get tokenPairTwo)
    (.nonExistSwapTokenPair msg.getSwapTokenPairName)
  requirePooled swapTokenPairTwo
  let msgOne := { msg with minBoughtTokenAmount := ⟨bondDenom, 0⟩ }
  let tokenNative ← calculateTokenToBuy swapTokenPairOne msgOne.soldTokenAmount
    msgOne.minBoughtTokenAmount.denom s.params
  require (tokenNative.amount ≠ 0) (.isZeroValue "token native")
  let msgTwo := { msg with soldTokenAmount := tokenNative }
  let tokenBuy ← calculateTokenToBuy swapTokenPairTwo msgTwo.soldTokenAmount
    msgTwo.minBoughtTokenAmount.denom s.params
  require (tokenBuy.amount ≠ 0) (.isZeroValue "token to buy amount")
  require (msg.minBoughtTokenAmount.amount ≤ tokenBuy.amount)
    (.lessThan "token buy amount" "min bought token amount")
  let s ← s.swapTokenNativeToken sk swapTokenPairOne tokenNative msgOne
  s.swapTokenNativeToken sk swapTokenPairTwo tokenBuy msgTwo

/-- `handleMsgTokenToToken`. -/
def handleMsgTokenToToken (sk : MintKeeper B) (blockTime : Int) (s : SwapState B)
    (msg : MsgTokenToToken) : Except SwapError (SwapState B) :=
  match s.pairs.get msg.getSwapTokenPairName with
  | none => s.swapTokenByRouter sk blockTime msg
  | some _ => s.swapToken sk blockTime msg

end SwapState

/-- The messages of the module. -/
inductive SwapMsg where
  | createExchange (msg : MsgCreateExchange)
  | addLiquidity (msg : MsgAddLiquidity)
  | removeLiquidity (msg : MsgRemoveLiquidity)
  | tokenToToken (msg : MsgTokenToToken)
deriving DecidableEq, Repr

namespace SwapMsg

/-- `ValidateBasic`. -/
def validateBasic : SwapMsg → Except SwapError Unit
  | createExchange msg => msg.validateBasic
  | addLiquidity msg => msg.validateBasic
  | removeLiquidity msg => msg.validateBasic
  | tokenToToken msg => msg.validateBasic

/-- `GetSigners`. -/
def signer : SwapMsg → Address
  | createExchange msg => msg.sender
  | addLiquidity msg => msg.sender
  | removeLiquidity msg => msg.sender
  | tokenToToken msg => msg.sender

end SwapMsg

namespace SwapState

variable {B : Type}

/-- `NewHandler`. -/
def handle (sk : MintKeeper B) (blockTime : Int) (s : SwapState B) :
    SwapMsg → Except SwapError (SwapState B)
  | .createExchange msg => s.handleMsgCreateExchange sk msg
  | .addLiquidity msg => s.handleMsgAddLiquidity sk blockTime msg
  | .removeLiquidity msg => s.handleMsgRemoveLiquidity sk blockTime msg
  | .tokenToToken msg => s.handleMsgTokenToToken sk blockTime msg

/-- A message is checked and handled; one that fails leaves no trace. -/
def deliver (sk : MintKeeper B) (blockTime : Int) (s : SwapState B) (msg : SwapMsg) : SwapState B :=
  match msg.validateBasic >>= fun _ => s.handle sk blockTime msg with
  | .ok s' => s'
  | .error _ => s

end SwapState

end Okexchain
