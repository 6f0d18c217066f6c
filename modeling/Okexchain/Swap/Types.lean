import Okexchain.Token.Supply
import Okexchain.Lib.Checked
import Okexchain.Lib.Dec

/-!
# Swap pairs

Model of the types of `x/ammswap/types`: pairs, parameters, messages and errors, with the part of
`x/token/types` they use, and `MulAndQuo` of `x/common/util.go`.

* A pair is stored under its name, `base_quote` with the smaller symbol first.
* `SwapParams` carries what `validateParams` checks: the fee rate is between zero and one.
* The form of denominations is checked by the SDK and not modelled, so more messages are admitted
  here than there. Nothing depends on it: coins of different denominations are never added, because
  `DecCoin.Add` and `DecCoin.Sub` panic.
* A `sdk.Dec` of more than 315 bits panics in the source; here amounts are unbounded.

`MintKeeper` is the supply keeper as this module uses it, with minting and the supply of a
denomination. It is not part of the repository; its laws are what its documentation promises.
-/

namespace Okexchain

/-! ## Amounts -/

/-- `common.MulAndQuo`: `a * b / c`, through the auxiliary factor `10^18`. Division by zero
panics. -/
def mulAndQuo (a b c : Int) : Option Int :=
  let auxiliaryDec := Dec.newDec Dec.one
  if c = 0 then none
  else
    some (Dec.quoTruncate
      (Dec.quoTruncate (Dec.mulTruncate (Dec.mulTruncate a auxiliaryDec) b) c) auxiliaryDec)

/-- What stops a handler half-way: the panics of the source. -/
inductive SwapPanic where
  | invalidDenominations (denom denom' : String)
  | negativeAmount
  | divisionByZero
deriving DecidableEq, Repr

/-- `SwapTokenPair`. -/
structure SwapTokenPair where
  quotePooledCoin : DecCoin
  basePooledCoin : DecCoin
  poolTokenName : String
deriving DecidableEq, Repr

/-- The errors of `x/ammswap/types/errors.go` and the panics. -/
inductive SwapError where
  | nonExistSwapTokenPair (tokenPairName : String)
  | nonExistPoolToken (token : String)
  | addressIsRequire (msg : String)
  | baseAmountNameBiggerThanQuoteAmountName
  | baseNameEqualQuoteName
  | notAllowedOriginSymbol
  | tokenNotExist
  | invalidCoins
  | invalidTokenPair (swapTokenPair : SwapTokenPair)
  | isZeroValue (msg : String)
  | blockTimeBigThanDeadline
  | msgDeadlineLessThanBlockTime
  | lessThan (param1 param2 : String)
  | mintPoolTokenFailed
  | burnPoolTokenFailed
  | sendCoinsFailed
  | sendCoinsToPoolFailed
  | sendCoinsFromPoolToAccountFailed
  | insufficientCoins
  | minLiquidityIsNegative
  | maxBaseAmountOrQuoteAmountIsNegative
  | maxBaseAmount
  | quoteAmount
  | minBaseAmount
  | minQuoteAmount
  | soldTokenAmountIsNegative
  | soldTokenAmount
  | minBoughtTokenAmount
  | token0NameEqualToken1Name
  | baseTokensAmountBiggerThanMax
  | swapTokenPairExist
  | poolTokenPairExist
  | panic (p : SwapPanic)
deriving DecidableEq, Repr

namespace DecCoin

/-- `sdk.NewDecCoinFromDec`, which panics on a negative amount. -/
def newDecCoinFromDec (denom : String) (amount : Int) : Except SwapError DecCoin := do
  require (0 ≤ amount) (.panic .negativeAmount)
  return ⟨denom, amount⟩

/-- `DecCoin.Add`. -/
def addCoin (c c' : DecCoin) : Except SwapError DecCoin := do
  require (c.denom = c'.denom) (.panic (.invalidDenominations c.denom c'.denom))
  return ⟨c.denom, c.amount + c'.amount⟩

/-- `DecCoin.Sub`. -/
def subCoin (c c' : DecCoin) : Except SwapError DecCoin := do
  require (c.denom = c'.denom) (.panic (.invalidDenominations c.denom c'.denom))
  require (0 ≤ c.amount - c'.amount) (.panic .negativeAmount)
  return ⟨c.denom, c.amount - c'.amount⟩

/-- `DecCoin.IsLT`. -/
def isLT (c c' : DecCoin) : Except SwapError Bool := do
  require (c.denom = c'.denom) (.panic (.invalidDenominations c.denom c'.denom))
  return decide (c.amount < c'.amount)

end DecCoin

/-- `coinSort`: the positive coins. -/
def coinSort (coins : List DecCoin) : Coins :=
  ((coins.filter fun c => 0 < c.amount).map DecCoin.toCoins).sum

/-! ## Names -/

/-- `types.ModuleName`. -/
def swapModuleName : String := "ammswap"

/-- `PoolTokenPrefix`. -/
def poolTokenPrefix : String := "ammswap_"

/-- `GetBaseQuoteTokenName`. -/
def getBaseQuoteTokenName (token0 token1 : String) : String × String :=
  if token0 < token1 then (token0, token1) else (token1, token0)

/-- `GetSwapTokenPairName`. -/
def getSwapTokenPairName (token0 token1 : String) : String :=
  let (baseTokenName, quoteTokenName) := getBaseQuoteTokenName token0 token1
  baseTokenName ++ "_" ++ quoteTokenName

/-- `GetPoolTokenName`. -/
def getPoolTokenName (token1 token2 : String) : String :=
  poolTokenPrefix ++ getSwapTokenPairName token1 token2

/-- `NotAllowedOriginSymbol` of the token module. -/
def notAllowedOriginSymbol (name : String) : Bool := "ammswap".toList.isPrefixOf name.toList

/-- `ValidateSwapAmountName`. -/
def validateSwapAmountName (amountName : String) : Except SwapError Unit :=
  require (notAllowedOriginSymbol amountName = false) .notAllowedOriginSymbol

/-- `ValidateBaseAndQuoteAmount`. -/
def validateBaseAndQuoteAmount (baseAmountName quoteAmountName : String) :
    Except SwapError Unit := do
  require (baseAmountName ≤ quoteAmountName) .baseAmountNameBiggerThanQuoteAmountName
  require (baseAmountName ≠ quoteAmountName) .baseNameEqualQuoteName
  validateSwapAmountName baseAmountName
  validateSwapAmountName quoteAmountName

/-- `TokenPairName`. -/
def SwapTokenPair.tokenPairName (s : SwapTokenPair) : String :=
  s.basePooledCoin.denom ++ "_" ++ s.quotePooledCoin.denom

/-- `NewSwapPair`. -/
def newSwapPair (token0 token1 : String) : SwapTokenPair :=
  let (base, quote) := getBaseQuoteTokenName token0 token1
  ⟨⟨quote, 0⟩, ⟨base, 0⟩, getPoolTokenName token0 token1⟩

/-! ## Tokens -/

/-- `token.Token`, as far as the module reads it. -/
structure Token where
  symbol : String
  /-- The empty address is the source's `nil`. -/
  owner : Address
  type : Int
deriving DecidableEq, Repr

/-- `GenerateTokenType`. -/
def generateTokenType : Int := 2

/-! ## Parameters -/

/-- `Params`, as `validateParams` accepts them. -/
structure SwapParams where
  feeRate : Int
  feeRate_nonneg : 0 ≤ feeRate
  feeRate_le_one : feeRate ≤ Dec.one

/-- `DefaultParams`: a fee of 0.003. -/
def SwapParams.default : SwapParams := ⟨3000000000000000, by decide, by decide⟩

/-! ## Messages -/

/-- `MsgAddLiquidity`. -/
structure MsgAddLiquidity where
  minLiquidity : Int
  maxBaseAmount : DecCoin
  quoteAmount : DecCoin
  deadline : Int
  sender : Address
deriving DecidableEq, Repr

/-- `MsgRemoveLiquidity`. -/
structure MsgRemoveLiquidity where
  liquidity : Int
  minBaseAmount : DecCoin
  minQuoteAmount : DecCoin
  deadline : Int
  sender : Address
deriving DecidableEq, Repr

/-- `MsgCreateExchange`. -/
structure MsgCreateExchange where
  token0Name : String
  token1Name : String
  sender : Address
deriving DecidableEq, Repr

/-- `MsgTokenToToken`. -/
structure MsgTokenToToken where
  soldTokenAmount : DecCoin
  minBoughtTokenAmount : DecCoin
  deadline : Int
  recipient : Address
  sender : Address
deriving DecidableEq, Repr

namespace MsgAddLiquidity

/-- `GetSwapTokenPairName`. -/
def getSwapTokenPairName (msg : MsgAddLiquidity) : String :=
  Okexchain.getSwapTokenPairName msg.maxBaseAmount.denom msg.quoteAmount.denom

/-- `ValidateBasic`. -/
def validateBasic (msg : MsgAddLiquidity) : Except SwapError Unit := do
  require (msg.sender ≠ "") (.addressIsRequire "sender")
  require (0 ≤ msg.minLiquidity) .minLiquidityIsNegative
  require (0 < msg.maxBaseAmount.amount ∧ 0 < msg.quoteAmount.amount)
    .maxBaseAmountOrQuoteAmountIsNegative
  require (0 ≤ msg.maxBaseAmount.amount) .maxBaseAmount
  require (0 ≤ msg.quoteAmount.amount) .quoteAmount
  validateBaseAndQuoteAmount msg.maxBaseAmount.denom msg.quoteAmount.denom

end MsgAddLiquidity

namespace MsgRemoveLiquidity

/-- `GetSwapTokenPairName`. -/
def getSwapTokenPairName (msg : MsgRemoveLiquidity) : String :=
  Okexchain.getSwapTokenPairName msg.minBaseAmount.denom msg.minQuoteAmount.denom

/-- `ValidateBasic`. -/
def validateBasic (msg : MsgRemoveLiquidity) : Except SwapError Unit := do
  require (msg.sender ≠ "") (.addressIsRequire "sender")
  require (0 < msg.liquidity) .minLiquidityIsNegative
  require (0 ≤ msg.minBaseAmount.amount) .minBaseAmount
  require (0 ≤ msg.minQuoteAmount.amount) .minQuoteAmount
  validateBaseAndQuoteAmount msg.minBaseAmount.denom msg.minQuoteAmount.denom

end MsgRemoveLiquidity

namespace MsgCreateExchange

/-- `GetSwapTokenPairName`. -/
def getSwapTokenPairName (msg : MsgCreateExchange) : String :=
  Okexchain.getSwapTokenPairName msg.token0Name msg.token1Name

/-- `ValidateBasic`. -/
def validateBasic (msg : MsgCreateExchange) : Except SwapError Unit := do
  require (msg.sender ≠ "") (.addressIsRequire "sender")
  validateSwapAmountName msg.token0Name
  validateSwapAmountName msg.token1Name
  require (msg.token0Name ≠ msg.token1Name) .token0NameEqualToken1Name

end MsgCreateExchange

namespace MsgTokenToToken

/-- `GetSwapTokenPairName`. -/
def getSwapTokenPairName (msg : MsgTokenToToken) : String :=
  Okexchain.getSwapTokenPairName msg.minBoughtTokenAmount.denom msg.soldTokenAmount.denom

/-- `ValidateBasic`. -/
def validateBasic (msg : MsgTokenToToken) : Except SwapError Unit := do
  require (msg.sender ≠ "") (.addressIsRequire "sender")
  require (msg.recipient ≠ "") (.addressIsRequire "recipient")
  require (0 < msg.soldTokenAmount.amount) .soldTokenAmountIsNegative
  require (0 ≤ msg.soldTokenAmount.amount) .soldTokenAmount
  require (0 ≤ msg.minBoughtTokenAmount.amount) .minBoughtTokenAmount
  let (baseAmountName, quoteAmountName) :=
    getBaseQuoteTokenName msg.soldTokenAmount.denom msg.minBoughtTokenAmount.denom
  validateBaseAndQuoteAmount baseAmountName quoteAmountName

end MsgTokenToToken

/-! ## Minting -/

/-- The supply keeper with minting. -/
structure MintKeeper (B : Type) extends SupplyKeeper B where
  mintCoins : B → Address → Coins → Option B
  getSupplyByDenom : B → String → Int
  getCoins_mintCoins : ∀ {b target c b'}, mintCoins b target c = some b' → ∀ a,
    getCoins b' a = getCoins b a + (if a = target then c else 0)
  supply_mintCoins : ∀ {b target c b'}, mintCoins b target c = some b' → ∀ d,
    getSupplyByDenom b' d = getSupplyByDenom b d + c d
  supply_burnCoins : ∀ {b source c b'}, burnCoins b source c = some b' → ∀ d,
    getSupplyByDenom b' d = getSupplyByDenom b d - c d
  supply_sendCoins : ∀ {b source target c b'}, sendCoins b source target c = some b' → ∀ d,
    getSupplyByDenom b' d = getSupplyByDenom b d

/-- The simple bank of `simpleSupply` next to the supply of every denomination. -/
def simpleMint : MintKeeper (KVStore Address Coins × Coins) where
  getCoins := fun b a => simpleSupply.getCoins b.1 a
  sendCoins := fun b source target c => (simpleSupply.sendCoins b.1 source target c).map (·, b.2)
  burnCoins := fun b source c => (simpleSupply.burnCoins b.1 source c).map (·, b.2 - c)
  moduleAddress := simpleSupply.moduleAddress
  tokenExist := fun b => simpleSupply.tokenExist b.1
  mintCoins := fun b target c =>
    some (b.1.set target (simpleSupply.getCoins b.1 target + c), b.2 + c)
  getSupplyByDenom := fun b d => b.2 d
  moduleAddress_inj := simpleSupply.moduleAddress_inj
  getCoins_sendCoins := fun h a => by
    obtain ⟨b₁, hsend, rfl⟩ := Option.map_eq_some_iff.mp h
    exact simpleSupply.getCoins_sendCoins hsend a
  getCoins_burnCoins := fun h a => by
    obtain ⟨b₁, hburn, rfl⟩ := Option.map_eq_some_iff.mp h
    exact simpleSupply.getCoins_burnCoins hburn a
  sendCoins_isSome := fun hpos hle => by
    rw [Option.isSome_map]
    exact simpleSupply.sendCoins_isSome hpos hle
  getCoins_mintCoins := fun {b target c b'} h a => by
    cases h
    show ((b.1.set target _).get a).getD 0 = (b.1.get a).getD 0 + _
    rw [KVStore.get_set]
    split_ifs with ha
    · rw [ha]
      rfl
    · exact (add_zero _).symm
  supply_mintCoins := fun h d => by
    cases h
    rfl
  supply_burnCoins := fun h d => by
    obtain ⟨b₁, -, rfl⟩ := Option.map_eq_some_iff.mp h
    rfl
  supply_sendCoins := fun h d => by
    obtain ⟨b₁, -, rfl⟩ := Option.map_eq_some_iff.mp h
    rfl

end Okexchain
