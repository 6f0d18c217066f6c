import Okexchain.Swap.Types
import Mathlib.Data.Nat.Digits.Defs

/-!
# Token records and the messages of the token module

Model of `x/token/types`: the record of a token (`token.go`), the rules for names and symbols
(`util.go`), the messages with their stateless checks (`msgs.go`) and the parameters (`params.go`).

* `Token` is the whole record; `Okexchain.Token` of the swap module is the part of it that module
  reads.
* The patterns of `util.go` are written out: `^[a-z][a-z0-9]{0,5}$` for an original symbol and
  `^[a-zA-Z0-9[:space:]]{1,30}$` for a whole name.
* `len` of a Go string counts bytes; the patterns count characters.
* `Keepers` is what the module takes from the SDK: the supply and bank keepers, the form of
  denominations, and decimal texts. A decimal that is printed is read back as it was
  (`newDecFromStr_decString`); nothing else about texts is assumed.

**Results.** `MsgTokenIssue.validateBasic_eq_ok` lists what an issue message has to satisfy.
-/

namespace Okexchain

namespace TokenModule

/-! ## Records -/

/-- `token.Token`. The empty address is the source's `nil`. -/
structure Token where
  description : String
  symbol : String
  originalSymbol : String
  wholeName : String
  originalTotalSupply : Int
  type : Int
  owner : Address
  mintable : Bool
deriving DecidableEq, Repr

/-- `ConfirmOwnership`. -/
structure ConfirmOwnership where
  symbol : String
  address : Address
  expire : Int
deriving DecidableEq, Repr

/-- `Params`. -/
structure Params where
  feeIssue : DecCoin
  feeMint : DecCoin
  feeBurn : DecCoin
  feeModify : DecCoin
  feeChown : DecCoin
  ownershipConfirmWindow : Int
deriving DecidableEq, Repr

/-- `DescLenLimit`. -/
def descLenLimit : Nat := 256

/-- `MultiSendLimit`. -/
def multiSendLimit : Nat := 1000

/-- `TotalSupplyUpperbound`: 90 billion. -/
def totalSupplyUpperbound : Int := 90000000000

/-- `common.BlackHoleAddress`. -/
def blackHoleAddress : Address := "0000000000000000000000000000000000000000"

/-! ## Names and symbols -/

/-- The class `[a-z]`. -/
def isLowerLetter (c : Char) : Bool := decide ('a' ≤ c) && decide (c ≤ 'z')

/-- The class `[A-Z]`. -/
def isUpperLetter (c : Char) : Bool := decide ('A' ≤ c) && decide (c ≤ 'Z')

/-- The class `[0-9]`. -/
def isDigit (c : Char) : Bool := decide ('0' ≤ c) && decide (c ≤ '9')

/-- The class `[:space:]`: tab, line feed, vertical tab, form feed, carriage return and blank. -/
def isSpace (c : Char) : Bool := c.toNat ∈ [9, 10, 11, 12, 13, 32]

/-- `regOriginalSymbol`. -/
def regOriginalSymbol (name : String) : Bool :=
  match name.toList with
  | [] => false
  | c :: rest =>
    isLowerLetter c && decide (rest.length ≤ 5) && rest.all fun c => isLowerLetter c || isDigit c

/-- `wholeNameValid`. -/
def wholeNameValid (wholeName : String) : Bool :=
  let name := wholeName.toList
  decide (1 ≤ name.length) && decide (name.length ≤ 30) &&
    name.all fun c => isLowerLetter c || isUpperLetter c || isDigit c || isSpace c

/-- `ValidOriginalSymbol`. -/
def validOriginalSymbol (name : String) : Bool :=
  !notAllowedOriginSymbol name && regOriginalSymbol name

/-! ## What the module uses -/

/-- The keepers of the SDK, over the stores `B` they own, and its texts. -/
structure Keepers (B : Type) extends MintKeeper B where
  /-- `bankKeeper.GetSendEnabled`. -/
  getSendEnabled : B → Bool
  blacklistedAddr : Address → Bool
  isContractAddress : B → Address → Bool
  higherThanMercury : Nat → Bool
  /-- `sdk.ValidateDenom(name) == nil`. -/
  validateDenom : String → Bool
  /-- `sdk.NewDecFromStr`. -/
  newDecFromStr : String → Option Int
  /-- `Dec.String`. -/
  decString : Int → String
  /-- `sdk.MustParseCoins`; the source panics where this is `none`. -/
  mustParseCoins : String → String → Option Coins
  newDecFromStr_decString : ∀ d, newDecFromStr (decString d) = some d
  moduleAddress_ne_empty : ∀ m, moduleAddress m ≠ ""

/-- The errors of `x/token/types/errors.go` the handlers return. -/
inductive TokenError where
  | addressIsRequired
  | userInputSymbolIsEmpty
  | notAllowedOriginalSymbol (symbol : String)
  | wholeNameIsNotValid
  | descLenBiggerThanLimit
  | totalSupplyOutOfRange
  | getDecimalFromDecimalStringFailed
  | amountBiggerThanTotalSupplyUpperbound
  | insufficientCoins
  | amountIsNotValid
  | msgTransfersAmountBiggerThanSendLimit
  | invalidCoins
  | msgSymbolIsEmpty
  | confirmOwnershipNotExistOrBlockTimeAfter
  | mintCoinsFailed
  | burnCoinsFailed
  | sendCoinsFromModuleToAccountFailed
  | sendCoinsFromAccountToModuleFailed
  | sendCoinsFromAccountToAccountFailed
  | inputOwnerIsNotEqualTokenOwner (address : Address)
  | inputFromAddressIsNotEqualTokenInfoOwner (address : Address)
  | confirmOwnershipAddressNotEqualsMsgAddress (address : Address)
  | getConfirmOwnership
  | tokenIsNotMintable
  | totalsupplyExceedsTheUpperLimit (totalSupplyAfterMint : Int)
  | sendDisabled
  | wholeNameAndDescriptionIsNotModified
  /-- `MustParseCoins` panics. -/
  | parsePanic
deriving DecidableEq, Repr

/-! ## Messages -/

/-- `MsgTokenIssue`. -/
structure MsgTokenIssue where
  description : String
  symbol : String
  originalSymbol : String
  wholeName : String
  totalSupply : String
  owner : Address
  mintable : Bool
deriving DecidableEq, Repr

/-- `MsgTokenBurn` and `MsgTokenMint`, which have the same fields. -/
structure MsgTokenAmount where
  amount : DecCoin
  owner : Address
deriving DecidableEq, Repr

/-- `TransferUnit`. -/
structure TransferUnit where
  target : Address
  coins : Coins
deriving DecidableEq

/-- `MsgMultiSend`. -/
structure MsgMultiSend where
  source : Address
  transfers : List TransferUnit
deriving DecidableEq

/-- `MsgSend`. -/
structure MsgSend where
  fromAddress : Address
  toAddress : Address
  amount : Coins
deriving DecidableEq

/-- `MsgTransferOwnership`. -/
structure MsgTransferOwnership where
  fromAddress : Address
  toAddress : Address
  symbol : String
deriving DecidableEq, Repr

/-- `MsgTokenModify`. -/
structure MsgTokenModify where
  owner : Address
  symbol : String
  description : String
  wholeName : String
  isDescriptionModified : Bool
  isWholeNameModified : Bool
deriving DecidableEq, Repr

/-- `MsgConfirmOwnership`. -/
structure MsgConfirmOwnership where
  symbol : String
  address : Address
deriving DecidableEq, Repr

section ValidateBasic

variable {B : Type} (k : Keepers B)

/-- `MsgTokenIssue.ValidateBasic`. -/
def MsgTokenIssue.validateBasic (msg : MsgTokenIssue) : Except TokenError Unit := do
  require (msg.owner ≠ "") .addressIsRequired
  require (msg.originalSymbol ≠ "") .userInputSymbolIsEmpty
  require (validOriginalSymbol msg.originalSymbol)
    (.notAllowedOriginalSymbol msg.originalSymbol)
  require (wholeNameValid msg.wholeName) .wholeNameIsNotValid
  require (msg.description.utf8ByteSize ≤ descLenLimit) .descLenBiggerThanLimit
  let totalSupply ← orThrow (k.newDecFromStr msg.totalSupply) .getDecimalFromDecimalStringFailed
  require (¬ (totalSupply > Dec.newDec totalSupplyUpperbound ∨ totalSupply ≤ 0))
    .totalSupplyOutOfRange

/-- `DecCoin.IsValid`. -/
def isValidCoin (c : DecCoin) : Bool := k.validateDenom c.denom && decide (0 ≤ c.amount)

/-- `MsgTokenBurn.ValidateBasic`. -/
def MsgTokenAmount.validateBurn (msg : MsgTokenAmount) : Except TokenError Unit := do
  require (msg.owner ≠ "") .addressIsRequired
  require (isValidCoin k msg.amount) .insufficientCoins

/-- `MsgTokenMint.ValidateBasic`. -/
def MsgTokenAmount.validateMint (msg : MsgTokenAmount) : Except TokenError Unit := do
  require (msg.owner ≠ "") .addressIsRequired
  require (msg.amount.amount ≤ Dec.newDec totalSupplyUpperbound)
    .amountBiggerThanTotalSupplyUpperbound
  require (isValidCoin k msg.amount) .amountIsNotValid

/-- `SysCoins.IsAllPositive`; sorted coins without zeros are valid exactly when they are not
negative. -/
def isAllPositive (coins : Coins) : Bool := decide (coins ≠ 0) && !coins.isNegative

/-- `MsgMultiSend.ValidateBasic`. -/
def MsgMultiSend.validateBasic (msg : MsgMultiSend) : Except TokenError Unit := do
  require (msg.source ≠ "") .addressIsRequired
  require (msg.transfers.length ≤ multiSendLimit) .msgTransfersAmountBiggerThanSendLimit
  msg.transfers.forM fun transfer => do
    require (isAllPositive transfer.coins) .invalidCoins
    require (transfer.target ≠ "") .addressIsRequired

/-- `MsgSend.ValidateBasic`. -/
def MsgSend.validateBasic (msg : MsgSend) : Except TokenError Unit := do
  require (msg.fromAddress ≠ "") .addressIsRequired
  require (msg.toAddress ≠ "") .addressIsRequired
  require (msg.amount.isNegative = false) .invalidCoins
  require (isAllPositive msg.amount) .insufficientCoins

/-- `MsgTransferOwnership.ValidateBasic`. -/
def MsgTransferOwnership.validateBasic (msg : MsgTransferOwnership) : Except TokenError Unit := do
  require (msg.fromAddress ≠ "") .addressIsRequired
  require (msg.toAddress ≠ "") .addressIsRequired
  require (msg.symbol ≠ "") .msgSymbolIsEmpty
  require (k.validateDenom msg.symbol) .confirmOwnershipNotExistOrBlockTimeAfter

/-- `MsgTokenModify.ValidateBasic`. -/
def MsgTokenModify.validateBasic (msg : MsgTokenModify) : Except TokenError Unit := do
  require (msg.owner ≠ "") .addressIsRequired
  require (msg.symbol ≠ "") .msgSymbolIsEmpty
  require (k.validateDenom msg.symbol) (.notAllowedOriginalSymbol msg.symbol)
  require (msg.isWholeNameModified → wholeNameValid msg.wholeName) .wholeNameIsNotValid
  require (msg.isDescriptionModified → msg.description.utf8ByteSize ≤ descLenLimit)
    .descLenBiggerThanLimit

/-- `MsgConfirmOwnership.ValidateBasic`. -/
def MsgConfirmOwnership.validateBasic (msg : MsgConfirmOwnership) : Except TokenError Unit := do
  require (msg.address ≠ "") .addressIsRequired
  require (msg.symbol ≠ "") .msgSymbolIsEmpty
  require (k.validateDenom msg.symbol) (.notAllowedOriginalSymbol msg.symbol)

variable {k}

/-- What an issue message has to satisfy. The empty symbol does not match the pattern, so its own
check adds nothing. -/
theorem MsgTokenIssue.validateBasic_eq_ok {msg : MsgTokenIssue} :
    msg.validateBasic k = .ok () ↔
      msg.owner ≠ "" ∧ validOriginalSymbol msg.originalSymbol ∧ wholeNameValid msg.wholeName ∧
      msg.description.utf8ByteSize ≤ descLenLimit ∧
      ∃ totalSupply, k.newDecFromStr msg.totalSupply = some totalSupply ∧
        totalSupply ≤ Dec.newDec totalSupplyUpperbound ∧ 0 < totalSupply := by
  simp only [validateBasic, bind_eq_ok, require_eq_ok, orThrow_eq_ok, exists_and_left, not_or,
    not_lt, not_le, exists_const]
  constructor
  · rintro ⟨howner, -, hsymbol, hrest⟩
    exact ⟨howner, hsymbol, hrest⟩
  · rintro ⟨howner, hsymbol, hrest⟩
    refine ⟨howner, fun hempty => ?_, hsymbol, hrest⟩
    rw [hempty] at hsymbol
    exact absurd hsymbol (by decide)

end ValidateBasic

/-! ## A small instance -/

/-- A decimal as its sign and its digits, the lowest first. -/
def digitsText (d : Int) : String :=
  String.ofList ((if d < 0 then '-' else '+') :: (Nat.digits 10 d.natAbs).map Nat.digitChar)

/-- The reader of `digitsText`. -/
def ofDigitsText (s : String) : Option Int :=
  match s.toList with
  | [] => none
  | c :: rest =>
    let n : Nat := Nat.ofDigits 10 (rest.map fun c => c.toNat - 48)
    some (if c = '-' then -(n : Int) else n)

theorem ofDigitsText_digitsText (d : Int) : ofDigitsText (digitsText d) = some d := by
  have hdigit : ∀ n < 10, (Nat.digitChar n).toNat - 48 = n := by decide
  have hmap : ((Nat.digits 10 d.natAbs).map Nat.digitChar).map (fun c => c.toNat - 48) =
      Nat.digits 10 d.natAbs := by
    rw [List.map_map]
    refine (List.map_congr_left fun n hn => ?_).trans (List.map_id _)
    exact hdigit n (Nat.digits_lt_base (by decide) hn)
  simp only [ofDigitsText, digitsText, String.toList_ofList, hmap, Nat.ofDigits_digits]
  split_ifs with hneg hc hc
  · rw [Int.ofNat_natAbs_of_nonpos hneg.le, neg_neg]
  · exact absurd rfl hc
  · exact absurd hc (by decide)
  · rw [Int.natAbs_of_nonneg (not_lt.mp hneg)]

/-- The bank of `simpleMint` with every denomination and every recipient allowed. -/
def simpleKeepers : Keepers (KVStore Address Coins × Coins) where
  toMintKeeper := simpleMint
  getSendEnabled := fun _ => true
  blacklistedAddr := fun _ => false
  isContractAddress := fun _ _ => false
  higherThanMercury := fun _ => false
  validateDenom := fun _ => true
  newDecFromStr := ofDigitsText
  decString := digitsText
  mustParseCoins := fun denom amount => (ofDigitsText amount).map (coin denom)
  newDecFromStr_decString := ofDigitsText_digitsText
  moduleAddress_ne_empty := fun m h => by
    have hlength := congrArg String.length h
    revert hlength
    show (_ ++ m).length ≠ 0
    rw [String.length_append]
    exact Nat.ne_of_gt (Nat.lt_of_lt_of_le (by decide) (Nat.le_add_right _ _))

end TokenModule

end Okexchain
