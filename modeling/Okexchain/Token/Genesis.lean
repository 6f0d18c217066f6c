import Okexchain.Token.Handler

/-!
# The exported genesis of the token module

Model of `x/token/genesis.go`: `validateGenesis`, `initGenesis` and `ExportGenesis`, and of runs of
token messages and of exchanges being created.

`validateGenesis` checks a stored token as if it were a message that issues it. The records written
by the module itself pass: a new token comes from a checked message, its original symbol and its
original supply never change, and names, descriptions and owners are checked before they are
replaced. `InitPoolToken` does not: a pool token is called `ammswap_…` and has no original supply.

**Results.**
* `Change`: what an accepted message does to the records of the module (`handle_change`). The token
  store after it is the store before with at most one record written, a new one that passes the
  check, or one that passes it if the record it replaces does (`Change.edit`).
* `token_export_validates_iff`: along a run from a checked genesis, the export is accepted exactly
  when no exchange was created. `pool_token_export_rejected` is the shortest run that spoils it.
-/

namespace Okexchain

namespace TokenModule

/-! ## Genesis -/

/-- `GenesisState`. -/
structure GenesisState where
  params : Params
  tokens : List Token
  lockedAssets : List (Address × Coins)
  lockedFees : List (Address × Coins)

section Genesis

variable {B : Type} (k : Keepers B)

/-- The message `validateGenesis` makes of a token. -/
def issueMsgOf (token : Token) : MsgTokenIssue where
  description := token.description
  symbol := token.symbol
  originalSymbol := token.originalSymbol
  wholeName := token.wholeName
  totalSupply := k.decString token.originalTotalSupply
  owner := token.owner
  mintable := token.mintable

/-- `validateGenesis`. -/
def validateGenesis (data : GenesisState) : Except TokenError Unit :=
  data.tokens.forM fun token => (issueMsgOf k token).validateBasic k

/-- The locks of a genesis, one account after the other. -/
def lockAll (t : LockCoinsType) (locks : List (Address × Coins)) (led : Ledger B) :
    Option (Ledger B) :=
  locks.foldlM (fun led lock => TokenKeeper.updateLockedCoins led lock.1 lock.2 true t) led

/-- `initGenesis` on empty token stores, next to the bank and the pairs of the swap module. -/
def initGenesis (bank : B) (swapPairs : KVStore String SwapTokenPair) (data : GenesisState) :
    Option (TokenState B) := do
  let empty : TokenState B := ⟨data.params, ∅, ∅, 0, ∅, ⟨∅, ∅, bank, []⟩, swapPairs⟩
  let s := data.tokens.foldl TokenState.newToken empty
  let led ← lockAll .quantity data.lockedAssets s.ledger
  let led ← lockAll .fee data.lockedFees led
  return { s with ledger := led }

end Genesis

/-- `ExportGenesis`. -/
def TokenState.exportGenesis {B : Type} (s : TokenState B) : GenesisState where
  params := s.params
  tokens := s.tokens.values
  lockedAssets := s.ledger.lockedCoins.entries
  lockedFees := s.ledger.lockedFees.entries

/-! ## Runs -/

/-- A message of the token module in its transaction, or a swap pair being created. -/
inductive TokenStep where
  | token (ctx : TxContext) (msg : TokenMsg)
  | createExchange (msg : MsgCreateExchange)

namespace TokenState

variable {B : Type} (k : Keepers B)

/-- A message is checked and handled; one that fails leaves no trace. -/
def step (s : TokenState B) : TokenStep → TokenState B
  | .token ctx msg => ((msg.validateBasic k >>= fun _ => s.handle k ctx msg).toOption).getD s
  | .createExchange msg =>
    ((msg.validateBasic >>= fun _ => s.handleMsgCreateExchange k msg).toOption).getD s

/-- A run. -/
def run (s : TokenState B) (steps : List TokenStep) : TokenState B := steps.foldl (step k) s

/-- A message that creates an exchange in this state: it is well formed, its two tokens exist and
are no pool tokens, and neither the pair nor its pool token exists yet. -/
def Opens (s : TokenState B) : TokenStep → Prop
  | .token _ _ => False
  | .createExchange msg =>
    msg.sender ≠ "" ∧ notAllowedOriginSymbol msg.token0Name = false ∧
      notAllowedOriginSymbol msg.token1Name = false ∧ msg.token0Name ≠ msg.token1Name ∧
      (∀ token ∈ [msg.token0Name, msg.token1Name],
        s.tokenExist token ∧ (s.getTokenInfo token).type ≠ generateTokenType) ∧
      (s.swapPairs.get msg.getSwapTokenPairName).isNone ∧
      (s.getTokenInfo (getPoolTokenName msg.token0Name msg.token1Name)).owner = ""

instance (s : TokenState B) : DecidablePred s.Opens
  | .token _ _ => inferInstanceAs (Decidable False)
  | .createExchange _ => inferInstanceAs (Decidable (_ ∧ _))

/-- No step of the run creates an exchange. -/
def NoExchange (s : TokenState B) : List TokenStep → Prop
  | [] => True
  | x :: steps => ¬ s.Opens x ∧ (s.step k x).NoExchange steps

end TokenState

/-! ## Records that pass -/

section Valid

variable {B : Type} {k : Keepers B}

/-- A record `validateGenesis` accepts. -/
def Token.Valid (k : Keepers B) (t : Token) : Prop := (issueMsgOf k t).validateBasic k = .ok ()

theorem Token.valid_iff {t : Token} :
    t.Valid k ↔ t.owner ≠ "" ∧ validOriginalSymbol t.originalSymbol ∧
      wholeNameValid t.wholeName ∧ t.description.utf8ByteSize ≤ descLenLimit ∧
      t.originalTotalSupply ≤ Dec.newDec totalSupplyUpperbound ∧ 0 < t.originalTotalSupply := by
  unfold Valid
  rw [MsgTokenIssue.validateBasic_eq_ok]
  simp only [issueMsgOf, k.newDecFromStr_decString, Option.some.injEq, exists_eq_left']

theorem validateGenesis_eq_ok {data : GenesisState} :
    validateGenesis k data = .ok () ↔ ∀ t ∈ data.tokens, t.Valid k := by
  unfold validateGenesis
  induction data.tokens with
  | nil => exact ⟨fun _ t ht => absurd ht List.not_mem_nil, fun _ => rfl⟩
  | cons t tokens ih =>
    show ((issueMsgOf k t).validateBasic k >>= fun _ => tokens.forM _) = .ok () ↔ _
    rw [bind_eq_ok, List.forall_mem_cons]
    exact ⟨fun ⟨_, ht, hrest⟩ => ⟨ht, ih.mp hrest⟩, fun ⟨ht, hrest⟩ => ⟨(), ht, ih.mpr hrest⟩⟩

/-- Every record of the store passes. -/
def AllValid (k : Keepers B) (m : KeyedStore Token.symbol) : Prop :=
  ∀ symbol t, m.get symbol = some t → t.Valid k

theorem validateGenesis_export {s : TokenState B} :
    validateGenesis k s.exportGenesis = .ok () ↔ AllValid k s.tokens := by
  rw [validateGenesis_eq_ok]
  constructor
  · exact fun h symbol t ht => h t (KeyedStore.mem_values_of_get ht)
  · exact fun h t ht => h t.symbol t (KeyedStore.mem_values.mp ht)

end Valid

/-! ## What a message writes -/

/-- An accepted message of this kind puts a token in new hands. -/
def TokenMsg.handsOver : TokenMsg → Bool
  | transferOwnership msg => decide (msg.toAddress = blackHoleAddress)
  | confirmOwnership _ => true
  | _ => false

namespace TokenState

variable {B : Type} {k : Keepers B} {s s' s'' : TokenState B}

/-- Whoever has been offered a token has been offered one that exists. -/
def Known (s : TokenState B) : Prop :=
  ∀ symbol, (s.confirmOwnerships.get symbol).isSome → (s.tokens.get symbol).isSome

/-- The module's own records are the same; coins may have moved. -/
structure SameRecords (s s' : TokenState B) : Prop where
  tokens : s'.tokens = s.tokens
  userTokens : s'.userTokens = s.userTokens
  tokenNumber : s'.tokenNumber = s.tokenNumber
  confirmOwnerships : s'.confirmOwnerships = s.confirmOwnerships

theorem SameRecords.refl (s : TokenState B) : SameRecords s s := ⟨rfl, rfl, rfl, rfl⟩

theorem SameRecords.trans (h : SameRecords s s') (h' : SameRecords s' s'') : SameRecords s s'' where
  tokens := h'.tokens.trans h.tokens
  userTokens := h'.userTokens.trans h.userTokens
  tokenNumber := h'.tokenNumber.trans h.tokenNumber
  confirmOwnerships := h'.confirmOwnerships.trans h.confirmOwnerships

/-- **What an accepted message does to the records.** The flag says that a token changed hands. -/
inductive Change (k : Keepers B) (s : TokenState B) : Bool → TokenState B → Prop where
  | keep {s' : TokenState B} (h : SameRecords s s') : Change k s false s'
  /-- A new token, under a free name. -/
  | issue {s' : TokenState B} (t : Token) (hfree : s.tokens.get t.symbol = none)
      (hvalid : t.Valid k) (h : SameRecords (s.newToken t) s') : Change k s false s'
  /-- Another description of a token. -/
  | modify {s' : TokenState B} (t t' : Token) (hget : s.tokens.get t.symbol = some t)
      (hsymbol : t'.symbol = t.symbol) (howner : t'.owner = t.owner)
      (horig : t'.originalSymbol = t.originalSymbol) (hvalid : t.Valid k → t'.Valid k)
      (h : SameRecords (s.updateToken t') s') : Change k s false s'
  /-- A token on offer. -/
  | offer {s' : TokenState B} (c : ConfirmOwnership) (hget : (s.tokens.get c.symbol).isSome)
      (h : SameRecords { s with confirmOwnerships := s.confirmOwnerships.put c } s') :
      Change k s false s'
  /-- A token in new hands; the offer that led to it is used up. -/
  | handOver {s' : TokenState B} (t : Token) (a : Address) (ha : a ≠ "")
      (hget : s.tokens.get t.symbol = some t)
      (h : SameRecords (s.changeOwner t a) { s' with confirmOwnerships := s.confirmOwnerships })
      (hoffers : ∀ symbol, (s'.confirmOwnerships.get symbol).isSome →
        (s.confirmOwnerships.get symbol).isSome) : Change k s true s'

theorem withBank_sameRecords (s : TokenState B) (bank : B) : SameRecords s (s.withBank bank) :=
  ⟨rfl, rfl, rfl, rfl⟩

theorem payFee_sameRecords {owner : Address} {fee : DecCoin} (h : s.payFee k owner fee = .ok s') :
    SameRecords s s' := by
  obtain ⟨bank, -, hs'⟩ := bind_eq_ok.mp h
  cases pure_eq_ok.mp hs'
  exact withBank_sameRecords s bank

theorem send_sameRecords {ctx : TxContext} {source target : Address} {amt : Coins}
    (h : s.sendCoinsFromAccountToAccount k ctx source target amt = .ok s') : SameRecords s s' := by
  unfold sendCoinsFromAccountToAccount at h
  simp only [bind_eq_ok] at h
  obtain ⟨-, -, -, -, bank, -, hs'⟩ := h
  cases pure_eq_ok.mp hs'
  exact withBank_sameRecords s bank

theorem multiSend_sameRecords {ctx : TxContext} {msg : MsgMultiSend}
    (h : s.handleMsgMultiSend k ctx msg = .ok s') : SameRecords s s' := by
  obtain ⟨-, -, hloop⟩ := bind_eq_ok.mp h
  exact foldlM_relates SameRecords.refl SameRecords.trans (fun h => send_sameRecords h) hloop

/-- A token with an owner is stored, under its symbol. -/
theorem get_of_owner {symbol : String} {a : Address} (h : (s.getTokenInfo symbol).owner = a)
    (ha : a ≠ "") :
    s.tokens.get (s.getTokenInfo symbol).symbol = some (s.getTokenInfo symbol) ∧
      (s.getTokenInfo symbol).symbol = symbol := by
  unfold getTokenInfo at h ⊢
  cases hget : s.tokens.get symbol with
  | none =>
    rw [hget] at h
    exact absurd h.symm ha
  | some t =>
    have hkey : t.symbol = symbol := KeyedStore.key_of_get hget
    exact ⟨(congrArg s.tokens.get hkey).trans hget, hkey⟩

/-- The name a new token gets is free. -/
theorem addTokenSuffix_free {ctx : TxContext} {originalSymbol name : String}
    (h : s.addTokenSuffix k ctx originalSymbol = some name) : s.tokens.get name = none := by
  have hfrom : ∀ i, s.addTokenSuffixFrom k originalSymbol ctx.txHash i = some name →
      s.tokens.get name = none := by
    intro i
    induction i with
    | zero => exact fun h => by cases h
    | succ i ih =>
      intro h
      unfold addTokenSuffixFrom at h
      dsimp only at h
      split_ifs at h with hdenom hfree
      · cases h
        simpa [tokenExist] using hfree
      · exact ih h
  exact hfrom _ h

/-! ### Every message -/

theorem issue_change {ctx : TxContext} {msg : MsgTokenIssue} (hb : msg.validateBasic k = .ok ())
    (h : s.handleMsgTokenIssue k ctx msg = .ok s') : Change k s false s' := by
  obtain ⟨howner, hsymbol, hname, hdesc, supply, hsupply, hle, hpos⟩ :=
    MsgTokenIssue.validateBasic_eq_ok.mp hb
  unfold handleMsgTokenIssue at h
  simp only [bind_eq_ok, orThrow_eq_ok] at h
  obtain ⟨supply', hsupply', -, -, newName, hnew, coins, -, bank₁, -, bank₂, -, hfee⟩ := h
  cases hsupply.symm.trans hsupply'
  have hpaid := payFee_sameRecords hfee
  refine .issue _ (addTokenSuffix_free hnew) ?_ ⟨hpaid.1, hpaid.2, hpaid.3, hpaid.4⟩
  exact Token.valid_iff.mpr ⟨howner, hsymbol, hname, hdesc, hle, hpos⟩

theorem transferOwnership_change {ctx : TxContext} {msg : MsgTransferOwnership}
    (hb : msg.validateBasic k = .ok ()) (h : s.handleMsgTransferOwnership k ctx msg = .ok s') :
    Change k s (decide (msg.toAddress = blackHoleAddress)) s' := by
  unfold MsgTransferOwnership.validateBasic at hb
  simp only [bind_eq_ok, require_eq_ok] at hb
  obtain ⟨-, hfrom, -, hto, -⟩ := hb
  unfold handleMsgTransferOwnership at h
  simp only [bind_eq_ok, require_eq_ok] at h
  obtain ⟨-, howner, -, -, hfee⟩ := h
  obtain ⟨hget, hsymbol⟩ := get_of_owner howner hfrom
  have hpaid := payFee_sameRecords hfee
  by_cases hhole : msg.toAddress = blackHoleAddress
  · rw [if_pos hhole] at hpaid
    rw [decide_eq_true hhole]
    refine .handOver _ _ hto hget ⟨hpaid.1, hpaid.2, hpaid.3, rfl⟩ fun symbol hsome => ?_
    rw [hpaid.confirmOwnerships] at hsome
    exact hsome
  · -- only the offer is stored, for a token its owner holds
    rw [if_neg hhole] at hpaid
    rw [decide_eq_false hhole]
    refine .offer _ ?_ hpaid
    rw [← hsymbol]
    exact Option.isSome_iff_exists.mpr ⟨_, hget⟩

theorem confirmOwnership_change {ctx : TxContext} {msg : MsgConfirmOwnership}
    (hb : msg.validateBasic k = .ok ()) (hs : s.Known)
    (h : s.handleMsgConfirmOwnership ctx msg = .ok s') : Change k s true s' := by
  unfold MsgConfirmOwnership.validateBasic at hb
  simp only [bind_eq_ok, require_eq_ok] at hb
  obtain ⟨-, haddress, -⟩ := hb
  unfold handleMsgConfirmOwnership at h
  simp only [bind_eq_ok, require_eq_ok, orThrow_eq_ok] at h
  obtain ⟨c, hc, -, -, -, -, hs'⟩ := h
  cases pure_eq_ok.mp hs'
  obtain ⟨t, hget⟩ := Option.isSome_iff_exists.mp (hs msg.symbol (by rw [hc]; rfl))
  have hinfo : s.getTokenInfo msg.symbol = t := by
    unfold getTokenInfo
    rw [hget]
    rfl
  have hkey : t.symbol = msg.symbol := KeyedStore.key_of_get hget
  rw [hinfo]
  refine .handOver t msg.address haddress ((congrArg s.tokens.get hkey).trans hget)
    ⟨rfl, rfl, rfl, rfl⟩ fun symbol hsome => ?_
  rw [KeyedStore.get_delete] at hsome
  split_ifs at hsome
  · cases hsome
  · exact hsome

theorem modify_change {msg : MsgTokenModify} (hb : msg.validateBasic k = .ok ())
    (h : s.handleMsgTokenModify k msg = .ok s') : Change k s false s' := by
  unfold MsgTokenModify.validateBasic at hb
  simp only [bind_eq_ok, require_eq_ok] at hb
  obtain ⟨-, howner, -, -, -, -, -, hname, hdesc⟩ := hb
  unfold handleMsgTokenModify at h
  simp only [bind_eq_ok, require_eq_ok] at h
  obtain ⟨-, hequal, -, -, hfee⟩ := h
  obtain ⟨hget, -⟩ := get_of_owner hequal howner
  refine .modify (s.getTokenInfo msg.symbol) _ hget ?_ ?_ ?_ ?_ (payFee_sameRecords hfee)
  · rfl
  · rfl
  · rfl
  intro hvalid
  obtain ⟨h1, h2, hwhole, hd, h5⟩ := Token.valid_iff.mp hvalid
  refine Token.valid_iff.mpr ⟨h1, h2, ?_, ?_, h5⟩
  · dsimp only
    split_ifs with hmod
    · exact hname hmod
    · exact hwhole
  · dsimp only
    split_ifs with hmod
    · exact hdesc hmod
    · exact hd

/-- **What a token message does to the records.** -/
theorem handle_change {ctx : TxContext} {msg : TokenMsg} (hb : msg.validateBasic k = .ok ())
    (hs : s.Known) (h : s.handle k ctx msg = .ok s') : Change k s msg.handsOver s' := by
  cases msg with
  | issue msg => exact issue_change hb h
  | burn msg =>
    unfold handle handleMsgTokenBurn at h
    simp only [bind_eq_ok] at h
    obtain ⟨-, -, bank₁, -, bank₂, -, hfee⟩ := h
    exact .keep ((withBank_sameRecords s bank₂).trans (payFee_sameRecords hfee))
  | mint msg =>
    unfold handle handleMsgTokenMint at h
    simp only [bind_eq_ok] at h
    obtain ⟨-, -, -, -, -, -, bank₁, -, bank₂, -, hfee⟩ := h
    exact .keep ((withBank_sameRecords s bank₂).trans (payFee_sameRecords hfee))
  | multiSend msg => exact .keep (multiSend_sameRecords h)
  | send msg =>
    obtain ⟨-, -, hsend⟩ := bind_eq_ok.mp h
    exact .keep (send_sameRecords hsend)
  | transferOwnership msg => exact transferOwnership_change hb h
  | confirmOwnership msg => exact confirmOwnership_change hb hs h
  | modify msg => exact modify_change hb h

end TokenState

/-! ## Records that stay valid -/

section Edit

variable {B : Type} {k : Keepers B}

/-- At most one record is written: a new one that passes, or one in place of a record with the same
original symbol, which passes if that one does. -/
def Edit (k : Keepers B) (m m' : KeyedStore Token.symbol) : Prop :=
  m' = m ∨ ∃ t, m' = m.put t ∧
    ((m.get t.symbol = none ∧ t.Valid k) ∨
      ∃ t₀, m.get t.symbol = some t₀ ∧ t.originalSymbol = t₀.originalSymbol ∧
        (t₀.Valid k → t.Valid k))

variable {m m' : KeyedStore Token.symbol}

theorem Edit.allValid (h : Edit k m m') (hm : AllValid k m) : AllValid k m' := by
  obtain rfl | ⟨t, rfl, ht⟩ := h
  · exact hm
  · intro symbol t' hget
    rw [KeyedStore.get_put] at hget
    split_ifs at hget with hs
    · cases hget
      obtain ⟨-, hv⟩ | ⟨t₀, hget₀, -, hv⟩ := ht
      · exact hv
      · exact hv (hm _ _ hget₀)
    · exact hm _ _ hget

/-- A record of a pool token: its original symbol is reserved. -/
def HasPool (m : KeyedStore Token.symbol) : Prop :=
  ∃ symbol t, m.get symbol = some t ∧ notAllowedOriginSymbol t.originalSymbol = true

theorem HasPool.not_allValid (h : HasPool m) : ¬ AllValid k m := by
  obtain ⟨symbol, t, hget, hpool⟩ := h
  intro hvalid
  have hsymbol := (Token.valid_iff.mp (hvalid symbol t hget)).2.1
  rw [validOriginalSymbol, hpool] at hsymbol
  exact Bool.false_ne_true hsymbol

theorem Edit.hasPool (h : Edit k m m') (hm : HasPool m) : HasPool m' := by
  obtain rfl | ⟨t, rfl, ht⟩ := h
  · exact hm
  · obtain ⟨symbol, t₁, hget, hpool⟩ := hm
    by_cases hs : symbol = t.symbol
    · obtain ⟨hnone, -⟩ | ⟨t₀, hget₀, horig, -⟩ := ht
      · rw [← hs, hget] at hnone
        cases hnone
      · rw [← hs, hget] at hget₀
        cases hget₀
        exact ⟨t.symbol, t, KeyedStore.get_put_self, horig ▸ hpool⟩
    · exact ⟨symbol, t₁, (KeyedStore.get_put_ne hs).trans hget, hpool⟩

theorem Edit.isSome (h : Edit k m m') {symbol : String} (hm : (m.get symbol).isSome) :
    (m'.get symbol).isSome := by
  obtain rfl | ⟨t, rfl, -⟩ := h
  · exact hm
  · rw [KeyedStore.get_put]
    split_ifs
    · rfl
    · exact hm

end Edit

namespace TokenState

variable {B : Type} {k : Keepers B} {s s' : TokenState B} {handed : Bool}

theorem Change.edit (h : Change k s handed s') : Edit k s.tokens s'.tokens := by
  cases h with
  | keep h => exact .inl h.tokens
  | issue t hfree hvalid h => exact .inr ⟨t, h.tokens, .inl ⟨hfree, hvalid⟩⟩
  | modify t t' hget hsymbol _ horig hvalid h =>
    exact .inr ⟨t', h.tokens, .inr ⟨t, hsymbol ▸ hget, horig, hvalid⟩⟩
  | offer c _ h => exact .inl h.tokens
  | handOver t a ha hget h _ =>
    refine .inr ⟨{ t with owner := a }, h.tokens, .inr ⟨t, hget, rfl, fun hvalid => ?_⟩⟩
    exact Token.valid_iff.mpr ⟨ha, (Token.valid_iff.mp hvalid).2⟩

theorem Change.known (h : Change k s handed s') (hs : s.Known) : s'.Known := by
  have hkept : ∀ symbol, (s.tokens.get symbol).isSome → (s'.tokens.get symbol).isSome :=
    fun _ hsome => h.edit.isSome hsome
  have hsame : s'.confirmOwnerships = s.confirmOwnerships → s'.Known := fun hoffers symbol hsome =>
    hkept symbol (hs symbol (hoffers ▸ hsome))
  cases h with
  | keep h => exact hsame h.confirmOwnerships
  | issue t _ _ h => exact hsame h.confirmOwnerships
  | modify t t' _ _ _ _ _ h => exact hsame h.confirmOwnerships
  | offer c hget h =>
    intro symbol hsome
    refine hkept symbol ?_
    rw [h.confirmOwnerships] at hsome
    dsimp only at hsome
    rw [KeyedStore.get_put] at hsome
    split_ifs at hsome with hsymbol
    · exact hsymbol ▸ hget
    · exact hs symbol hsome
  | handOver t a _ _ _ hoffers =>
    exact fun symbol hsome => hkept symbol (hs symbol (hoffers symbol hsome))

/-! ### Pool tokens -/

theorem notAllowedOriginSymbol_getPoolTokenName (token0 token1 : String) :
    notAllowedOriginSymbol (getPoolTokenName token0 token1) = true := by
  unfold notAllowedOriginSymbol getPoolTokenName
  rw [String.toList_append]
  rfl

/-- The state in which the exchange exists. -/
def opened (k : Keepers B) (s : TokenState B) (msg : MsgCreateExchange) : TokenState B :=
  { s.newToken (initPoolToken k (getPoolTokenName msg.token0Name msg.token1Name)) with
    swapPairs := s.swapPairs.set msg.getSwapTokenPairName
      (newSwapPair msg.token0Name msg.token1Name) }

theorem createExchange_eq_ok {msg : MsgCreateExchange} :
    (msg.validateBasic >>= fun _ => s.handleMsgCreateExchange k msg) = .ok s' ↔
      s.Opens (.createExchange msg) ∧ s.opened k msg = s' := by
  unfold MsgCreateExchange.validateBasic handleMsgCreateExchange isTokenExist
    validateSwapAmountName
  simp only [bind_eq_ok, require_eq_ok, pure_eq_ok, exists_const, Opens, List.forall_mem_cons,
    List.not_mem_nil, false_implies, implies_true, and_true, and_assoc]
  exact Iff.rfl

theorem step_of_opens {msg : MsgCreateExchange} (h : s.Opens (.createExchange msg)) :
    s.step k (.createExchange msg) = s.opened k msg := by
  have hok := createExchange_eq_ok (k := k).mpr ⟨h, rfl⟩
  simp only [step, hok]
  rfl

theorem step_of_not_opens {msg : MsgCreateExchange} (h : ¬ s.Opens (.createExchange msg)) :
    s.step k (.createExchange msg) = s := by
  cases hres : msg.validateBasic >>= fun _ => s.handleMsgCreateExchange k msg with
  | ok s' => exact absurd (createExchange_eq_ok.mp hres).1 h
  | error e =>
    simp only [step, hres]
    rfl

/-! ## Along a run -/

/-- The message is accepted. -/
def accepts (k : Keepers B) (s : TokenState B) (ctx : TxContext) (msg : TokenMsg) : Bool :=
  (msg.validateBasic k >>= fun _ => s.handle k ctx msg).toOption.isSome

/-- The step: a message that is accepted changes the records, any other one leaves them. -/
theorem step_token_change (k : Keepers B) (hs : s.Known) (ctx : TxContext) (msg : TokenMsg) :
    Change k s (s.accepts k ctx msg && msg.handsOver) (s.step k (.token ctx msg)) := by
  unfold accepts
  cases hres : msg.validateBasic k >>= fun _ => s.handle k ctx msg with
  | ok s' =>
    obtain ⟨⟨⟩, hb, h⟩ := bind_eq_ok.mp hres
    simp only [step, hres]
    exact handle_change hb hs h
  | error e =>
    simp only [step, hres]
    exact .keep (.refl s)

/-- The step: what does not create an exchange edits the records; an exchange adds a pool token. -/
theorem step_cases (hs : s.Known) (x : TokenStep) :
    (s.step k x).Known ∧
      ((¬ s.Opens x ∧ Edit k s.tokens (s.step k x).tokens) ∨
        s.Opens x ∧ HasPool (s.step k x).tokens) := by
  cases x with
  | token ctx msg =>
    have hchange := step_token_change k hs ctx msg
    exact ⟨hchange.known hs, .inl ⟨id, hchange.edit⟩⟩
  | createExchange msg =>
    by_cases h : s.Opens (.createExchange msg)
    · rw [step_of_opens h]
      refine ⟨fun symbol hsome => ?_, .inr ⟨h, _, _, KeyedStore.get_put_self,
        notAllowedOriginSymbol_getPoolTokenName _ _⟩⟩
      show ((s.tokens.put _).get symbol).isSome
      rw [KeyedStore.get_put]
      split_ifs
      · rfl
      · exact hs symbol hsome
    · rw [step_of_not_opens h]
      exact ⟨hs, .inl ⟨h, .inl rfl⟩⟩

theorem step_hasPool (hs : s.Known) (hpool : HasPool s.tokens) (x : TokenStep) :
    HasPool (s.step k x).tokens := by
  obtain ⟨-, hedit⟩ | ⟨-, hnew⟩ := (step_cases (k := k) hs x).2
  · exact hedit.hasPool hpool
  · exact hnew

theorem run_hasPool (hs : s.Known) (hpool : HasPool s.tokens) (steps : List TokenStep) :
    HasPool (s.run k steps).tokens := by
  induction steps generalizing s with
  | nil => exact hpool
  | cons x steps ih => exact ih (step_cases hs x).1 (step_hasPool hs hpool x)

/-- The run: every record passes as long as no exchange is created, and a pool token is stored
from then on. -/
theorem run_allValid_iff (hs : s.Known) (hvalid : AllValid k s.tokens) (steps : List TokenStep) :
    AllValid k (s.run k steps).tokens ↔ s.NoExchange k steps := by
  induction steps generalizing s with
  | nil => exact ⟨fun _ => trivial, fun _ => hvalid⟩
  | cons x steps ih =>
    obtain ⟨hknown, ⟨hno, hedit⟩ | ⟨hopens, hpool⟩⟩ := step_cases (k := k) hs x
    · exact (ih hknown (hedit.allValid hvalid)).trans ⟨fun h => ⟨hno, h⟩, fun h => h.2⟩
    · refine ⟨fun h => absurd h ?_, fun h => absurd hopens h.1⟩
      exact (run_hasPool hknown hpool steps).not_allValid

end TokenState

/-! ## The export -/

section Export

variable {B : Type} {k : Keepers B}

/-- A genesis that passes gives records that pass, and nothing is on offer. -/
theorem initGenesis_allValid {bank : B} {swapPairs : KVStore String SwapTokenPair}
    {data : GenesisState} {s : TokenState B} (hdata : validateGenesis k data = .ok ())
    (h : initGenesis bank swapPairs data = some s) : AllValid k s.tokens ∧ s.Known := by
  have hloop : ∀ (tokens : List Token) (s : TokenState B), (∀ t ∈ tokens, t.Valid k) →
      AllValid k s.tokens → s.confirmOwnerships = ∅ →
      AllValid k (tokens.foldl TokenState.newToken s).tokens ∧
        (tokens.foldl TokenState.newToken s).confirmOwnerships = ∅ := by
    intro tokens
    induction tokens with
    | nil => exact fun s _ hs hc => ⟨hs, hc⟩
    | cons t tokens ih =>
      intro s hall hs hc
      obtain ⟨ht, hrest⟩ := List.forall_mem_cons.mp hall
      refine ih (s.newToken t) hrest (fun symbol t' hget => ?_) hc
      change (s.tokens.put t).get symbol = some t' at hget
      rw [KeyedStore.get_put] at hget
      split_ifs at hget
      · cases hget
        exact ht
      · exact hs _ _ hget
  unfold initGenesis at h
  simp only [Option.bind_eq_bind, Option.bind_eq_some_iff, Option.pure_def,
    Option.some.injEq] at h
  obtain ⟨led₁, -, led₂, -, rfl⟩ := h
  have hempty : AllValid k (∅ : KeyedStore Token.symbol) := fun symbol t hget => by cases hget
  obtain ⟨hvalid, hoffers⟩ := hloop data.tokens
    ⟨data.params, ∅, ∅, 0, ∅, ⟨∅, ∅, bank, []⟩, swapPairs⟩ (validateGenesis_eq_ok.mp hdata) hempty rfl
  refine ⟨hvalid, fun symbol hsome => ?_⟩
  rw [hoffers] at hsome
  cases hsome

/-- **An export is accepted exactly when no exchange was created.** -/
theorem token_export_validates_iff {bank : B} {swapPairs : KVStore String SwapTokenPair}
    {data : GenesisState} {s : TokenState B} (hdata : validateGenesis k data = .ok ())
    (hinit : initGenesis bank swapPairs data = some s) (steps : List TokenStep) :
    validateGenesis k (s.run k steps).exportGenesis = .ok () ↔ s.NoExchange k steps := by
  obtain ⟨hvalid, hknown⟩ := initGenesis_allValid hdata hinit
  exact validateGenesis_export.trans (TokenState.run_allValid_iff hknown hvalid steps)

end Export

/-! ### Two runs -/

/-- A token of the example. -/
def exampleToken (symbol : String) : Token where
  description := ""
  symbol := symbol
  originalSymbol := symbol
  wholeName := symbol
  originalTotalSupply := Dec.newDec 1000
  type := 0
  owner := "alice"
  mintable := true

/-- The genesis of the example: two tokens of alice, and no fees. -/
def exampleGenesis : GenesisState where
  params := ⟨⟨"okt", 0⟩, ⟨"okt", 0⟩, ⟨"okt", 0⟩, ⟨"okt", 0⟩, ⟨"okt", 0⟩, 10⟩
  tokens := [exampleToken "okt", exampleToken "usdk"]
  lockedAssets := []
  lockedFees := []

/-- The state it gives. -/
def exampleStart : TokenState (KVStore Address Coins × Coins) :=
  (exampleGenesis.tokens.foldl TokenState.newToken
    ⟨exampleGenesis.params, ∅, ∅, 0, ∅, ⟨∅, ∅, (∅, 0), []⟩, ∅⟩)

/-- Alice renames a token, offers it to bob, and bob accepts. -/
def handOver : List TokenStep :=
  [.token ⟨1, 0, ""⟩ (.modify ⟨"alice", "usdk", "a dollar", "Dollar", true, true⟩),
   .token ⟨2, 5, ""⟩ (.transferOwnership ⟨"alice", "bob", "usdk"⟩),
   .token ⟨3, 9, ""⟩ (.confirmOwnership ⟨"usdk", "bob"⟩)]

/-- After the token was renamed and has changed hands the export is accepted. -/
theorem token_export_validates_handOver :
    validateGenesis simpleKeepers exampleGenesis = .ok () ∧
      initGenesis (∅, 0) ∅ exampleGenesis = some exampleStart ∧
      ((exampleStart.run simpleKeepers handOver).getTokenInfo "usdk").owner = "bob" ∧
      validateGenesis simpleKeepers (exampleStart.run simpleKeepers handOver).exportGenesis =
        .ok () := by
  have hdata : validateGenesis simpleKeepers exampleGenesis = .ok () :=
    toOption_eq_some.mp (by decide +kernel)
  have howner : ((exampleStart.run simpleKeepers handOver).getTokenInfo "usdk").owner = "bob" := by
    decide +kernel
  exact ⟨hdata, rfl, howner,
    (token_export_validates_iff hdata rfl handOver).mpr ⟨id, id, id, trivial⟩⟩

/-- Once alice has created an exchange of her two tokens the export is rejected. -/
theorem pool_token_export_rejected :
    validateGenesis simpleKeepers exampleGenesis = .ok () ∧
      initGenesis (∅, 0) ∅ exampleGenesis = some exampleStart ∧
      validateGenesis simpleKeepers
        (exampleStart.run simpleKeepers [.createExchange ⟨"okt", "usdk", "alice"⟩]).exportGenesis =
          .error (.notAllowedOriginalSymbol "ammswap_okt_usdk") :=
  ⟨toOption_eq_some.mp (by decide +kernel), rfl, failure_eq_some.mp (by decide +kernel)⟩

end TokenModule

end Okexchain
