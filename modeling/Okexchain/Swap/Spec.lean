import Okexchain.Swap.Keeper
import Okexchain.Lib.Trace
import Okexchain.Lib.Pool

/-!
# What the swap handlers do

`SwapLedger` is what the module answers for: the pairs, the supply of every denomination and its
account. `SwapEffect` lists all that a message can do to it: an exchange is created, liquidity is
added or removed, one leg of a swap is traded. A message is a trace of effects; only a routed swap
takes two.

The effects keep the computed amounts as the source computes them, so they hold in every state.
What the truncations amount to when the reserves are positive is said by the pricing lemmas.

**Results.** `mulAndQuo_eq`: three truncated operations are one exact division. `getInputPrice_le`:
a swap buys at most at the constant-product price. `SwapState.handle_effects`: the trace of effects
of a message.
-/

namespace Okexchain

/-! ## Pricing -/

/-- The auxiliary factor makes the truncation of the product exact. -/
theorem mulTruncate_scaled (a b : Int) :
    Dec.mulTruncate (Dec.mulTruncate a (Dec.newDec Dec.one)) b = a * b := by
  have hone : (Dec.one : Int) ≠ 0 := Dec.one_pos.ne'
  rw [Dec.mulTruncate_newDec_right a Dec.one]
  unfold Dec.mulTruncate
  rw [mul_right_comm, Int.mul_tdiv_cancel _ hone]

/-- Dividing the factor out again, the two truncations are one. -/
theorem quoTruncate_scaled {n c : Int} (hn : 0 ≤ n) (hc : 0 < c) :
    Dec.quoTruncate (Dec.quoTruncate n c) (Dec.newDec Dec.one) = n / c := by
  have hquo : 0 ≤ n * Dec.one / c := Int.ediv_nonneg (mul_nonneg hn Dec.one_pos.le) hc.le
  have haux : 0 < Dec.newDec Dec.one := mul_pos Dec.one_pos Dec.one_pos
  rw [Dec.quoTruncate_eq hn hc, Dec.quoTruncate_eq hquo haux, Dec.newDec,
    Int.mul_ediv_mul_of_pos_left _ _ Dec.one_pos, Int.ediv_ediv_of_nonneg hc.le,
    Int.mul_ediv_mul_of_pos_left _ _ Dec.one_pos]

/-- The auxiliary factor makes the three truncations one. -/
theorem mulAndQuo_eq {a b c : Int} (ha : 0 ≤ a) (hb : 0 ≤ b) (hc : 0 < c) :
    mulAndQuo a b c = some (a * b / c) := by
  unfold mulAndQuo
  rw [if_neg hc.ne', mulTruncate_scaled, quoTruncate_scaled (mul_nonneg ha hb) hc]

section Price

variable {x X Y fee y : Int}

/-- The amount sold after the fee, a thousandfold. -/
theorem inputAmountWithFee_le (hx : 0 ≤ x) (hfee : 0 ≤ fee) (hle : fee ≤ Dec.one) :
    0 ≤ Dec.mulTruncate x (Dec.mulTruncate (Dec.one - fee) (Dec.newDec 1000)) ∧
      Dec.mulTruncate x (Dec.mulTruncate (Dec.one - fee) (Dec.newDec 1000)) ≤ x * 1000 := by
  have hnonneg : 0 ≤ (Dec.one - fee) * 1000 := by linarith
  rw [Dec.mulTruncate_newDec_right]
  refine ⟨Dec.mulTruncate_nonneg hx hnonneg, ?_⟩
  refine le_of_mul_le_mul_right ?_ Dec.one_pos
  calc Dec.mulTruncate x ((Dec.one - fee) * 1000) * Dec.one
      ≤ x * ((Dec.one - fee) * 1000) := Dec.mulTruncate_mul_one_le hx hnonneg
    _ ≤ x * (Dec.one * 1000) := mul_le_mul_of_nonneg_left (by linarith) hx
    _ = x * 1000 * Dec.one := by ring

/-- **A swap buys at most at the constant-product price.** -/
theorem getInputPrice_le (hx : 0 ≤ x) (hX : 0 < X) (hY : 0 < Y) (hfee : 0 ≤ fee)
    (hle : fee ≤ Dec.one) (h : getInputPrice x X Y fee = some y) :
    0 ≤ y ∧ y * (X + x) ≤ x * Y := by
  obtain ⟨hw, hwx⟩ := inputAmountWithFee_le hx hfee hle
  unfold getInputPrice at h
  generalize Dec.mulTruncate x (Dec.mulTruncate (Dec.one - fee) (Dec.newDec 1000)) = w at *
  have hpos : 0 < X * 1000 + w := by linarith
  rw [Dec.mulTruncate_newDec_right, mulAndQuo_eq hw hY.le hpos] at h
  cases h
  have hdiv : w * Y / (X * 1000 + w) * (X * 1000 + w) ≤ w * Y := Int.ediv_mul_le _ hpos.ne'
  have hy : 0 ≤ w * Y / (X * 1000 + w) := Int.ediv_nonneg (mul_nonneg hw hY.le) hpos.le
  generalize w * Y / (X * 1000 + w) = y at *
  refine ⟨hy, ?_⟩
  -- The output is below the reserve, so that a larger input would buy more.
  have hlt : y < Y := Pool.trade_lt (mul_pos hX (by norm_num)) hY hw hdiv
  have hmore : w * (Y - y) ≤ x * 1000 * (Y - y) :=
    mul_le_mul_of_nonneg_right hwx (by linarith)
  linarith

end Price

/-! ## Names -/

theorem getSwapTokenPairName_comm (token0 token1 : String) :
    getSwapTokenPairName token0 token1 = getSwapTokenPairName token1 token0 := by
  unfold getSwapTokenPairName getBaseQuoteTokenName
  rcases lt_trichotomy token0 token1 with h | rfl | h
  · rw [if_pos h, if_neg h.asymm]
  · rfl
  · rw [if_neg h.asymm, if_pos h]

/-- A swap is between different tokens. -/
theorem MsgTokenToToken.validateBasic_spec {msg : MsgTokenToToken}
    (h : msg.validateBasic = .ok ()) :
    0 < msg.soldTokenAmount.amount ∧
      msg.soldTokenAmount.denom ≠ msg.minBoughtTokenAmount.denom := by
  unfold MsgTokenToToken.validateBasic validateBaseAndQuoteAmount getBaseQuoteTokenName at h
  simp only [bind_eq_ok, require_eq_ok, exists_and_left, exists_const] at h
  obtain ⟨-, -, hsold, -, -, -, hne, -⟩ := h
  refine ⟨hsold, fun heq => ?_⟩
  rw [heq, ite_self] at hne
  exact hne rfl

/-! ## Coins -/

namespace DecCoin

variable {c c' r : DecCoin} {denom : String} {amount : Int} {isLess : Bool}

theorem newDecCoinFromDec_eq_ok :
    newDecCoinFromDec denom amount = .ok r ↔ 0 ≤ amount ∧ ⟨denom, amount⟩ = r := by
  unfold newDecCoinFromDec
  simp only [bind_eq_ok, require_eq_ok, pure_eq_ok, exists_and_left, exists_const]

theorem addCoin_eq_ok :
    c.addCoin c' = .ok r ↔ c.denom = c'.denom ∧ ⟨c.denom, c.amount + c'.amount⟩ = r := by
  unfold addCoin
  simp only [bind_eq_ok, require_eq_ok, pure_eq_ok, exists_and_left, exists_const]

theorem subCoin_eq_ok : c.subCoin c' = .ok r ↔
    c.denom = c'.denom ∧ c'.amount ≤ c.amount ∧ ⟨c.denom, c.amount - c'.amount⟩ = r := by
  unfold subCoin
  simp only [bind_eq_ok, require_eq_ok, pure_eq_ok, exists_and_left, exists_const, sub_nonneg]

theorem isLT_eq_ok : c.isLT c' = .ok isLess ↔
    c.denom = c'.denom ∧ decide (c.amount < c'.amount) = isLess := by
  unfold isLT
  simp only [bind_eq_ok, require_eq_ok, pure_eq_ok, exists_and_left, exists_const]

end DecCoin

theorem coinSort_pair {c c' : DecCoin} (hc : 0 ≤ c.amount) (hc' : 0 ≤ c'.amount) :
    coinSort [c, c'] = c.toCoins + c'.toCoins := by
  have hzero : ∀ {e : DecCoin}, 0 ≤ e.amount → ¬ 0 < e.amount → e.toCoins = 0 := by
    intro e h h'
    have he : e.amount = 0 := le_antisymm (not_lt.mp h') h
    rw [DecCoin.toCoins, he, coin_zero]
  unfold coinSort
  by_cases h : 0 < c.amount <;> by_cases h' : 0 < c'.amount <;>
    simp [h, h', hzero hc, hzero hc']

/-! ## Effects -/

/-- What the module answers for. -/
structure SwapLedger where
  pairs : KVStore String SwapTokenPair
  supply : String → Int
  account : Coins

namespace SwapTokenPair

/-- The pair after its reserves have changed. -/
def change (pair : SwapTokenPair) (base quote : Int) : SwapTokenPair :=
  { pair with
    basePooledCoin := ⟨pair.basePooledCoin.denom, pair.basePooledCoin.amount + base⟩
    quotePooledCoin := ⟨pair.quotePooledCoin.denom, pair.quotePooledCoin.amount + quote⟩ }

/-- The reserves of a pair with the supply of its pool token. -/
def pool (pair : SwapTokenPair) (supply : Int) : Pool Int :=
  ⟨pair.basePooledCoin.amount, pair.quotePooledCoin.amount, supply⟩

/-- The reserves as coins. -/
def pooled (pair : SwapTokenPair) : Coins :=
  pair.basePooledCoin.toCoins + pair.quotePooledCoin.toCoins

@[simp] theorem poolTokenName_change (pair : SwapTokenPair) (base quote : Int) :
    (pair.change base quote).poolTokenName = pair.poolTokenName := rfl

theorem pooled_change (pair : SwapTokenPair) (base quote : Int) :
    (pair.change base quote).pooled = pair.pooled +
      (coin pair.basePooledCoin.denom base + coin pair.quotePooledCoin.denom quote) := by
  unfold pooled change DecCoin.toCoins
  rw [coin_add, coin_add, add_add_add_comm]

end SwapTokenPair

/-- The amounts of `handleMsgAddLiquidity`: a deposit of `x` quote tokens takes `b` base tokens and
gives `liquidity` pool tokens. -/
def Adds (p : Pool Int) (x b liquidity : Int) : Prop :=
  p.base = 0 ∧ p.quote = 0 ∧ liquidity = Dec.newDec 1 ∨
    0 < p.base ∧ 0 < p.quote ∧ p.shares ≠ 0 ∧ liquidity ≠ 0 ∧
      mulAndQuo x p.shares p.quote = some liquidity ∧
      ∃ b₀, mulAndQuo x p.base p.quote = some b₀ ∧ b = if b₀ = 0 then 1 else b₀

/-- One leg of a swap, in either direction. -/
inductive Trades (params : SwapParams) (pair : SwapTokenPair) :
    DecCoin → DecCoin → SwapTokenPair → Prop where
  | sellQuote (x y : Int)
      (hprice : getInputPrice x pair.quotePooledCoin.amount pair.basePooledCoin.amount
        params.feeRate = some y) :
      Trades params pair ⟨pair.quotePooledCoin.denom, x⟩ ⟨pair.basePooledCoin.denom, y⟩
        (pair.change (-y) x)
  | sellBase (x y : Int)
      (hprice : getInputPrice x pair.basePooledCoin.amount pair.quotePooledCoin.amount
        params.feeRate = some y) :
      Trades params pair ⟨pair.basePooledCoin.denom, x⟩ ⟨pair.quotePooledCoin.denom, y⟩
        (pair.change x (-y))

/-- A swap with positive reserves: both stay positive, their product does not fall, and what is
bought is less than the reserve it is taken from. -/
theorem Trades.spec {params : SwapParams} {pair pair' : SwapTokenPair} {sell buy : DecCoin}
    (h : Trades params pair sell buy pair') (hbase : 0 < pair.basePooledCoin.amount)
    (hquote : 0 < pair.quotePooledCoin.amount) (hsell : 0 < sell.amount) :
    0 < pair'.basePooledCoin.amount ∧ 0 < pair'.quotePooledCoin.amount ∧
      pair.basePooledCoin.amount * pair.quotePooledCoin.amount ≤
        pair'.basePooledCoin.amount * pair'.quotePooledCoin.amount := by
  cases h with
  | sellQuote x y hprice =>
    have hx : 0 < x := hsell
    obtain ⟨-, hle⟩ := getInputPrice_le hx.le hquote hbase params.feeRate_nonneg
      params.feeRate_le_one hprice
    refine ⟨?_, ?_, ?_⟩
    · exact sub_pos.mpr (Pool.trade_lt hquote hbase hx.le hle)
    · exact add_pos hquote hx
    · rw [mul_comm, mul_comm (SwapTokenPair.basePooledCoin _).amount]
      exact Pool.trade_product hle
  | sellBase x y hprice =>
    have hx : 0 < x := hsell
    obtain ⟨-, hle⟩ := getInputPrice_le hx.le hbase hquote params.feeRate_nonneg
      params.feeRate_le_one hprice
    refine ⟨?_, ?_, ?_⟩
    · exact add_pos hbase hx
    · exact sub_pos.mpr (Pool.trade_lt hbase hquote hx.le hle)
    · exact Pool.trade_product hle

/-- A swap moves what is sold into the reserves and what is bought out of them. -/
theorem Trades.pooled {params : SwapParams} {pair pair' : SwapTokenPair} {sell buy : DecCoin}
    (h : Trades params pair sell buy pair') :
    pair'.pooled = pair.pooled + sell.toCoins - buy.toCoins := by
  cases h with
  | sellQuote x y hprice =>
    rw [SwapTokenPair.pooled_change, coin_neg, DecCoin.toCoins, DecCoin.toCoins]
    abel
  | sellBase x y hprice =>
    rw [SwapTokenPair.pooled_change, coin_neg, DecCoin.toCoins, DecCoin.toCoins]
    abel

/-- A new, empty pair. -/
inductive CreateEffect (token0 token1 : String) (l l' : SwapLedger) : Prop where
  | intro (hnew : l.pairs.get (getSwapTokenPairName token0 token1) = none)
      (hpairs : l'.pairs =
        l.pairs.set (getSwapTokenPairName token0 token1) (newSwapPair token0 token1))
      (hsupply : l'.supply = l.supply) (haccount : l'.account = l.account)

/-- A deposit of `x` quote tokens into the pair `name`. -/
inductive AddEffect (name : String) (x : Int) (l l' : SwapLedger) : Prop where
  | intro (pair : SwapTokenPair) (b liquidity : Int)
      (hpair : l.pairs.get name = some pair) (hx : 0 < x) (hb : 0 < b) (hliquidity : 0 ≤ liquidity)
      (hadds : Adds (pair.pool (l.supply pair.poolTokenName)) x b liquidity)
      (hpairs : l'.pairs = l.pairs.set name (pair.change b x))
      (hsupply : ∀ d, l'.supply d = l.supply d + coin pair.poolTokenName liquidity d)
      (haccount : l'.account =
        l.account + (coin pair.quotePooledCoin.denom x + coin pair.basePooledCoin.denom b))

/-- A withdrawal of what `liquidity` pool tokens of the pair `name` stand for. -/
inductive RemoveEffect (name : String) (liquidity : Int) (l l' : SwapLedger) : Prop where
  | intro (pair : SwapTokenPair) (b q : Int)
      (hpair : l.pairs.get name = some pair) (hliquidity : 0 < liquidity)
      (hle : liquidity ≤ l.supply pair.poolTokenName)
      (hb : mulAndQuo pair.basePooledCoin.amount liquidity (l.supply pair.poolTokenName) = some b)
      (hq : mulAndQuo pair.quotePooledCoin.amount liquidity (l.supply pair.poolTokenName) = some q)
      (hpairs : l'.pairs = l.pairs.set name (pair.change (-b) (-q)))
      (hsupply : ∀ d, l'.supply d = l.supply d - coin pair.poolTokenName liquidity d)
      (haccount : l'.account =
        l.account - (coin pair.basePooledCoin.denom b + coin pair.quotePooledCoin.denom q))

/-- One leg of a swap. What is sold is new to the account if it is `paid` by another one. -/
inductive TradeEffect (params : SwapParams) (paid : Prop) :
    SwapLedger → List SwapNotice → SwapLedger → Prop where
  | intro {l l' : SwapLedger} (pair pair' : SwapTokenPair) (sell buy : DecCoin)
      (recipient : Address) (kept : Coins) (hpair : l.pairs.get pair.tokenPairName = some pair)
      (hpooled : pair.basePooledCoin.amount ≠ 0 ∧ pair.quotePooledCoin.amount ≠ 0)
      (hsell : 0 < sell.amount) (hbuy : 0 < buy.amount) (htrades : Trades params pair sell buy pair')
      (hkept : ∀ d, 0 ≤ kept d) (hpairs : l'.pairs = l.pairs.set pair.tokenPairName pair')
      (hsupply : l'.supply = l.supply)
      (haccount : paid → l'.account = l.account + sell.toCoins - buy.toCoins + kept) :
      TradeEffect params paid l [⟨recipient, pair, pair', sell, buy⟩] l'

/-- What the handlers do. -/
inductive SwapEffect (params : SwapParams) :
    SwapLedger → List SwapNotice → SwapLedger → Prop where
  | create {l l' : SwapLedger} (token0 token1 : String) (h : CreateEffect token0 token1 l l') :
      SwapEffect params l [] l'
  | add {l l' : SwapLedger} (name : String) (x : Int) (h : AddEffect name x l l') :
      SwapEffect params l [] l'
  | remove {l l' : SwapLedger} (name : String) (liquidity : Int)
      (h : RemoveEffect name liquidity l l') : SwapEffect params l [] l'
  | trade {l l' : SwapLedger} {evs : List SwapNotice} (h : TradeEffect params True l evs l') :
      SwapEffect params l evs l'

theorem TradeEffect.effect {params : SwapParams} {paid : Prop} {l l' : SwapLedger}
    {evs : List SwapNotice} (hpaid : paid) (h : TradeEffect params paid l evs l') :
    SwapEffect params l evs l' := by
  obtain ⟨pair, pair', sell, buy, recipient, kept, hpair, hpooled, hsell, hbuy, htrades, hkept,
    hpairs, hsupply, haccount⟩ := h
  exact .trade ⟨pair, pair', sell, buy, recipient, kept, hpair, hpooled, hsell, hbuy, htrades,
    hkept, hpairs, hsupply, fun _ => haccount hpaid⟩

namespace SwapState

variable {B : Type} {sk : MintKeeper B} {blockTime : Int} {s s' : SwapState B} {b b' : B}
  {coins : Coins} {addr : Address}

/-- What the module answers for, in a state. -/
def ledger (sk : MintKeeper B) (s : SwapState B) : SwapLedger :=
  ⟨s.pairs, sk.getSupplyByDenom s.bank, sk.moduleCoins s.bank swapModuleName⟩

/-! ## The account of the module -/

theorem sendCoinsToPool_spec (h : sendCoinsToPool sk b coins addr = some b') :
    (addr ≠ sk.moduleAddress swapModuleName →
      sk.moduleCoins b' swapModuleName = sk.moduleCoins b swapModuleName + coins) ∧
      sk.getSupplyByDenom b' = sk.getSupplyByDenom b :=
  ⟨SupplyKeeper.getCoins_target h, funext (sk.supply_sendCoins h)⟩

/-- A payment out of the pools. The module's own account may be the recipient. -/
theorem sendCoinsFromPoolToAccount_spec (h : sendCoinsFromPoolToAccount sk b coins addr = some b') :
    sk.moduleCoins b' swapModuleName = sk.moduleCoins b swapModuleName - coins +
        (if sk.moduleAddress swapModuleName = addr then coins else 0) ∧
      sk.getSupplyByDenom b' = sk.getSupplyByDenom b := by
  refine ⟨?_, funext (sk.supply_sendCoins h)⟩
  unfold SupplyKeeper.moduleCoins
  rw [sk.getCoins_sendCoins h, if_pos rfl]

theorem mintPoolCoinsToUser_spec (h : mintPoolCoinsToUser sk b coins addr = some b') :
    (addr ≠ sk.moduleAddress swapModuleName →
      sk.moduleCoins b' swapModuleName = sk.moduleCoins b swapModuleName) ∧
      ∀ d, sk.getSupplyByDenom b' d = sk.getSupplyByDenom b d + coins d := by
  obtain ⟨b₁, hmint, hsend⟩ := Option.bind_eq_some_iff.mp h
  refine ⟨fun haddr => ?_, fun d => ?_⟩
  · unfold SupplyKeeper.moduleCoins
    rw [SupplyKeeper.getCoins_source hsend haddr.symm, sk.getCoins_mintCoins hmint, if_pos rfl,
      add_sub_cancel_right]
  · rw [sk.supply_sendCoins hsend, sk.supply_mintCoins hmint]

theorem burnPoolCoinsFromUser_spec (h : burnPoolCoinsFromUser sk b coins addr = some b') :
    (addr ≠ sk.moduleAddress swapModuleName →
      sk.moduleCoins b' swapModuleName = sk.moduleCoins b swapModuleName) ∧
      ∀ d, sk.getSupplyByDenom b' d = sk.getSupplyByDenom b d - coins d := by
  obtain ⟨b₁, hsend, hburn⟩ := Option.bind_eq_some_iff.mp h
  refine ⟨fun haddr => ?_, fun d => ?_⟩
  · unfold SupplyKeeper.moduleCoins
    rw [sk.getCoins_burnCoins hburn, if_pos rfl, SupplyKeeper.getCoins_target hsend haddr,
      add_sub_cancel_right]
  · rw [sk.supply_burnCoins hburn, sk.supply_sendCoins hsend]

/-- The token info of a pool token names it. -/
theorem getPoolTokenInfo_symbol {symbol : String} {token : Token}
    (h : s.getPoolTokenInfo symbol = .ok token) : token.symbol = symbol := by
  unfold getPoolTokenInfo at h
  simp only [bind_eq_ok, require_eq_ok, pure_eq_ok, exists_and_left, exists_const] at h
  obtain ⟨howner, rfl⟩ := h
  unfold getTokenInfo at howner ⊢
  cases hget : s.tokens.get symbol with
  | none =>
    rw [hget] at howner
    exact absurd rfl howner
  | some token => exact KeyedStore.key_of_get hget

/-! ## The handlers -/

theorem handleMsgCreateExchange_effect {msg : MsgCreateExchange}
    (h : s.handleMsgCreateExchange sk msg = .ok s') :
    CreateEffect msg.token0Name msg.token1Name (s.ledger sk) (s'.ledger sk) ∧
      s'.params = s.params ∧ s'.notices = s.notices := by
  unfold handleMsgCreateExchange at h
  simp only [bind_eq_ok, require_eq_ok, pure_eq_ok, exists_and_left, exists_const] at h
  obtain ⟨_, -, _, -, hnew, -, rfl⟩ := h
  exact ⟨⟨Option.isNone_iff_eq_none.mp hnew, rfl, rfl, rfl⟩, rfl, rfl⟩

theorem addedAmounts_adds {msg : MsgAddLiquidity} {pair : SwapTokenPair} {b liquidity : Int}
    (hmax : 0 < msg.maxBaseAmount.amount) (hquote : 0 < msg.quoteAmount.amount)
    (h : s.addedAmounts sk msg pair = .ok (b, liquidity)) :
    0 < b ∧ Adds (pair.pool (sk.getSupplyByDenom s.bank pair.poolTokenName))
      msg.quoteAmount.amount b liquidity := by
  unfold addedAmounts at h
  dsimp only at h
  split_ifs at h with hempty hpos
  · cases h
    exact ⟨hmax, .inl ⟨hempty.2, hempty.1, rfl⟩⟩
  · simp only [bind_eq_ok, require_eq_ok, orThrow_eq_ok, pure_eq_ok, exists_and_left,
      exists_const] at h
    obtain ⟨b₀, hb₀, hsupply, l, hl, hlne, hres⟩ := h
    cases hres
    refine ⟨?_, .inr ⟨hpos.1, hpos.2, hsupply, hlne, hl, b₀, hb₀, rfl⟩⟩
    rw [mulAndQuo_eq hquote.le hpos.1.le hpos.2] at hb₀
    cases hb₀
    have hnonneg : 0 ≤ msg.quoteAmount.amount * pair.basePooledCoin.amount /
        pair.quotePooledCoin.amount :=
      Int.ediv_nonneg (mul_nonneg hquote.le hpos.1.le) hpos.2.le
    split_ifs with hzero
    · exact one_pos
    · exact lt_of_le_of_ne hnonneg (Ne.symm hzero)

/-- What a deposit that succeeds has computed and done. -/
theorem handleMsgAddLiquidity_cases {msg : MsgAddLiquidity} (hbasic : msg.validateBasic = .ok ())
    (h : s.handleMsgAddLiquidity sk blockTime msg = .ok s') :
    ∃ pair b liquidity bank bank', s.pairs.get msg.getSwapTokenPairName = some pair ∧
      0 < msg.quoteAmount.amount ∧ 0 < b ∧ 0 ≤ liquidity ∧
      Adds (pair.pool (sk.getSupplyByDenom s.bank pair.poolTokenName)) msg.quoteAmount.amount b
        liquidity ∧
      sendCoinsToPool sk s.bank (coin pair.quotePooledCoin.denom msg.quoteAmount.amount +
        coin pair.basePooledCoin.denom b) msg.sender = some bank ∧
      mintPoolCoinsToUser sk bank (coin pair.poolTokenName liquidity) msg.sender = some bank' ∧
      s' = { s with
        pairs := s.pairs.set msg.getSwapTokenPairName (pair.change b msg.quoteAmount.amount)
        bank := bank' } := by
  unfold MsgAddLiquidity.validateBasic at hbasic
  simp only [bind_eq_ok, require_eq_ok, exists_and_left, exists_const] at hbasic
  obtain ⟨-, -, ⟨hmax, hquote⟩, -⟩ := hbasic
  unfold handleMsgAddLiquidity at h
  simp only [bind_eq_ok, require_eq_ok, orThrow_eq_ok, pure_eq_ok, exists_and_left,
    exists_const, getSwapTokenPair, DecCoin.addCoin_eq_ok, DecCoin.newDecCoinFromDec_eq_ok] at h
  obtain ⟨-, pair, hpair, token, htoken, ⟨b, liquidity⟩, hamounts, -, -, bank, hsend, _,
    ⟨hquoteDenom, rfl⟩, _, ⟨hbaseDenom, rfl⟩, _, ⟨hliquidity, rfl⟩, bank', hmint, rfl⟩ := h
  obtain ⟨hb, hadds⟩ := addedAmounts_adds hmax hquote hamounts
  rw [coinSort_pair hquote.le hb.le] at hsend
  refine ⟨pair, b, liquidity, bank, bank', hpair, hquote, hb, hliquidity, hadds, ?_, ?_, rfl⟩
  · rw [hquoteDenom, hbaseDenom]
    exact hsend
  · rw [← getPoolTokenInfo_symbol htoken]
    exact hmint

theorem handleMsgAddLiquidity_effect {msg : MsgAddLiquidity}
    (hbasic : msg.validateBasic = .ok ()) (hsender : msg.sender ≠ sk.moduleAddress swapModuleName)
    (h : s.handleMsgAddLiquidity sk blockTime msg = .ok s') :
    AddEffect msg.getSwapTokenPairName msg.quoteAmount.amount (s.ledger sk) (s'.ledger sk) ∧
      s'.params = s.params ∧ s'.notices = s.notices := by
  obtain ⟨pair, b, liquidity, bank, bank', hpair, hquote, hb, hliquidity, hadds, hsend, hmint, rfl⟩ :=
    handleMsgAddLiquidity_cases hbasic h
  obtain ⟨haccount, hsupply⟩ := sendCoinsToPool_spec hsend
  obtain ⟨haccount', hsupply'⟩ := mintPoolCoinsToUser_spec hmint
  refine ⟨?_, rfl, rfl⟩
  refine ⟨pair, b, liquidity, hpair, hquote, hb, hliquidity, hadds, rfl, fun d => ?_, ?_⟩
  · show sk.getSupplyByDenom bank' d = _
    rw [hsupply', hsupply]
    rfl
  · show sk.moduleCoins bank' swapModuleName = _
    rw [haccount' hsender, haccount hsender]
    rfl

/-- What a withdrawal that succeeds has computed and done. -/
theorem handleMsgRemoveLiquidity_cases {msg : MsgRemoveLiquidity}
    (hbasic : msg.validateBasic = .ok ())
    (h : s.handleMsgRemoveLiquidity sk blockTime msg = .ok s') :
    ∃ pair b q bank bank', s.pairs.get msg.getSwapTokenPairName = some pair ∧ 0 < msg.liquidity ∧
      msg.liquidity ≤ sk.getSupplyByDenom s.bank pair.poolTokenName ∧
      mulAndQuo pair.basePooledCoin.amount msg.liquidity
        (sk.getSupplyByDenom s.bank pair.poolTokenName) = some b ∧
      mulAndQuo pair.quotePooledCoin.amount msg.liquidity
        (sk.getSupplyByDenom s.bank pair.poolTokenName) = some q ∧
      sendCoinsFromPoolToAccount sk s.bank
        (coin pair.basePooledCoin.denom b + coin pair.quotePooledCoin.denom q) msg.sender =
          some bank ∧
      burnPoolCoinsFromUser sk bank (coin pair.poolTokenName msg.liquidity) msg.sender = some bank' ∧
      s' = { s with
        pairs := s.pairs.set msg.getSwapTokenPairName (pair.change (-b) (-q))
        bank := bank' } := by
  unfold MsgRemoveLiquidity.validateBasic at hbasic
  simp only [bind_eq_ok, require_eq_ok, exists_and_left, exists_const] at hbasic
  obtain ⟨-, hpos, -⟩ := hbasic
  unfold handleMsgRemoveLiquidity at h
  simp only [bind_eq_ok, require_eq_ok, orThrow_eq_ok, pure_eq_ok, exists_and_left,
    exists_const, getSwapTokenPair, DecCoin.subCoin_eq_ok, DecCoin.isLT_eq_ok,
    DecCoin.newDecCoinFromDec_eq_ok] at h
  obtain ⟨-, pair, hpair, hle, b, hb, q, hq, _, ⟨hb0, rfl⟩, _, ⟨hq0, rfl⟩, _, -, -, _, -, -, bank,
    hsend, _, ⟨-, -, rfl⟩, _, ⟨-, -, rfl⟩, _, ⟨-, rfl⟩, bank', hburn, rfl⟩ := h
  rw [coinSort_pair hb0 hq0] at hsend
  exact ⟨pair, b, q, bank, bank', hpair, hpos, hle, hb, hq, hsend, hburn, rfl⟩

theorem handleMsgRemoveLiquidity_effect {msg : MsgRemoveLiquidity}
    (hbasic : msg.validateBasic = .ok ()) (hsender : msg.sender ≠ sk.moduleAddress swapModuleName)
    (h : s.handleMsgRemoveLiquidity sk blockTime msg = .ok s') :
    RemoveEffect msg.getSwapTokenPairName msg.liquidity (s.ledger sk) (s'.ledger sk) ∧
      s'.params = s.params ∧ s'.notices = s.notices := by
  obtain ⟨pair, b, q, bank, bank', hpair, hpos, hle, hb, hq, hsend, hburn, rfl⟩ :=
    handleMsgRemoveLiquidity_cases hbasic h
  obtain ⟨haccount, hsupply⟩ := sendCoinsFromPoolToAccount_spec hsend
  obtain ⟨haccount', hsupply'⟩ := burnPoolCoinsFromUser_spec hburn
  refine ⟨?_, rfl, rfl⟩
  refine ⟨pair, b, q, hpair, hpos, hle, hb, hq, rfl, fun d => ?_, ?_⟩
  · show sk.getSupplyByDenom bank' d = _
    rw [hsupply', hsupply]
    rfl
  · show sk.moduleCoins bank' swapModuleName = _
    rw [haccount' hsender, haccount, if_neg hsender.symm, add_zero]
    rfl

theorem calculateTokenToBuy_spec {pair : SwapTokenPair} {sell buy : DecCoin} {denom : String}
    {params : SwapParams} (h : calculateTokenToBuy pair sell denom params = .ok buy) :
    buy.denom = denom ∧ 0 ≤ buy.amount ∧
      if denom < sell.denom then
        getInputPrice sell.amount pair.quotePooledCoin.amount pair.basePooledCoin.amount
          params.feeRate = some buy.amount
      else
        getInputPrice sell.amount pair.basePooledCoin.amount pair.quotePooledCoin.amount
          params.feeRate = some buy.amount := by
  unfold calculateTokenToBuy at h
  simp only [bind_eq_ok, orThrow_eq_ok, DecCoin.newDecCoinFromDec_eq_ok] at h
  obtain ⟨y, hy, h0, rfl⟩ := h
  refine ⟨rfl, h0, ?_⟩
  split_ifs at hy ⊢ <;> exact hy

/-- The two denominations of a leg are those of the pair, so its name is the pair's. -/
theorem swappedPair_trades {pair pair' : SwapTokenPair} {buy : DecCoin} {msg : MsgTokenToToken}
    {params : SwapParams}
    (hbuy : calculateTokenToBuy pair msg.soldTokenAmount msg.minBoughtTokenAmount.denom params =
      .ok buy) (h : swappedPair pair buy msg = .ok pair') :
    msg.getSwapTokenPairName = pair.tokenPairName ∧
      Trades params pair msg.soldTokenAmount buy pair' := by
  obtain ⟨hdenom, -, hprice⟩ := calculateTokenToBuy_spec hbuy
  unfold swappedPair at h
  unfold MsgTokenToToken.getSwapTokenPairName getSwapTokenPairName getBaseQuoteTokenName
    SwapTokenPair.tokenPairName
  obtain ⟨⟨sold, x⟩, ⟨bought, min⟩, deadline, recipient, sender⟩ := msg
  obtain ⟨buyDenom, y⟩ := buy
  by_cases hlt : bought < sold
  · rw [if_pos hlt] at h hprice ⊢
    simp only [bind_eq_ok, pure_eq_ok, DecCoin.addCoin_eq_ok, DecCoin.subCoin_eq_ok] at h
    obtain ⟨_, ⟨hquote, rfl⟩, _, ⟨hbase, -, rfl⟩, rfl⟩ := h
    simp only at hquote hbase hdenom
    subst hquote hbase hdenom
    exact ⟨rfl, .sellQuote x y hprice⟩
  · rw [if_neg hlt] at h hprice ⊢
    simp only [bind_eq_ok, pure_eq_ok, DecCoin.addCoin_eq_ok, DecCoin.subCoin_eq_ok] at h
    obtain ⟨_, ⟨hquote, -, rfl⟩, _, ⟨hbase, rfl⟩, rfl⟩ := h
    simp only at hquote hbase hdenom
    subst hquote hbase hdenom
    exact ⟨rfl, .sellBase x y hprice⟩

theorem swapTokenNativeToken_denoms (msg : MsgTokenToToken) {pair : SwapTokenPair} {buy : DecCoin}
    {params : SwapParams}
    (hbuy : calculateTokenToBuy pair msg.soldTokenAmount msg.minBoughtTokenAmount.denom params =
      .ok buy) (h : s.swapTokenNativeToken sk pair buy msg = .ok s') :
    pair.quotePooledCoin.denom = msg.soldTokenAmount.denom ∧
        pair.basePooledCoin.denom = buy.denom ∨
      pair.basePooledCoin.denom = msg.soldTokenAmount.denom ∧
        pair.quotePooledCoin.denom = buy.denom := by
  unfold swapTokenNativeToken at h
  simp only [bind_eq_ok, orThrow_eq_ok, pure_eq_ok] at h
  obtain ⟨_, -, _, -, pair', hswapped, -⟩ := h
  obtain ⟨-, htrades⟩ := swappedPair_trades hbuy hswapped
  generalize msg.soldTokenAmount = sold at htrades
  cases htrades with
  | sellQuote x y _ => exact .inl ⟨rfl, rfl⟩
  | sellBase x y _ => exact .inr ⟨rfl, rfl⟩

theorem swapTokenNativeToken_effect (msg : MsgTokenToToken) {pair : SwapTokenPair} {buy : DecCoin}
    (hsold : 0 < msg.soldTokenAmount.amount)
    (hpair : s.pairs.get msg.getSwapTokenPairName = some pair)
    (hpooled : pair.basePooledCoin.amount ≠ 0 ∧ pair.quotePooledCoin.amount ≠ 0)
    (hbuy : calculateTokenToBuy pair msg.soldTokenAmount msg.minBoughtTokenAmount.denom s.params =
      .ok buy) (hne : buy.amount ≠ 0)
    (h : s.swapTokenNativeToken sk pair buy msg = .ok s') :
    ∃ pair', s'.pairs = s.pairs.set msg.getSwapTokenPairName pair' ∧
      TradeEffect s.params (msg.sender ≠ sk.moduleAddress swapModuleName) (s.ledger sk)
        [⟨msg.recipient, pair, pair', msg.soldTokenAmount, buy⟩] (s'.ledger sk) ∧
      s'.params = s.params ∧
      s'.notices = s.notices ++ [⟨msg.recipient, pair, pair', msg.soldTokenAmount, buy⟩] := by
  unfold swapTokenNativeToken at h
  simp only [bind_eq_ok, orThrow_eq_ok, pure_eq_ok] at h
  obtain ⟨bank, hin, bank', hout, pair', hswapped, rfl⟩ := h
  obtain ⟨hname, htrades⟩ := swappedPair_trades hbuy hswapped
  obtain ⟨-, hnonneg, -⟩ := calculateTokenToBuy_spec hbuy
  obtain ⟨haccount, hsupply⟩ := sendCoinsToPool_spec hin
  obtain ⟨haccount', hsupply'⟩ := sendCoinsFromPoolToAccount_spec hout
  refine ⟨pair', rfl, ?_, rfl, rfl⟩
  rw [hname] at hpair
  refine .intro pair pair' msg.soldTokenAmount buy msg.recipient
    (if sk.moduleAddress swapModuleName = msg.recipient then buy.toCoins else 0) hpair hpooled hsold
    (lt_of_le_of_ne hnonneg (Ne.symm hne)) htrades (fun d => ?_) ?_ ?_ fun hsender => ?_
  · split_ifs
    · exact coin_nonneg hnonneg _ d
    · exact le_rfl
  · rw [← hname]
    rfl
  · show sk.getSupplyByDenom bank' = _
    rw [hsupply', hsupply]
    rfl
  · show sk.moduleCoins bank' swapModuleName = _
    rw [haccount', haccount hsender]
    rfl

theorem swapToken_effects {msg : MsgTokenToToken} (hsold : 0 < msg.soldTokenAmount.amount)
    (h : s.swapToken sk blockTime msg = .ok s') :
    ∃ evs, Trace (TradeEffect s.params (msg.sender ≠ sk.moduleAddress swapModuleName))
        (s.ledger sk) evs (s'.ledger sk) ∧
      s'.params = s.params ∧ s'.notices = s.notices ++ evs := by
  unfold swapToken at h
  simp only [bind_eq_ok, require_eq_ok, orThrow_eq_ok, exists_and_left, exists_const,
    getSwapTokenPair, requirePooled] at h
  obtain ⟨_, -, -, pair, hpair, hpooled, buy, hbuy, hne, -, h⟩ := h
  obtain ⟨pair', -, heffect, hparams, hnotices⟩ :=
    swapTokenNativeToken_effect msg hsold hpair hpooled hbuy hne h
  exact ⟨_, .single heffect, hparams, hnotices⟩

/-- The two legs of a routed swap are different pairs: they share the native token only. -/
theorem swapTokenByRouter_effects {msg : MsgTokenToToken} (hsold : 0 < msg.soldTokenAmount.amount)
    (hdenoms : msg.soldTokenAmount.denom ≠ msg.minBoughtTokenAmount.denom)
    (h : s.swapTokenByRouter sk blockTime msg = .ok s') :
    ∃ evs, Trace (TradeEffect s.params (msg.sender ≠ sk.moduleAddress swapModuleName))
        (s.ledger sk) evs (s'.ledger sk) ∧
      s'.params = s.params ∧ s'.notices = s.notices ++ evs := by
  unfold swapTokenByRouter at h
  simp only [bind_eq_ok, require_eq_ok, orThrow_eq_ok, exists_and_left, exists_const,
    requirePooled] at h
  obtain ⟨-, _, -, one, hone, hpooled₁, two, htwo, hpooled₂, native, hnative, hnative0, buy, hbuy, hbuy0,
    -, s₁, hleg₁, hleg₂⟩ := h
  obtain ⟨hnativeDenom, hnativeNonneg, -⟩ := calculateTokenToBuy_spec hnative
  let msgOne : MsgTokenToToken := { msg with minBoughtTokenAmount := ⟨bondDenom, 0⟩ }
  let msgTwo : MsgTokenToToken := { msg with soldTokenAmount := native }
  have hnameTwo : msgTwo.getSwapTokenPairName =
      getSwapTokenPairName msg.minBoughtTokenAmount.denom bondDenom :=
    congrArg (getSwapTokenPairName _) hnativeDenom
  have hdistinct : getSwapTokenPairName msg.minBoughtTokenAmount.denom bondDenom ≠
      getSwapTokenPairName bondDenom msg.soldTokenAmount.denom := by
    intro heq
    rw [getSwapTokenPairName_comm] at hone
    rw [heq, hone] at htwo
    cases htwo
    have hbuyDenom := (calculateTokenToBuy_spec hbuy).1
    have h₁ := swapTokenNativeToken_denoms msgOne hnative hleg₁
    have h₂ := swapTokenNativeToken_denoms msgTwo hbuy hleg₂
    simp only [msgOne, msgTwo, hnativeDenom, hbuyDenom] at h₁ h₂
    refine hdenoms ?_
    rcases h₁ with ⟨h, h'⟩ | ⟨h, h'⟩ <;> rcases h₂ with ⟨k, k'⟩ | ⟨k, k'⟩
    · exact h.symm.trans (k.trans (h'.symm.trans k'))
    · exact h.symm.trans k'
    · exact h.symm.trans k'
    · exact h.symm.trans (k.trans (h'.symm.trans k'))
  rw [getSwapTokenPairName_comm] at hone
  obtain ⟨one', hpairs, heffect₁, hparams₁, hnotices₁⟩ :=
    swapTokenNativeToken_effect msgOne hsold hone hpooled₁ hnative hnative0 hleg₁
  have htwo₁ : s₁.pairs.get msgTwo.getSwapTokenPairName = some two := by
    rw [hnameTwo, hpairs]
    exact (KVStore.get_set_ne hdistinct).trans htwo
  rw [← hparams₁] at hbuy
  obtain ⟨two', -, heffect₂, hparams₂, hnotices₂⟩ := swapTokenNativeToken_effect msgTwo
    (lt_of_le_of_ne hnativeNonneg (Ne.symm hnative0)) htwo₁ hpooled₂ hbuy hbuy0 hleg₂
  rw [hparams₁] at heffect₂
  refine ⟨_, .head heffect₁ (.single heffect₂), hparams₂.trans hparams₁, ?_⟩
  rw [hnotices₂, hnotices₁, List.append_assoc]

/-- A swap is a trace of trades. -/
theorem handleMsgTokenToToken_effects {msg : MsgTokenToToken} (hbasic : msg.validateBasic = .ok ())
    (h : s.handleMsgTokenToToken sk blockTime msg = .ok s') :
    ∃ evs, Trace (TradeEffect s.params (msg.sender ≠ sk.moduleAddress swapModuleName))
        (s.ledger sk) evs (s'.ledger sk) ∧
      s'.params = s.params ∧ s'.notices = s.notices ++ evs := by
  obtain ⟨hsold, hdenoms⟩ := MsgTokenToToken.validateBasic_spec hbasic
  unfold handleMsgTokenToToken at h
  split at h
  · exact swapTokenByRouter_effects hsold hdenoms h
  · exact swapToken_effects hsold h

/-- **A message is a trace of effects.** -/
theorem handle_effects {msg : SwapMsg} (hbasic : msg.validateBasic = .ok ())
    (hsender : msg.signer ≠ sk.moduleAddress swapModuleName)
    (h : s.handle sk blockTime msg = .ok s') :
    ∃ evs, Trace (SwapEffect s.params) (s.ledger sk) evs (s'.ledger sk) ∧
      s'.params = s.params ∧ s'.notices = s.notices ++ evs := by
  cases msg with
  | createExchange msg =>
    obtain ⟨heffect, hparams, hnotices⟩ := handleMsgCreateExchange_effect h
    exact ⟨[], .single (.create _ _ heffect), hparams, hnotices.trans (List.append_nil _).symm⟩
  | addLiquidity msg =>
    obtain ⟨heffect, hparams, hnotices⟩ := handleMsgAddLiquidity_effect hbasic hsender h
    exact ⟨[], .single (.add _ _ heffect), hparams, hnotices.trans (List.append_nil _).symm⟩
  | removeLiquidity msg =>
    obtain ⟨heffect, hparams, hnotices⟩ := handleMsgRemoveLiquidity_effect hbasic hsender h
    exact ⟨[], .single (.remove _ _ heffect), hparams, hnotices.trans (List.append_nil _).symm⟩
  | tokenToToken msg =>
    obtain ⟨evs, htrace, hparams, hnotices⟩ := handleMsgTokenToToken_effects hbasic h
    exact ⟨evs, htrace.mono fun he => he.effect hsender, hparams, hnotices⟩

end SwapState

end Okexchain
