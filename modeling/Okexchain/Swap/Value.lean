import Okexchain.Swap.Solvency

/-!
# The value of a pool

What providers own is a part of the reserves. Two things could take from it: traders, by buying at a
better price than the constant product, and other providers, by paying in less than the pool tokens
they get stand for.

* Traders cannot: every truncation of a swap's price rounds in favour of the pool, so the product of
  the reserves never falls (`swaps_keep_value`). Each pair can be watched on its own, since a swap
  touches a pair only through its trades.
* Withdrawals cannot either. Deposits can: `handleMsgAddLiquidity` truncates the base tokens a
  deposit must pay, and truncates the pool tokens it is given, each on its own. When the base tokens
  lose more than the pool tokens, the other providers pay for it. `DepositKeeps` is the exact
  condition on the deposit (`liquidity_keeps_value_iff`), and `deposit_dilutes` a deposit that fails
  it, into a pool with few units of the base token.
-/

namespace Okexchain

variable {B : Type} {sk : MintKeeper B} {s s' : SwapState B}

/-! ## Swaps -/

/-- A sequence of swap messages, each with its block time. -/
def SwapState.swaps (sk : MintKeeper B) (s : SwapState B) (msgs : List (Int × MsgTokenToToken)) :
    SwapState B :=
  msgs.foldl (fun s m => s.deliver sk m.1 (.tokenToToken m.2)) s

/-- What is bought comes out of one reserve and is less than it; what is sold goes into the
other. -/
def SwapNotice.TakesLess (n : SwapNotice) : Prop :=
  n.buyAmount.denom = n.before.basePooledCoin.denom ∧
      n.buyAmount.amount < n.before.basePooledCoin.amount ∧
      n.swapTokenPair = n.before.change (-n.buyAmount.amount) n.sellAmount.amount ∨
    n.buyAmount.denom = n.before.quotePooledCoin.denom ∧
      n.buyAmount.amount < n.before.quotePooledCoin.amount ∧
      n.swapTokenPair = n.before.change n.sellAmount.amount (-n.buyAmount.amount)

/-- A pair with positive reserves. -/
def Pooled (name : String) (l : SwapLedger) (pair : SwapTokenPair) : Prop :=
  l.pairs.get name = some pair ∧ 0 < pair.basePooledCoin.amount ∧ 0 < pair.quotePooledCoin.amount

/-- The pair has not lost value, and every trade with it took less than the reserve. -/
def ValueKept (name : String) (l : SwapLedger) (evs : List SwapNotice) (l' : SwapLedger) : Prop :=
  ∀ pair, Pooled name l pair → ∃ pair', Pooled name l' pair' ∧
    pair.basePooledCoin.amount * pair.quotePooledCoin.amount ≤
      pair'.basePooledCoin.amount * pair'.quotePooledCoin.amount ∧
    ∀ n ∈ evs, n.before.tokenPairName = name → n.TakesLess

namespace ValueKept

variable {name : String} {l l' l'' : SwapLedger} {evs evs' : List SwapNotice}

theorem refl (l : SwapLedger) : ValueKept name l [] l :=
  fun pair h => ⟨pair, h, le_rfl, fun _ hn => absurd hn List.not_mem_nil⟩

theorem trans (h : ValueKept name l evs l') (h' : ValueKept name l' evs' l'') :
    ValueKept name l (evs ++ evs') l'' := by
  intro pair hpair
  obtain ⟨pair', hpair', hle, hevs⟩ := h pair hpair
  obtain ⟨pair'', hpair'', hle', hevs'⟩ := h' pair' hpair'
  refine ⟨pair'', hpair'', hle.trans hle', fun n hn hname => ?_⟩
  rcases List.mem_append.mp hn with hn | hn
  · exact hevs n hn hname
  · exact hevs' n hn hname

end ValueKept

theorem Trades.takesLess {params : SwapParams} {pair pair' : SwapTokenPair} {sell buy : DecCoin}
    (h : Trades params pair sell buy pair') (hbase : 0 < pair.basePooledCoin.amount)
    (hquote : 0 < pair.quotePooledCoin.amount) (hsell : 0 < sell.amount) (recipient : Address) :
    (⟨recipient, pair, pair', sell, buy⟩ : SwapNotice).TakesLess := by
  obtain ⟨hbase', hquote', -⟩ := h.spec hbase hquote hsell
  cases h with
  | sellQuote x y _ => exact .inl ⟨rfl, sub_pos.mp hbase', rfl⟩
  | sellBase x y _ => exact .inr ⟨rfl, sub_pos.mp hquote', rfl⟩

/-- One trade, seen by any pair. -/
theorem TradeEffect.valueKept {params : SwapParams} {paid : Prop} {l l' : SwapLedger}
    {evs : List SwapNotice} (name : String) (h : TradeEffect params paid l evs l') :
    ValueKept name l evs l' := by
  obtain ⟨pair, pair', sell, buy, recipient, kept, hpair, -, hsell, -, htrades, -, hpairs, -, -⟩ := h
  rintro old ⟨hold, hbase, hquote⟩
  by_cases hname : pair.tokenPairName = name
  · subst hname
    rw [hpair] at hold
    cases hold
    obtain ⟨hbase', hquote', hle⟩ := htrades.spec hbase hquote hsell
    refine ⟨pair', ⟨?_, hbase', hquote'⟩, hle, fun n hn _ => ?_⟩
    · rw [hpairs, KVStore.get_set_self]
    · rw [List.mem_singleton.mp hn]
      exact htrades.takesLess hbase hquote hsell recipient
  · refine ⟨old, ⟨?_, hbase, hquote⟩, le_rfl, fun n hn hn' => ?_⟩
    · rw [hpairs, KVStore.get_set_ne (Ne.symm hname)]
      exact hold
    · rw [List.mem_singleton.mp hn] at hn'
      exact absurd hn' hname

/-- One message, seen by any pair. -/
theorem SwapState.deliver_valueKept (sk : MintKeeper B) (s : SwapState B) (name : String)
    (blockTime : Int) (msg : MsgTokenToToken) :
    ∃ evs, (s.deliver sk blockTime (.tokenToToken msg)).notices = s.notices ++ evs ∧
      ValueKept name (s.ledger sk) evs
        ((s.deliver sk blockTime (.tokenToToken msg)).ledger sk) := by
  unfold SwapState.deliver
  split
  · next s' hok =>
    obtain ⟨u, hbasic, hhandle⟩ := bind_eq_ok.mp hok
    obtain ⟨evs, htrace, -, hnotices⟩ := handleMsgTokenToToken_effects hbasic hhandle
    refine ⟨evs, hnotices, ?_⟩
    exact (htrace.relates (P := fun _ => True) (fun he _ => ⟨trivial, he.valueKept name⟩)
      ValueKept.refl ValueKept.trans trivial).2
  · exact ⟨[], (List.append_nil _).symm, .refl _⟩

/-- Any sequence of swaps, seen by any pair. -/
theorem SwapState.swaps_valueKept (sk : MintKeeper B) (s : SwapState B) (name : String)
    (msgs : List (Int × MsgTokenToToken)) :
    ∃ evs, (s.swaps sk msgs).notices = s.notices ++ evs ∧
      ValueKept name (s.ledger sk) evs ((s.swaps sk msgs).ledger sk) := by
  induction msgs generalizing s with
  | nil => exact ⟨[], (List.append_nil _).symm, .refl _⟩
  | cons m msgs ih =>
    obtain ⟨evs, hnotices, hkept⟩ := s.deliver_valueKept sk name m.1 m.2
    obtain ⟨evs', hnotices', hkept'⟩ := ih (s.deliver sk m.1 (.tokenToToken m.2))
    refine ⟨evs ++ evs', ?_, hkept.trans hkept'⟩
    rw [← List.append_assoc, ← hnotices]
    exact hnotices'

/-- **Swaps never lose pool value.** Any sequence of swap messages, direct or routed, in either
direction, at any fee rate, leaves a pair with positive reserves: the product of the reserves has
not fallen, so whoever got more of one coin out paid some of the other in; and everything bought
from the pair was less than the reserve it was taken from. -/
theorem swaps_keep_value (sk : MintKeeper B) (s : SwapState B)
    (msgs : List (Int × MsgTokenToToken)) (name : String) (pair : SwapTokenPair)
    (hpair : s.pairs.get name = some pair) (hbase : 0 < pair.basePooledCoin.amount)
    (hquote : 0 < pair.quotePooledCoin.amount) :
    ∃ pair', (s.swaps sk msgs).pairs.get name = some pair' ∧
      0 < pair'.basePooledCoin.amount ∧ 0 < pair'.quotePooledCoin.amount ∧
      pair.basePooledCoin.amount * pair.quotePooledCoin.amount ≤
        pair'.basePooledCoin.amount * pair'.quotePooledCoin.amount ∧
      (pair'.basePooledCoin.amount < pair.basePooledCoin.amount →
        pair.quotePooledCoin.amount < pair'.quotePooledCoin.amount) ∧
      (pair'.quotePooledCoin.amount < pair.quotePooledCoin.amount →
        pair.basePooledCoin.amount < pair'.basePooledCoin.amount) ∧
      ∃ evs, (s.swaps sk msgs).notices = s.notices ++ evs ∧
        ∀ n ∈ evs, n.before.tokenPairName = name → n.TakesLess := by
  obtain ⟨evs, hnotices, hkept⟩ := s.swaps_valueKept sk name msgs
  obtain ⟨pair', ⟨hpair', hbase', hquote'⟩, hle, hevs⟩ := hkept pair ⟨hpair, hbase, hquote⟩
  refine ⟨pair', hpair', hbase', hquote', hle, Pool.gain_of_loss hbase hquote' hle, ?_, evs,
    hnotices, hevs⟩
  rw [mul_comm, mul_comm pair'.basePooledCoin.amount] at hle
  exact Pool.gain_of_loss hquote hbase' hle

/-- The pair of the small pool. -/
def smallPair : SwapTokenPair :=
  ⟨⟨"okt", 900000000000000000⟩, ⟨"abc", 3⟩, "ammswap_abc_okt"⟩

/-- Selling 0.9 `okt` to the small pool, which buys one unit of `abc`. -/
def smallSwap : Int × MsgTokenToToken :=
  (0, ⟨⟨"okt", 900000000000000000⟩, ⟨"abc", 0⟩, 10, "alice", "alice"⟩)

/-- `swaps_keep_value` for one swap with the small pool. -/
theorem swaps_keep_value_smallSwap :
    (smallPool.swaps simpleMint [smallSwap]).pairs.get "abc_okt" =
        some (smallPair.change (-1) 900000000000000000) ∧
      ∃ pair', (smallPool.swaps simpleMint [smallSwap]).pairs.get "abc_okt" = some pair' ∧
        3 * 900000000000000000 ≤ pair'.basePooledCoin.amount * pair'.quotePooledCoin.amount := by
  refine ⟨by decide +kernel, ?_⟩
  have hpair : smallPool.pairs.get "abc_okt" = some smallPair := by decide +kernel
  obtain ⟨pair', hpair', -, -, hle, -⟩ := swaps_keep_value simpleMint smallPool [smallSwap]
    "abc_okt" smallPair hpair (by decide) (by decide)
  exact ⟨pair', hpair', hle⟩

/-! ## Liquidity -/

namespace Pool

/-- The deposits of `x` quote tokens that do not dilute the other providers. Below one unit of base
tokens the deposit is rounded up, and never dilutes. Otherwise the base tokens and the new pool
tokens are both rounded down, and the remainders must balance. -/
def DepositKeeps (p : Pool Int) (x : Int) : Prop :=
  x * p.base < p.quote ∨
    x * p.base % p.quote * (p.quote + x) * p.shares ^ 2 ≤
      p.base * (x * p.shares % p.quote) * (2 * p.shares * (p.quote + x) - x * p.shares % p.quote)

variable {p : Pool Int}

/-- A deposit into a pool that is not empty. -/
theorem adds_keepsValue_iff {x b liquidity : Int} (hfull : p.IsFull) (hx : 0 < x)
    (hadds : Adds p x b liquidity) :
    KeepsValue p ⟨p.base + b, p.quote + x, p.shares + liquidity⟩ ↔ p.DepositKeeps x := by
  obtain ⟨B, Q, S⟩ := p
  obtain ⟨hB, hQ, hS⟩ := hfull
  simp only at hB hQ hS
  rcases hadds with ⟨hbase, -⟩ | ⟨-, -, -, -, hl, b₀, hb₀, hb⟩
  · exact absurd hbase hB.ne'
  simp only at hl hb₀
  rw [mulAndQuo_eq hx.le hS.le hQ] at hl
  rw [mulAndQuo_eq hx.le hB.le hQ] at hb₀
  cases hl
  cases hb₀
  have hshares : x * S / Q * Q + x * S % Q = x * S := Int.ediv_mul_add_emod _ _
  by_cases hlt : x * B < Q
  · -- The base tokens are rounded up to the smallest unit.
    have hzero : x * B / Q = 0 := Int.ediv_eq_zero_of_lt (mul_nonneg hx.le hB.le) hlt
    rw [if_pos hzero] at hb
    subst hb
    refine iff_of_true ?_ (.inl hlt)
    refine keepsValue_deposit hB.le hQ hS.le hx.le
      (Int.ediv_nonneg (mul_nonneg hx.le hS.le) hQ.le) ?_ (Int.ediv_mul_le _ hQ.ne')
    rw [one_mul]
    exact hlt.le
  · have hone : 1 ≤ x * B / Q := Int.le_ediv_of_mul_le hQ (by rw [one_mul]; exact not_lt.mp hlt)
    rw [if_neg (by omega)] at hb
    subst hb
    have hbase : x * B / Q * Q + x * B % Q = x * B := Int.ediv_mul_add_emod _ _
    rw [keepsValue_deposit_iff hQ hbase hshares]
    exact ⟨.inr, fun h => h.resolve_left hlt⟩

theorem removes_keepsValue {liquidity b q : Int} (hfull : p.IsFull) (hliquidity : 0 < liquidity)
    (hle : liquidity ≤ p.shares) (hb : mulAndQuo p.base liquidity p.shares = some b)
    (hq : mulAndQuo p.quote liquidity p.shares = some q) :
    KeepsValue p ⟨p.base - b, p.quote - q, p.shares - liquidity⟩ :=
  keepsValue_withdraw hfull.1.le hfull.2.1.le hle
    (part_spec hfull.1 hliquidity hle hb).2.1 (part_spec hfull.2.1 hliquidity hle hq).2.1

end Pool

/-- The pool of a pair. -/
def SwapLedger.poolOf (l : SwapLedger) (name : String) : Option (Pool Int) :=
  (l.pairs.get name).map fun pair => pair.pool (l.supply pair.poolTokenName)

/-- The messages that do not dilute the providers of a pair: all but some deposits into it. -/
def SwapMsg.KeepsShares (msg : SwapMsg) (name : String) (p : Pool Int) : Prop :=
  match msg with
  | .addLiquidity msg => msg.getSwapTokenPairName = name → p.DepositKeeps msg.quoteAmount.amount
  | _ => True

namespace SwapLedger

variable {l l' : SwapLedger} {name name' : String} {pair pair' : SwapTokenPair} {p : Pool Int}

theorem poolOf_set (hpairs : l'.pairs = l.pairs.set name pair') :
    l'.poolOf name = some (pair'.pool (l'.supply pair'.poolTokenName)) := by
  unfold poolOf
  rw [hpairs, KVStore.get_set_self]
  rfl

theorem poolOf_set_ne (h : SwapInv l) (hne : name ≠ name')
    (hpairs : l'.pairs = l.pairs.set name' pair')
    (hsupply : ∀ d, d ≠ poolTokenPrefix ++ name' → l'.supply d = l.supply d) :
    l'.poolOf name = l.poolOf name := by
  unfold poolOf
  rw [hpairs, KVStore.get_set_ne hne]
  cases hpair : l.pairs.get name with
  | none => rfl
  | some pair =>
    rw [Option.map_some, Option.map_some, hsupply]
    rw [h.named hpair]
    exact fun he => hne (SwapInv.poolTokenPrefix_inj he)

end SwapLedger

theorem AddEffect.keepsValue_iff {l l' : SwapLedger} {name name' : String} {x : Int} {p : Pool Int}
    (h : SwapInv l) (he : AddEffect name' x l l') (hp : l.poolOf name = some p)
    (hshares : 0 < p.shares) :
    ∃ p', l'.poolOf name = some p' ∧ (p.KeepsValue p' ↔ (name' = name → p.DepositKeeps x)) := by
  obtain ⟨pair, b, liquidity, hpair, hx, hb, hliquidity, hadds, hpairs, hsupply, -⟩ := he
  by_cases hname : name' = name
  · subst hname
    rw [SwapLedger.poolOf, hpair] at hp
    cases hp
    have hfull := (h.even hpair).full_of_shares hshares
    refine ⟨_, SwapLedger.poolOf_set hpairs, ?_⟩
    rw [hsupply, SwapTokenPair.poolTokenName_change, coin_self]
    have hiff := Pool.adds_keepsValue_iff hfull hx hadds
    exact hiff.trans ⟨fun hk _ => hk, fun hk => hk rfl⟩
  · refine ⟨p, ?_, iff_of_true (.refl p) fun he => absurd he hname⟩
    rw [SwapLedger.poolOf_set_ne h (Ne.symm hname) hpairs fun d hd => ?_, hp]
    rw [← h.named hpair] at hd
    rw [hsupply, coin_of_ne hd, add_zero]

theorem RemoveEffect.keepsValue {l l' : SwapLedger} {name name' : String} {liquidity : Int}
    {p : Pool Int} (h : SwapInv l) (he : RemoveEffect name' liquidity l l')
    (hp : l.poolOf name = some p) : ∃ p', l'.poolOf name = some p' ∧ p.KeepsValue p' := by
  obtain ⟨pair, b, q, hpair, hliquidity, hle, hb, hq, hpairs, hsupply, -⟩ := he
  by_cases hname : name' = name
  · subst hname
    rw [SwapLedger.poolOf, hpair] at hp
    cases hp
    have hfull := (h.even hpair).full_of_shares (hliquidity.trans_le hle)
    refine ⟨_, SwapLedger.poolOf_set hpairs, ?_⟩
    rw [hsupply, SwapTokenPair.poolTokenName_change, coin_self]
    exact Pool.removes_keepsValue hfull hliquidity hle hb hq
  · refine ⟨p, ?_, .refl p⟩
    rw [SwapLedger.poolOf_set_ne h (Ne.symm hname) hpairs fun d hd => ?_, hp]
    rw [← h.named hpair] at hd
    rw [hsupply, coin_of_ne hd, sub_zero]

theorem TradeEffect.supply_eq {params : SwapParams} {paid : Prop} {l l' : SwapLedger}
    {evs : List SwapNotice} (h : TradeEffect params paid l evs l') : l'.supply = l.supply := by
  obtain ⟨_, _, _, _, _, _, -, -, -, -, -, -, -, hsupply, -⟩ := h
  exact hsupply

theorem trace_keepsValue {params : SwapParams} {paid : Prop} {l l' : SwapLedger}
    {evs : List SwapNotice} {name : String} {p : Pool Int} (h : SwapInv l) (hpaid : paid)
    (htrace : Trace (TradeEffect params paid) l evs l') (hp : l.poolOf name = some p)
    (hshares : 0 < p.shares) : ∃ p', l'.poolOf name = some p' ∧ p.KeepsValue p' := by
  have h' : SwapInv l' := htrace.keeps (fun he => (he.effect hpaid).inv) h
  have hkept : ValueKept name l evs l' ∧ l'.supply = l.supply := by
    refine (htrace.relates (P := fun _ => True)
      (R := fun l evs l' => ValueKept name l evs l' ∧ l'.supply = l.supply)
      (fun he _ => ⟨trivial, he.valueKept name, he.supply_eq⟩) (fun l => ⟨.refl l, rfl⟩)
      (fun hr hr' => ⟨hr.1.trans hr'.1, hr'.2.trans hr.2⟩) trivial).2
  obtain ⟨pair, hpair, rfl⟩ := Option.map_eq_some_iff.mp hp
  have hfull := (h.even hpair).full_of_shares hshares
  obtain ⟨pair', ⟨hpair', -, -⟩, hle, -⟩ := hkept.1 pair ⟨hpair, hfull.1, hfull.2.1⟩
  have hname : pair'.poolTokenName = pair.poolTokenName :=
    (h'.named hpair').trans (h.named hpair).symm
  refine ⟨pair'.pool (l'.supply pair'.poolTokenName), ?_, ?_⟩
  · rw [SwapLedger.poolOf, hpair']
    rfl
  · rw [hkept.2, hname]
    exact Pool.keepsValue_trade _ hle

/-- **Who dilutes the providers of a pool.** In every reachable state and for every message that
succeeds, the value per pool token of a pair that is not empty does not fall exactly when the
message is not one of the deposits whose truncated base tokens are worth more than the truncated
pool tokens. Withdrawals, swaps and whatever happens to other pairs never dilute. -/
theorem liquidity_keeps_value_iff {blockTime : Int} {msg : SwapMsg} {name : String} {p : Pool Int}
    (h : SwapReach sk s) (hbasic : msg.validateBasic = .ok ())
    (hsigner : msg.signer ≠ sk.moduleAddress swapModuleName)
    (hok : s.handle sk blockTime msg = .ok s') (hp : (s.ledger sk).poolOf name = some p)
    (hshares : 0 < p.shares) :
    ∃ p', (s'.ledger sk).poolOf name = some p' ∧ (p.KeepsValue p' ↔ msg.KeepsShares name p) := by
  cases msg with
  | createExchange msg =>
    obtain ⟨⟨hnew, hpairs, hsupply, -⟩, -⟩ := SwapState.handleMsgCreateExchange_effect hok
    obtain ⟨pair, hpair, -⟩ := Option.map_eq_some_iff.mp hp
    have hne : name ≠ getSwapTokenPairName msg.token0Name msg.token1Name := by
      rintro rfl
      rw [hnew] at hpair
      cases hpair
    refine ⟨p, ?_, iff_of_true (.refl p) trivial⟩
    rw [SwapLedger.poolOf_set_ne h.inv hne hpairs fun d _ => congrFun hsupply d, hp]
  | addLiquidity msg =>
    obtain ⟨heffect, -⟩ := SwapState.handleMsgAddLiquidity_effect hbasic hsigner hok
    exact heffect.keepsValue_iff h.inv hp hshares
  | removeLiquidity msg =>
    obtain ⟨heffect, -⟩ := SwapState.handleMsgRemoveLiquidity_effect hbasic hsigner hok
    obtain ⟨p', hp', hkeeps⟩ := heffect.keepsValue h.inv hp
    exact ⟨p', hp', iff_of_true hkeeps trivial⟩
  | tokenToToken msg =>
    obtain ⟨evs, htrace, -⟩ := SwapState.handleMsgTokenToToken_effects hbasic hok
    obtain ⟨p', hp', hkeeps⟩ := trace_keepsValue h.inv hsigner htrace hp hshares
    exact ⟨p', hp', iff_of_true hkeeps trivial⟩

/-- A deposit of 0.5 `okt` and one unit of `abc` into the small pool. -/
def smallDeposit : SwapMsg :=
  .addLiquidity ⟨0, ⟨"abc", 1⟩, ⟨"okt", 500000000000000000⟩, 10, "alice"⟩

/-- The pool of the small pair before and after the deposit. -/
theorem smallDeposit_pools : ∃ s', smallPool.handle simpleMint 0 smallDeposit = .ok s' ∧
    (smallPool.ledger simpleMint).poolOf "abc_okt" =
      some ⟨3, 900000000000000000, 1000000000000000000⟩ ∧
    (s'.ledger simpleMint).poolOf "abc_okt" =
      some ⟨4, 1400000000000000000, 1555555555555555555⟩ := by
  have hrun : (smallPool.handle simpleMint 0 smallDeposit).toOption.bind
      (fun s' => (s'.ledger simpleMint).poolOf "abc_okt") =
        some ⟨4, 1400000000000000000, 1555555555555555555⟩ := by decide +kernel
  obtain ⟨s', hs', hpool⟩ := Option.bind_eq_some_iff.mp hrun
  exact ⟨s', toOption_eq_some.mp hs', by decide +kernel, hpool⟩

/-- `liquidity_keeps_value_iff` for the deposit that dilutes. -/
theorem liquidity_keeps_value_iff_smallDeposit :
    ∃ s' p p', smallPool.handle simpleMint 0 smallDeposit = .ok s' ∧
      (s'.ledger simpleMint).poolOf "abc_okt" = some p' ∧
      (p.KeepsValue p' ↔ smallDeposit.KeepsShares "abc_okt" p) := by
  obtain ⟨s', hok, hp, -⟩ := smallDeposit_pools
  obtain ⟨p', hp', hiff⟩ := liquidity_keeps_value_iff smallPool_reach rfl (by decide) hok hp
    (by decide)
  exact ⟨s', _, p', hok, hp', hiff⟩

/-- **A deposit that dilutes.** The new provider pays a quarter of the base tokens and gets more
than a third of the pool tokens. -/
theorem deposit_dilutes : SwapReach simpleMint smallPool ∧
    ∃ s' p p', smallPool.handle simpleMint 0 smallDeposit = .ok s' ∧
      (smallPool.ledger simpleMint).poolOf "abc_okt" = some p ∧ 0 < p.shares ∧
      (s'.ledger simpleMint).poolOf "abc_okt" = some p' ∧ ¬ p.KeepsValue p' := by
  obtain ⟨s', hok, hp, hp'⟩ := smallDeposit_pools
  refine ⟨smallPool_reach, s', _, _, hok, hp, by decide, hp', ?_⟩
  unfold Pool.KeepsValue
  decide

end Okexchain
