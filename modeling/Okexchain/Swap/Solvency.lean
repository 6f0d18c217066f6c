import Okexchain.Swap.Spec

/-!
# Swap pools are solvent

All pairs share one module account, and a pair's reserves are only numbers in its record. Over any
run of the module:

* for every denomination the account holds at least what the pairs say is pooled of it;
* a pair is either empty (no reserves, no pool tokens) or has all three.

A run (`SwapReach`) starts without pairs and without pool tokens. Its steps are the messages, from
any signer but the module's own account, which has no key, and to any recipient; and `outside`, what
other modules do to the shared stores: they do not take from the account and do not mint or burn
pool tokens.

`SwapInv` is the invariant. Every effect changes one pair, so one lemma carries it
(`SwapInv.set`); what is left for each effect is arithmetic.

**Results.** `SwapEffect.inv` and `SwapReach.inv`: the invariant holds in every run.
`pools_solvent`: solvency, evenness, and the errors that cannot occur.
-/

namespace Okexchain

variable {B : Type}

/-! ## Runs -/

/-- The states of the runs of the swap module. -/
inductive SwapReach (sk : MintKeeper B) : SwapState B → Prop where
  | genesis (s : SwapState B) (hpairs : s.pairs = ∅)
      (hsupply : ∀ name, sk.getSupplyByDenom s.bank (poolTokenPrefix ++ name) = 0)
      (haccount : ∀ d, 0 ≤ sk.moduleCoins s.bank swapModuleName d) : SwapReach sk s
  | deliver {s : SwapState B} (hs : SwapReach sk s) (blockTime : Int) (msg : SwapMsg)
      (hsigner : msg.signer ≠ sk.moduleAddress swapModuleName) :
      SwapReach sk (s.deliver sk blockTime msg)
  | outside {s : SwapState B} (hs : SwapReach sk s) (params : SwapParams)
      (tokens : KeyedStore Token.symbol) (bank : B)
      (hsupply : ∀ name, sk.getSupplyByDenom bank (poolTokenPrefix ++ name) =
        sk.getSupplyByDenom s.bank (poolTokenPrefix ++ name))
      (haccount : ∀ d, sk.moduleCoins s.bank swapModuleName d ≤
        sk.moduleCoins bank swapModuleName d) :
      SwapReach sk { s with params := params, tokens := tokens, bank := bank }

/-! ## The invariant -/

namespace Pool

/-- Nothing is pooled and no share is left. -/
def IsEmpty (p : Pool Int) : Prop := p.base = 0 ∧ p.quote = 0 ∧ p.shares = 0

/-- Both reserves and the shares are positive. -/
def IsFull (p : Pool Int) : Prop := 0 < p.base ∧ 0 < p.quote ∧ 0 < p.shares

/-- Never half empty. -/
def Even (p : Pool Int) : Prop := p.IsEmpty ∨ p.IsFull

variable {p : Pool Int}

theorem Even.full (h : p.Even) (hbase : p.base ≠ 0) : p.IsFull :=
  h.resolve_left fun he => hbase he.1

theorem Even.full_of_shares (h : p.Even) (hshares : 0 < p.shares) : p.IsFull :=
  h.resolve_left fun he => hshares.ne' he.2.2

theorem Even.adds {x b liquidity : Int} (h : p.Even) (hx : 0 < x) (hb : 0 < b)
    (hliquidity : 0 ≤ liquidity) (hadds : Adds p x b liquidity) :
    IsFull ⟨p.base + b, p.quote + x, p.shares + liquidity⟩ := by
  rcases hadds with ⟨hbase, hquote, rfl⟩ | ⟨hbase, hquote, -, hne, -⟩
  · have hempty : p.IsEmpty := h.resolve_right fun hf => hf.1.ne' hbase
    rw [hbase, hquote, hempty.2.2, zero_add, zero_add, zero_add]
    exact ⟨hb, hx, Dec.one_pos⟩
  · have hfull := h.full hbase.ne'
    exact ⟨add_pos hbase hb, add_pos hquote hx,
      add_pos_of_pos_of_nonneg hfull.2.2 hliquidity⟩

/-- The part of a reserve that some of the shares stand for: all of it for all shares, and less than
all of it for less. -/
theorem part_spec {reserve liquidity shares part : Int} (hreserve : 0 < reserve)
    (hliquidity : 0 < liquidity) (hle : liquidity ≤ shares)
    (h : mulAndQuo reserve liquidity shares = some part) :
    0 ≤ part ∧ part * shares ≤ reserve * liquidity ∧ (liquidity = shares → part = reserve) ∧
      (liquidity < shares → part < reserve) := by
  have hshares : 0 < shares := hliquidity.trans_le hle
  rw [mulAndQuo_eq hreserve.le hliquidity.le hshares] at h
  cases h
  have hdiv : reserve * liquidity / shares * shares ≤ reserve * liquidity :=
    Int.ediv_mul_le _ hshares.ne'
  refine ⟨Int.ediv_nonneg (mul_nonneg hreserve.le hliquidity.le) hshares.le, hdiv, ?_, ?_⟩
  · rintro rfl
    exact Int.mul_ediv_cancel _ hshares.ne'
  · intro hlt
    exact Int.ediv_lt_of_lt_mul hshares (mul_lt_mul_of_pos_left hlt hreserve)

/-- A withdrawal empties the pool or leaves some of everything. -/
theorem IsFull.removes {liquidity b q : Int} (h : p.IsFull) (hliquidity : 0 < liquidity)
    (hle : liquidity ≤ p.shares) (hb : mulAndQuo p.base liquidity p.shares = some b)
    (hq : mulAndQuo p.quote liquidity p.shares = some q) :
    Even ⟨p.base - b, p.quote - q, p.shares - liquidity⟩ := by
  obtain ⟨-, -, hballs, hbpart⟩ := part_spec h.1 hliquidity hle hb
  obtain ⟨-, -, hqall, hqpart⟩ := part_spec h.2.1 hliquidity hle hq
  rcases hle.eq_or_lt with heq | hlt
  · exact .inl ⟨by rw [hballs heq, sub_self], by rw [hqall heq, sub_self], sub_eq_zero.mpr heq.symm⟩
  · exact .inr ⟨sub_pos.mpr (hbpart hlt), sub_pos.mpr (hqpart hlt), sub_pos.mpr hlt⟩

end Pool

/-- The invariant of the runs. -/
structure SwapInv (l : SwapLedger) : Prop where
  named : ∀ {name pair}, l.pairs.get name = some pair →
    pair.poolTokenName = poolTokenPrefix ++ name
  solvent : ∀ d, (l.pairs.sumBy fun _ pair => SwapTokenPair.pooled pair) d ≤ l.account d
  even : ∀ {name pair}, l.pairs.get name = some pair →
    (pair.pool (l.supply pair.poolTokenName)).Even
  fresh : ∀ {name}, l.pairs.get name = none → l.supply (poolTokenPrefix ++ name) = 0

namespace SwapInv

variable {l l' : SwapLedger}

theorem poolTokenPrefix_inj {name name' : String}
    (h : poolTokenPrefix ++ name = poolTokenPrefix ++ name') : name = name' :=
  String.append_right_inj poolTokenPrefix |>.mp h

/-- One pair changes, its pool tokens with it, and the account covers the change. -/
theorem set (h : SwapInv l) (name : String) (pair' : SwapTokenPair)
    (hname : pair'.poolTokenName = poolTokenPrefix ++ name)
    (hpairs : l'.pairs = l.pairs.set name pair')
    (hsupply : ∀ d, d ≠ pair'.poolTokenName → l'.supply d = l.supply d)
    (heven : (pair'.pool (l'.supply pair'.poolTokenName)).Even)
    (haccount : ∀ d, l.account d - l.pairs.valAt (fun _ pair => pair.pooled) name d +
      pair'.pooled d ≤ l'.account d) : SwapInv l' where
  named := by
    intro name' pair hpair
    rw [hpairs, KVStore.get_set] at hpair
    split_ifs at hpair with heq
    · cases hpair
      rw [hname, heq]
    · exact h.named hpair
  solvent := by
    intro d
    rw [hpairs, KVStore.sumBy_set, DFinsupp.add_apply, DFinsupp.sub_apply]
    exact le_trans (by linarith [h.solvent d]) (haccount d)
  even := by
    intro name' pair hpair
    rw [hpairs, KVStore.get_set] at hpair
    split_ifs at hpair with heq
    · cases hpair
      exact heven
    · have hother : pair.poolTokenName ≠ pair'.poolTokenName := by
        rw [hname, h.named hpair]
        exact fun he => heq (poolTokenPrefix_inj he)
      rw [hsupply _ hother]
      exact h.even hpair
  fresh := by
    intro name' hnone
    rw [hpairs, KVStore.get_set] at hnone
    split_ifs at hnone with heq
    rw [hsupply _ (by rw [hname]; exact fun he => heq (poolTokenPrefix_inj he))]
    exact h.fresh hnone

end SwapInv

theorem coin_self (denom : String) (a : ℤ) : coin denom a denom = a := by
  rw [coin_apply, if_pos rfl]

theorem coin_of_ne {denom d : String} (h : d ≠ denom) (a : ℤ) : coin denom a d = 0 := by
  rw [coin_apply, if_neg h.symm]

/-- **Every effect keeps the invariant.** -/
theorem SwapEffect.inv {params : SwapParams} {l l' : SwapLedger} {evs : List SwapNotice}
    (he : SwapEffect params l evs l') (h : SwapInv l) : SwapInv l' := by
  cases he with
  | create token0 token1 hcreate =>
    obtain ⟨hnew, hpairs, hsupply, haccount⟩ := hcreate
    have hpooled : (newSwapPair token0 token1).pooled = 0 := by
      unfold newSwapPair SwapTokenPair.pooled DecCoin.toCoins
      rw [coin_zero, coin_zero, add_zero]
    refine h.set (getSwapTokenPairName token0 token1) (newSwapPair token0 token1) rfl hpairs
      (fun d _ => congrFun hsupply d) ?_ fun d => ?_
    · rw [hsupply]
      exact .inl ⟨rfl, rfl, h.fresh hnew⟩
    · rw [hpooled, KVStore.valAt_of_none _ hnew, DFinsupp.zero_apply, sub_zero, add_zero, haccount]
  | add name x hadd =>
    obtain ⟨pair, b, liquidity, hpair, hx, hb, hliquidity, hadds, hpairs, hsupply, haccount⟩ := hadd
    refine h.set name (pair.change b x) ?_ hpairs (fun d hd => ?_) ?_ fun d => ?_
    · exact (pair.poolTokenName_change b x).trans (h.named hpair)
    · rw [SwapTokenPair.poolTokenName_change] at hd
      rw [hsupply, coin_of_ne hd, add_zero]
    · have hfull := (h.even hpair).adds hx hb hliquidity hadds
      rw [hsupply, SwapTokenPair.poolTokenName_change, coin_self]
      exact .inr hfull
    · rw [haccount, KVStore.valAt_of_get _ hpair, SwapTokenPair.pooled_change, DFinsupp.add_apply,
        DFinsupp.add_apply, DFinsupp.add_apply, DFinsupp.add_apply]
      linarith
  | remove name liquidity hremove =>
    obtain ⟨pair, b, q, hpair, hliquidity, hle, hb, hq, hpairs, hsupply, haccount⟩ := hremove
    refine h.set name (pair.change (-b) (-q)) ?_ hpairs (fun d hd => ?_) ?_ fun d => ?_
    · exact (pair.poolTokenName_change (-b) (-q)).trans (h.named hpair)
    · rw [SwapTokenPair.poolTokenName_change] at hd
      rw [hsupply, coin_of_ne hd, sub_zero]
    · have hfull := (h.even hpair).full_of_shares (hliquidity.trans_le hle)
      have heven := hfull.removes hliquidity hle hb hq
      rw [hsupply, SwapTokenPair.poolTokenName_change, coin_self]
      exact heven
    · rw [haccount, KVStore.valAt_of_get _ hpair, SwapTokenPair.pooled_change, coin_neg, coin_neg,
        DFinsupp.add_apply, DFinsupp.add_apply, DFinsupp.sub_apply, DFinsupp.add_apply,
        DFinsupp.neg_apply, DFinsupp.neg_apply]
      linarith
  | trade htrade =>
    obtain ⟨pair, pair', sell, buy, recipient, kept, hpair, hpooled, hsell, hbuy, htrades, hkept,
      hpairs, hsupply, haccount⟩ := htrade
    have hfull := (h.even hpair).full hpooled.1
    obtain ⟨hbase, hquote, -⟩ := htrades.spec hfull.1 hfull.2.1 hsell
    have hname : pair'.poolTokenName = pair.poolTokenName := by cases htrades <;> rfl
    refine h.set pair.tokenPairName pair' (hname.trans (h.named hpair)) hpairs
      (fun d _ => congrFun hsupply d) ?_ fun d => ?_
    · rw [hname, hsupply]
      exact .inr ⟨hbase, hquote, hfull.2.2⟩
    · rw [haccount trivial, KVStore.valAt_of_get _ hpair, htrades.pooled]
      simp only [DFinsupp.add_apply, DFinsupp.sub_apply]
      linarith [hkept d]

/-- **The invariant holds in every run.** -/
theorem SwapReach.inv {sk : MintKeeper B} {s : SwapState B} (h : SwapReach sk s) :
    SwapInv (s.ledger sk) := by
  induction h with
  | genesis s hpairs hsupply haccount =>
    refine ⟨?_, fun d => ?_, ?_, fun {name} _ => hsupply name⟩
    · intro name pair hpair
      rw [SwapState.ledger, hpairs] at hpair
      cases hpair
    · rw [SwapState.ledger, hpairs]
      exact haccount d
    · intro name pair hpair
      rw [SwapState.ledger, hpairs] at hpair
      cases hpair
  | @deliver s hs blockTime msg hsigner ih =>
    unfold SwapState.deliver
    split
    · next s' hok =>
      obtain ⟨u, hbasic, hhandle⟩ := bind_eq_ok.mp hok
      obtain ⟨evs, htrace, -⟩ := SwapState.handle_effects hbasic hsigner hhandle
      exact htrace.keeps (fun he => he.inv) ih
    · exact ih
  | @outside s hs params tokens bank hsupply haccount ih =>
    refine ⟨ih.named, fun d => (ih.solvent d).trans (haccount d), ?_, ?_⟩
    · intro name pair hpair
      have hnamed : pair.poolTokenName = poolTokenPrefix ++ name := ih.named hpair
      have heven := ih.even hpair
      rw [hnamed] at heven ⊢
      show (pair.pool (sk.getSupplyByDenom bank (poolTokenPrefix ++ name))).Even
      rw [hsupply]
      exact heven
    · intro name hnone
      exact (hsupply name).trans (ih.fresh hnone)

/-! ## Errors that cannot occur -/

/-- The errors that show a half-empty pair, and the panics of a reserve that runs out. -/
def SwapError.corrupt : SwapError → Bool
  | .invalidTokenPair _ => true
  | .isZeroValue msg => msg == "totalSupply"
  | .panic .negativeAmount => true
  | .panic .divisionByZero => true
  | _ => false

namespace SwapState

variable {sk : MintKeeper B} {blockTime : Int} {s : SwapState B} {pair : SwapTokenPair}

/-- No error of the computation shows a corrupt pair. -/
def Clean {α : Type} (x : Except SwapError α) (post : α → Prop) : Prop :=
  Ends x post fun e => e.corrupt = false

theorem newDecCoinFromDec_clean {denom : String} {amount : Int} (h : 0 ≤ amount) :
    Clean (DecCoin.newDecCoinFromDec denom amount) fun c => c = ⟨denom, amount⟩ :=
  .bind (.require fun hneg => absurd h hneg) fun _ _ _ => .pure rfl

theorem addCoin_clean (c c' : DecCoin) : Clean (c.addCoin c') fun _ => True :=
  .bind (.require fun _ => rfl) fun _ _ _ => .pure trivial

theorem subCoin_clean {c c' : DecCoin} (h : c'.amount ≤ c.amount) :
    Clean (c.subCoin c') fun _ => True :=
  .bind (.require fun _ => rfl) fun _ _ _ =>
    .bind (.require fun hneg => absurd (sub_nonneg.mpr h) hneg) fun _ _ _ => .pure trivial

theorem isLT_clean (c c' : DecCoin) : Clean (c.isLT c') fun _ => True :=
  .bind (.require fun _ => rfl) fun _ _ _ => .pure trivial

theorem mulAndQuo_clean {a b c : Int} (ha : 0 ≤ a) (hb : 0 ≤ b) (hc : 0 < c) :
    Clean (orThrow (mulAndQuo a b c) (.panic .divisionByZero)) fun r => 0 ≤ r := by
  rw [mulAndQuo_eq ha hb hc]
  exact Int.ediv_nonneg (mul_nonneg ha hb) hc.le

theorem orThrow_clean {α : Type} {o : Option α} {e : SwapError} (he : e.corrupt = false) :
    Clean (orThrow o e) fun a => o = some a := .orThrow fun _ => he

theorem require_clean {c : Prop} [Decidable c] {e : SwapError} (he : e.corrupt = false) :
    Clean (require c e) fun _ => c := .require fun _ => he

theorem getPoolTokenInfo_clean (symbol : String) :
    Clean (s.getPoolTokenInfo symbol) fun _ => True :=
  .bind (require_clean rfl) fun _ _ _ => .pure trivial

theorem isTokenExist_clean (token : String) : Clean (s.isTokenExist token) fun _ => True :=
  .bind (require_clean rfl) fun _ _ _ => .mono (require_clean rfl) (fun _ _ => trivial) fun _ => id

theorem handleMsgCreateExchange_clean (msg : MsgCreateExchange) :
    Clean (s.handleMsgCreateExchange sk msg) fun _ => True := by
  unfold handleMsgCreateExchange
  refine .bind (isTokenExist_clean _) fun _ _ _ => .bind (isTokenExist_clean _) fun _ _ _ => ?_
  refine .bind (require_clean rfl) fun _ _ _ => ?_
  exact .bind (require_clean rfl) fun _ _ _ => .pure trivial

theorem addedAmounts_clean {msg : MsgAddLiquidity} (hquote : 0 < msg.quoteAmount.amount)
    (heven : (pair.pool (sk.getSupplyByDenom s.bank pair.poolTokenName)).Even) :
    Clean (s.addedAmounts sk msg pair) fun r => 0 ≤ r.2 := by
  unfold addedAmounts
  refine .ite (fun _ => .pure Dec.one_pos.le) fun hne => ?_
  -- A pair that is not empty has both reserves and pool tokens.
  have hfull := heven.resolve_left fun he => hne ⟨he.2.1, he.1⟩
  refine .ite (fun _ => ?_) fun hpos => absurd ⟨hfull.1, hfull.2.1⟩ hpos
  refine .bind (mulAndQuo_clean hquote.le hfull.1.le hfull.2.1) fun b₀ _ _ => ?_
  refine .bind (.require fun hzero => absurd hfull.2.2.ne' hzero) fun _ _ _ => ?_
  refine .bind (mulAndQuo_clean hquote.le hfull.2.2.le hfull.2.1) fun liquidity _ hl => ?_
  exact .bind (require_clean rfl) fun _ _ _ => .pure hl

theorem handleMsgAddLiquidity_clean (h : SwapInv (s.ledger sk)) {msg : MsgAddLiquidity}
    (hbasic : msg.validateBasic = .ok ()) :
    Clean (s.handleMsgAddLiquidity sk blockTime msg) fun _ => True := by
  unfold MsgAddLiquidity.validateBasic at hbasic
  simp only [bind_eq_ok, require_eq_ok, exists_and_left, exists_const] at hbasic
  obtain ⟨-, -, ⟨-, hquote⟩, -⟩ := hbasic
  unfold handleMsgAddLiquidity
  refine .bind (require_clean rfl) fun _ _ _ => ?_
  refine .bind (orThrow_clean rfl) fun pair _ hpair => ?_
  refine .bind (getPoolTokenInfo_clean _) fun token _ _ => ?_
  refine .bind (addedAmounts_clean hquote (h.even hpair)) fun r _ hr => ?_
  refine .bind (require_clean rfl) fun _ _ _ => .bind (require_clean rfl) fun _ _ _ => ?_
  refine .bind (orThrow_clean rfl) fun bank _ _ => ?_
  refine .bind (addCoin_clean _ _) fun _ _ _ => .bind (addCoin_clean _ _) fun _ _ _ => ?_
  refine .bind (newDecCoinFromDec_clean hr) fun _ _ _ => ?_
  exact .bind (orThrow_clean rfl) fun _ _ _ => .pure trivial

theorem handleMsgRemoveLiquidity_clean (h : SwapInv (s.ledger sk)) {msg : MsgRemoveLiquidity}
    (hbasic : msg.validateBasic = .ok ()) :
    Clean (s.handleMsgRemoveLiquidity sk blockTime msg) fun _ => True := by
  unfold MsgRemoveLiquidity.validateBasic at hbasic
  simp only [bind_eq_ok, require_eq_ok, exists_and_left, exists_const] at hbasic
  obtain ⟨-, hpos, -⟩ := hbasic
  unfold handleMsgRemoveLiquidity
  refine .bind (require_clean rfl) fun _ _ _ => ?_
  refine .bind (orThrow_clean rfl) fun pair _ hpair => ?_
  refine .bind (require_clean rfl) fun _ _ hle => ?_
  have hfull := (h.even hpair).full_of_shares (hpos.trans_le hle)
  -- What is withdrawn is at most the reserve.
  have hpart : ∀ {reserve part : Int}, 0 < reserve →
      mulAndQuo reserve msg.liquidity (s.getPoolTokenAmount sk pair.poolTokenName) = some part →
      0 ≤ part ∧ part ≤ reserve := by
    intro reserve part hreserve hpart
    obtain ⟨h0, -, hall, hless⟩ := Pool.part_spec hreserve hpos hle hpart
    refine ⟨h0, ?_⟩
    rcases hle.eq_or_lt with heq | hlt
    · exact (hall heq).le
    · exact (hless hlt).le
  refine .bind (mulAndQuo_clean hfull.1.le hpos.le hfull.2.2) fun b hb _ => ?_
  refine .bind (mulAndQuo_clean hfull.2.1.le hpos.le hfull.2.2) fun q hq _ => ?_
  obtain ⟨hb0, hble⟩ := hpart hfull.1 (orThrow_eq_ok.mp hb)
  obtain ⟨hq0, hqle⟩ := hpart hfull.2.1 (orThrow_eq_ok.mp hq)
  refine .bind (newDecCoinFromDec_clean hb0) fun _ _ hbase => ?_
  refine .bind (newDecCoinFromDec_clean hq0) fun _ _ hquote => ?_
  subst hbase hquote
  refine .bind (isLT_clean _ _) fun _ _ _ => .bind (require_clean rfl) fun _ _ _ => ?_
  refine .bind (isLT_clean _ _) fun _ _ _ => .bind (require_clean rfl) fun _ _ _ => ?_
  refine .bind (orThrow_clean rfl) fun bank _ _ => ?_
  refine .bind (subCoin_clean hqle) fun _ _ _ => .bind (subCoin_clean hble) fun _ _ _ => ?_
  refine .bind (newDecCoinFromDec_clean hpos.le) fun _ _ _ => ?_
  exact .bind (orThrow_clean rfl) fun _ _ _ => .pure trivial

theorem getInputPrice_clean {x X Y : Int} (params : SwapParams) (hx : 0 ≤ x) (hX : 0 < X)
    (hY : 0 < Y) :
    Clean (orThrow (getInputPrice x X Y params.feeRate) (.panic .divisionByZero)) fun y => 0 ≤ y := by
  obtain ⟨hw, -⟩ := inputAmountWithFee_le hx params.feeRate_nonneg params.feeRate_le_one
  refine mulAndQuo_clean hw hY.le (add_pos_of_pos_of_nonneg ?_ hw)
  rw [Dec.mulTruncate_newDec_right]
  exact mul_pos hX (by norm_num)

theorem calculateTokenToBuy_clean {sell : DecCoin} (denom : String) (params : SwapParams)
    (hsell : 0 < sell.amount) (hbase : 0 < pair.basePooledCoin.amount)
    (hquote : 0 < pair.quotePooledCoin.amount) :
    Clean (calculateTokenToBuy pair sell denom params) fun _ => True := by
  unfold calculateTokenToBuy
  by_cases hlt : denom < sell.denom
  · rw [if_pos hlt]
    refine .bind (getInputPrice_clean params hsell.le hquote hbase) fun y _ hy => ?_
    exact .mono (newDecCoinFromDec_clean hy) (fun _ _ => trivial) fun _ => id
  · rw [if_neg hlt]
    refine .bind (getInputPrice_clean params hsell.le hbase hquote) fun y _ hy => ?_
    exact .mono (newDecCoinFromDec_clean hy) (fun _ _ => trivial) fun _ => id

/-- What is bought is there. -/
theorem swappedPair_clean {buy : DecCoin} {msg : MsgTokenToToken} {params : SwapParams}
    (hsold : 0 < msg.soldTokenAmount.amount) (hbase : 0 < pair.basePooledCoin.amount)
    (hquote : 0 < pair.quotePooledCoin.amount)
    (hbuy : calculateTokenToBuy pair msg.soldTokenAmount msg.minBoughtTokenAmount.denom params =
      .ok buy) : Clean (swappedPair pair buy msg) fun _ => True := by
  obtain ⟨-, -, hprice⟩ := calculateTokenToBuy_spec hbuy
  have hlt : ∀ {X Y : Int}, 0 < X → 0 < Y →
      getInputPrice msg.soldTokenAmount.amount X Y params.feeRate = some buy.amount →
      buy.amount ≤ Y := fun hX hY h =>
    (Pool.trade_lt hX hY hsold.le (getInputPrice_le hsold.le hX hY params.feeRate_nonneg
      params.feeRate_le_one h).2).le
  unfold swappedPair
  split_ifs at hprice ⊢
  · refine .bind (addCoin_clean _ _) fun _ _ _ => ?_
    exact .bind (subCoin_clean (hlt hquote hbase hprice)) fun _ _ _ => .pure trivial
  · refine .bind (subCoin_clean (hlt hbase hquote hprice)) fun _ _ _ => ?_
    exact .bind (addCoin_clean _ _) fun _ _ _ => .pure trivial

theorem swapTokenNativeToken_clean (s : SwapState B) {buy : DecCoin} (msg : MsgTokenToToken)
    {params : SwapParams} (hsold : 0 < msg.soldTokenAmount.amount)
    (hbase : 0 < pair.basePooledCoin.amount) (hquote : 0 < pair.quotePooledCoin.amount)
    (hbuy : calculateTokenToBuy pair msg.soldTokenAmount msg.minBoughtTokenAmount.denom params =
      .ok buy) : Clean (s.swapTokenNativeToken sk pair buy msg) fun _ => True := by
  unfold swapTokenNativeToken
  refine .bind (orThrow_clean rfl) fun _ _ _ => .bind (orThrow_clean rfl) fun _ _ _ => ?_
  exact .bind (swappedPair_clean hsold hbase hquote hbuy) fun _ _ _ => .pure trivial

theorem swapToken_clean (h : SwapInv (s.ledger sk)) {msg : MsgTokenToToken}
    (hsold : 0 < msg.soldTokenAmount.amount) :
    Clean (s.swapToken sk blockTime msg) fun _ => True := by
  unfold swapToken
  refine .bind (require_clean rfl) fun _ _ _ => .bind (require_clean rfl) fun _ _ _ => ?_
  refine .bind (orThrow_clean rfl) fun pair _ hpair => .bind (require_clean rfl) fun _ _ hne => ?_
  have hfull := (h.even hpair).full hne.1
  refine .bind (calculateTokenToBuy_clean _ s.params hsold hfull.1 hfull.2.1) fun buy hbuy _ => ?_
  refine .bind (require_clean rfl) fun _ _ _ => .bind (require_clean rfl) fun _ _ _ => ?_
  exact swapTokenNativeToken_clean s msg hsold hfull.1 hfull.2.1 hbuy

theorem swapTokenByRouter_clean (h : SwapInv (s.ledger sk)) {msg : MsgTokenToToken}
    (hsold : 0 < msg.soldTokenAmount.amount) :
    Clean (s.swapTokenByRouter sk blockTime msg) fun _ => True := by
  unfold swapTokenByRouter
  refine .bind (require_clean rfl) fun _ _ _ => .bind (require_clean rfl) fun _ _ _ => ?_
  refine .bind (orThrow_clean rfl) fun one _ hone => .bind (require_clean rfl) fun _ _ hne₁ => ?_
  refine .bind (orThrow_clean rfl) fun two _ htwo => .bind (require_clean rfl) fun _ _ hne₂ => ?_
  have hfull₁ := (h.even hone).full hne₁.1
  have hfull₂ := (h.even htwo).full hne₂.1
  refine .bind (calculateTokenToBuy_clean _ s.params hsold hfull₁.1 hfull₁.2.1)
    fun native hnative _ => ?_
  refine .bind (require_clean rfl) fun _ _ hnative0 => ?_
  have hpos : 0 < native.amount :=
    lt_of_le_of_ne (calculateTokenToBuy_spec hnative).2.1 (Ne.symm hnative0)
  refine .bind (calculateTokenToBuy_clean _ s.params hpos hfull₂.1 hfull₂.2.1) fun buy hbuy _ => ?_
  refine .bind (require_clean rfl) fun _ _ _ => .bind (require_clean rfl) fun _ _ _ => ?_
  refine .bind (swapTokenNativeToken_clean s { msg with minBoughtTokenAmount := ⟨bondDenom, 0⟩ }
    hsold hfull₁.1 hfull₁.2.1 hnative) fun s₁ _ _ => ?_
  exact swapTokenNativeToken_clean s₁ { msg with soldTokenAmount := native } hpos hfull₂.1
    hfull₂.2.1 hbuy

/-- **No message shows a corrupt pair.** -/
theorem handle_clean (h : SwapInv (s.ledger sk)) {msg : SwapMsg}
    (hbasic : msg.validateBasic = .ok ()) : Clean (s.handle sk blockTime msg) fun _ => True := by
  cases msg with
  | createExchange msg => exact handleMsgCreateExchange_clean msg
  | addLiquidity msg => exact handleMsgAddLiquidity_clean h hbasic
  | removeLiquidity msg => exact handleMsgRemoveLiquidity_clean h hbasic
  | tokenToToken msg =>
    obtain ⟨hsold, -⟩ := MsgTokenToToken.validateBasic_spec hbasic
    show Clean (s.handleMsgTokenToToken sk blockTime msg) _
    unfold handleMsgTokenToToken
    split
    · exact swapTokenByRouter_clean h hsold
    · exact swapToken_clean h hsold

end SwapState

/-- **Swap pools are solvent and never half empty.** In every run the module account holds, for
every denomination, at least what the pairs say is pooled of it; every pair is empty or has both
reserves and pool tokens; and no message ends with the errors of a half-empty pair, with a negative
reserve or with a division by zero. -/
theorem pools_solvent {sk : MintKeeper B} {s : SwapState B} (h : SwapReach sk s) :
    (∀ d, (s.pairs.sumBy fun _ pair => pair.pooled d) ≤ sk.moduleCoins s.bank swapModuleName d) ∧
      (∀ name pair, s.pairs.get name = some pair →
        (pair.pool (sk.getSupplyByDenom s.bank pair.poolTokenName)).Even) ∧
      ∀ blockTime msg e, msg.validateBasic = .ok () → s.handle sk blockTime msg = .error e →
        (∀ pair, e ≠ .invalidTokenPair pair) ∧ e ≠ .isZeroValue "totalSupply" ∧
          e ≠ .panic .negativeAmount ∧ e ≠ .panic .divisionByZero := by
  refine ⟨fun d => ?_, fun name pair hpair => h.inv.even hpair, ?_⟩
  · rw [← sumBy_apply]
    exact h.inv.solvent d
  · intro blockTime msg e hbasic herror
    have hclean : e.corrupt = false := (SwapState.handle_clean h.inv hbasic).of_error herror
    refine ⟨?_, ?_, ?_, ?_⟩
    · rintro pair rfl
      cases hclean
    · rintro rfl
      cases hclean
    · rintro rfl
      cases hclean
    · rintro rfl
      cases hclean

/-! ## A small pool -/

/-- Two tokens and an account that holds both. -/
def swapGenesis : SwapState (KVStore Address Coins × Coins) where
  pairs := ∅
  params := .default
  tokens := ((∅ : KeyedStore Token.symbol).put ⟨"abc", "alice", 1⟩).put ⟨"okt", "alice", 0⟩
  bank := (KVStore.set ∅ "alice" (coin "abc" (Dec.newDec 100) + coin "okt" (Dec.newDec 100)), 0)
  notices := []

/-- A pool with three of the smallest units of `abc` and 0.9 `okt`. -/
def smallPool : SwapState (KVStore Address Coins × Coins) :=
  (swapGenesis.deliver simpleMint 0 (.createExchange ⟨"abc", "okt", "alice"⟩)).deliver simpleMint 0
    (.addLiquidity ⟨0, ⟨"abc", 3⟩, ⟨"okt", 900000000000000000⟩, 10, "alice"⟩)

theorem smallPool_reach : SwapReach simpleMint smallPool := by
  refine .deliver (.deliver (.genesis _ rfl (fun _ => rfl) fun d => ?_) _ _ ?_) _ _ ?_
  · exact le_rfl
  · decide
  · decide

/-- `pools_solvent` in the small pool. -/
theorem pools_solvent_smallPool :
    (smallPool.pairs.sumBy fun _ pair => pair.pooled "okt") = 900000000000000000 ∧
      (smallPool.pairs.sumBy fun _ pair => pair.pooled "okt") ≤
        simpleMint.moduleCoins smallPool.bank swapModuleName "okt" :=
  ⟨by decide +kernel, (pools_solvent smallPool_reach).1 "okt"⟩

end Okexchain
