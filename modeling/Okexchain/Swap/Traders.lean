import Okexchain.Swap.Solvency

/-!
# What traders and providers pay and get

The other files on swaps are about the pools. This one is about the accounts that use them, through
the handlers of `x/ammswap/handler.go`.

* A swap is one leg, or two legs through the native token. A leg moves the sold coins from the
  sender into the module's account and the bought coins from there to the recipient
  (`SwapState.getCoins_swapTokenNativeToken`). In a routed swap both legs have the message's sender
  and recipient, so the recipient gets the native tokens and the sender pays them
  (`SwapState.handleMsgTokenToToken_changes`).
* The price a trade gets is `floor (w * Y / (1000 * X + w))`, where `w` is the amount sold after the
  fee, a thousandfold (`getInputPrice_eq`).
* A provider pays a part of both reserves, gets pool tokens, and gets a part of both reserves for
  them.

**Results.**

* `SwapState.charges_once_iff`: **a swap charges the sender once and pays the recipient once,
  exactly if both are accounts outside the module and the swap is direct or they are the same
  account**.
* `splitting_never_pays`: **two trades one after the other give no more than one of their size**.
* `SwapState.add_remove_never_profits`: **whoever adds liquidity and removes it again has no more of
  any coin than before**.
-/

namespace Okexchain

variable {B : Type}

/-! ## The accounts of a swap -/

namespace SwapState

variable {sk : MintKeeper B} {blockTime : Int} {s s' : SwapState B} {pair : SwapTokenPair}
  {buy : DecCoin} {msg : MsgTokenToToken}

/-- A leg of a swap, seen by an account. -/
theorem getCoins_swapTokenNativeToken (h : s.swapTokenNativeToken sk pair buy msg = .ok s')
    (a : Address) :
    sk.getCoins s'.bank a = sk.getCoins s.bank a -
        (if a = msg.sender then msg.soldTokenAmount.toCoins else 0) +
        (if a = sk.moduleAddress swapModuleName then msg.soldTokenAmount.toCoins - buy.toCoins
          else 0) +
        (if a = msg.recipient then buy.toCoins else 0) := by
  unfold swapTokenNativeToken at h
  simp only [bind_eq_ok, orThrow_eq_ok, pure_eq_ok] at h
  obtain ⟨bank, hin, bank', hout, pair', -, rfl⟩ := h
  show sk.getCoins bank' a = _
  rw [sk.getCoins_sendCoins hout, sk.getCoins_sendCoins hin]
  by_cases hm : a = sk.moduleAddress swapModuleName
  · rw [if_pos hm, if_pos hm, if_pos hm]
    abel
  · rw [if_neg hm, if_neg hm, if_neg hm]
    abel

/-- A direct swap buys at least the minimum, and is one leg. -/
theorem swapToken_leg (h : s.swapToken sk blockTime msg = .ok s') :
    ∃ pair buy, buy.denom = msg.minBoughtTokenAmount.denom ∧
      msg.minBoughtTokenAmount.amount ≤ buy.amount ∧
      s.swapTokenNativeToken sk pair buy msg = .ok s' := by
  unfold swapToken at h
  simp only [bind_eq_ok, require_eq_ok, orThrow_eq_ok, exists_and_left, exists_const,
    getSwapTokenPair, requirePooled] at h
  obtain ⟨_, -, -, pair, -, -, buy, hbuy, -, hmin, h⟩ := h
  exact ⟨pair, buy, (calculateTokenToBuy_spec hbuy).1, hmin, h⟩

/-- A routed swap is two legs, through some native tokens. Neither coin of the message is the native
one: the pair of the message would be one of the legs. -/
theorem swapTokenByRouter_legs (hnone : s.pairs.get msg.getSwapTokenPairName = none)
    (h : s.swapTokenByRouter sk blockTime msg = .ok s') :
    msg.soldTokenAmount.denom ≠ bondDenom ∧
      ∃ one two middle buy s₁, middle.denom = bondDenom ∧ 0 < middle.amount ∧
        buy.denom = msg.minBoughtTokenAmount.denom ∧ msg.minBoughtTokenAmount.amount ≤ buy.amount ∧
        s.swapTokenNativeToken sk one middle { msg with minBoughtTokenAmount := ⟨bondDenom, 0⟩ } =
          .ok s₁ ∧
        s₁.swapTokenNativeToken sk two buy { msg with soldTokenAmount := middle } = .ok s' := by
  unfold swapTokenByRouter at h
  simp only [bind_eq_ok, require_eq_ok, orThrow_eq_ok, exists_and_left, exists_const,
    requirePooled] at h
  obtain ⟨-, _, -, one, hone, -, two, htwo, -, middle, hmiddle, hmiddle0, buy, hbuy, -, hmin, s₁,
    hleg₁, hleg₂⟩ := h
  obtain ⟨hdenom, hnonneg, -⟩ := calculateTokenToBuy_spec hmiddle
  refine ⟨fun hsold => ?_, one, two, middle, buy, s₁, hdenom,
    lt_of_le_of_ne hnonneg (Ne.symm hmiddle0), (calculateTokenToBuy_spec hbuy).1, hmin, hleg₁, hleg₂⟩
  have hname : msg.getSwapTokenPairName =
      getSwapTokenPairName msg.minBoughtTokenAmount.denom bondDenom :=
    congrArg (getSwapTokenPairName _) hsold
  rw [hname, htwo] at hnone
  cases hnone

/-- A swap in which the sender also pays, and the recipient also gets, some coins on the way. -/
def ChangesBy (sk : MintKeeper B) (s s' : SwapState B) (msg : MsgTokenToToken) (middle : Coins)
    (buy : DecCoin) : Prop :=
  ∀ a, sk.getCoins s'.bank a = sk.getCoins s.bank a -
      (if a = msg.sender then msg.soldTokenAmount.toCoins + middle else 0) +
      (if a = sk.moduleAddress swapModuleName then msg.soldTokenAmount.toCoins - buy.toCoins else 0) +
      (if a = msg.recipient then buy.toCoins + middle else 0)

/-- **The accounts of a swap.** Of a routed one the sender pays the native tokens of the second leg,
and the recipient gets those of the first. -/
theorem handleMsgTokenToToken_changes (h : s.handleMsgTokenToToken sk blockTime msg = .ok s') :
    ∃ middle buy, buy.denom = msg.minBoughtTokenAmount.denom ∧
      msg.minBoughtTokenAmount.amount ≤ buy.amount ∧ s.ChangesBy sk s' msg middle buy ∧
      (middle = 0 ↔ (s.pairs.get msg.getSwapTokenPairName).isSome) ∧
      (msg.soldTokenAmount.denom ≠ msg.minBoughtTokenAmount.denom →
        middle msg.soldTokenAmount.denom = 0) := by
  unfold handleMsgTokenToToken at h
  cases hget : s.pairs.get msg.getSwapTokenPairName with
  | none =>
    rw [hget] at h
    obtain ⟨hsold, one, two, middle, buy, s₁, hdenom, hpos, hbuy, hmin, hleg₁, hleg₂⟩ :=
      swapTokenByRouter_legs hget h
    refine ⟨middle.toCoins, buy, hbuy, hmin, fun a => ?_, ?_, fun _ => ?_⟩
    · rw [getCoins_swapTokenNativeToken hleg₂, getCoins_swapTokenNativeToken hleg₁]
      dsimp only
      split_ifs <;> abel
    · refine iff_of_false (fun hzero => ?_) nofun
      have := DFunLike.congr_fun hzero middle.denom
      rw [DecCoin.toCoins, coin_self] at this
      exact hpos.ne' this
    · rw [DecCoin.toCoins, coin_of_ne (hdenom.symm ▸ hsold)]
  | some pair =>
    rw [hget] at h
    obtain ⟨pair, buy, hbuy, hmin, hleg⟩ := swapToken_leg h
    refine ⟨0, buy, hbuy, hmin, fun a => ?_, iff_of_true rfl rfl, fun _ => rfl⟩
    rw [getCoins_swapTokenNativeToken hleg, add_zero, add_zero]

/-- The sender pays what is sold, the recipient gets what is bought, and nobody else's account
changes, the module's apart. -/
def ChargesOnce (sk : MintKeeper B) (s s' : SwapState B) (msg : MsgTokenToToken) : Prop :=
  ∃ bought : DecCoin, bought.denom = msg.minBoughtTokenAmount.denom ∧
    msg.minBoughtTokenAmount.amount ≤ bought.amount ∧
    ∀ a, a = msg.sender ∨ a = msg.recipient ∨ a ≠ sk.moduleAddress swapModuleName →
      sk.getCoins s'.bank a = sk.getCoins s.bank a -
        (if a = msg.sender then msg.soldTokenAmount.toCoins else 0) +
        (if a = msg.recipient then bought.toCoins else 0)

/-- **A swap charges the sender once and pays the recipient once exactly if both are accounts
outside the module, and the swap is direct or they are the same account.** -/
theorem charges_once_iff (hbasic : msg.validateBasic = .ok ())
    (h : s.handleMsgTokenToToken sk blockTime msg = .ok s') :
    ChargesOnce sk s s' msg ↔
      msg.sender ≠ sk.moduleAddress swapModuleName ∧
        msg.recipient ≠ sk.moduleAddress swapModuleName ∧
        ((s.pairs.get msg.getSwapTokenPairName).isSome ∨ msg.sender = msg.recipient) := by
  obtain ⟨hsold, hdenoms⟩ := MsgTokenToToken.validateBasic_spec hbasic
  obtain ⟨middle, buy, hbuy, hmin, hchange, hdirect, hother⟩ := handleMsgTokenToToken_changes h
  have hmiddle := hother hdenoms
  rw [← hdirect]
  constructor
  · rintro ⟨bought, hbought, -, hall⟩
    -- the module's account gets what is sold, also if it takes part in the swap itself
    have hmodule : ¬ (sk.moduleAddress swapModuleName = msg.sender ∨
        sk.moduleAddress swapModuleName = msg.recipient) := fun hpart => by
      have hat := (hchange (sk.moduleAddress swapModuleName)).symm.trans
        (hall _ (hpart.imp_right .inl))
      have hcoins := DFunLike.congr_fun hat msg.soldTokenAmount.denom
      have hbuy0 : buy.toCoins msg.soldTokenAmount.denom = 0 :=
        coin_of_ne (hbuy.symm ▸ hdenoms) _
      have hbought0 : bought.toCoins msg.soldTokenAmount.denom = 0 :=
        coin_of_ne (hbought.symm ▸ hdenoms) _
      have hsold0 : msg.soldTokenAmount.toCoins msg.soldTokenAmount.denom =
        msg.soldTokenAmount.amount := coin_self _ _
      rw [if_pos rfl] at hcoins
      split_ifs at hcoins <;>
        simp only [DFinsupp.add_apply, DFinsupp.sub_apply, hbuy0, hbought0, hsold0, hmiddle,
          DFinsupp.zero_apply] at hcoins <;> omega
    rw [not_or] at hmodule
    refine ⟨Ne.symm hmodule.1, Ne.symm hmodule.2, ?_⟩
    by_contra hne
    rw [not_or] at hne
    -- the sender has paid the middle tokens
    have hat := (hchange msg.sender).symm.trans (hall _ (.inl rfl))
    rw [if_pos rfl, if_pos rfl, if_neg (Ne.symm hmodule.1), if_neg hne.2, if_neg hne.2, add_zero,
      add_zero, add_zero, sub_right_inj] at hat
    exact hne.1 (left_eq_add.mp hat.symm)
  · rintro ⟨hsender, hrecipient, hroute⟩
    refine ⟨buy, hbuy, hmin, fun a ha => ?_⟩
    have hm : a ≠ sk.moduleAddress swapModuleName := by
      rcases ha with rfl | rfl | ha
      · exact hsender
      · exact hrecipient
      · exact ha
    rw [hchange a, if_neg hm, add_zero]
    rcases hroute with hzero | hsame
    · rw [hzero, add_zero, add_zero]
    · rw [hsame]
      split_ifs <;> abel

/-- Two pools with the native token, and an account that holds all three coins. -/
def twoPools : SwapState (KVStore Address Coins × Coins) :=
  let s : SwapState (KVStore Address Coins × Coins) :=
    { swapGenesis with
      tokens := swapGenesis.tokens.put ⟨"xyz", "alice", 1⟩
      bank := (KVStore.set ∅ "alice" (coin "abc" (Dec.newDec 100) + coin "okt" (Dec.newDec 100) +
        coin "xyz" (Dec.newDec 100)), 0) }
  let s := s.deliver simpleMint 0 (.createExchange ⟨"abc", "okt", "alice"⟩)
  let s := s.deliver simpleMint 0 (.createExchange ⟨"okt", "xyz", "alice"⟩)
  let s := s.deliver simpleMint 0
    (.addLiquidity ⟨0, ⟨"abc", Dec.newDec 10⟩, ⟨"okt", Dec.newDec 10⟩, 10, "alice"⟩)
  s.deliver simpleMint 0
    (.addLiquidity ⟨0, ⟨"okt", Dec.newDec 10⟩, ⟨"xyz", Dec.newDec 10⟩, 10, "alice"⟩)

/-- Alice sells one `abc`, and Bob gets what it buys of a coin. -/
def sellFor (denom : String) : MsgTokenToToken :=
  ⟨⟨"abc", Dec.newDec 1⟩, ⟨denom, 0⟩, 10, "bob", "alice"⟩

/-- Alice's `abc` buys `okt` for Bob. -/
theorem charges_once_iff_direct : ∃ s',
    twoPools.handleMsgTokenToToken simpleMint 0 (sellFor "okt") = .ok s' ∧
    ChargesOnce simpleMint twoPools s' (sellFor "okt") := by
  have hrun : (twoPools.handleMsgTokenToToken simpleMint 0 (sellFor "okt")).toOption.isSome = true := by
    decide +kernel
  obtain ⟨s', hs'⟩ := Option.isSome_iff_exists.mp hrun
  rw [toOption_eq_some] at hs'
  refine ⟨s', hs', (charges_once_iff (by decide +kernel) hs').mpr ⟨by decide, by decide, .inl ?_⟩⟩
  decide +kernel

/-- Alice's `abc` buys `xyz` for Bob: he also gets `okt`, and Alice pays them. -/
theorem charges_twice_routed : ∃ s',
    twoPools.handleMsgTokenToToken simpleMint 0 (sellFor "xyz") = .ok s' ∧
    simpleMint.getCoins s'.bank "alice" "okt" < simpleMint.getCoins twoPools.bank "alice" "okt" ∧
    simpleMint.getCoins twoPools.bank "bob" "okt" < simpleMint.getCoins s'.bank "bob" "okt" ∧
    ¬ ChargesOnce simpleMint twoPools s' (sellFor "xyz") := by
  have hrun : ((twoPools.handleMsgTokenToToken simpleMint 0 (sellFor "xyz")).toOption.map fun s' =>
      decide (simpleMint.getCoins s'.bank "alice" "okt" <
          simpleMint.getCoins twoPools.bank "alice" "okt" ∧
        simpleMint.getCoins twoPools.bank "bob" "okt" < simpleMint.getCoins s'.bank "bob" "okt")) =
      some true := by decide +kernel
  obtain ⟨s', hs', hok⟩ := Option.map_eq_some_iff.mp hrun
  rw [toOption_eq_some] at hs'
  obtain ⟨halice, hbob⟩ := of_decide_eq_true hok
  refine ⟨s', hs', halice, hbob, ?_⟩
  rintro ⟨bought, -, -, hall⟩
  have hat := DFunLike.congr_fun (hall "alice" (.inl rfl)) "okt"
  have hsold : (sellFor "xyz").soldTokenAmount.toCoins "okt" = 0 := coin_of_ne (by decide) _
  have hsender : "alice" = (sellFor "xyz").sender := rfl
  have hne : ¬ "alice" = (sellFor "xyz").recipient := by decide
  rw [if_pos hsender, if_neg hne, DFinsupp.add_apply, DFinsupp.sub_apply, hsold, DFinsupp.zero_apply,
    sub_zero, add_zero] at hat
  exact halice.ne hat

end SwapState

/-! ## Selling in two parts -/

section Split

variable {x y X Y fee : Int}

/-- The amount sold after the fee, a thousandfold. -/
def inputAmountWithFee (x fee : Int) : Int :=
  Dec.mulTruncate x (Dec.mulTruncate (Dec.one - fee) (Dec.newDec 1000))

theorem getInputPrice_eq (hx : 0 ≤ x) (hX : 0 < X) (hY : 0 ≤ Y) (hfee : 0 ≤ fee)
    (hle : fee ≤ Dec.one) : getInputPrice x X Y fee =
      some (inputAmountWithFee x fee * Y / (X * 1000 + inputAmountWithFee x fee)) := by
  obtain ⟨hw, -⟩ := inputAmountWithFee_le hx hfee hle
  have hpos : 0 < X * 1000 + inputAmountWithFee x fee :=
    add_pos_of_pos_of_nonneg (mul_pos hX (by norm_num)) hw
  unfold getInputPrice
  rw [Dec.mulTruncate_newDec_right X]
  exact mulAndQuo_eq hw hY hpos

/-- The fee of a sum is truncated once. -/
theorem inputAmountWithFee_add_le (hx : 0 ≤ x) (hy : 0 ≤ y) (hle : fee ≤ Dec.one) :
    inputAmountWithFee x fee + inputAmountWithFee y fee ≤ inputAmountWithFee (x + y) fee := by
  have hk : 0 ≤ (Dec.one - fee) * 1000 := by linarith
  have h₁ := Dec.mulTruncate_mul_one_le hx hk
  have h₂ := Dec.mulTruncate_mul_one_le hy hk
  unfold inputAmountWithFee
  rw [Dec.mulTruncate_newDec_right]
  generalize (Dec.one - fee) * 1000 = k at *
  show _ ≤ ((x + y) * k).tdiv Dec.one
  rw [Int.tdiv_eq_ediv_of_nonneg (mul_nonneg (add_nonneg hx hy) hk),
    Int.le_ediv_iff_mul_le Dec.one_pos]
  linarith

/-- **Two parts of a sale buy no more than the whole, and a part no more than the whole.** -/
theorem getInputPrice_split (hx : 0 ≤ x) (hy : 0 ≤ y) (hX : 0 < X) (hY : 0 < Y) (hfee : 0 ≤ fee)
    (hle : fee ≤ Dec.one) :
    ∃ p q r, getInputPrice x X Y fee = some p ∧ getInputPrice y (X + x) (Y - p) fee = some q ∧
      getInputPrice (x + y) X Y fee = some r ∧ 0 ≤ p ∧ p ≤ Y ∧ 0 ≤ q ∧ p + q ≤ r ∧ p ≤ r := by
  obtain ⟨hw, hwx⟩ := inputAmountWithFee_le hx hfee hle
  obtain ⟨hw', -⟩ := inputAmountWithFee_le hy hfee hle
  have hsum := inputAmountWithFee_add_le hx hy hle
  rw [getInputPrice_eq hx hX hY.le hfee hle,
    getInputPrice_eq (add_nonneg hx hy) hX hY.le hfee hle]
  generalize hv : inputAmountWithFee (x + y) fee = v at hsum
  change 0 ≤ inputAmountWithFee x fee at hw
  change inputAmountWithFee x fee ≤ x * 1000 at hwx
  change 0 ≤ inputAmountWithFee y fee at hw'
  have hpos : 0 < X * 1000 + inputAmountWithFee x fee := by linarith
  have hp := Int.ediv_mul_le (inputAmountWithFee x fee * Y) hpos.ne'
  have hp0 : 0 ≤ inputAmountWithFee x fee * Y / (X * 1000 + inputAmountWithFee x fee) :=
    Int.ediv_nonneg (mul_nonneg hw hY.le) hpos.le
  generalize inputAmountWithFee x fee * Y / (X * 1000 + inputAmountWithFee x fee) = p at hp hp0 ⊢
  generalize inputAmountWithFee x fee = w at *
  have hpY : p < Y := Pool.trade_lt (mul_pos hX (by norm_num)) hY hw hp
  refine ⟨p, _, _, rfl, getInputPrice_eq hy (by linarith) (by linarith) hfee hle, rfl, hp0, hpY.le,
    ?_⟩
  generalize inputAmountWithFee y fee = w' at *
  have hpos' : 0 < (X + x) * 1000 + w' := by linarith
  have hq := Int.ediv_mul_le (w' * (Y - p)) hpos'.ne'
  have hq0 : 0 ≤ w' * (Y - p) / ((X + x) * 1000 + w') :=
    Int.ediv_nonneg (mul_nonneg hw' (by linarith)) hpos'.le
  generalize w' * (Y - p) / ((X + x) * 1000 + w') = q at hq hq0 ⊢
  have hall : 0 < X * 1000 + v := by linarith
  refine ⟨hq0, ?_, ?_⟩
  · rw [Int.le_ediv_iff_mul_le hall]
    refine Pool.trade_mono (mul_pos hX (by norm_num)) hY.le (add_nonneg hw hw') hsum ?_
    exact Pool.trade_split hq0 (by linarith) hp hq
  · rw [Int.le_ediv_iff_mul_le hall]
    exact Pool.trade_mono (mul_pos hX (by norm_num)) hY.le hw (by linarith) hp

end Split

section SplitPair

variable {params : SwapParams} {pair : SwapTokenPair} {sell : DecCoin} {denom : String}

/-- `CalculateTokenToBuy` for a known price. -/
theorem calculateTokenToBuy_eq {p : Int} (hp : 0 ≤ p)
    (hprice : (if denom < sell.denom then
        getInputPrice sell.amount pair.quotePooledCoin.amount pair.basePooledCoin.amount params.feeRate
      else
        getInputPrice sell.amount pair.basePooledCoin.amount pair.quotePooledCoin.amount
          params.feeRate) = some p) :
    calculateTokenToBuy pair sell denom params = .ok ⟨denom, p⟩ := by
  unfold calculateTokenToBuy
  simp only [bind_eq_ok, orThrow_eq_ok, DecCoin.newDecCoinFromDec_eq_ok]
  refine ⟨p, ?_, hp, rfl⟩
  split_ifs at hprice ⊢ <;> exact hprice

/-- **Splitting a trade never pays, and selling more never yields less.** The message sells to a
pair with positive reserves, and `y` more of the same coin are sold after it. -/
theorem splitting_never_pays (params : SwapParams) (pair : SwapTokenPair) (msg : MsgTokenToToken)
    (y : Int) (hbase : 0 < pair.basePooledCoin.amount) (hquote : 0 < pair.quotePooledCoin.amount)
    (hne : msg.soldTokenAmount.denom ≠ msg.minBoughtTokenAmount.denom)
    (hpair : (pair.basePooledCoin.denom, pair.quotePooledCoin.denom) =
      getBaseQuoteTokenName msg.soldTokenAmount.denom msg.minBoughtTokenAmount.denom)
    (hx : 0 < msg.soldTokenAmount.amount) (hy : 0 < y) :
    ∃ p pair' q r,
      calculateTokenToBuy pair msg.soldTokenAmount msg.minBoughtTokenAmount.denom params = .ok p ∧
      SwapState.swappedPair pair p msg = .ok pair' ∧
      calculateTokenToBuy pair' ⟨msg.soldTokenAmount.denom, y⟩ msg.minBoughtTokenAmount.denom params =
        .ok q ∧
      calculateTokenToBuy pair ⟨msg.soldTokenAmount.denom, msg.soldTokenAmount.amount + y⟩
        msg.minBoughtTokenAmount.denom params = .ok r ∧
      p.amount + q.amount ≤ r.amount ∧ p.amount ≤ r.amount := by
  obtain ⟨⟨sold, x⟩, ⟨bought, min⟩, deadline, recipient, sender⟩ := msg
  unfold getBaseQuoteTokenName at hpair
  unfold SwapState.swappedPair
  simp only at hne hpair hx ⊢
  by_cases hlt : bought < sold
  · rw [if_neg hlt.asymm] at hpair
    obtain ⟨hb, hq⟩ := Prod.mk.inj hpair
    obtain ⟨p, q, r, hp, hq', hr, hp0, hpY, hq0, hsplit, hmono⟩ := getInputPrice_split hx.le hy.le
      hquote hbase params.feeRate_nonneg params.feeRate_le_one
    refine ⟨⟨bought, p⟩, pair.change (-p) x, ⟨bought, q⟩, ⟨bought, r⟩, ?_, ?_, ?_, ?_, hsplit, hmono⟩
    · exact calculateTokenToBuy_eq hp0 ((if_pos hlt).trans hp)
    · rw [if_pos hlt]
      simp only [bind_eq_ok, pure_eq_ok, DecCoin.addCoin_eq_ok, DecCoin.subCoin_eq_ok]
      exact ⟨_, ⟨hq, rfl⟩, _, ⟨hb, hpY, rfl⟩, rfl⟩
    · exact calculateTokenToBuy_eq hq0 ((if_pos hlt).trans hq')
    · exact calculateTokenToBuy_eq (hp0.trans hmono) ((if_pos hlt).trans hr)
  · rw [if_pos (lt_of_le_of_ne (not_lt.mp hlt) hne)] at hpair
    obtain ⟨hb, hq⟩ := Prod.mk.inj hpair
    obtain ⟨p, q, r, hp, hq', hr, hp0, hpY, hq0, hsplit, hmono⟩ := getInputPrice_split hx.le hy.le
      hbase hquote params.feeRate_nonneg params.feeRate_le_one
    refine ⟨⟨bought, p⟩, pair.change x (-p), ⟨bought, q⟩, ⟨bought, r⟩, ?_, ?_, ?_, ?_, hsplit, hmono⟩
    · exact calculateTokenToBuy_eq hp0 ((if_neg hlt).trans hp)
    · rw [if_neg hlt]
      simp only [bind_eq_ok, pure_eq_ok, DecCoin.addCoin_eq_ok, DecCoin.subCoin_eq_ok]
      exact ⟨_, ⟨hq, hpY, rfl⟩, _, ⟨hb, rfl⟩, rfl⟩
    · exact calculateTokenToBuy_eq hq0 ((if_neg hlt).trans hq')
    · exact calculateTokenToBuy_eq (hp0.trans hmono) ((if_neg hlt).trans hr)

/-- A pair with a million units of one coin and nine hundred thousand of the other. -/
def splitPair : SwapTokenPair := ⟨⟨"okt", 900000⟩, ⟨"abc", 1000000⟩, "ammswap_abc_okt"⟩

/-- Selling a thousand `abc` and then two thousand. -/
theorem splitting_never_pays_abc :
    calculateTokenToBuy splitPair ⟨"abc", 3000⟩ "okt" .default = .ok ⟨"okt", 2683⟩ ∧
    ∃ p pair' q r,
      calculateTokenToBuy splitPair ⟨"abc", 1000⟩ "okt" .default = .ok p ∧
      SwapState.swappedPair splitPair p ⟨⟨"abc", 1000⟩, ⟨"okt", 0⟩, 10, "alice", "alice"⟩ = .ok pair' ∧
      calculateTokenToBuy pair' ⟨"abc", 2000⟩ "okt" .default = .ok q ∧
      calculateTokenToBuy splitPair ⟨"abc", 3000⟩ "okt" .default = .ok r ∧
      p.amount + q.amount ≤ r.amount := by
  refine ⟨by decide +kernel, ?_⟩
  obtain ⟨p, pair', q, r, hp, hpair', hq, hr, hle, -⟩ := splitting_never_pays .default splitPair
    ⟨⟨"abc", 1000⟩, ⟨"okt", 0⟩, 10, "alice", "alice"⟩ 2000 (by decide) (by decide) (by decide)
    (by decide) (by decide) (by decide)
  exact ⟨p, pair', q, r, hp, hpair', hq, hr, hle⟩

end SplitPair

/-! ## Adding liquidity and removing it again -/

/-- What a deposit into a pool that is not empty gives back at once. -/
theorem Adds.returns {p : Pool Int} {x b liquidity b' q' : Int} (hfull : p.IsFull) (hx : 0 < x)
    (h : Adds p x b liquidity) (hb : 0 < b) (hl : 0 ≤ liquidity)
    (hb' : mulAndQuo (p.base + b) liquidity (p.shares + liquidity) = some b')
    (hq' : mulAndQuo (p.quote + x) liquidity (p.shares + liquidity) = some q') :
    b' ≤ b ∧ q' ≤ x := by
  obtain ⟨hbase, hquote, hshares⟩ := hfull
  obtain ⟨hzero, -⟩ | ⟨-, -, -, -, hminted, b₀, hb₀, hpaid⟩ := h
  · exact absurd hzero hbase.ne'
  rw [mulAndQuo_eq hx.le hshares.le hquote] at hminted
  rw [mulAndQuo_eq hx.le hbase.le hquote] at hb₀
  have hpos : 0 < p.shares + liquidity := by linarith
  rw [mulAndQuo_eq (by linarith) hl hpos] at hb' hq'
  cases hb'
  cases hq'
  -- the pool tokens are at most the part of the quote coins that was paid in
  have hpart : liquidity * p.quote ≤ x * p.shares :=
    (Option.some.inj hminted) ▸ Int.ediv_mul_le _ hquote.ne'
  have hrest : x * p.base < (b + 1) * p.quote := by
    have hle : b₀ ≤ b := by
      rw [hpaid]
      split_ifs with hz
      · rw [hz]
        exact zero_le_one
      · exact le_rfl
    calc x * p.base < (b₀ + 1) * p.quote :=
          (Option.some.inj hb₀) ▸ Int.lt_ediv_add_one_mul_self _ hquote
      _ ≤ (b + 1) * p.quote := mul_le_mul_of_nonneg_right (by linarith) hquote.le
  refine ⟨Int.lt_add_one_iff.mp ?_, ?_⟩
  · exact Pool.withdraw_lt_deposit hbase.le hquote hshares hl hpart hrest
      (Int.ediv_mul_le _ hpos.ne')
  · exact Pool.withdraw_le_deposit hshares hl hpart (Int.ediv_mul_le _ hpos.ne')

namespace SwapState

variable {sk : MintKeeper B} {b b' : B} {coins : Coins} {addr : Address}

/-- Pool tokens that are minted to an account arrive there. -/
theorem getCoins_mintPoolCoinsToUser (h : mintPoolCoinsToUser sk b coins addr = some b') :
    sk.getCoins b' addr = sk.getCoins b addr + coins := by
  obtain ⟨b₁, hmint, hsend⟩ := Option.bind_eq_some_iff.mp h
  rw [sk.getCoins_sendCoins hsend, sk.getCoins_mintCoins hmint, if_pos rfl]
  abel

theorem getCoins_burnPoolCoinsFromUser (h : burnPoolCoinsFromUser sk b coins addr = some b') :
    sk.getCoins b' addr = sk.getCoins b addr - coins := by
  obtain ⟨b₁, hsend, hburn⟩ := Option.bind_eq_some_iff.mp h
  rw [sk.getCoins_burnCoins hburn, sk.getCoins_sendCoins hsend, if_pos rfl]
  abel

/-- **Adding liquidity and removing it again never profits.** The reserves grow by what is deposited
and shrink by what is paid back; of neither coin is that more, and the sender ends with no more of
any coin. -/
theorem add_remove_never_profits {s s₁ s₂ : SwapState B} {blockTime blockTime' : Int}
    {add : MsgAddLiquidity} {remove : MsgRemoveLiquidity} {pair : SwapTokenPair}
    (hpair : s.pairs.get add.getSwapTokenPairName = some pair)
    (hbase : 0 < pair.basePooledCoin.amount) (hquote : 0 < pair.quotePooledCoin.amount)
    (hsupply : 0 < sk.getSupplyByDenom s.bank pair.poolTokenName)
    (hbasic : add.validateBasic = .ok ()) (hadd : s.handleMsgAddLiquidity sk blockTime add = .ok s₁)
    (hbasic' : remove.validateBasic = .ok ())
    (hname : remove.getSwapTokenPairName = add.getSwapTokenPairName)
    (hsender : remove.sender = add.sender)
    (hminted : remove.liquidity = sk.getSupplyByDenom s₁.bank pair.poolTokenName -
      sk.getSupplyByDenom s.bank pair.poolTokenName)
    (hremove : s₁.handleMsgRemoveLiquidity sk blockTime' remove = .ok s₂) :
    ∃ base base' quote',
      s₁.pairs.get add.getSwapTokenPairName = some (pair.change base add.quoteAmount.amount) ∧
      s₂.pairs.get add.getSwapTokenPairName =
        some ((pair.change base add.quoteAmount.amount).change (-base') (-quote')) ∧
      base' ≤ base ∧ quote' ≤ add.quoteAmount.amount ∧
      ∀ d, sk.getCoins s₂.bank add.sender d ≤ sk.getCoins s.bank add.sender d := by
  obtain ⟨pair', b, liquidity, bank, bank₁, hpair', hx, hb, hl, hadds, hsend, hmint, rfl⟩ :=
    handleMsgAddLiquidity_cases hbasic hadd
  cases hpair'.symm.trans hpair
  obtain ⟨pair₁, b', q', bank', bank₂, hpair₁, -, -, hb', hq', hsend', hburn, rfl⟩ :=
    handleMsgRemoveLiquidity_cases hbasic' hremove
  rw [hname] at hpair₁
  cases hpair₁.symm.trans KVStore.get_set_self
  -- the pool tokens that are burned are those that were minted
  have hgrown : sk.getSupplyByDenom bank₁ pair.poolTokenName =
      sk.getSupplyByDenom s.bank pair.poolTokenName + liquidity := by
    rw [(mintPoolCoinsToUser_spec hmint).2, (sendCoinsToPool_spec hsend).2, coin_self]
  have hall : remove.liquidity = liquidity := hminted.trans (sub_eq_of_eq_add' hgrown)
  have hb' : mulAndQuo (pair.basePooledCoin.amount + b) remove.liquidity
      (sk.getSupplyByDenom bank₁ pair.poolTokenName) = some b' := hb'
  have hq' : mulAndQuo (pair.quotePooledCoin.amount + add.quoteAmount.amount) remove.liquidity
      (sk.getSupplyByDenom bank₁ pair.poolTokenName) = some q' := hq'
  rw [hall, hgrown] at hb' hq'
  obtain ⟨hble, hqle⟩ := Adds.returns ⟨hbase, hquote, hsupply⟩ hx hadds hb hl hb' hq'
  refine ⟨b, b', q', KVStore.get_set_self, ?_, hble, hqle, fun d => ?_⟩
  · rw [hname]
    exact KVStore.get_set_self
  · rw [hsender] at hsend' hburn
    show sk.getCoins bank₂ add.sender d ≤ _
    rw [getCoins_burnPoolCoinsFromUser hburn, sk.getCoins_sendCoins hsend',
      getCoins_mintPoolCoinsToUser hmint, sk.getCoins_sendCoins hsend, hall, if_pos rfl, if_pos rfl]
    have hback : (coin pair.basePooledCoin.denom b' + coin pair.quotePooledCoin.denom q') d ≤
        (coin pair.quotePooledCoin.denom add.quoteAmount.amount +
          coin pair.basePooledCoin.denom b) d := by
      simp only [DFinsupp.add_apply, coin_apply]
      split_ifs <;> omega
    show (sk.getCoins s.bank add.sender - _ + _ + coin pair.poolTokenName liquidity - _ +
      (coin pair.basePooledCoin.denom b' + coin pair.quotePooledCoin.denom q') -
      coin pair.poolTokenName liquidity) d ≤ _
    split_ifs
    · refine le_of_eq (congrArg (fun c : Coins => c d) ?_)
      show _ - _ + _ + _ - (coin pair.basePooledCoin.denom b' + coin pair.quotePooledCoin.denom q') +
        _ - _ = _
      abel
    · simp only [DFinsupp.add_apply, DFinsupp.sub_apply, DFinsupp.zero_apply] at hback ⊢
      omega

/-- A deposit of 0.45 `okt` and one unit of `abc` into the small pool. -/
def providerAdd : MsgAddLiquidity :=
  ⟨0, ⟨"abc", 2⟩, ⟨"okt", 450000000000000000⟩, 10, "alice"⟩

/-- It gave half a pool token. -/
def providerRemove : MsgRemoveLiquidity :=
  ⟨500000000000000000, ⟨"abc", 0⟩, ⟨"okt", 0⟩, 10, "alice"⟩

theorem add_remove_never_profits_smallPool : ∃ s₁ s₂,
    smallPool.handleMsgAddLiquidity simpleMint 0 providerAdd = .ok s₁ ∧
    s₁.handleMsgRemoveLiquidity simpleMint 0 providerRemove = .ok s₂ ∧
    ∀ d, simpleMint.getCoins s₂.bank "alice" d ≤ simpleMint.getCoins smallPool.bank "alice" d := by
  have hrun : ((smallPool.handleMsgAddLiquidity simpleMint 0 providerAdd).toOption.bind fun s₁ =>
      (s₁.handleMsgRemoveLiquidity simpleMint 0 providerRemove).toOption.map fun _ =>
        decide (providerRemove.liquidity =
          simpleMint.getSupplyByDenom s₁.bank "ammswap_abc_okt" -
            simpleMint.getSupplyByDenom smallPool.bank "ammswap_abc_okt")) = some true := by
    decide +kernel
  obtain ⟨s₁, hs₁, hrun⟩ := Option.bind_eq_some_iff.mp hrun
  obtain ⟨s₂, hs₂, hminted⟩ := Option.map_eq_some_iff.mp hrun
  rw [toOption_eq_some] at hs₁ hs₂
  have hpair : smallPool.pairs.get providerAdd.getSwapTokenPairName =
      some ⟨⟨"okt", 900000000000000000⟩, ⟨"abc", 3⟩, "ammswap_abc_okt"⟩ := by decide +kernel
  obtain ⟨-, -, -, -, -, -, -, hle⟩ := add_remove_never_profits hpair (by decide) (by decide)
    (by decide +kernel) (by decide +kernel) hs₁ (by decide +kernel) (by decide +kernel) rfl
    (of_decide_eq_true hminted) hs₂
  exact ⟨s₁, s₂, hs₁, hs₂, hle⟩

end SwapState

end Okexchain
