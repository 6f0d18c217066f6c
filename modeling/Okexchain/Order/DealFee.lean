import Okexchain.Order.Settlement

/-!
# The deal fee an order records

`chargeFee` of `x/order/match/periodicauction/fill.go` computes two fees. The *cost fee* is owed for
the blocks the order has waited, when it is completely filled; before that it is zero. The *deal
fee* (`GetDealFee` of `x/order/keeper/fee.go`) is sent to the product's fee receiver with every
fill. What it then hands to `RecordOrderDealFee` is the cost fee.

* `FillCall` is one call of `fillOrder`: other orders may be filled and blocks may end between two
  calls, so each has a state of its own. `fillsPaid` runs such calls, as long as the transfers of
  the deal fees succeed, and adds up the deal fees.
* A fill that does not complete the order records zero (`fillOrder_paid`). Zero is what is recorded
  until the last fill, and also after it if the text of the zero fee is not read back
  (`fillsPaid_record`).

**Results.** `recorded_deal_fee_iff`: **the record is right exactly if nothing was filled, or the
last fill completes the order and its cost fee happens to be the sum of the deal fees**.
-/

namespace Okexchain

variable {B : Type}

/-- The denomination an order receives, in which its deal fees are paid. -/
def Order.receiveDenom (o : Order) : String :=
  if o.side = .buy then baseSymbol o.product else quoteSymbol o.product

/-- For how many blocks an order owes its fee per block. -/
def Order.waited (o : Order) (height : Nat) : Int :=
  max 0 (min (height - getBlockHeightFromOrderID o.orderID) o.orderExpireBlocks)

theorem Order.costFee_waited (o : Order) (height : Nat) :
    o.costFee height = coin o.feePerBlock.denom (o.feePerBlock.amount * o.waited height) := by
  unfold costFee waited
  simp only
  split_ifs with h
  · rw [max_eq_left ((min_le_left _ _).trans h.le), Int.mul_zero, coin_zero]
  · rw [Dec.mul_newDec, max_eq_right (le_min (not_lt.mp h) (Int.natCast_nonneg _))]

/-- What is recorded after `RecordOrderDealFee`. -/
def recordedFee (parseDecCoins : Coins → Option Coins) : Option Coins → Coins → Option Coins
  | none, fee => some fee
  | some oldValue, fee =>
    match parseDecCoins oldValue with
    | none => some oldValue
    | some oldFee => some (oldFee + fee)

theorem Order.recordOrderDealFee_eq (parseDecCoins : Coins → Option Coins) (o : Order)
    (fee : Coins) : o.recordOrderDealFee parseDecCoins fee = { o with extraInfo :=
      { o.extraInfo with dealFee := recordedFee parseDecCoins o.extraInfo.dealFee fee } } := by
  unfold recordOrderDealFee recordedFee
  cases hold : o.extraInfo.dealFee with
  | none => rfl
  | some oldValue =>
    simp only
    cases parseDecCoins oldValue with
    | none => simp only [← hold]
    | some oldFee => rfl

/-- A coin that is not zero has one denomination and one amount. -/
theorem coin_eq_coin_iff {d d' : String} {a b : Int} (hb : b ≠ 0) :
    coin d a = coin d' b ↔ d = d' ∧ a = b := by
  refine ⟨fun h => ?_, fun h => h.1 ▸ h.2 ▸ rfl⟩
  have hat := DFunLike.congr_fun h d'
  rw [coin_apply, coin_apply, if_pos rfl] at hat
  split_ifs at hat with hd
  · exact ⟨hd, hat⟩
  · exact absurd hat.symm hb

namespace State

/-- The amount of a deal fee. -/
def dealFeeAmount (s : State B) (o : Order) (fillAmt : Int) : Int :=
  max (Dec.mul (if o.side = .buy then fillAmt else Dec.mul fillAmt (s.getLastPrice o.product).2)
    s.params.tradeFeeRate) minFee

theorem getDealFee_eq (s : State B) (o : Order) (fillAmt : Int) :
    (s.getDealFee o fillAmt).2 = coin o.receiveDenom (s.dealFeeAmount o fillAmt) := by
  unfold getDealFee Order.receiveDenom dealFeeAmount
  cases o.side <;> rfl

theorem dealFeeAmount_pos (s : State B) (o : Order) (fillAmt : Int) : 0 < s.dealFeeAmount o fillAmt :=
  lt_of_lt_of_le (by decide) (le_max_right _ _)

theorem snd_getLastPrice_withLedger (s : State B) (led : Ledger B) (product : String) :
    (({ s with ledger := led } : State B).getLastPrice product).2 = (s.getLastPrice product).2 := by
  unfold getLastPrice
  simp only
  split_ifs
  · rfl
  · cases s.store.prices.get product with
    | some price => rfl
    | none => cases s.dex.getTokenPair product <;> rfl

/-- The deal fee reads the side and the product of the order only. -/
theorem getDealFee_withInfo (s : State B) (o : Order) (info : ExtraInfo) (fillAmt : Int) :
    s.getDealFee { o with extraInfo := info } fillAmt = s.getDealFee o fillAmt := rfl

/-- Whether `SendFeesToProductOwner` succeeds in a call of `chargeFee`. -/
def feeSent (env : Env B) (height : Nat) (s : State B) (o : Order) (fillQuantity : Int) : Bool :=
  let s := { s with ledger := s.ledger.closeFee env.bank height o }
  let (s, dealFee) := s.getDealFee o fillQuantity
  (s.sendFeesToProductOwner env height dealFee o.sender o.product).2.isSome

/-- Whether `SendFeesToProductOwner` succeeds in a call of `fillOrder`. -/
def dealFeeSent (env : Env B) (height : Nat) (s : State B) (o : Order)
    (fillPrice fillQuantity : Int) : Bool :=
  match o.fill fillPrice fillQuantity with
  | none => false
  | some o =>
    let s := { s with ledger := s.ledger.settle env.bank o fillPrice fillQuantity }
    s.feeSent env height o.settled fillQuantity

variable {env : Env B} {height : Nat} {s s' : State B} {o : Order} {price amount : Int}
  {deal : Deal}

/-- The deal fee is sent, and the cost fee is recorded. -/
theorem chargeFee_paid (hsent : s.feeSent env height o amount = true) :
    (s.chargeFee env height o amount).2.1.extraInfo.dealFee =
        recordedFee env.parseDecCoins o.extraInfo.dealFee
          (if o.status = .filled then o.costFee height else 0) ∧
      (s.chargeFee env height o amount).2.2.1 = coin o.receiveDenom (s.dealFeeAmount o amount) := by
  obtain ⟨info, hcharged, hinfo⟩ : ∃ info, (if o.status = .filled then
      o.recordOrderReceiveFee (o.receiveFee height) else o) = { o with extraInfo := info } ∧
      info.dealFee = o.extraInfo.dealFee := by
    split_ifs
    · exact ⟨_, rfl, rfl⟩
    · exact ⟨o.extraInfo, rfl, rfl⟩
  unfold feeSent at hsent
  unfold chargeFee
  simp only [hcharged, getDealFee_withInfo] at hsent ⊢
  set s₁ : State B := { s with ledger := s.ledger.closeFee env.bank height o }
  have hfee : (s₁.getDealFee o amount).2 = coin o.receiveDenom (s.dealFeeAmount o amount) := by
    rw [getDealFee_eq, dealFeeAmount, snd_getLastPrice_withLedger]
    rfl
  obtain ⟨receiver, hreceiver⟩ := Option.isSome_iff_exists.mp hsent
  cases hr : (s₁.getDealFee o amount).1.sendFeesToProductOwner env height
      (s₁.getDealFee o amount).2 o.sender o.product with
  | mk led result =>
    rw [hr] at hreceiver
    obtain rfl : result = some receiver := hreceiver
    simp only [Order.recordOrderDealFee_eq, hinfo]
    exact ⟨trivial, hfee⟩

/-- **What a fill whose deal fee is sent records.** -/
theorem fillOrder_paid (hopen : o.status = .open)
    (h : s.fillOrder env height o price amount = some (s', deal))
    (hsent : s.dealFeeSent env height o price amount = true) :
    ∃ o', s'.getOrder o.orderID = some o' ∧ o.SameTerms o' ∧
      o'.remainQuantity = o.remainQuantity - amount ∧
      o'.status = (if o.remainQuantity - amount = 0 then .filled else .open) ∧
      o'.extraInfo.dealFee = recordedFee env.parseDecCoins o.extraInfo.dealFee
        (if o.remainQuantity - amount = 0 then o.costFee height else 0) ∧
      deal.fee = coin o.receiveDenom (s.dealFeeAmount o amount) := by
  unfold fillOrder at h
  unfold dealFeeSent at hsent
  cases hf : o.fill price amount with
  | none =>
    rw [hf] at h
    cases h
  | some o₁ =>
    rw [hf] at h hsent
    simp only at h hsent
    set s₁ : State B := { s with ledger := s.ledger.settle env.bank o₁ price amount }
    obtain ⟨avg, info, hfilled⟩ := Order.settled_fill hopen hf o₁.settled.extraInfo
    have hsettled : o₁.settled = o.filledBy price amount avg info := hfilled
    have hinfo : info = o.extraInfo := by
      obtain ⟨avg', rfl⟩ := Order.fill_spec hf
      have := congrArg Order.extraInfo hsettled
      unfold Order.settled at this
      split_ifs at this <;> exact this.symm
    obtain ⟨hrecord, hfee⟩ := chargeFee_paid hsent
    obtain ⟨info', -, -, -, -, horder⟩ := chargeFee_cases env height s₁ o₁.settled amount
    obtain ⟨rfl, rfl⟩ := Prod.mk.inj (Option.some.inj h)
    rw [horder] at hrecord ⊢
    rw [hsettled] at hrecord hfee ⊢
    subst hinfo
    refine ⟨{ o.filledBy price amount avg o.extraInfo with extraInfo := info' }, ?_,
      ⟨rfl, rfl, rfl, rfl, rfl, rfl, rfl⟩, rfl, ?_, ?_, ?_⟩
    · unfold updateOrder
      split_ifs
      · exact KVStore.get_set_self
      · exact KVStore.get_set_self
    · show (if o.remainQuantity - amount = 0 then OrderStatus.filled else o.status) = _
      rw [hopen]
    · refine hrecord.trans ?_
      have hst : (o.filledBy price amount avg o.extraInfo).status = .filled ↔
          o.remainQuantity - amount = 0 := by
        show (if o.remainQuantity - amount = 0 then OrderStatus.filled else o.status) = .filled ↔ _
        by_cases hz : o.remainQuantity - amount = 0
        · exact iff_of_true (if_pos hz) hz
        · exact iff_of_false (by rw [if_neg hz, hopen]; exact nofun) hz
      exact congrArg _ (if_congr hst rfl rfl)
    · refine hfee.trans ?_
      have : s₁.dealFeeAmount (o.filledBy price amount avg o.extraInfo) amount =
          s.dealFeeAmount o amount := by
        unfold dealFeeAmount
        rw [snd_getLastPrice_withLedger]
        rfl
      rw [this]
      rfl

end State

/-! ## A sequence of fills -/

/-- One call of `fillOrder`, in the state and the block it happens in. -/
structure FillCall (B : Type) where
  state : State B
  height : Nat
  price : Int
  amount : Int

/-- Calls of `fillOrder` on one order, each on what the last one has stored: the order in the end
and the deal fees. `none` also if the transfer of a deal fee fails. -/
def fillsPaid (env : Env B) : Order → List (FillCall B) → Option (Order × Coins)
  | o, [] => some (o, 0)
  | o, c :: cs =>
    if c.state.dealFeeSent env c.height o c.price c.amount then
      match c.state.fillOrder env c.height o c.price c.amount with
      | none => none
      | some (s', deal) =>
        match s'.getOrder o.orderID with
        | none => none
        | some o' => (fillsPaid env o' cs).map fun r => (r.1, deal.fee + r.2)
    else none

/-- The height of the last call. -/
def lastHeight (cs : List (FillCall B)) : Nat := (cs.getLast?.map FillCall.height).getD 0

/-- What the calls fill. -/
def totalFilled (cs : List (FillCall B)) : Int := (cs.map FillCall.amount).sum

/-- What the calls cost in deal fees. -/
def totalDealFee (o : Order) (cs : List (FillCall B)) : Int :=
  (cs.map fun c => c.state.dealFeeAmount o c.amount).sum

section Run

variable {env : Env B} {o o' : Order} {cs : List (FillCall B)} {paid : Coins}

theorem totalDealFee_pos (hne : cs ≠ []) (o : Order) : 0 < totalDealFee o cs := by
  unfold totalDealFee
  refine List.sum_pos _ (fun x hx => ?_) (by simpa using hne)
  obtain ⟨c, -, rfl⟩ := List.mem_map.mp hx
  exact c.state.dealFeeAmount_pos o c.amount

theorem totalFilled_pos (hne : cs ≠ []) (hpos : ∀ c ∈ cs, 0 < c.amount) : 0 < totalFilled cs := by
  unfold totalFilled
  refine List.sum_pos _ (fun x hx => ?_) (by simpa using hne)
  obtain ⟨c, hc, rfl⟩ := List.mem_map.mp hx
  exact hpos c hc

theorem Order.SameTerms.totalDealFee (h : o.SameTerms o') :
    totalDealFee o' cs = totalDealFee o cs := by
  unfold Okexchain.totalDealFee State.dealFeeAmount
  rw [h.side, h.product]

theorem fillsPaid_cons {c : FillCall B} (hopen : o.status = .open)
    (h : fillsPaid env o (c :: cs) = some (o', paid)) :
    ∃ o₁ rest, fillsPaid env o₁ cs = some (o', rest) ∧ o.SameTerms o₁ ∧
      o₁.remainQuantity = o.remainQuantity - c.amount ∧
      o₁.status = (if o.remainQuantity - c.amount = 0 then .filled else .open) ∧
      o₁.extraInfo.dealFee = recordedFee env.parseDecCoins o.extraInfo.dealFee
        (if o.remainQuantity - c.amount = 0 then o.costFee c.height else 0) ∧
      paid = coin o.receiveDenom (c.state.dealFeeAmount o c.amount) + rest := by
  unfold fillsPaid at h
  by_cases hsent : c.state.dealFeeSent env c.height o c.price c.amount = true
  · rw [if_pos hsent] at h
    cases hfill : c.state.fillOrder env c.height o c.price c.amount with
    | none =>
      rw [hfill] at h
      cases h
    | some r =>
      obtain ⟨s', deal⟩ := r
      obtain ⟨o₁, hget, hterms, hremain, hst, hrecord, hfee⟩ :=
        State.fillOrder_paid hopen hfill hsent
      rw [hfill] at h
      simp only [hget] at h
      obtain ⟨⟨o₂, rest⟩, hrest, heq⟩ := Option.map_eq_some_iff.mp h
      obtain ⟨rfl, rfl⟩ := Prod.mk.inj heq
      exact ⟨o₁, rest, hrest, hterms, hremain, hst, hrecord, hfee ▸ rfl⟩
  · rw [if_neg hsent] at h
    cases h

/-- A coin list that is read back at all is read back as it was written. -/
def ParsesBack (env : Env B) : Prop := ∀ c c', env.parseDecCoins c = some c' → c' = c

theorem recordedFee_zero (hparse : ParsesBack env) (fee : Coins) :
    recordedFee env.parseDecCoins (some 0) fee =
      if env.parseDecCoins 0 = some 0 then some fee else some 0 := by
  show (match env.parseDecCoins 0 with | none => some 0 | some oldFee => some (oldFee + fee)) = _
  cases h : env.parseDecCoins 0 with
  | none => rw [if_neg nofun]
  | some c =>
    obtain rfl := hparse 0 c h
    rw [if_pos rfl]
    exact congrArg some (zero_add fee)

/-- A fill that does not complete the order leaves a record of zero. -/
theorem recordedFee_partial (hparse : ParsesBack env) {r : Option Coins}
    (hr : r = none ∨ r = some 0) : recordedFee env.parseDecCoins r 0 = some 0 := by
  rcases hr with rfl | rfl
  · rfl
  · rw [recordedFee_zero hparse]
    exact ite_self _

/-- **What is paid and what is recorded** after fills of an order that records nothing or zero. -/
theorem fillsPaid_record (hparse : ParsesBack env) (hopen : o.status = .open)
    (hr : o.extraInfo.dealFee = none ∨ o.extraInfo.dealFee = some 0)
    (hpos : ∀ c ∈ cs, 0 < c.amount) (htotal : totalFilled cs ≤ o.remainQuantity)
    (h : fillsPaid env o cs = some (o', paid)) :
    paid = coin o.receiveDenom (totalDealFee o cs) ∧
      (cs ≠ [] → o'.extraInfo.dealFee =
        if totalFilled cs = o.remainQuantity ∧
            (o.extraInfo.dealFee = none ∧ cs.length = 1 ∨ env.parseDecCoins 0 = some 0)
          then some (o.costFee (lastHeight cs)) else some 0) := by
  induction cs generalizing o paid with
  | nil =>
    obtain ⟨rfl, rfl⟩ := Prod.mk.inj (Option.some.inj h)
    exact ⟨(coin_zero _).symm, fun hc => absurd rfl hc⟩
  | cons c cs ih =>
    obtain ⟨o₁, rest, hrest, hterms, hremain, hst, hrecord, rfl⟩ := fillsPaid_cons hopen h
    have hpos' : ∀ c ∈ cs, 0 < c.amount := fun x hx => hpos x (List.mem_cons_of_mem _ hx)
    have hsum : totalFilled (c :: cs) = c.amount + totalFilled cs := rfl
    have hdenom : o₁.receiveDenom = o.receiveDenom := by
      unfold Order.receiveDenom
      rw [hterms.side, hterms.product]
    have hcost : ∀ height, o₁.costFee height = o.costFee height := fun height => by
      unfold Order.costFee
      rw [hterms.orderID, hterms.expire, hterms.fee]
    by_cases hz : o.remainQuantity - c.amount = 0
    · -- the order is complete: there are no more fills
      have hnil : cs = [] := by
        by_contra hne
        have := totalFilled_pos hne hpos'
        omega
      subst hnil
      obtain ⟨rfl, rfl⟩ := Prod.mk.inj (Option.some.inj hrest)
      have hall : totalFilled [c] = o.remainQuantity := by
        rw [hsum]
        show c.amount + 0 = _
        omega
      refine ⟨?_, fun _ => ?_⟩
      · rw [add_zero]
        exact congrArg _ (add_zero _).symm
      · rw [hrecord, if_pos hz]
        rcases hr with hr | hr
        · rw [hr, if_pos ⟨hall, .inl ⟨rfl, rfl⟩⟩]
          rfl
        · rw [hr, recordedFee_zero hparse]
          refine if_congr ⟨fun hp => ⟨hall, .inr hp⟩, fun hc => ?_⟩ rfl rfl
          exact hc.2.resolve_left fun hn => (by cases hn.1)
    · rw [if_neg hz] at hst
      rw [if_neg hz, recordedFee_partial hparse hr] at hrecord
      obtain ⟨rfl, hlater⟩ := ih hst (.inr hrecord) hpos' (by omega) hrest
      refine ⟨?_, fun _ => ?_⟩
      · rw [hdenom, hterms.totalDealFee, ← coin_add]
        rfl
      · by_cases hne : cs = []
        · subst hne
          obtain ⟨rfl, -⟩ := Prod.mk.inj (Option.some.inj hrest)
          rw [hrecord, if_neg fun hc => hz ?_]
          have hall : c.amount + 0 = o.remainQuantity := hc.1
          omega
        · have hlast : lastHeight (c :: cs) = lastHeight cs := by
            unfold lastHeight
            rw [List.getLast?_cons_of_ne_nil hne]
          have hlen : cs.length ≠ 0 := fun hc => hne (List.length_eq_zero_iff.mp hc)
          rw [hlater hne, hcost, hlast]
          refine if_congr (and_congr (by omega) (or_congr_left ?_)) rfl rfl
          refine iff_of_false (fun hc => ?_) fun hc => ?_
          · rw [hrecord] at hc
            cases hc.1
          · have : cs.length + 1 = 1 := hc.2
            omega

/-- **The recorded deal fee is what was paid, exactly if nothing was filled, or the last fill
completes the order, the fee per block is in the coin that the deals pay, and for the blocks waited
it comes to the sum of the deal fees** (and an earlier record, of zero, is read back). -/
theorem recorded_deal_fee_iff (hparse : ParsesBack env) (hopen : o.status = .open)
    (hnew : o.extraInfo.dealFee = none) (hpos : ∀ c ∈ cs, 0 < c.amount)
    (htotal : totalFilled cs ≤ o.remainQuantity) (h : fillsPaid env o cs = some (o', paid)) :
    o'.extraInfo.dealFee.getD 0 = paid ↔
      cs = [] ∨ (totalFilled cs = o.remainQuantity ∧
        (cs.length = 1 ∨ env.parseDecCoins 0 = some 0) ∧
        o.feePerBlock.denom = o.receiveDenom ∧
        o.feePerBlock.amount * o.waited (lastHeight cs) = totalDealFee o cs) := by
  obtain ⟨rfl, hrecord⟩ := fillsPaid_record hparse hopen (.inl hnew) hpos htotal h
  by_cases hne : cs = []
  · subst hne
    obtain ⟨rfl, -⟩ := Prod.mk.inj (Option.some.inj h)
    refine iff_of_true ?_ (.inl rfl)
    rw [hnew]
    exact (coin_zero _).symm
  · have hfees := totalDealFee_pos hne o
    rw [hrecord hne, or_iff_right hne, hnew, Order.costFee_waited]
    split_ifs with hc
    · rw [Option.getD_some, coin_eq_coin_iff hfees.ne']
      refine ⟨fun heq => ⟨hc.1, hc.2.imp_left And.right, heq⟩, fun heq => heq.2.2⟩
    · refine iff_of_false (fun hzero => ?_) fun heq => hc ⟨heq.1, heq.2.1.imp_left fun h => ⟨rfl, h⟩⟩
      have := DFunLike.congr_fun hzero o.receiveDenom
      rw [coin_apply, if_pos rfl] at this
      exact hfees.ne this

end Run

/-! ## An order that costs as much as its deal, and one that does not -/

/-- An order costs the least deal fee per block. -/
def blockFeeParams : Params :=
  { freeParams 10 10 ten_pos ten_pos with
    feePerBlock := ⟨"okt", minFee⟩
    feePerBlock_nonneg := by decide }

/-- In block one Alice bids for the quantity at ten and Bob asks for it: the state, and Bob's
order. -/
def askedMarket (quantity : Int) : Option (State (KVStore Address Coins) × Order) :=
  let s := (abcMarket blockFeeParams).state
  let bank := s.ledger.bank.set "bob" (coin "abc" (Dec.newDec 1000) + coin "okt" (Dec.newDec 1000))
  let ask := fun sender side =>
    getOrderFromMsg blockFeeParams sender (abcItem side 10 quantity) (Dec.newDec 1)
  (({ s with ledger := { s.ledger with bank := bank } }).placeOrder simpleEnv 1
    (ask "alice" .buy)).bind fun r => r.1.placeOrder simpleEnv 1 (ask "bob" .sell)

theorem parsesBack_simpleEnv : ParsesBack simpleEnv := fun _ _ h => (Option.some.inj h).symm

/-- Bob's ask for one is filled after one block. -/
theorem recorded_deal_fee_iff_equal : ∃ s o o', askedMarket 1 = some (s, o) ∧
    fillsPaid simpleEnv o [⟨s, 2, Dec.newDec 10, Dec.newDec 1⟩] = some (o', coin "okt" minFee) ∧
    o'.extraInfo.dealFee.getD 0 = coin "okt" minFee := by
  have hrun : ((askedMarket 1).bind fun r =>
      (fillsPaid simpleEnv r.2 [⟨r.1, 2, Dec.newDec 10, Dec.newDec 1⟩]).map fun e =>
        (e.2, decide (r.2.status = .open ∧ r.2.extraInfo.dealFee = none ∧
          r.2.remainQuantity = Dec.newDec 1 ∧ r.2.feePerBlock.denom = r.2.receiveDenom ∧
          r.2.feePerBlock.amount * r.2.waited 2 = r.1.dealFeeAmount r.2 (Dec.newDec 1)))) =
        some (coin "okt" minFee, true) := by decide +kernel
  obtain ⟨⟨s, o⟩, hs, hrun⟩ := Option.bind_eq_some_iff.mp hrun
  obtain ⟨⟨o', paid⟩, hfills, heq⟩ := Option.map_eq_some_iff.mp hrun
  obtain ⟨rfl, hok⟩ := Prod.mk.inj heq
  obtain ⟨hopen, hnew, hremain, hdenom, hfee⟩ := of_decide_eq_true hok
  have htotal : totalFilled [(⟨s, 2, Dec.newDec 10, Dec.newDec 1⟩ : FillCall _)] =
      o.remainQuantity := (add_zero _).trans hremain.symm
  refine ⟨s, o, o', hs, hfills, ?_⟩
  refine (recorded_deal_fee_iff parsesBack_simpleEnv hopen hnew (fun c hc => ?_) htotal.le
    hfills).mpr (.inr ⟨htotal, .inl rfl, hdenom, hfee.trans (add_zero _).symm⟩)
  rw [List.mem_singleton.mp hc]
  show 0 < Dec.newDec 1
  decide

/-- Bob asks for two and gets one: the record is zero, and the least deal fee was paid. -/
theorem recorded_deal_fee_zero : ∃ s o o', askedMarket 2 = some (s, o) ∧
    fillsPaid simpleEnv o [⟨s, 2, Dec.newDec 10, Dec.newDec 1⟩] = some (o', coin "okt" minFee) ∧
    o'.extraInfo.dealFee = some 0 ∧ o'.extraInfo.dealFee.getD 0 ≠ coin "okt" minFee := by
  have hrun : ((askedMarket 2).bind fun r =>
      (fillsPaid simpleEnv r.2 [⟨r.1, 2, Dec.newDec 10, Dec.newDec 1⟩]).map fun e =>
        (e.1.extraInfo.dealFee, e.2)) = some (some 0, coin "okt" minFee) := by decide +kernel
  obtain ⟨⟨s, o⟩, hs, hrun⟩ := Option.bind_eq_some_iff.mp hrun
  obtain ⟨⟨o', paid⟩, hfills, heq⟩ := Option.map_eq_some_iff.mp hrun
  obtain ⟨hrecord, rfl⟩ := Prod.mk.inj heq
  refine ⟨s, o, o', hs, hfills, hrecord, ?_⟩
  rw [show o'.extraInfo.dealFee = some 0 from hrecord]
  decide +kernel

end Okexchain
