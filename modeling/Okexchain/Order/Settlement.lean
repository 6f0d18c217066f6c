import Okexchain.Order.FillSpec
import Okexchain.Order.Run

/-!
# An order from its placement to its close

An order locks coins once, when it is placed (`NeedLockCoins`). Its fills take coins out of this
lock (`balanceAccount` of `x/order/match/periodicauction/fill.go`), each by a product that is
rounded on its own. What is left goes back when the order closes: `fillOrder` unlocks it on a
complete fill, and `quitOrder` of `x/order/keeper/keeper.go` on a cancellation or an expiry.

* `Order.fills` is a sequence of fills, `Order.taken` what they take.
* `Order.LockCovers` is what the lock covers; a fill keeps it (`Order.LockCovers.fill`), and takes
  exactly what leaves the lock.

**Results.** `Order.lock_covers_and_refunds`: **the lock covers the order after every fill, and what
was taken and what goes back are together what was locked**.
-/

namespace Okexchain

variable {B : Type}

/-- The units of four decimal places. Prices and quantities come in them, so the products of the
code are exact (`Dec.exact_four`). -/
def grid : Int := 100000000000000

namespace Order

/-- What a fully filled order gets back of its lock. -/
def refund (o : Order) : Coins :=
  if o.status = .filled ∧ 0 < o.remainLocked then o.needUnlockCoins else 0

/-- Fills of an order one after the other, each with its price and its amount. -/
def fills : Order → List (Int × Int) → Option Order
  | o, [] => some o
  | o, (price, amount) :: fs =>
    match o.fill price amount with
    | none => none
    | some o => o.fills fs

/-- What `balanceAccount` takes out of the lock in these fills. -/
def taken (o : Order) (fs : List (Int × Int)) : Coins :=
  (fs.map fun f => o.outputCoins f.1 f.2).sum

/-- What goes back when the order closes: `fillOrder` returns the rest of a completely filled order,
`quitOrder` that of any other. -/
def finalRefund (o : Order) : Coins := if o.status = .filled then o.refund else o.needUnlockCoins

/-- A fill a match may make: a whole amount, and a whole price within the order's limit. -/
structure Fillable (o : Order) (price amount : Int) : Prop where
  pos : 0 < amount
  whole : grid ∣ amount
  onGrid : grid ∣ price
  buy : o.side = .buy → price ≤ o.price
  sell : o.side = .sell → o.price ≤ price

/-- The lock of an order covers what is left of it. -/
structure LockCovers (o : Order) : Prop where
  price_pos : 0 < o.price
  price : grid ∣ o.price
  remain : grid ∣ o.remainQuantity
  remain_nonneg : 0 ≤ o.remainQuantity
  remain_le : o.remainQuantity ≤ o.quantity
  buy : o.side = .buy → Dec.mul o.price o.remainQuantity ≤ o.remainLocked
  sell : o.side = .sell → o.remainLocked = o.remainQuantity
  status : o.status = .filled ↔ o.remainQuantity = 0

variable {o o' : Order} {price amount : Int} {fs : List (Int × Int)}

/-- What a fill takes is part of what the order has locked, and on the buyers' side the price is
not above the order's. -/
theorem lockAfter_ge (hop : grid ∣ o.price) (hrem : grid ∣ o.remainQuantity)
    (hbuy : o.side = .buy → Dec.mul o.price o.remainQuantity ≤ o.remainLocked)
    (hsell : o.side = .sell → o.remainLocked = o.remainQuantity)
    (hp : grid ∣ price) (ha : grid ∣ amount)
    (hprice : o.side = .buy → price ≤ o.price) (hpos : 0 ≤ amount) :
    (o.side = .buy → Dec.mul o.price (o.remainQuantity - amount) ≤ o.lockAfter price amount) ∧
      (o.side = .sell → o.lockAfter price amount = o.remainQuantity - amount) := by
  unfold lockAfter
  refine ⟨fun hside => ?_, fun hside => ?_⟩
  · rw [if_pos hside]
    have h1 := Dec.exact_four.mul_sub hop hrem ha
    have h2 := Dec.exact_four.mul_le_mul hp hop ha (hprice hside) hpos
    have h3 := hbuy hside
    omega
  · rw [if_neg (by rw [hside]; exact nofun), hsell hside]

theorem LockCovers.locked_nonneg (h : o.LockCovers) : 0 ≤ o.remainLocked := by
  cases hside : o.side with
  | buy => exact (Dec.mul_nonneg h.price_pos.le h.remain_nonneg).trans (h.buy hside)
  | sell => exact (h.sell hside).symm ▸ h.remain_nonneg

/-- The terms of an order, which no fill changes. -/
structure SameTerms (o o' : Order) : Prop where
  orderID : o'.orderID = o.orderID
  product : o'.product = o.product
  side : o'.side = o.side
  price : o'.price = o.price
  quantity : o'.quantity = o.quantity
  expire : o'.orderExpireBlocks = o.orderExpireBlocks
  fee : o'.feePerBlock = o.feePerBlock

/-- **A fill keeps the lock covered**, and takes what leaves the lock. -/
theorem LockCovers.fill (h : o.LockCovers) (hf : o.Fillable price amount)
    (hle : amount ≤ o.remainQuantity) :
    ∃ o', o.fill price amount = some o' ∧ o'.LockCovers ∧ SameTerms o o' ∧
      o'.remainQuantity = o.remainQuantity - amount ∧
      o.needUnlockCoins = o.outputCoins price amount + o'.needUnlockCoins := by
  have hpos := hf.pos
  have hfilled := h.remain_le
  obtain ⟨o', ho'⟩ : ∃ o', o.fill price amount = some o' := fill_isSome (by omega)
  obtain ⟨avg, rfl⟩ := fill_spec ho'
  obtain ⟨hb, hs⟩ :=
    lockAfter_ge h.price h.remain h.buy h.sell hf.onGrid hf.whole hf.buy hf.pos.le
  refine ⟨_, ho', ?_, ⟨rfl, rfl, rfl, rfl, rfl, rfl, rfl⟩, rfl, ?_⟩
  · constructor
    case price_pos => exact h.price_pos
    case price => exact h.price
    case remain => exact Int.dvd_sub h.remain hf.whole
    case remain_nonneg => exact Int.sub_nonneg_of_le hle
    case remain_le =>
      show o.remainQuantity - amount ≤ o.quantity
      omega
    case buy => exact hb
    case sell => exact hs
    case status =>
      show (if o.remainQuantity - amount = 0 then OrderStatus.filled else o.status) = .filled ↔ _
      have hopen : ¬ o.status = .filled := fun hc => by
        have := h.status.mp hc
        omega
      by_cases hz : o.remainQuantity - amount = 0
      · exact iff_of_true (if_pos hz) hz
      · exact iff_of_false (by rwa [if_neg hz]) hz
  · show coin o.lockDenom o.remainLocked = _ + coin o.lockDenom (o.lockAfter price amount)
    unfold outputCoins lockDenom lockAfter
    cases o.side with
    | buy =>
      simp only [if_true]
      rw [← coin_add, add_sub_cancel]
    | sell =>
      simp only [reduceCtorEq, if_false]
      rw [← coin_add, add_sub_cancel]

theorem SameTerms.trans {o₁ o₂ o₃ : Order} (h : SameTerms o₁ o₂) (h' : SameTerms o₂ o₃) :
    SameTerms o₁ o₃ where
  orderID := h'.orderID.trans h.orderID
  product := h'.product.trans h.product
  side := h'.side.trans h.side
  price := h'.price.trans h.price
  quantity := h'.quantity.trans h.quantity
  expire := h'.expire.trans h.expire
  fee := h'.fee.trans h.fee

theorem SameTerms.fillable (h : SameTerms o o') (hf : o.Fillable price amount) :
    o'.Fillable price amount where
  pos := hf.pos
  whole := hf.whole
  onGrid := hf.onGrid
  buy := fun hside => h.price.symm ▸ hf.buy (h.side ▸ hside)
  sell := fun hside => h.price.symm ▸ hf.sell (h.side ▸ hside)

theorem SameTerms.taken (h : SameTerms o o') : o'.taken fs = o.taken fs := by
  unfold Order.taken outputCoins
  rw [h.side, h.product]

/-- The fills of a sequence do not panic, keep the lock covered and take what leaves it. -/
theorem LockCovers.fills (h : o.LockCovers) (hfs : ∀ f ∈ fs, o.Fillable f.1 f.2)
    (htotal : (fs.map Prod.snd).sum ≤ o.remainQuantity) :
    ∃ o', o.fills fs = some o' ∧ o'.LockCovers ∧ SameTerms o o' ∧
      o.needUnlockCoins = o.taken fs + o'.needUnlockCoins := by
  induction fs generalizing o with
  | nil => exact ⟨o, rfl, h, ⟨rfl, rfl, rfl, rfl, rfl, rfl, rfl⟩, (zero_add _).symm⟩
  | cons f fs ih =>
    have hrest : 0 ≤ (fs.map Prod.snd).sum := List.sum_nonneg fun x hx => by
      obtain ⟨g, hg, rfl⟩ := List.mem_map.mp hx
      exact (hfs g (List.mem_cons_of_mem _ hg)).pos.le
    rw [List.map_cons, List.sum_cons] at htotal
    have hf := hfs f List.mem_cons_self
    obtain ⟨o₁, ho₁, hcov, hterms, hremain, hcoins⟩ := h.fill hf (by omega)
    obtain ⟨o', ho', hcov', hterms', hcoins'⟩ :=
      ih hcov (fun g hg => hterms.fillable (hfs g (List.mem_cons_of_mem _ hg))) (by omega)
    refine ⟨o', ?_, hcov', hterms.trans hterms', ?_⟩
    · show (match o.fill f.1 f.2 with | none => none | some o => o.fills fs) = _
      rw [ho₁]
      exact ho'
    · rw [hcoins, hcoins', hterms.taken, ← add_assoc]
      rfl

/-- Whichever way a covered order closes, all it has locked goes back. -/
theorem LockCovers.finalRefund (h : o.LockCovers) : o.finalRefund = o.needUnlockCoins := by
  unfold Order.finalRefund refund
  split_ifs with hfilled hpos
  · rfl
  · have hzero : o.remainLocked = 0 := le_antisymm (not_lt.mp fun hc => hpos ⟨hfilled, hc⟩)
      h.locked_nonneg
    rw [needUnlockCoins, hzero, coin_zero]
  · rfl

end Order

/-- An order as `PlaceOrder` stores it is covered by what `TryPlaceOrder` locked for it. -/
theorem State.lockCovers_placed {env : Env B} {height : Nat} {s s' : State B} {sender : Address}
    {item : OrderItem} {ratio : Int} {o : Order}
    (h : s.placeOrder env height (getOrderFromMsg s.params sender item ratio) = some (s', o))
    (hp : 0 < item.price) (hq : 0 < item.quantity) (hprice : grid ∣ item.price)
    (hquantity : grid ∣ item.quantity) :
    o.LockCovers ∧ o.needUnlockCoins = o.needLockCoins ∧ o.remainQuantity = item.quantity := by
  obtain ⟨led, -, rfl, -⟩ := placeOrder_cases h
  refine ⟨⟨hp, hprice, hquantity, hq.le, le_rfl, fun hside => ?_, fun hside => ?_, ?_⟩, rfl, rfl⟩
  · exact (if_pos hside).ge
  · exact if_neg (by rw [show item.side = .sell from hside]; exact nofun)
  · exact iff_of_false nofun hq.ne'

/-- **The lock covers the order and is refunded to the last unit.** The sequence is arbitrary, so
the statement is about the order after each of the fills. -/
theorem Order.lock_covers_and_refunds {env : Env B} {height : Nat} {s s' : State B}
    (msg : MsgNewOrders) {item : OrderItem} {o : Order} (fs : List (Int × Int))
    (h : s.placeOrder env height
      (getOrderFromMsg s.params msg.sender item (feeRatio msg)) = some (s', o))
    (hp : 0 < item.price) (hq : 0 < item.quantity) (hprice : grid ∣ item.price)
    (hquantity : grid ∣ item.quantity) (hfs : ∀ f ∈ fs, o.Fillable f.1 f.2)
    (htotal : (fs.map Prod.snd).sum ≤ item.quantity) :
    ∃ o', o.fills fs = some o' ∧
      0 ≤ o'.remainLocked ∧
      (o'.side = .buy → Dec.mul o'.price o'.remainQuantity ≤ o'.remainLocked) ∧
      (o'.side = .sell → o'.remainLocked = o'.remainQuantity) ∧
      o.taken fs + o'.finalRefund = o.needLockCoins ∧
      (o'.status = .filled ↔ o'.remainQuantity = 0) ∧
      ∀ height d, o'.costFee height d ≤ o.newFee d := by
  obtain ⟨hcov, hlock, hremain⟩ := State.lockCovers_placed h hp hq hprice hquantity
  obtain ⟨o', ho', hcov', hterms, hcoins⟩ := hcov.fills hfs (hremain ▸ htotal)
  refine ⟨o', ho', hcov'.locked_nonneg, hcov'.buy, hcov'.sell, ?_, hcov'.status, fun height d => ?_⟩
  · rw [hcov'.finalRefund, ← hcoins, hlock]
  · have hfee : o'.newFee = o.newFee := by
      unfold newFee
      rw [hterms.fee, hterms.expire]
    have hnonneg : 0 ≤ o'.feePerBlock.amount := by
      rw [hterms.fee]
      obtain ⟨led, -, rfl, -⟩ := State.placeOrder_cases h
      exact Dec.mul_nonneg s.params.feePerBlock_nonneg (feeRatio_nonneg msg)
    have := receiveFee_nonneg hnonneg height d
    rw [receiveFee, DFinsupp.sub_apply, hfee] at this
    omega

/-- A bid for three at ten. -/
def bidForThree : Order :=
  getOrderFromMsg (freeParams 10 10 ten_pos ten_pos) "alice" (abcItem .buy 10 3)
    (feeRatio ⟨"alice", [abcItem .buy 10 3]⟩)

/-- One at nine and two at ten. -/
def twoFills : List (Int × Int) := [(Dec.newDec 9, Dec.newDec 1), (Dec.newDec 10, Dec.newDec 2)]

/-- The bid locks thirty, its fills take twenty-nine, and one goes back. -/
theorem Order.lock_covers_and_refunds_bid : ∃ s' o o',
    (abcMarket (freeParams 10 10 ten_pos ten_pos)).state.placeOrder simpleEnv 1 bidForThree =
      some (s', o) ∧
    o.fills twoFills = some o' ∧ o'.remainLocked = Dec.newDec 1 ∧ o'.status = .filled ∧
    o.taken twoFills + o'.finalRefund = o.needLockCoins := by
  have hrun : ((abcMarket (freeParams 10 10 ten_pos ten_pos)).state.placeOrder simpleEnv 1
      bidForThree).isSome = true := by decide +kernel
  obtain ⟨⟨s', o⟩, ho⟩ := Option.isSome_iff_exists.mp hrun
  obtain ⟨led, -, rfl, -⟩ := State.placeOrder_cases ho
  have hfills : ∀ f ∈ twoFills, (bidForThree.placed (formatOrderID 1 1)).Fillable f.1 f.2 := by
    intro f hf
    simp only [twoFills, List.mem_cons, List.not_mem_nil, or_false] at hf
    rcases hf with rfl | rfl
    · exact ⟨by decide, by decide, by decide, fun _ => (by decide +kernel), nofun⟩
    · exact ⟨by decide, by decide, by decide, fun _ => (by decide +kernel), nofun⟩
  obtain ⟨o', ho', -, -, -, hcoins, -, -⟩ :=
    Order.lock_covers_and_refunds ⟨"alice", [abcItem .buy 10 3]⟩ twoFills ho (by decide) (by decide)
      (by decide) (by decide) hfills (by decide)
  have hend : ((bidForThree.placed (formatOrderID 1 1)).fills twoFills).map
      (fun o => (o.remainLocked, o.status)) = some (Dec.newDec 1, .filled) := by decide +kernel
  obtain ⟨o₁, ho₁, heq⟩ := Option.map_eq_some_iff.mp hend
  obtain ⟨hlocked, hstatus⟩ := Prod.mk.inj heq
  cases ho₁.symm.trans ho'
  exact ⟨s', _, o', ho, ho', hlocked, hstatus, hcoins⟩

end Okexchain
