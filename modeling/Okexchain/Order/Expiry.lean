import Okexchain.Order.Run

/-!
# Expiring the orders of a block

`DropExpiredOrdersByBlockHeight` (`x/order/keeper/order.go`) finds the orders of a block by a scan
of the store for the prefix `FormatOrderIDPrefix` of its height. That these are the orders of the
block and no others rests on the text of an order ID (`x/order/types/order.go`): the height is
padded to ten digits, or longer, and ends at a dash.

* `State.expireOpen`: what the scan makes of an order that it visits.
* `State.get_foldl_dropExpiredOrder`: the loop changes the orders that it visits, and each as it was
  read. The locks of products do not change on the way.

**Results.** `orderID_encodes_height`: **an order ID gives its height back, has the prefix of this
height only, and is the ID of one number at it; so expiring a block changes exactly the orders of
this block.**
-/

namespace Okexchain

variable {B : Type}

/-- Every order is stored under its own ID. -/
def Keyed (orders : KVStore String Order) : Prop :=
  ∀ id o, orders.get id = some o → o.orderID = id

namespace State

variable {env : Env B} {height : Nat} {s : State B}

/-- The orders of an iterator are the stored ones, each once. -/
theorem ordersWithPrefix_spec (h : Keyed s.store.orders) (pre : String) :
    (∀ o ∈ s.ordersWithPrefix pre, s.store.orders.get o.orderID = some o) ∧
      ((s.ordersWithPrefix pre).map Order.orderID).Nodup := by
  have hids : (s.ordersWithPrefix pre).map Order.orderID =
      (s.store.orders.entries.filter fun e => hasPrefix pre e.1).map Prod.fst := by
    unfold ordersWithPrefix
    rw [List.map_map]
    refine List.map_congr_left fun e he => ?_
    exact h e.1 e.2 (KVStore.mem_entries.mp (List.mem_of_mem_filter he))
  refine ⟨fun o ho => ?_, ?_⟩
  · obtain ⟨e, he, rfl⟩ := List.mem_map.mp ho
    have hget := KVStore.mem_entries.mp (List.mem_of_mem_filter he)
    rwa [h e.1 e.2 hget]
  · rw [hids]
    exact KVStore.nodup_keys.sublist (List.filter_sublist.map Prod.fst)

/-- The stored orders with a prefix are those of the iterator. -/
theorem mem_ordersWithPrefix (h : Keyed s.store.orders) {pre id : String} {o : Order}
    (hget : s.store.orders.get id = some o) :
    o ∈ s.ordersWithPrefix pre ↔ hasPrefix pre id = true := by
  unfold ordersWithPrefix
  rw [List.mem_map]
  constructor
  · rintro ⟨e, he, rfl⟩
    obtain ⟨hmem, hpre⟩ := List.mem_filter.mp he
    have hid := h e.1 e.2 (KVStore.mem_entries.mp hmem)
    rwa [← h id e.2 hget, hid]
  · intro hpre
    exact ⟨(id, o), List.mem_filter.mpr ⟨KVStore.mem_entries.mpr hget, hpre⟩, rfl⟩

/-- An order after the scan has visited it. -/
def expireOpen (s : State B) (height : Nat) (o : Order) : Order :=
  if o.status = .open ∧ s.dex.isTokenPairLocked o.product = false then o.quit height .expire else o

/-- One step writes one order. -/
theorem dropExpiredOrder_spec (env : Env B) (height : Nat) {o : Order}
    (hget : s.store.orders.get o.orderID = some o) :
    (s.dropExpiredOrder env height o).dex = s.dex ∧
      (s.dropExpiredOrder env height o).store.orders =
        s.store.orders.set o.orderID (s.expireOpen height o) := by
  unfold dropExpiredOrder expireOpen
  split_ifs with hopen
  · exact ⟨rfl, rfl⟩
  · exact ⟨rfl, (KVStore.set_eq_self hget).symm⟩

/-- **The loop changes the orders that it visits.** -/
theorem get_foldl_dropExpiredOrder (l : List Order) (s : State B)
    (hget : ∀ o ∈ l, s.store.orders.get o.orderID = some o) (hnd : (l.map Order.orderID).Nodup)
    (id : String) :
    (l.foldl (dropExpiredOrder env height) s).store.orders.get id =
      if id ∈ l.map Order.orderID then (s.store.orders.get id).map (s.expireOpen height)
      else s.store.orders.get id := by
  induction l generalizing s with
  | nil => rfl
  | cons o l ih =>
    obtain ⟨hid, hnd'⟩ := List.nodup_cons.mp hnd
    obtain ⟨hdex, horders⟩ := dropExpiredOrder_spec env height (hget o List.mem_cons_self)
    have hexpire : (s.dropExpiredOrder env height o).expireOpen height = s.expireOpen height := by
      unfold expireOpen
      rw [hdex]
    have hget' : ∀ o' ∈ l,
        (s.dropExpiredOrder env height o).store.orders.get o'.orderID = some o' := by
      intro o' ho'
      have hne : o'.orderID ≠ o.orderID := fun heq => hid (heq ▸ List.mem_map_of_mem ho')
      rw [horders, KVStore.get_set_ne hne]
      exact hget o' (List.mem_cons_of_mem _ ho')
    rw [List.foldl_cons, ih _ hget' hnd', hexpire, horders]
    by_cases heq : id = o.orderID
    · -- this order has been visited, and is not visited again
      have hmem : o.orderID ∈ (o :: l).map Order.orderID := List.mem_cons_self
      rw [heq, if_neg hid, if_pos hmem, KVStore.get_set_self, hget o List.mem_cons_self]
      rfl
    · rw [KVStore.get_set_ne heq]
      simp only [List.map_cons, List.mem_cons, heq, false_or]

end State

/-- **An order ID gives its height back, has the prefix of this height only, and is the ID of one
number at it; so expiring a block changes exactly the orders of this block**, each that is open and
whose product is not locked. -/
theorem orderID_encodes_height (h n : Nat) :
    getBlockHeightFromOrderID (formatOrderID h n) = h ∧
      (∀ h', hasPrefix (formatOrderIDPrefix h') (formatOrderID h n) = true ↔ h' = h) ∧
      (∀ h' n', formatOrderID h n = formatOrderID h' n' → h = h' ∧ n = n') ∧
      ∀ (env : Env B) (height expired : Nat) (s : State B), Keyed s.store.orders →
        (s.dropExpiredOrdersByBlockHeight env height expired).store.orders.get (formatOrderID h n) =
          if expired = h then (s.store.orders.get (formatOrderID h n)).map (s.expireOpen height)
          else s.store.orders.get (formatOrderID h n) := by
  refine ⟨getBlockHeightFromOrderID_format h n, fun h' => isPrefix_formatOrderID,
    fun h' n' => formatOrderID_inj.mp, fun env height expired s hkeyed => ?_⟩
  obtain ⟨hget, hnd⟩ := State.ordersWithPrefix_spec hkeyed (formatOrderIDPrefix expired)
  unfold State.dropExpiredOrdersByBlockHeight
  rw [State.get_foldl_dropExpiredOrder _ s hget hnd]
  cases hstored : s.store.orders.get (formatOrderID h n) with
  | none => simp only [Option.map_none, ite_self]
  | some o =>
    have hvisited : formatOrderID h n ∈
        (s.ordersWithPrefix (formatOrderIDPrefix expired)).map Order.orderID ↔ expired = h := by
      rw [← isPrefix_formatOrderID, ← State.mem_ordersWithPrefix hkeyed hstored, List.mem_map]
      constructor
      · rintro ⟨o', ho', hid⟩
        have hsame := hget o' ho'
        rw [hid, hstored] at hsame
        cases hsame
        exact ho'
      · exact fun ho => ⟨o, ho, hkeyed _ o hstored⟩
    simp only [hvisited]

/-- The first order of block 1. -/
def firstBid : Order :=
  { Order.new "alice" "abc_okt" .buy (Dec.newDec 10) (Dec.newDec 1) 10 ⟨"okt", 0⟩ with
    orderID := formatOrderID 1 1 }

/-- A market in which it stands. -/
def bidMarket : State (KVStore Address Coins) :=
  (abcMarket (freeParams 10 10 ten_pos ten_pos)).state.setOrder firstBid

/-- Block 1 expires it, and block 10000000001, whose number is longer, does not. -/
theorem orderID_encodes_height_bid :
    (bidMarket.dropExpiredOrdersByBlockHeight simpleEnv 11 1).store.orders.get (formatOrderID 1 1) =
        some (firstBid.quit 11 .expire) ∧
      (bidMarket.dropExpiredOrdersByBlockHeight simpleEnv 11 10000000001).store.orders.get
        (formatOrderID 1 1) = some firstBid := by
  have hkeyed : Keyed bidMarket.store.orders := by
    intro id o h
    have h : ((∅ : KVStore String Order).set firstBid.orderID firstBid).get id = some o := h
    rw [KVStore.get_set] at h
    split_ifs at h with hid
    · cases h
      exact hid.symm
    · cases h
  have hget : bidMarket.store.orders.get (formatOrderID 1 1) = some firstBid := KVStore.get_set_self
  have hopen : bidMarket.expireOpen 11 firstBid = firstBid.quit 11 .expire :=
    if_pos ⟨rfl, by decide +kernel⟩
  have hexpires := (orderID_encodes_height 1 1).2.2.2 simpleEnv 11
  have hone := hexpires 1 bidMarket hkeyed
  have hother := hexpires 10000000001 bidMarket hkeyed
  rw [if_pos rfl, hget, Option.map_some, hopen] at hone
  rw [if_neg (by decide), hget] at hother
  exact ⟨hone, hother⟩

end Okexchain
