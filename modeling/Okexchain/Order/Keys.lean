import Okexchain.Lib.Dec
import Mathlib.Data.String.Basic

/-!
# Order IDs, ID-list keys and product names

Model of the formatting functions of `x/order/types/order.go` and `x/order/types/keys.go`.

* `formatOrderID`, `formatOrderIDPrefix`, `getBlockHeightFromOrderID`: an order ID is
  `ID<height>-<number>`, the height padded to ten digits. `getBlockHeightFromOrderID` is the
  `Sscanf` with the format `ID%d-%d`, which yields `0` when the text does not match.
* `formatOrderIDsKey`: the key `product:price:side` of the ID lists; `Dec.toText` is the
  decimal's text with its 18 places.
* `symbols`: `strings.Split(product, "_")`.

**Results.** The formats are read back: `formatOrderID_inj`, `isPrefix_formatOrderID` (the prefix
of a height selects exactly that height's IDs) and `getBlockHeightFromOrderID_format`.
-/

namespace Okexchain

/-- BUY or SELL. -/
inductive Side where
  | buy
  | sell
deriving DecidableEq, Repr

/-- `BuyOrder` and `SellOrder` as texts. -/
def Side.toText : Side → String
  | .buy => "BUY"
  | .sell => "SELL"

/-! ## Digits -/

/-- Decimal digits, padded with zeros to `w` places. -/
def padDigits (w n : Nat) : List Char :=
  List.replicate (w - (Nat.toDigits 10 n).length) '0' ++ Nat.toDigits 10 n

theorem isDigit_toDigits {n : Nat} {c : Char} (h : c ∈ Nat.toDigits 10 n) : c.isDigit = true :=
  Nat.isDigit_of_mem_toDigits (by decide) (by decide) h

theorem isDigit_padDigits {w n : Nat} {c : Char} (h : c ∈ padDigits w n) : c.isDigit = true := by
  rcases List.mem_append.mp h with h | h
  · rw [(List.mem_replicate.mp h).2]
    rfl
  · exact isDigit_toDigits h

theorem ofDigitChars_toDigits (n : Nat) : Nat.ofDigitChars 10 (Nat.toDigits 10 n) 0 = n :=
  Nat.ofDigitChars_toDigits (by decide) (by decide)

theorem ofDigitChars_zeros (k : Nat) (l : List Char) :
    Nat.ofDigitChars 10 (List.replicate k '0' ++ l) 0 = Nat.ofDigitChars 10 l 0 := by
  induction k with
  | zero => rfl
  | succ k ih => exact ih

theorem ofDigitChars_padDigits (w n : Nat) : Nat.ofDigitChars 10 (padDigits w n) 0 = n :=
  (ofDigitChars_zeros _ _).trans (ofDigitChars_toDigits n)

theorem toDigits_inj {m n : Nat} (h : Nat.toDigits 10 m = Nat.toDigits 10 n) : m = n := by
  rw [← ofDigitChars_toDigits m, h, ofDigitChars_toDigits]

theorem padDigits_ne_nil (w n : Nat) : padDigits w n ≠ [] := by
  intro h
  have := (List.append_eq_nil_iff.mp h).2
  exact Nat.toDigits_ne_nil this

/-- Two texts cut at the first occurrence of a separator. -/
theorem append_cons_inj {α : Type} {a : α} : ∀ {x y z w : List α}, a ∉ x → a ∉ y →
    x ++ a :: z = y ++ a :: w → x = y ∧ z = w
  | [], [], _, _, _, _, h => ⟨rfl, (List.cons.inj h).2⟩
  | [], c :: y, _, _, _, hy, h => by
    obtain ⟨rfl, -⟩ := List.cons.inj h
    exact absurd List.mem_cons_self hy
  | c :: x, [], _, _, hx, _, h => by
    obtain ⟨rfl, -⟩ := List.cons.inj h
    exact absurd List.mem_cons_self hx
  | c :: x, d :: y, _, _, hx, hy, h => by
    obtain ⟨rfl, htail⟩ := List.cons.inj h
    obtain ⟨rfl, hzw⟩ := append_cons_inj (fun hm => hx (List.mem_cons_of_mem _ hm))
      (fun hm => hy (List.mem_cons_of_mem _ hm)) htail
    exact ⟨rfl, hzw⟩

/-! ## Order IDs -/

/-- The height in an order ID: padded to ten digits, or in full above `9999999999`. -/
def heightDigits (blockHeight : Nat) : List Char :=
  if blockHeight > 9999999999 then Nat.toDigits 10 blockHeight else padDigits 10 blockHeight

/-- `FormatOrderID`. -/
def formatOrderID (blockHeight orderNum : Nat) : String :=
  String.ofList ('I' :: 'D' :: (heightDigits blockHeight ++ '-' :: Nat.toDigits 10 orderNum))

/-- `FormatOrderIDPrefix`. -/
def formatOrderIDPrefix (blockHeight : Nat) : String :=
  String.ofList ('I' :: 'D' :: (heightDigits blockHeight ++ ['-']))

/-- `GetBlockHeightFromOrderID`. -/
def getBlockHeightFromOrderID (orderID : String) : Nat :=
  match orderID.toList with
  | 'I' :: 'D' :: rest =>
    match rest.dropWhile Char.isDigit with
    | '-' :: c :: _ =>
      if rest.takeWhile Char.isDigit ≠ [] ∧ c.isDigit then
        Nat.ofDigitChars 10 (rest.takeWhile Char.isDigit) 0
      else 0
    | _ => 0
  | _ => 0

/-- Whether an order ID starts with the given prefix. -/
def hasPrefix (pre orderID : String) : Bool := pre.toList.isPrefixOf orderID.toList

theorem isDigit_heightDigits {h : Nat} {c : Char} (hc : c ∈ heightDigits h) :
    c.isDigit = true := by
  unfold heightDigits at hc
  split_ifs at hc
  · exact isDigit_toDigits hc
  · exact isDigit_padDigits hc

theorem dash_notMem_heightDigits (h : Nat) : '-' ∉ heightDigits h := fun hc =>
  absurd (isDigit_heightDigits hc) (by decide)

theorem ofDigitChars_heightDigits (h : Nat) : Nat.ofDigitChars 10 (heightDigits h) 0 = h := by
  unfold heightDigits
  split_ifs
  · exact ofDigitChars_toDigits h
  · exact ofDigitChars_padDigits 10 h

theorem heightDigits_inj {h h' : Nat} (e : heightDigits h = heightDigits h') : h = h' := by
  rw [← ofDigitChars_heightDigits h, e, ofDigitChars_heightDigits]

/-- **An order ID determines its height and its number.** -/
theorem formatOrderID_inj {h n h' n' : Nat} :
    formatOrderID h n = formatOrderID h' n' ↔ h = h' ∧ n = n' := by
  refine ⟨fun e => ?_, fun ⟨e, e'⟩ => e ▸ e' ▸ rfl⟩
  unfold formatOrderID at e
  rw [String.ofList_inj] at e
  simp only [List.cons.injEq, true_and] at e
  obtain ⟨hh, hn⟩ := append_cons_inj (dash_notMem_heightDigits h) (dash_notMem_heightDigits h') e
  exact ⟨heightDigits_inj hh, toDigits_inj hn⟩

/-- **The prefix of a height selects exactly the IDs of that height.** -/
theorem isPrefix_formatOrderID {h h' n : Nat} :
    hasPrefix (formatOrderIDPrefix h) (formatOrderID h' n) = true ↔ h = h' := by
  unfold hasPrefix formatOrderIDPrefix formatOrderID
  rw [List.isPrefixOf_iff_prefix, String.toList_ofList, String.toList_ofList,
    List.cons_prefix_cons, List.cons_prefix_cons]
  simp only [true_and]
  constructor
  · rintro ⟨t, ht⟩
    rw [List.append_assoc, List.singleton_append] at ht
    exact heightDigits_inj (append_cons_inj (dash_notMem_heightDigits h)
      (dash_notMem_heightDigits h') ht).1
  · rintro rfl
    exact ⟨Nat.toDigits 10 n, by simp⟩

theorem heightDigits_ne_nil (h : Nat) : heightDigits h ≠ [] := by
  unfold heightDigits
  split_ifs
  · exact Nat.toDigits_ne_nil
  · exact padDigits_ne_nil 10 h

/-- The height is read back from the ID. -/
theorem getBlockHeightFromOrderID_format (h n : Nat) :
    getBlockHeightFromOrderID (formatOrderID h n) = h := by
  have hall : ∀ c ∈ heightDigits h, c.isDigit = true := fun c hc => isDigit_heightDigits hc
  obtain ⟨c, cs, hcs⟩ := List.exists_cons_of_ne_nil (Nat.toDigits_ne_nil (b := 10) (n := n))
  have hc : c.isDigit = true := isDigit_toDigits (n := n) (hcs ▸ List.mem_cons_self)
  have htake : (heightDigits h ++ '-' :: c :: cs).takeWhile Char.isDigit = heightDigits h := by
    rw [List.takeWhile_append_of_pos hall]
    simp [List.takeWhile]
  have hdrop : (heightDigits h ++ '-' :: c :: cs).dropWhile Char.isDigit = '-' :: c :: cs := by
    rw [List.dropWhile_append_of_pos hall]
    simp [List.dropWhile]
  unfold getBlockHeightFromOrderID formatOrderID
  rw [String.toList_ofList, hcs]
  simp only [htake, hdrop, hc]
  rw [if_pos ⟨heightDigits_ne_nil h, trivial⟩, ofDigitChars_heightDigits]

/-! ## Keys of the ID lists -/

/-- The text of a decimal: its sign, the whole part, and 18 places. -/
def Dec.toText (d : Int) : List Char :=
  (if d < 0 then ['-'] else []) ++
    (Nat.toDigits 10 (d.natAbs / 1000000000000000000) ++
      '.' :: padDigits 18 (d.natAbs % 1000000000000000000))

/-- `FormatOrderIDsKey`. -/
def formatOrderIDsKey (product : String) (price : Int) (side : Side) : String :=
  String.ofList (product.toList ++ ':' :: (Dec.toText price ++ ':' :: side.toText.toList))

/-! ## Product names -/

/-- `strings.Split(product, "_")`. -/
def symbols (product : String) : List String :=
  (product.toList.splitOn '_').map String.ofList

/-- `symbols[0]`. Messages are only accepted for products with two symbols, so the index is in
range for every stored order. -/
def baseSymbol (product : String) : String := (symbols product).getD 0 ""

/-- `symbols[1]`. -/
def quoteSymbol (product : String) : String := (symbols product).getD 1 ""

end Okexchain
