import Okexchain.Lib.Sort
import Okexchain.Token.Keeper

/-!
# The dex keeper: token pairs and product locks

Model of `x/dex/types/pair.go`, of the token-pair and sorting parts of `x/dex/keeper/keeper.go` and
of `x/dex/keeper/product_lock.go`.

* `TokenPairStore` is the token-pair store. A pair is always saved under its own name
  (`SaveTokenPair` builds the key from the two symbols, `UpdateTokenPair` is called with the name),
  which is the field `named`.
* `TokenPair.isGT` is the comparison, line by line. `Deposits` are always held in the bond
  denomination, so only the amount is kept.
* `sortProducts` writes the sorted names over the front of the given slice, as the source does;
  names without a token pair are not sorted, and what stands behind the sorted names stays.
* A `ProductLock` is what a match that ran out of deals leaves behind.
-/

namespace Okexchain

/-- `TokenPair`. -/
structure TokenPair where
  baseAssetSymbol : String
  quoteAssetSymbol : String
  initPrice : Int
  maxPriceDigit : Int
  maxQuantityDigit : Int
  minQuantity : Int
  delisting : Bool
  owner : Address
  deposits : Int
  blockHeight : Int
deriving DecidableEq, Repr

namespace TokenPair

/-- `Name`. -/
def name (tp : TokenPair) : String := tp.baseAssetSymbol ++ "_" ++ tp.quoteAssetSymbol

/-- `IsGT`: larger deposits first, then older pairs, then names. -/
def isGT (tp other : TokenPair) : Bool :=
  if tp.deposits < other.deposits then false
  else if tp.deposits ≠ other.deposits then true
  else if tp.blockHeight < other.blockHeight then true
  else if tp.blockHeight > other.blockHeight then false
  else decide (tp.baseAssetSymbol < other.baseAssetSymbol) ||
    decide (tp.quoteAssetSymbol < other.quoteAssetSymbol)

end TokenPair

/-- The token pairs, each under its own name. -/
structure TokenPairStore where
  pairs : KVStore String TokenPair
  named : ∀ product tp, pairs.get product = some tp → tp.name = product
deriving DecidableEq

theorem TokenPairStore.named_empty (product : String) (tp : TokenPair)
    (h : (∅ : KVStore String TokenPair).get product = some tp) : tp.name = product := by
  cases h

/-- Save a pair under its name: `SaveTokenPair` and `UpdateTokenPair`, which is called with the name
the pair was read under. -/
def TokenPairStore.save (st : TokenPairStore) (tp : TokenPair) : TokenPairStore where
  pairs := st.pairs.set tp.name tp
  named := by
    intro product tp' h
    rw [KVStore.get_set] at h
    split_ifs at h with hp
    · cases h
      exact hp.symm
    · exact st.named product tp' h

/-- Delete a pair. -/
def TokenPairStore.remove (st : TokenPairStore) (product : String) : TokenPairStore where
  pairs := st.pairs.delete product
  named := by
    intro product' tp h
    rw [KVStore.get_delete] at h
    split_ifs at h
    exact st.named product' tp h

/-- `ProductLock`. -/
structure ProductLock where
  blockHeight : Nat
  price : Int
  quantity : Int
  buyExecuted : Int
  sellExecuted : Int
deriving DecidableEq, Repr

/-- The dex stores the exchange reads and writes. `operators` maps an owner to the address that
receives the fees. -/
structure Dex where
  tokenPairs : TokenPairStore
  operators : KVStore Address Address
  productLocks : KVStore String ProductLock
deriving DecidableEq

namespace Dex

/-- `GetTokenPair`. -/
def getTokenPair (dex : Dex) (product : String) : Option TokenPair :=
  dex.tokenPairs.pairs.get product

/-- `IsTokenPairLocked`. -/
def isTokenPairLocked (dex : Dex) (product : String) : Bool :=
  (dex.productLocks.get product).isSome

/-- `LockTokenPair`. -/
def lockTokenPair (dex : Dex) (product : String) (lock : ProductLock) : Dex :=
  { dex with productLocks := dex.productLocks.set product lock }

/-- `UnlockTokenPair`. -/
def unlockTokenPair (dex : Dex) (product : String) : Dex :=
  { dex with productLocks := dex.productLocks.delete product }

/-- `IsAnyProductLocked`. -/
def isAnyProductLocked (dex : Dex) : Bool := !dex.productLocks.entries.isEmpty

/-- `SortProducts`. -/
def sortProducts (srt : Sorter) (dex : Dex) (products : List String) : List String :=
  let tokenPairs := srt.sort TokenPair.isGT (products.filterMap dex.getTokenPair)
  tokenPairs.map TokenPair.name ++ products.drop tokenPairs.length

theorem name_of_getTokenPair {dex : Dex} {product : String} {tp : TokenPair}
    (h : dex.getTokenPair product = some tp) : tp.name = product :=
  dex.tokenPairs.named product tp h

/-- A list of listed names is the list of the names of its pairs. -/
theorem map_name_filterMap {dex : Dex} {products : List String}
    (h : ∀ p ∈ products, (dex.getTokenPair p).isSome) :
    (products.filterMap dex.getTokenPair).map TokenPair.name = products := by
  induction products with
  | nil => rfl
  | cons p ps ih =>
    obtain ⟨tp, htp⟩ := Option.isSome_iff_exists.mp (h p List.mem_cons_self)
    rw [List.filterMap_cons_some htp, List.map_cons, name_of_getTokenPair htp,
      ih fun q hq => h q (List.mem_cons_of_mem _ hq)]

theorem length_filterMap {dex : Dex} {products : List String}
    (h : ∀ p ∈ products, (dex.getTokenPair p).isSome) :
    (products.filterMap dex.getTokenPair).length = products.length := by
  rw [← List.length_map TokenPair.name, map_name_filterMap h]

end Dex

end Okexchain
