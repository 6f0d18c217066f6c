import Okexchain.Farm.Destroy

/-!
# Who has locked in a pool, and in which pools an account has

Model of `getAccountsLockedTo` and `GetFarmPoolNamesForAccount` (`x/farm/keeper/farm_pool.go`),
which the queries use, with the keys of `x/farm/types/key.go`.

* Both iterate the keys that start with a prefix and cut the prefix off: `prefixScan`. The first
  byte of a key, which tells the stores apart, is left out.
* The key of `GetAddressInFarmPoolKey` is a pool's name followed by an address, that of
  `GetLockInfoKey` an address followed by a name. An address has `addrLen` bytes, a name any number.
* `AddressFormat` gives the bytes of the addresses.

An address at the front ends where it has to. A name does not: behind "a" a key of the pool "ab"
goes on with "b" and an address, and what is cut off is no address.

**Results.** `mem_prefixScan`: a scan that cuts the prefix off gives what follows it in the keys.
`lockers_exact_iff`: **in every run, the pools of an account are listed exactly, and the accounts of
a pool are listed exactly if and only if no key of another pool starts with its name.**
-/

namespace Okexchain

/-! ## Scans -/

section Scan

variable {α : Type} [LinearOrder α]

/-- The keys that start with a prefix, in their order and cut at an index. -/
def prefixScan (keys : List (List α)) (p : List α) (splitIndex : Nat) : List (List α) :=
  ((keys.filter fun key => decide (p <+: key)).insertionSort (· ≤ ·)).map fun key =>
    key.drop splitIndex

theorem mem_prefixScan {keys : List (List α)} {p x : List α} :
    x ∈ prefixScan keys p p.length ↔ p ++ x ∈ keys := by
  unfold prefixScan
  simp only [List.mem_map, List.mem_insertionSort, List.mem_filter, decide_eq_true_eq]
  constructor
  · rintro ⟨_, ⟨hkey, y, rfl⟩, rfl⟩
    rwa [List.drop_left]
  · intro hkey
    exact ⟨p ++ x, ⟨hkey, List.prefix_append p x⟩, List.drop_left⟩

theorem nodup_prefixScan {keys : List (List α)} (hkeys : keys.Nodup) (p : List α) :
    (prefixScan keys p p.length).Nodup := by
  unfold prefixScan
  refine List.Nodup.map_on ?_ ((List.perm_insertionSort _ _).nodup_iff.mpr (hkeys.filter _))
  intro a ha b hb hdrop
  simp only [List.mem_insertionSort, List.mem_filter, decide_eq_true_eq] at ha hb
  obtain ⟨-, x, rfl⟩ := ha
  obtain ⟨-, y, rfl⟩ := hb
  rw [List.drop_left, List.drop_left] at hdrop
  rw [hdrop]

end Scan

/-! ## The two lists -/

/-- `sdk.AddrLen`. -/
def addrLen : Nat := 20

/-- The bytes of the addresses that are well formed. -/
structure AddressFormat where
  bytes : Address → List (Fin 256)
  valid : Address → Prop
  length_bytes : ∀ addr, valid addr → (bytes addr).length = addrLen
  bytes_inj : ∀ addr addr', valid addr → valid addr' → bytes addr = bytes addr' → addr = addr'

namespace FarmBooks

variable (b : FarmBooks) (fmt : AddressFormat)

/-- The keys of `GetAddressInFarmPoolKey`. -/
def addressInFarmPoolKeys : List (List (Fin 256)) :=
  b.addressInFarmPool.keys.map fun key => (ofLex key).1 ++ fmt.bytes (ofLex key).2

/-- The keys of `GetLockInfoKey`. -/
def lockInfoKeys : List (List (Fin 256)) :=
  b.lockInfos.store.keys.map fun key => fmt.bytes (ofLex key).1 ++ (ofLex key).2

/-- `getAccountsLockedTo`. -/
def getAccountsLockedTo (poolName : PoolName) : List (List (Fin 256)) :=
  prefixScan (b.addressInFarmPoolKeys fmt) poolName poolName.length

/-- `GetFarmPoolNamesForAccount`. -/
def getFarmPoolNamesForAccount (addr : Address) : List PoolName :=
  prefixScan (b.lockInfoKeys fmt) (fmt.bytes addr) addrLen

variable {b fmt}

theorem mem_addressInFarmPoolKeys {key : List (Fin 256)} : key ∈ b.addressInFarmPoolKeys fmt ↔
    ∃ q addr, (b.addressInFarmPool.get (toLex (q, addr))).isSome ∧ q ++ fmt.bytes addr = key := by
  unfold addressInFarmPoolKeys
  rw [List.mem_map]
  constructor
  · rintro ⟨k, hk, rfl⟩
    exact ⟨(ofLex k).1, (ofLex k).2, Option.isSome_iff_exists.mpr (KVStore.mem_keys.mp hk), rfl⟩
  · rintro ⟨q, addr, hget, rfl⟩
    exact ⟨toLex (q, addr), KVStore.mem_keys.mpr (Option.isSome_iff_exists.mp hget), rfl⟩

theorem mem_lockInfoKeys {key : List (Fin 256)} : key ∈ b.lockInfoKeys fmt ↔
    ∃ addr q, (b.getLockInfo addr q).isSome ∧ fmt.bytes addr ++ q = key := by
  unfold lockInfoKeys
  rw [List.mem_map]
  constructor
  · rintro ⟨k, hk, rfl⟩
    exact ⟨(ofLex k).1, (ofLex k).2, Option.isSome_iff_exists.mpr (KVStore.mem_keys.mp hk), rfl⟩
  · rintro ⟨addr, q, hget, rfl⟩
    exact ⟨toLex (addr, q), KVStore.mem_keys.mpr (Option.isSome_iff_exists.mp hget), rfl⟩

/-- The keys of the index determine what they are made of. -/
theorem nodup_addressInFarmPoolKeys
    (hvalid : ∀ q addr, (b.addressInFarmPool.get (toLex (q, addr))).isSome → fmt.valid addr) :
    (b.addressInFarmPoolKeys fmt).Nodup := by
  refine KVStore.nodup_keys.map_on fun k hk k' hk' heq => ?_
  have hk := hvalid _ _ (Option.isSome_iff_exists.mpr (KVStore.mem_keys.mp hk))
  have hk' := hvalid _ _ (Option.isSome_iff_exists.mpr (KVStore.mem_keys.mp hk'))
  obtain ⟨hname, hbytes⟩ := List.append_inj' heq
    ((fmt.length_bytes _ hk).trans (fmt.length_bytes _ hk').symm)
  exact ofLex.injective (Prod.ext hname (fmt.bytes_inj _ _ hk hk' hbytes))

theorem nodup_lockInfoKeys
    (hvalid : ∀ addr q, (b.getLockInfo addr q).isSome → fmt.valid addr) :
    (b.lockInfoKeys fmt).Nodup := by
  refine KVStore.nodup_keys.map_on fun k hk k' hk' heq => ?_
  have hk := hvalid _ _ (Option.isSome_iff_exists.mpr (KVStore.mem_keys.mp hk))
  have hk' := hvalid _ _ (Option.isSome_iff_exists.mpr (KVStore.mem_keys.mp hk'))
  obtain ⟨hbytes, hname⟩ := List.append_inj heq
    ((fmt.length_bytes _ hk).trans (fmt.length_bytes _ hk').symm)
  exact ofLex.injective (Prod.ext (fmt.bytes_inj _ _ hk hk' hbytes) hname)

end FarmBooks

/-- The list has exactly the elements with a property, each once. -/
def Lists {α : Type} (l : List α) (P : α → Prop) : Prop := l.Nodup ∧ ∀ x, x ∈ l ↔ P x

/-- **The lockers of a pool are listed exactly** if and only if no key of another pool starts with
the name of this one; **the pools of an account are always.** -/
theorem lockers_exact_iff {B : Type} {sk : SupplyKeeper B}
    {createOK : FarmBooks → PoolName → Prop} {n : FarmNode B} (hn : FarmReach sk createOK n)
    (fmt : AddressFormat)
    (hvalid : ∀ addr q, (n.state.books.getLockInfo addr q).isSome → fmt.valid addr) :
    (∀ poolName, Lists (n.state.books.getAccountsLockedTo fmt poolName)
        (fun x => ∃ addr, (n.state.books.getLockInfo addr poolName).isSome ∧ fmt.bytes addr = x) ↔
      ∀ addr q, (n.state.books.getLockInfo addr q).isSome → q ≠ poolName →
        ¬ poolName <+: q ++ fmt.bytes addr) ∧
    ∀ addr, fmt.valid addr → Lists (n.state.books.getFarmPoolNamesForAccount fmt addr)
      fun q => (n.state.books.getLockInfo addr q).isSome := by
  have hindex : ∀ q addr, (n.state.books.addressInFarmPool.get (toLex (q, addr))).isSome ↔
      (n.state.books.getLockInfo addr q).isSome := ((keeps_principal createOK).reach hn).index
  have hmem (poolName x) : x ∈ n.state.books.getAccountsLockedTo fmt poolName ↔
      ∃ q addr, (n.state.books.getLockInfo addr q).isSome ∧ q ++ fmt.bytes addr = poolName ++ x := by
    unfold FarmBooks.getAccountsLockedTo
    simp only [mem_prefixScan, FarmBooks.mem_addressInFarmPoolKeys, hindex]
  refine ⟨fun poolName => ⟨fun hlists addr q hlock hne hprefix => ?_, fun hapart => ⟨?_, fun x => ?_⟩⟩,
    fun addr haddr => ⟨?_, fun q => ?_⟩⟩
  · -- what is cut from the other pool's key is not as long as an address
    obtain ⟨x, hx⟩ := hprefix
    obtain ⟨addr', hlock', hbytes⟩ :=
      (hlists.2 x).mp ((hmem poolName x).mpr ⟨q, addr, hlock, hx.symm⟩)
    have hlen : x.length = (fmt.bytes addr).length := by
      rw [← hbytes, fmt.length_bytes _ (hvalid _ _ hlock'), fmt.length_bytes _ (hvalid _ _ hlock)]
    exact hne (List.append_inj' hx hlen).1.symm
  · exact nodup_prefixScan (FarmBooks.nodup_addressInFarmPoolKeys fun q addr h =>
      hvalid addr q ((hindex q addr).mp h)) poolName
  · rw [hmem]
    constructor
    · rintro ⟨q, addr, hlock, hx⟩
      by_cases hq : q = poolName
      · subst hq
        exact ⟨addr, hlock, List.append_cancel_left hx⟩
      · exact absurd ⟨x, hx.symm⟩ (hapart addr q hlock hq)
    · rintro ⟨addr, hlock, rfl⟩
      exact ⟨poolName, addr, hlock, rfl⟩
  · unfold FarmBooks.getFarmPoolNamesForAccount
    rw [← fmt.length_bytes addr haddr]
    exact nodup_prefixScan (FarmBooks.nodup_lockInfoKeys hvalid) _
  · unfold FarmBooks.getFarmPoolNamesForAccount
    rw [← fmt.length_bytes addr haddr, mem_prefixScan, FarmBooks.mem_lockInfoKeys]
    constructor
    · rintro ⟨addr', q', hlock, hx⟩
      obtain ⟨hbytes, rfl⟩ := List.append_inj hx
        ((fmt.length_bytes _ (hvalid _ _ hlock)).trans (fmt.length_bytes _ haddr).symm)
      rwa [← fmt.bytes_inj _ _ (hvalid _ _ hlock) haddr hbytes]
    · intro hlock
      exact ⟨addr, q, hlock, rfl⟩

/-- Bob is the one with an address. -/
def bobFormat : AddressFormat where
  bytes _ := List.replicate addrLen ⟨7, by decide⟩
  valid addr := addr = "bob"
  length_bytes _ _ := List.length_replicate
  bytes_inj _ _ h h' _ := h.trans h'.symm

theorem locks_twoPools {q : PoolName} (hkeys : (farmStart.run simpleSupply
      (twoPools poolA q)).state.books.lockInfos.store.keys = [toLex ("bob", q)])
    {addr : Address} {q' : PoolName} (hlock : ((farmStart.run simpleSupply
      (twoPools poolA q)).state.books.getLockInfo addr q').isSome) : addr = "bob" ∧ q' = q := by
  have hmem := KVStore.mem_keys.mpr (Option.isSome_iff_exists.mp hlock)
  have heq : toLex (addr, q') = toLex ("bob", q) := List.mem_singleton.mp (hkeys ▸ hmem)
  exact Prod.mk.inj (toLex.injective heq)

/-- Bob has locked in "b", whose keys do not start with "a". -/
theorem lockers_exact_b :
    let n := farmStart.run simpleSupply (twoPools poolA [98])
    (n.state.books.getLockInfo "bob" [98]).isSome ∧
      Lists (n.state.books.getAccountsLockedTo bobFormat poolA) (fun x => ∃ addr,
        (n.state.books.getLockInfo addr poolA).isSome ∧ bobFormat.bytes addr = x) ∧
      Lists (n.state.books.getFarmPoolNamesForAccount bobFormat "bob")
        fun q => (n.state.books.getLockInfo "bob" q).isSome := by
  intro n
  have hkeys : n.state.books.lockInfos.store.keys = [toLex ("bob", [98])] := by decide +kernel
  have h := lockers_exact_iff (reach_twoPools (by decide) (by decide)) bobFormat
    fun addr q hlock => (locks_twoPools hkeys hlock).1
  refine ⟨by decide +kernel, (h.1 poolA).mpr fun addr q hlock hne => ?_, h.2 "bob" rfl⟩
  obtain ⟨rfl, rfl⟩ := locks_twoPools hkeys hlock
  decide

/-- **Bob has locked in "ab" and not in "a"**, and what is listed for "a" is the letter b and his
address. -/
theorem lockers_of_a :
    let n := farmStart.run simpleSupply (twoPools poolA [97, 98])
    FarmReach simpleSupply (fun _ _ => True) n ∧
      n.state.books.lockInfos.store.keys = [toLex ("bob", [97, 98])] ∧
      n.state.books.getAccountsLockedTo bobFormat poolA = [98 :: bobFormat.bytes "bob"] := by
  intro n
  exact ⟨reach_twoPools (by decide) (by decide), by decide +kernel, by decide +kernel⟩

end Okexchain
