import Okexchain.Farm.Run

/-!
# The account of the minted tokens

The native tokens minted for farming arrive in the mint farming account, and `BeginBlocker` of
`x/farm/abci.go` is to pass them on. The registered `mintFarmingAccountInvariant` of
`x/farm/keeper/invariants.go` says that it does: with a whitelist that is not empty, the account
holds nothing.

`BeginBlocker` has three ways out. It burns the tokens when the parameter `YieldNativeToken` is off,
it gives them to the whitelisted pools in proportion to the value locked in them, and it leaves them
where they are when that value is not positive. The last one breaks the invariant: a whitelisted
pool may have nothing locked, or tokens whose swap pair is empty.

**Results.** `mint_account_cleared_iff`: when exactly the invariant holds after `BeginBlocker`.
`mint_account_kept`: a whitelisted pool without locks keeps the tokens in the account.
-/

namespace Okexchain

variable {B : Type} {sk : SupplyKeeper B} {s s' : FarmState B}

/-- `mintFarmingAccountInvariant`: whether it is broken. -/
def mintFarmingAccountInvariant (sk : SupplyKeeper B) (s : FarmState B) : Bool :=
  decide (s.books.whitelist.keys.length ≠ 0 ∧ sk.moduleCoins s.bank mintFarmingAccount ≠ 0)

/-- A whitelisted pool whose locked tokens have a value. -/
def FarmState.HasValue (s : FarmState B) (poolName : PoolName) : Prop :=
  ∃ pool value, s.books.getFarmPool poolName = some pool ∧ s.getPoolLockedValue pool = .ok value ∧
    0 < value

namespace FarmState

/-- The loop over the whitelist finds value exactly when there is a pool with value. -/
theorem calculateAllocateInfo_pos {names : List PoolName} {pools : List (FarmPool × Int)}
    (h : s.calculateAllocateInfo names = .ok pools) :
    0 < (pools.map Prod.snd).sum ↔ ∃ name ∈ names, s.HasValue name := by
  induction names generalizing pools with
  | nil =>
    cases h
    refine ⟨fun hpos => absurd hpos (lt_irrefl _), ?_⟩
    rintro ⟨name, hmem, -⟩
    exact absurd hmem List.not_mem_nil
  | cons name names ih =>
    unfold calculateAllocateInfo at h
    simp only [bind_eq_ok, orThrow_eq_ok, pure_eq_ok] at h
    obtain ⟨pool, hpool, value, hvalue, rest, hrest, rfl⟩ := h
    have hrestNonneg : 0 ≤ (rest.map Prod.snd).sum := by
      refine List.sum_nonneg fun v hv => ?_
      obtain ⟨e, he, rfl⟩ := List.mem_map.mp hv
      exact ((calculateAllocateInfo_cases hrest).1 e he).2.le
    rw [List.exists_mem_cons_iff, ← ih hrest]
    have hname : s.HasValue name ↔ 0 < value := by
      refine ⟨?_, fun hpos => ⟨pool, value, hpool, hvalue, hpos⟩⟩
      rintro ⟨pool', value', hpool', hvalue', hpos⟩
      rw [hpool] at hpool'
      cases hpool'
      rw [hvalue] at hvalue'
      cases hvalue'
      exact hpos
    rw [hname]
    split_ifs with hle
    · exact ⟨.inr, fun hor => hor.resolve_left (not_lt.mpr hle)⟩
    · rw [List.map_cons, List.sum_cons]
      refine ⟨fun _ => .inl (not_le.mp hle), fun _ => ?_⟩
      exact add_pos_of_pos_of_nonneg (not_le.mp hle) hrestNonneg

theorem allocate_whitelist {yielded total remaining left : Int} {pools : List (FarmPool × Int)}
    {b b' : FarmBooks} {allocated : List (PoolName × Int)}
    (h : allocate yielded total pools remaining b = .ok (b', left, allocated)) :
    b'.whitelist = b.whitelist := by
  induction pools generalizing remaining b allocated with
  | nil =>
    cases h
    rfl
  | cons e pools ih =>
    unfold allocate at h
    simp only [bind_eq_ok, require_eq_ok, pure_eq_ok, exists_and_left, exists_const] at h
    obtain ⟨-, cur, -, ⟨b₁, left₁, allocated₁⟩, hrest, hres⟩ := h
    cases hres
    exact (ih hrest).trans rfl

/-- The account after `BeginBlocker`: cleared, or left as it was because there is no value to
allocate by. -/
theorem beginBlocker_mintAccount {amt : Int} {allocated : List (PoolName × Int)} (hamt : 0 ≤ amt)
    (hmint : sk.moduleCoins s.bank mintFarmingAccount = coin bondDenom amt)
    (h : s.beginBlocker sk = .ok (s', allocated)) :
    s'.books.whitelist = s.books.whitelist ∧
      (sk.moduleCoins s'.bank mintFarmingAccount = 0 ∧ (amt = 0 ∨
          s.params.yieldNativeToken = false ∨ ∃ name ∈ s.books.whitelist.keys, s.HasValue name) ∨
        sk.moduleCoins s'.bank mintFarmingAccount = coin bondDenom amt ∧ ¬ (amt = 0 ∨
          s.params.yieldNativeToken = false ∨ ∃ name ∈ s.books.whitelist.keys, s.HasValue name)) := by
  have hminted : sk.moduleCoins s.bank mintFarmingAccount bondDenom = amt := by
    rw [hmint, coin_apply, if_pos rfl]
  unfold beginBlocker at h
  simp only [hminted] at h
  split_ifs at h with hzero hburned
  · cases h
    have hamt0 : amt = 0 := le_antisymm hzero hamt
    exact ⟨rfl, .inl ⟨by rw [hmint, hamt0, coin_zero], .inl hamt0⟩⟩
  · simp only [bind_eq_ok, orThrow_eq_ok, pure_eq_ok, Prod.mk.injEq] at h
    obtain ⟨bank, hburn, rfl, rfl⟩ := h
    refine ⟨rfl, .inl ⟨?_, .inr (.inl hburned)⟩⟩
    show sk.getCoins bank _ = 0
    rw [sk.getCoins_burnCoins hburn, if_pos rfl]
    exact sub_eq_zero.mpr hmint
  · simp only [bind_eq_ok] at h
    obtain ⟨pools, hpools, h⟩ := h
    have hiff := calculateAllocateInfo_pos hpools
    split_ifs at h with hvalue
    · cases h
      refine ⟨rfl, .inr ⟨hmint, ?_⟩⟩
      rintro (rfl | hoff | hex)
      · exact hzero le_rfl
      · exact hburned hoff
      · exact not_lt.mpr hvalue (hiff.mpr hex)
    · simp only [bind_eq_ok, orThrow_eq_ok, require_eq_ok, exists_const, pure_eq_ok, Prod.exists,
        Prod.mk.injEq] at h
      obtain ⟨b, left, allocs, halloc, rfl, bank, hsend, rfl, rfl⟩ := h
      refine ⟨allocate_whitelist halloc, .inl ⟨?_, .inr (.inr (hiff.mp (not_le.mp hvalue)))⟩⟩
      have hne : sk.moduleAddress mintFarmingAccount ≠ sk.moduleAddress yieldFarmingAccount :=
        SupplyKeeper.moduleAddress_ne (by decide)
      show sk.getCoins bank _ = 0
      rw [SupplyKeeper.getCoins_source hsend hne]
      exact sub_eq_zero.mpr hmint

end FarmState

/-- **When the minted tokens are passed on.** After `BeginBlocker`, with any amount of native tokens
minted before it, the invariant of the mint farming account holds exactly when the whitelist is
empty, nothing was minted, the tokens are burned by parameter, or some whitelisted pool has locked
tokens of positive value. -/
theorem mint_account_cleared_iff {amt : Int} {allocated : List (PoolName × Int)} (hamt : 0 ≤ amt)
    (hmint : sk.moduleCoins s.bank mintFarmingAccount = coin bondDenom amt)
    (h : s.beginBlocker sk = .ok (s', allocated)) :
    mintFarmingAccountInvariant sk s' = false ↔
      s.books.whitelist.keys = [] ∨ amt = 0 ∨ s.params.yieldNativeToken = false ∨
        ∃ name ∈ s.books.whitelist.keys, s.HasValue name := by
  obtain ⟨hwhitelist, hcoins⟩ := FarmState.beginBlocker_mintAccount hamt hmint h
  unfold mintFarmingAccountInvariant
  rw [decide_eq_false_iff_not, hwhitelist, not_and_or, not_not, not_not, List.length_eq_zero_iff]
  refine or_congr Iff.rfl ?_
  rcases hcoins with ⟨hcleared, hcond⟩ | ⟨hkept, hcond⟩
  · exact iff_of_true hcleared hcond
  · refine iff_of_false (fun hzero => hcond (.inl ?_)) hcond
    rw [hkept] at hzero
    have happly := DFunLike.congr_fun hzero bondDenom
    rwa [coin_apply, if_pos rfl] at happly

/-! ## A pool without locks -/

/-- Alice has created a pool. -/
def poolACreated : FarmNode (KVStore Address Coins) :=
  farmStart.run simpleSupply [.createPool ⟨"alice", poolA, ⟨"lpt", Dec.newDec 5⟩, bondDenom⟩]

/-- The pool is whitelisted, nobody has locked anything, and 5 units of the native token have been
minted for farming. -/
def poolAMinted : FarmNode (KVStore Address Coins) :=
  poolACreated.run simpleSupply [
    .outside ⟨{ farmParams with quoteSymbol := "lpt" }, poolACreated.state.swap,
      poolACreated.state.bank.set (simpleSupply.moduleAddress mintFarmingAccount)
        (coin bondDenom 5)⟩,
    .manageWhiteList ⟨poolA, true⟩]

theorem reach_poolAMinted : FarmReach simpleSupply (fun _ _ => True) poolAMinted := by
  have halice : simpleSupply.IsUser "alice" := isUser_simpleSupply (by decide)
  have hcreated : FarmReach simpleSupply (fun _ _ => True) poolACreated :=
    .run (reach_farmStart _) ⟨⟨by decide, halice, trivial⟩, trivial⟩
  exact .run hcreated ⟨⟨by decide +kernel, by decide +kernel⟩, trivial, trivial⟩

theorem poolAMinted_beginBlocker :
    simpleSupply.moduleCoins poolAMinted.state.bank mintFarmingAccount = coin bondDenom 5 ∧
    ∃ s', poolAMinted.state.beginBlocker simpleSupply = .ok (s', []) ∧
      mintFarmingAccountInvariant simpleSupply s' = true := by
  have hrun : (poolAMinted.state.beginBlocker simpleSupply).toOption.map
      (fun r => (mintFarmingAccountInvariant simpleSupply r.1, r.2)) = some (true, []) := by
    decide +kernel
  obtain ⟨⟨s', allocated⟩, hr, hres⟩ := Option.map_eq_some_iff.mp hrun
  obtain ⟨hbroken, rfl⟩ := Prod.mk.inj hres
  exact ⟨by decide +kernel, s', toOption_eq_some.mp hr, hbroken⟩

/-- `mint_account_cleared_iff` for the pool without locks. -/
theorem mint_account_cleared_iff_poolA :
    ∃ s', poolAMinted.state.beginBlocker simpleSupply = .ok (s', []) ∧
      (mintFarmingAccountInvariant simpleSupply s' = false ↔
        poolAMinted.state.books.whitelist.keys = [] ∨ (5 : Int) = 0 ∨
          poolAMinted.state.params.yieldNativeToken = false ∨
          ∃ name ∈ poolAMinted.state.books.whitelist.keys, poolAMinted.state.HasValue name) := by
  obtain ⟨haccount, s', hok, -⟩ := poolAMinted_beginBlocker
  exact ⟨s', hok, mint_account_cleared_iff (by decide) haccount hok⟩

/-- **The minted tokens stay.** In a reachable state with a whitelisted pool that has nothing
locked, the minted tokens are still in the account after `BeginBlocker`, and the registered
invariant is broken. -/
theorem mint_account_kept : FarmReach simpleSupply (fun _ _ => True) poolAMinted ∧
    simpleSupply.moduleCoins poolAMinted.state.bank mintFarmingAccount = coin bondDenom 5 ∧
    ∃ s', poolAMinted.state.beginBlocker simpleSupply = .ok (s', []) ∧
      mintFarmingAccountInvariant simpleSupply s' = true :=
  ⟨reach_poolAMinted, poolAMinted_beginBlocker⟩

end Okexchain
