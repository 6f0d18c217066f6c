import Okexchain.Farm.Principal

/-!
# What destroying a pool deletes

`handleMsgDestroyPool` deletes the historical rewards of a pool by iterating the keys that start
with the bytes of its name. A key is the name followed by the eight bytes of the period, with no
length and no separator, so the keys of a pool whose name continues this one are visited too.

* `SameRecords` and `NoRecords`: all that the store has on a pool is as before, or gone.
* `get_destroy` is the store of historical rewards afterwards.

**Results.** `destroy_isolated_iff`: destroying a pool leaves the records of all others as they
were, and none of its own, exactly when no stored key of another pool starts with its name.
`destroy_deletes_other`: it does not when pools are named "a" and "ab".
-/

namespace Okexchain

/-- All records of a pool are the same in both books. -/
structure SameRecords (b b' : FarmBooks) (q : PoolName) : Prop where
  pool : b'.getFarmPool q = b.getFarmPool q
  locks : ∀ addr, b'.getLockInfo addr q = b.getLockInfo addr q
  index : ∀ addr, b'.addressInFarmPool.get (toLex (q, addr)) =
    b.addressInFarmPool.get (toLex (q, addr))
  whitelist : b'.whitelist.get q = b.whitelist.get q
  current : b'.currentRewards.get q = b.currentRewards.get q
  historical : ∀ k, b'.historicalRewards.get (toLex (q, k)) = b.historicalRewards.get (toLex (q, k))

/-- The books have no record of a pool. -/
structure NoRecords (b : FarmBooks) (p : PoolName) : Prop where
  pool : b.getFarmPool p = none
  locks : ∀ addr, b.getLockInfo addr p = none
  index : ∀ addr, b.addressInFarmPool.get (toLex (p, addr)) = none
  whitelist : b.whitelist.get p = none
  current : b.currentRewards.get p = none
  historical : ∀ k, b.historicalRewards.get (toLex (p, k)) = none

namespace FarmBooks

variable {b : FarmBooks} {p q : PoolName}

/-- The historical rewards without those whose key starts with a name. -/
theorem get_destroy (k : Nat) : (b.destroy p).historicalRewards.get (toLex (q, k)) =
    if p <+: historicalKey q k then none else b.historicalRewards.get (toLex (q, k)) := by
  show ((b.iteratePoolHistoricalRewards p).foldl KVStore.delete b.historicalRewards).get _ = _
  rw [KVStore.get_foldl_delete]
  have hvisited : toLex (q, k) ∈ b.iteratePoolHistoricalRewards p ↔
      toLex (q, k) ∈ b.historicalRewards.keys ∧ p <+: historicalKey q k := by
    unfold iteratePoolHistoricalRewards
    rw [List.mem_filter, decide_eq_true_eq]
    rfl
  by_cases hprefix : p <+: historicalKey q k
  · rw [if_pos hprefix]
    split_ifs with hmem
    · rfl
    · -- a key that is not visited has no record
      rw [hvisited, and_iff_left hprefix, KVStore.mem_keys] at hmem
      exact Option.eq_none_iff_forall_ne_some.mpr fun h hget => hmem ⟨h, hget⟩
  · rw [if_neg hprefix, if_neg fun hmem => hprefix (hvisited.mp hmem).2]

theorem prefix_historicalKey (p : PoolName) (k : Nat) : p <+: historicalKey p k :=
  List.prefix_append p _

/-- Other pools keep all but the historical rewards whose key starts with the name. -/
theorem sameRecords_destroy (hne : q ≠ p) : SameRecords b (b.destroy p) q ↔
    ∀ k, (b.historicalRewards.get (toLex (q, k))).isSome → ¬ p <+: historicalKey q k := by
  constructor
  · intro h k hsome hprefix
    have hsame := h.historical k
    rw [get_destroy, if_pos hprefix] at hsame
    rw [← hsame] at hsome
    cases hsome
  · intro h
    refine ⟨KeyedStore.get_delete_ne hne, fun _ => rfl, fun _ => rfl, KVStore.get_delete_ne hne,
      KVStore.get_delete_ne hne, fun k => ?_⟩
    rw [get_destroy]
    split_ifs with hprefix
    · cases hget : b.historicalRewards.get (toLex (q, k)) with
      | none => rfl
      | some hist => exact absurd hprefix (h k (by rw [hget]; rfl))
    · rfl

theorem noRecords_destroy (hlocks : ∀ addr, b.getLockInfo addr p = none)
    (hindex : ∀ addr, b.addressInFarmPool.get (toLex (p, addr)) = none) :
    NoRecords (b.destroy p) p where
  pool := by
    show (b.farmPools.delete p).get p = none
    rw [KeyedStore.get_delete, if_pos rfl]
  locks := hlocks
  index := hindex
  whitelist := by
    show (b.whitelist.delete p).get p = none
    rw [KVStore.get_delete, if_pos rfl]
  current := by
    show (b.currentRewards.delete p).get p = none
    rw [KVStore.get_delete, if_pos rfl]
  historical := fun k => by rw [get_destroy, if_pos (prefix_historicalKey p k)]

end FarmBooks

/-- **Destroying a pool leaves the others alone** exactly when no key of theirs that is stored
starts with the name of the pool. -/
theorem destroy_isolated_iff {B : Type} {sk : SupplyKeeper B}
    {createOK : FarmBooks → PoolName → Prop} {n : FarmNode B} (hn : FarmReach sk createOK n)
    {msg : MsgDestroyPool} (hallowed : FarmAllowed sk createOK n (.destroyPool msg))
    {s' : FarmState B} {returned : Coins}
    (hdestroy : n.state.handleMsgDestroyPool sk n.height msg = .ok (s', returned)) :
    ((∀ q, q ≠ msg.poolName → SameRecords n.state.books s'.books q) ∧
      NoRecords s'.books msg.poolName) ↔
    ∀ q k, q ≠ msg.poolName → (n.state.books.historicalRewards.get (toLex (q, k))).isSome →
      ¬ msg.poolName <+: historicalKey q k := by
  have h : Principal (n.state.ledger sk) := (keeps_principal createOK).reach hn
  obtain ⟨pool, cur, hname, hdestroyed, -⟩ :=
    FarmState.handleMsgDestroyPool_destroyed hallowed.2 hdestroy
  have hbooks : s'.books = n.state.books.destroy msg.poolName := by
    rw [← hname]
    exact hdestroyed.books
  have hlocks : ∀ addr, n.state.books.getLockInfo addr msg.poolName = none := by
    rw [← hname]
    exact h.no_lock hdestroyed.get_pool hdestroyed.nothing_locked
  have hindex : ∀ addr, n.state.books.addressInFarmPool.get (toLex (msg.poolName, addr)) = none := by
    intro addr
    have hiff := h.index msg.poolName addr
    have hnone : (n.state.ledger sk).books.getLockInfo addr msg.poolName = none := hlocks addr
    rw [hnone, Option.isSome_none, Bool.false_eq_true, iff_false] at hiff
    exact Option.not_isSome_iff_eq_none.mp hiff
  rw [hbooks, and_iff_left (FarmBooks.noRecords_destroy hlocks hindex)]
  refine ⟨fun hsame q k hq hsome => ?_, fun hfree q hq => ?_⟩
  · exact (FarmBooks.sameRecords_destroy hq).mp (hsame q hq) k hsome
  · exact (FarmBooks.sameRecords_destroy hq).mpr fun k => hfree q k hq

/-- Alice creates two pools, and Bob locks 30 in the second. -/
def twoPools (p q : PoolName) : List (FarmAction (KVStore Address Coins)) :=
  [.createPool ⟨"alice", p, ⟨"lpt", Dec.newDec 5⟩, bondDenom⟩,
    .createPool ⟨"alice", q, ⟨"lpt", Dec.newDec 5⟩, bondDenom⟩,
    .lock ⟨q, "bob", ⟨"lpt", Dec.newDec 30⟩⟩]

theorem reach_twoPools {p q : PoolName} (hp : ¬ p.invalidLength) (hq : ¬ q.invalidLength) :
    FarmReach simpleSupply (fun _ _ => True) (farmStart.run simpleSupply (twoPools p q)) := by
  have halice : simpleSupply.IsUser "alice" := isUser_simpleSupply (by decide)
  have hbob : simpleSupply.IsUser "bob" := isUser_simpleSupply (by decide)
  refine .run (reach_farmStart _) ⟨⟨?_, halice, trivial⟩, ⟨?_, halice, trivial⟩, ⟨?_, hbob⟩, trivial⟩
  · simp [MsgCreatePool.validateBasic, hp, Dec.newDec, Dec.one, bondDenom]
  · simp [MsgCreatePool.validateBasic, hq, Dec.newDec, Dec.one, bondDenom]
  · simp [MsgLock.validateBasic, hq, Dec.newDec, Dec.one]

/-- The pools named "a" and "b" are apart. -/
theorem destroy_isolated_iff_b :
    let n := farmStart.run simpleSupply (twoPools poolA [98])
    ∃ s' returned, n.state.handleMsgDestroyPool simpleSupply n.height ⟨"alice", poolA⟩ =
      .ok (s', returned) ∧ (n.state.books.getLockInfo "bob" [98]).isSome ∧
      SameRecords n.state.books s'.books [98] ∧ NoRecords s'.books poolA := by
  intro n
  have hn : FarmReach simpleSupply (fun _ _ => True) n := reach_twoPools (by decide) (by decide)
  have hok : (n.state.handleMsgDestroyPool simpleSupply n.height ⟨"alice", poolA⟩).isOk := by
    decide +kernel
  have hkeys : n.state.books.historicalRewards.keys =
      [toLex (poolA, 0), toLex ([98], 1)] := by decide +kernel
  obtain ⟨⟨s', returned⟩, hdestroy⟩ : ∃ r,
      n.state.handleMsgDestroyPool simpleSupply n.height ⟨"alice", poolA⟩ = .ok r := by
    cases hr : n.state.handleMsgDestroyPool simpleSupply n.height ⟨"alice", poolA⟩ with
    | error e =>
      rw [hr] at hok
      cases hok
    | ok r => exact ⟨r, rfl⟩
  obtain ⟨hothers, hgone⟩ := (destroy_isolated_iff hn
    ⟨by decide, isUser_simpleSupply (by decide)⟩ hdestroy).mpr fun q k hq hsome => by
      obtain ⟨hist, hget⟩ := Option.isSome_iff_exists.mp hsome
      have hmem : toLex (q, k) ∈ n.state.books.historicalRewards.keys :=
        KVStore.mem_keys.mpr ⟨hist, hget⟩
      rw [hkeys] at hmem
      obtain heq | heq := List.mem_pair.mp hmem
      · exact absurd (Prod.mk.inj (toLex.injective heq)).1 hq
      · obtain ⟨rfl, rfl⟩ := Prod.mk.inj (toLex.injective heq)
        decide
  exact ⟨s', returned, hdestroy, by decide +kernel, hothers [98] (by decide), hgone⟩

/-- **Destroying the pool "a" takes the historical rewards of "ab" along**, and Bob, who has locked
in "ab", cannot unlock any more. -/
theorem destroy_deletes_other :
    let n := farmStart.run simpleSupply (twoPools poolA [97, 98])
    let n' := n.step simpleSupply (.destroyPool ⟨"alice", poolA⟩)
    FarmReach simpleSupply (fun _ _ => True) n ∧
    (n.state.books.getFarmPool poolA).isSome ∧ n'.state.books.getFarmPool poolA = none ∧
    (n.state.books.historicalRewards.get (toLex ([97, 98], 1))).isSome ∧
    n'.state.books.historicalRewards.get (toLex ([97, 98], 1)) = none ∧
    (n'.state.handleMsgUnlock simpleSupply n'.height
      ⟨[97, 98], "bob", ⟨"lpt", Dec.newDec 30⟩⟩).map Prod.snd =
        .error (.panic .missingRecord) := by
  intro n n'
  exact ⟨reach_twoPools (by decide) (by decide), by decide +kernel, by decide +kernel,
    by decide +kernel, by decide +kernel, by decide +kernel⟩

end Okexchain
