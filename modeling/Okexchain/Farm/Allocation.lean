import Okexchain.Farm.Run

/-!
# The native rewards of a block

`BeginBlocker` (`x/farm/abci.go`) gives the native tokens minted for farming to the whitelisted
pools in whose locked tokens `calculateAllocateInfo` finds value. Every pool but the last gets its
share by value, truncated twice; the last one gets what is left.

* A truncated share is at most the exact one. So what is left for the rest of the pools is at least
  their exact shares, and the last pool never gets less than nothing.
* `PoolsListed` is what the loops read from the store: whitelisted names are those of pools, and
  pools have current rewards. `DeleteFarmPool` takes a pool off the whitelist, and a proposal that
  puts a name on it looks for the pool again when it is executed.
* Burning out of the mint farming account is allowed (`maccPerms` of `app/app.go`), so that burning
  what the account holds succeeds: `SupplyKeeper.Burns`.

**Results.** `allocate_split`: the loop gives away all there is. `native_rewards_split`: **in every
run `BeginBlocker` splits the minted amount exactly**, credits each pool once, and does not panic
unless a pool token has no two symbols in its name.
-/

namespace Okexchain

variable {B : Type} {sk : SupplyKeeper B}

/-- What a module's account holds can be burned. -/
def SupplyKeeper.Burns (sk : SupplyKeeper B) (m : String) : Prop :=
  ∀ b c, (∀ d, 0 ≤ c d) → (∀ d, c d ≤ sk.moduleCoins b m d) →
    (sk.burnCoins b (sk.moduleAddress m) c).isSome

/-! ## The whitelist -/

/-- The records that the loops of `BeginBlocker` read are there. -/
structure PoolsListed (b : FarmBooks) : Prop where
  whitelist : ∀ p, (b.whitelist.get p).isSome → (b.getFarmPool p).isSome
  current : ∀ p, (b.getFarmPool p).isSome → (b.currentRewards.get p).isSome

namespace PoolsListed

variable {b b' : FarmBooks}

theorem write (h : PoolsListed b) (pool : FarmPool) (cur : PoolCurrentRewards)
    (hpools : b'.farmPools = b.farmPools.put pool)
    (hcurrent : b'.currentRewards = b.currentRewards.set pool.name cur)
    (hwhitelist : b'.whitelist = b.whitelist) : PoolsListed b' := by
  have hpool : ∀ p, b'.getFarmPool p = if p = pool.name then some pool else b.getFarmPool p := by
    intro p
    unfold FarmBooks.getFarmPool
    rw [hpools, KeyedStore.get_put]
    split_ifs <;> rfl
  refine ⟨fun p hp => ?_, fun p hp => ?_⟩
  · rw [hwhitelist] at hp
    rw [hpool]
    split_ifs
    · rfl
    · exact h.whitelist p hp
  · rw [hpool] at hp
    rw [hcurrent, KVStore.get_set]
    split_ifs at hp ⊢
    · rfl
    · exact h.current p hp

theorem destroy (h : PoolsListed b) (p : PoolName) : PoolsListed (b.destroy p) := by
  refine ⟨fun q hq => ?_, fun q hq => ?_⟩
  · have hq : ((b.whitelist.delete p).get q).isSome := hq
    show ((b.farmPools.delete p).get q).isSome
    rw [KVStore.get_delete] at hq
    rw [KeyedStore.get_delete]
    split_ifs at hq ⊢
    · cases hq
    · exact h.whitelist q hq
  · have hq : ((b.farmPools.delete p).get q).isSome := hq
    show ((b.currentRewards.delete p).get q).isSome
    rw [KeyedStore.get_delete] at hq
    rw [KVStore.get_delete]
    split_ifs at hq ⊢
    · cases hq
    · exact h.current q hq

end PoolsListed

/-- **Whitelisted names are those of pools**, in every run. -/
theorem keeps_listed (createOK : FarmBooks → PoolName → Prop) :
    FarmKeeps createOK fun _ l => PoolsListed l.books where
  genesis := ⟨fun _ h => (by cases h), fun _ h => (by cases h)⟩
  effect height history l evs l' he h := by
    cases he with
    | create params msg hcreate _ _ =>
      exact h.write (FarmState.newFarmPool params msg) _ (by rw [hcreate.books]; rfl)
        (by rw [hcreate.books]; rfl) (by rw [hcreate.books]; rfl)
    | destroy pool cur hdestroy =>
      rw [hdestroy.books]
      exact h.destroy pool.name
    | provide pool cur hist info msg hprovide _ =>
      exact h.write (pool.provided cur.startBlockHeight height msg) _ (by rw [hprovide.stores])
        (by rw [hprovide.stores]; rfl) (by rw [hprovide.stores])
    | relock pool cur hist addr old change rewards hrelock _ =>
      exact h.write (pool.relocked cur.startBlockHeight height change rewards) _
        (by rw [hrelock.stores]) (by rw [hrelock.stores]; rfl) (by rw [hrelock.stores])
    | credit pool cur amount _ _ _ =>
      exact h.write { pool with
        totalAccumulatedRewards := pool.totalAccumulatedRewards + coin bondDenom amount } _ rfl rfl rfl
    | enlist pool hpool =>
      refine ⟨fun p hp => ?_, h.current⟩
      have hp : ((l.books.whitelist.set pool.name ()).get p).isSome := hp
      rw [KVStore.get_set] at hp
      split_ifs at hp with hname
      · exact Option.isSome_iff_exists.mpr ⟨pool, hname ▸ hpool⟩
      · exact h.whitelist p hp
    | delist name =>
      refine ⟨fun p hp => ?_, h.current⟩
      have hp : ((l.books.whitelist.delete name).get p).isSome := hp
      rw [KVStore.get_delete] at hp
      split_ifs at hp
      · cases hp
      · exact h.whitelist p hp

/-! ## The loops -/

namespace FarmState

variable {s : FarmState B}

/-- The loop over the whitelist finds every pool. It stops only at the name of a pool token. -/
theorem calculateAllocateInfo_ends_split {names : List PoolName}
    (hnames : ∀ name ∈ names, (s.books.getFarmPool name).isSome) :
    Ends (s.calculateAllocateInfo names) (fun _ => True) fun e => ∃ name ∈ names, ∃ pool,
      s.books.getFarmPool name = some pool ∧ splitPoolToken pool.minLockAmount.denom = .error e := by
  induction names with
  | nil => exact trivial
  | cons name names ih =>
    obtain ⟨hname, hrest⟩ := List.forall_mem_cons.mp hnames
    unfold calculateAllocateInfo
    refine (Ends.orThrow fun hnone => ?_).bind fun pool _ hpool => ?_
    · rw [hnone] at hname
      cases hname
    have hvalue : Ends (s.getPoolLockedValue pool) (fun _ => True) fun e =>
        splitPoolToken pool.minLockAmount.denom = .error e := by
      unfold getPoolLockedValue
      refine Ends.ite (fun _ => trivial) fun _ => Ends.ite (fun _ => ?_) fun _ => trivial
      unfold calculateLockedLPTValue
      refine (Ends.intro (fun _ _ => trivial) fun e he => he : Ends _ (fun _ => True) _).bind
        fun r _ _ => ?_
      dsimp only
      split <;> exact trivial
    refine (hvalue.mono (fun _ h => h) fun e he => ?_).bind fun value _ _ => ?_
    · exact ⟨name, List.mem_cons_self, pool, hpool, he⟩
    refine ((ih hrest).mono (fun _ h => h) fun e he => ?_).bind fun pools _ _ => trivial
    obtain ⟨name', hmem, he⟩ := he
    exact ⟨name', List.mem_cons_of_mem _ hmem, he⟩

/-- A truncated share is at most the exact one. -/
theorem share_mul_le {value yielded total : Int} (hvalue : 0 ≤ value) (hyielded : 0 ≤ yielded)
    (htotal : 0 < total) :
    0 ≤ Dec.quoTruncate (Dec.mulTruncate value yielded) total ∧
      Dec.quoTruncate (Dec.mulTruncate value yielded) total * total ≤ value * yielded := by
  have hmul := Dec.mulTruncate_nonneg hvalue hyielded
  exact ⟨Dec.quoTruncate_nonneg hmul htotal,
    (Dec.quoTruncate_mul_le hmul htotal).trans (Dec.mulTruncate_mul_one_le hvalue hyielded)⟩

end FarmState

/-- **An exact split** of an amount between pools with values. -/
structure Split (yielded total remaining : Int) (pools : List (FarmPool × Int))
    (allocated : List (PoolName × Int)) : Prop where
  names : allocated.map Prod.fst = pools.map fun e => e.1.name
  nonneg : ∀ a ∈ allocated, 0 ≤ a.2
  /-- All but the last get at most their share. -/
  share : List.Forall₂ (fun e a => a.2 * total ≤ e.2 * yielded) pools.dropLast allocated.dropLast
  sum : (allocated.map Prod.snd).sum = remaining

/-- The books in which every allocated amount has been added to its pool's current rewards and to
what the pool has accumulated. -/
structure Credited (b : FarmBooks) (allocated : List (PoolName × Int)) (b' : FarmBooks) : Prop where
  once : (allocated.map Prod.fst).Nodup
  credited : ∀ a ∈ allocated, ∃ pool cur, b.getFarmPool a.1 = some pool ∧
    b.currentRewards.get a.1 = some cur ∧
    b'.getFarmPool a.1 = some { pool with
      totalAccumulatedRewards := pool.totalAccumulatedRewards + coin bondDenom a.2 } ∧
    b'.currentRewards.get a.1 = some { cur with rewards := cur.rewards + coin bondDenom a.2 }
  others : ∀ p, p ∉ allocated.map Prod.fst →
    b'.getFarmPool p = b.getFarmPool p ∧ b'.currentRewards.get p = b.currentRewards.get p

/-- One more pool is credited before the others. -/
theorem Credited.cons {b b' : FarmBooks} {pool : FarmPool} {cur : PoolCurrentRewards} {amount : Int}
    {allocated : List (PoolName × Int)} (hpool : b.farmPools.get pool.name = some pool)
    (hcur : b.currentRewards.get pool.name = some cur)
    (hnew : pool.name ∉ allocated.map Prod.fst)
    (h : Credited (b.credit pool cur amount) allocated b') :
    Credited b ((pool.name, amount) :: allocated) b' := by
  have hother : ∀ p, p ≠ pool.name → (b.credit pool cur amount).getFarmPool p = b.getFarmPool p ∧
      (b.credit pool cur amount).currentRewards.get p = b.currentRewards.get p :=
    fun p hp => ⟨KeyedStore.get_put_ne hp, KVStore.get_set_ne hp⟩
  refine ⟨List.nodup_cons.mpr ⟨hnew, h.once⟩, fun a ha => ?_, fun p hp => ?_⟩
  · obtain rfl | ha := List.mem_cons.mp ha
    · obtain ⟨hpool', hcur'⟩ := h.others pool.name hnew
      exact ⟨pool, cur, hpool, hcur, hpool'.trans KeyedStore.get_put_self,
        hcur'.trans KVStore.get_set_self⟩
    · have hne : a.1 ≠ pool.name := fun heq => hnew (List.mem_map.mpr ⟨a, ha, heq⟩)
      obtain ⟨pool', cur', hpool', hcur', hres⟩ := h.credited a ha
      exact ⟨pool', cur', (hother a.1 hne).1 ▸ hpool', (hother a.1 hne).2 ▸ hcur', hres⟩
  · obtain ⟨hne, hp⟩ := not_or.mp (mt List.mem_cons.mpr hp)
    obtain ⟨hpool', hcur'⟩ := h.others p hp
    exact ⟨hpool'.trans (hother p hne).1, hcur'.trans (hother p hne).2⟩

/-- **The loop gives away all that is left**, as long as that covers the exact shares of its
pools. -/
theorem FarmState.allocate_split {yielded total remaining : Int} {pools : List (FarmPool × Int)}
    {b : FarmBooks} (hyielded : 0 ≤ yielded) (htotal : 0 < total) (hne : pools ≠ [])
    (hpools : ∀ e ∈ pools, b.farmPools.get e.1.name = some e.1 ∧ 0 < e.2)
    (hcurrent : ∀ e ∈ pools, (b.currentRewards.get e.1.name).isSome)
    (hnodup : (pools.map fun e => e.1.name).Nodup)
    (hleft : (pools.map Prod.snd).sum * yielded ≤ remaining * total) :
    ∃ b' allocated, allocate yielded total pools remaining b = .ok (b', 0, allocated) ∧
      Split yielded total remaining pools allocated ∧ Credited b allocated b' := by
  induction pools generalizing remaining b with
  | nil => exact absurd rfl hne
  | cons e rest ih =>
    obtain ⟨pool, value⟩ := e
    obtain ⟨⟨hpool, hvalue⟩, hpools⟩ := List.forall_mem_cons.mp hpools
    obtain ⟨hcur, hcurrent⟩ := List.forall_mem_cons.mp hcurrent
    obtain ⟨cur, hcur⟩ := Option.isSome_iff_exists.mp hcur
    obtain ⟨hnew, hnodup⟩ := List.nodup_cons.mp hnodup
    rw [List.map_cons, List.sum_cons] at hleft
    have hstep : ∀ {amount left b' allocated}, 0 ≤ amount →
        amount = (if rest.isEmpty then remaining
          else Dec.quoTruncate (Dec.mulTruncate value yielded) total) →
        allocate yielded total rest (remaining - amount) (b.credit pool cur amount) =
          .ok (b', left, allocated) →
        allocate yielded total ((pool, value) :: rest) remaining b =
          .ok (b', left, (pool.name, amount) :: allocated) := by
      intro amount left b' allocated hnonneg hamount hrest
      unfold allocate
      rw [← hamount]
      simp only [bind_eq_ok, require_eq_ok, exists_const, FarmBooks.getPoolCurrentRewards_eq_ok,
        pure_eq_ok, Prod.exists, Prod.mk.injEq]
      exact ⟨hnonneg, cur, hcur, b', left, allocated, hrest, rfl, rfl, rfl⟩
    cases rest with
    | nil =>
      -- the last pool: what is left is not negative
      have hnonneg : 0 ≤ remaining := by
        have hshare : 0 ≤ value * yielded := Int.mul_nonneg hvalue.le hyielded
        rw [List.map_nil, List.sum_nil, add_zero] at hleft
        exact nonneg_of_mul_nonneg_left (hshare.trans hleft) htotal
      have hdone : Credited (b.credit pool cur remaining) [] (b.credit pool cur remaining) :=
        ⟨List.nodup_nil, fun a ha => (by cases ha), fun _ _ => ⟨rfl, rfl⟩⟩
      refine ⟨_, _, hstep hnonneg rfl (by rw [sub_self]; rfl), ⟨rfl, ?_, .nil, ?_⟩,
        hdone.cons hpool hcur List.not_mem_nil⟩
      · intro a ha
        rw [List.mem_singleton.mp ha]
        exact hnonneg
      · exact add_zero remaining
    | cons e' rest =>
      obtain ⟨hnonneg, hshare⟩ := share_mul_le hvalue.le hyielded htotal
      have hamount : Dec.quoTruncate (Dec.mulTruncate value yielded) total =
          if (e' :: rest).isEmpty then remaining
          else Dec.quoTruncate (Dec.mulTruncate value yielded) total := rfl
      generalize Dec.quoTruncate (Dec.mulTruncate value yielded) total = amount at *
      have hkept : ∀ e ∈ e' :: rest, e.1.name ≠ pool.name := fun e he heq =>
        hnew (List.mem_map.mpr ⟨e, he, heq⟩)
      have hpools' : ∀ e ∈ e' :: rest,
          (b.credit pool cur amount).farmPools.get e.1.name = some e.1 ∧ 0 < e.2 := fun e he =>
        ⟨Eq.trans (KeyedStore.get_put_ne (hkept e he)) (hpools e he).1, (hpools e he).2⟩
      have hcurrent' : ∀ e ∈ e' :: rest,
          ((b.credit pool cur amount).currentRewards.get e.1.name).isSome := fun e he =>
        (congrArg Option.isSome (KVStore.get_set_ne (hkept e he))).trans (hcurrent e he)
      have hleft' : ((e' :: rest).map Prod.snd).sum * yielded ≤ (remaining - amount) * total := by
        linarith
      obtain ⟨b', allocated, hrest, hsplit, hcredited⟩ :=
        ih (List.cons_ne_nil _ _) hpools' hcurrent' hnodup hleft'
      refine ⟨b', _, hstep hnonneg hamount hrest, ⟨?_, ?_, ?_, ?_⟩, .cons hpool hcur ?_ hcredited⟩
      · rw [List.map_cons, List.map_cons, hsplit.names]
      · exact List.forall_mem_cons.mpr ⟨hnonneg, hsplit.nonneg⟩
      · have hne' : allocated ≠ [] := by
          intro hnil
          have := hsplit.names
          rw [hnil] at this
          cases this
        rw [List.dropLast_cons_of_ne_nil (List.cons_ne_nil _ _), List.dropLast_cons_of_ne_nil hne']
        exact .cons hshare hsplit.share
      · rw [List.map_cons, List.sum_cons, hsplit.sum]
        ring
      · rw [hsplit.names]
        exact hnew

/-! ## The begin of a block -/

namespace FarmState

variable {s : FarmState B}

/-- The native tokens minted for farming. -/
def minted (sk : SupplyKeeper B) (s : FarmState B) : Int :=
  sk.moduleCoins s.bank mintFarmingAccount bondDenom

/-- `BeginBlocker` reaches the allocation loop, with these pools and their values. -/
structure Allocates (sk : SupplyKeeper B) (s : FarmState B) (pools : List (FarmPool × Int)) :
    Prop where
  minted_pos : 0 < s.minted sk
  yieldNativeToken : s.params.yieldNativeToken = true
  info : s.calculateAllocateInfo s.books.whitelist.keys = .ok pools
  total_pos : 0 < (pools.map Prod.snd).sum

/-- The loop of `BeginBlocker` ends with a split. -/
theorem Allocates.exists_split (hlisted : PoolsListed s.books) {pools : List (FarmPool × Int)}
    (h : s.Allocates sk pools) : ∃ b' allocated,
      allocate (s.minted sk) (pools.map Prod.snd).sum pools (s.minted sk) s.books =
        .ok (b', 0, allocated) ∧
      Split (s.minted sk) (pools.map Prod.snd).sum (s.minted sk) pools allocated ∧
      Credited s.books allocated b' := by
  obtain ⟨hall, hsub⟩ := calculateAllocateInfo_cases h.info
  refine allocate_split h.minted_pos.le h.total_pos ?_ hall (fun e he => ?_)
    (hsub.nodup KVStore.nodup_keys) (mul_comm _ _).le
  · rintro rfl
    exact absurd h.total_pos (lt_irrefl _)
  · exact hlisted.current _ (Option.isSome_iff_exists.mpr ⟨e.1, (hall e he).1⟩)

/-- `BeginBlocker` stops only where the loop over the whitelist does. -/
theorem beginBlocker_splits (hlisted : PoolsListed s.books) (hburns : sk.Burns mintFarmingAccount)
    (hbank : ∀ d, 0 ≤ sk.moduleCoins s.bank mintFarmingAccount d) :
    Ends (s.beginBlocker sk)
      (fun r => ∀ pools, s.Allocates sk pools →
        Split (s.minted sk) (pools.map Prod.snd).sum (s.minted sk) pools r.2 ∧
          Credited s.books r.2 r.1.books)
      fun e => s.calculateAllocateInfo s.books.whitelist.keys = .error e := by
  -- the minted tokens are there to be burned or sent
  have hcoins : ¬ s.minted sk ≤ 0 → (∀ d, 0 ≤ coin bondDenom (s.minted sk) d) ∧
      ∀ d, coin bondDenom (s.minted sk) d ≤ sk.moduleCoins s.bank mintFarmingAccount d := by
    intro hpos
    refine ⟨fun d => ?_, fun d => ?_⟩
    · rw [coin_apply]
      split_ifs <;> omega
    · rw [coin_apply]
      split_ifs with hd
      · exact (congrArg _ hd).le
      · exact hbank d
  unfold beginBlocker
  refine Ends.ite (fun hzero => ?_) fun hpos => Ends.ite (fun hoff => ?_) fun hon => ?_
  · exact fun _ hloop => absurd hzero (not_le.mpr hloop.minted_pos)
  · obtain ⟨hnonneg, hle⟩ := hcoins hpos
    refine (Ends.orThrow fun hnone => ?_).bind fun bank _ _ pools hloop => ?_
    · have hsome := hburns s.bank _ hnonneg hle
      exact absurd hnone (Option.isSome_iff_ne_none.mp hsome)
    · exact absurd (hoff.symm.trans hloop.yieldNativeToken) Bool.false_ne_true
  · obtain ⟨hnonneg, hle⟩ := hcoins hpos
    have hinfo : Ends (s.calculateAllocateInfo s.books.whitelist.keys) (fun _ => True) _ :=
      Ends.intro (fun _ _ => trivial) fun e he => he
    refine hinfo.bind fun pools hpools _ => ?_
    have hsame : ∀ {pools'}, s.Allocates sk pools' → pools' = pools := fun hloop =>
      Except.ok.inj (hloop.info.symm.trans hpools)
    refine Ends.ite (fun hnone pools' hloop => ?_) fun hsome => ?_
    · have htotal := hloop.total_pos
      rw [hsame hloop] at htotal
      exact absurd hnone (not_le.mpr htotal)
    · have hloop : s.Allocates sk pools :=
        ⟨not_le.mp hpos, Bool.eq_true_of_not_eq_false hon, hpools, not_le.mp hsome⟩
      obtain ⟨b', allocated, halloc, hsplit, hcredited⟩ := hloop.exists_split hlisted
      refine (Ends.eq_ok halloc).bind fun r _ hr => ?_
      subst hr
      refine (Ends.require fun hne => absurd rfl hne).bind fun _ _ _ => ?_
      refine (Ends.orThrow fun hnone => ?_).bind fun bank _ _ pools' hloop => ?_
      · have hsent : (sk.sendCoinsFromModuleToModule s.bank mintFarmingAccount yieldFarmingAccount
          (coin bondDenom (s.minted sk))).isSome := sk.sendCoins_isSome hnonneg hle
        exact absurd hnone (Option.isSome_iff_ne_none.mp hsent)
      · rw [hsame hloop]
        exact ⟨hsplit, hcredited⟩

end FarmState

/-- **The minted amount is split exactly.** In every run whitelisted names are those of pools.
`BeginBlocker` does not panic, unless a whitelisted pool's tokens are pool tokens whose name has no
two symbols. If it reaches the allocation loop, then it splits the minted amount between the pools
with value: no amount is negative, every pool but the last gets at most its share by value, together
they get all, and each amount is added once to the pool's current rewards and to what it has
accumulated. -/
theorem native_rewards_split {createOK : FarmBooks → PoolName → Prop} {n : FarmNode B}
    (hn : FarmReach sk createOK n) (hburns : sk.Burns mintFarmingAccount)
    (hbank : ∀ d, 0 ≤ sk.moduleCoins n.state.bank mintFarmingAccount d) :
    let s := n.state
    (∀ name ∈ s.books.whitelist.keys, (s.books.getFarmPool name).isSome) ∧
    (∀ e, s.beginBlocker sk = .error e → ∃ name ∈ s.books.whitelist.keys, ∃ pool,
      s.books.getFarmPool name = some pool ∧
        FarmState.splitPoolToken pool.minLockAmount.denom = .error e) ∧
    ∀ pools, s.Allocates sk pools → ∃ s' allocated, s.beginBlocker sk = .ok (s', allocated) ∧
      Split (s.minted sk) (pools.map Prod.snd).sum (s.minted sk) pools allocated ∧
      Credited s.books allocated s'.books := by
  intro s
  have hlisted : PoolsListed s.books := (keeps_listed createOK).reach hn
  have hnames : ∀ name ∈ s.books.whitelist.keys, (s.books.getFarmPool name).isSome :=
    fun name hname => hlisted.whitelist name
      (Option.isSome_iff_exists.mpr (KVStore.mem_keys.mp hname))
  have hends := FarmState.beginBlocker_splits hlisted hburns hbank
  refine ⟨hnames, fun e he => ?_, fun pools hloop => ?_⟩
  · exact (FarmState.calculateAllocateInfo_ends_split hnames).of_error (hends.of_error he)
  · cases hr : s.beginBlocker sk with
    | error e =>
      have herror := hends.of_error hr
      rw [hloop.info] at herror
      cases herror
    | ok r =>
      obtain ⟨hsplit, hcredited⟩ := hends.of_ok hr pools hloop
      exact ⟨r.1, r.2, rfl, hsplit, hcredited⟩

/-! ## Two pools -/

theorem burns_simpleSupply (m : String) : simpleSupply.Burns m := by
  intro b c _ hle
  have hneg : ((b.get ("#" ++ m)).getD 0 - c).isNegative = false :=
    Coins.isNegative_eq_false.mpr fun d => by
      rw [DFinsupp.sub_apply]
      exact sub_nonneg.mpr (hle d)
  show (burn b ("#" ++ m) c).isSome
  unfold burn
  rw [hneg]
  rfl

/-- The pool "b". -/
def poolB : PoolName := [⟨98, by decide⟩]

/-- Bob has locked 30 in one pool and Carol 10 in another. -/
def twoLocked : FarmNode (KVStore Address Coins) :=
  farmStart.run simpleSupply [.createPool ⟨"alice", poolA, ⟨"lpt", Dec.newDec 5⟩, bondDenom⟩,
    .createPool ⟨"alice", poolB, ⟨"lpt", Dec.newDec 5⟩, bondDenom⟩,
    .lock ⟨poolA, "bob", ⟨"lpt", Dec.newDec 30⟩⟩, .lock ⟨poolB, "carol", ⟨"lpt", Dec.newDec 10⟩⟩]

/-- Both are whitelisted, and 5 units of the native token have been minted for farming. -/
def twoMinted : FarmNode (KVStore Address Coins) :=
  twoLocked.run simpleSupply [
    .outside ⟨{ farmParams with quoteSymbol := "lpt" }, twoLocked.state.swap,
      twoLocked.state.bank.set (simpleSupply.moduleAddress mintFarmingAccount) (coin bondDenom 5)⟩,
    .manageWhiteList ⟨poolA, true⟩, .manageWhiteList ⟨poolB, true⟩]

theorem reach_twoMinted : FarmReach simpleSupply (fun _ _ => True) twoMinted := by
  have halice : simpleSupply.IsUser "alice" := isUser_simpleSupply (by decide)
  have hbob : simpleSupply.IsUser "bob" := isUser_simpleSupply (by decide)
  have hcarol : simpleSupply.IsUser "carol" := isUser_simpleSupply (by decide)
  have hlocked : FarmReach simpleSupply (fun _ _ => True) twoLocked :=
    .run (reach_farmStart _) ⟨⟨by decide, halice, trivial⟩, ⟨by decide, halice, trivial⟩,
      ⟨by decide, hbob⟩, ⟨by decide, hcarol⟩, trivial⟩
  exact .run hlocked ⟨⟨by decide +kernel, by decide +kernel⟩, trivial, trivial, trivial⟩

/-- Bob's pool gets 3, its share of 3.75 truncated, and Carol's gets the other 2. -/
theorem native_rewards_split_two :
    ∃ pools s', twoMinted.state.Allocates simpleSupply pools ∧
      twoMinted.state.beginBlocker simpleSupply = .ok (s', [(poolA, 3), (poolB, 2)]) ∧
      Credited twoMinted.state.books [(poolA, 3), (poolB, 2)] s'.books := by
  have hmint : simpleSupply.moduleCoins twoMinted.state.bank mintFarmingAccount =
      coin bondDenom 5 := by decide +kernel
  have hbank : ∀ d, 0 ≤ simpleSupply.moduleCoins twoMinted.state.bank mintFarmingAccount d := by
    intro d
    rw [hmint, coin_apply]
    split_ifs <;> decide
  have hinfo : (twoMinted.state.calculateAllocateInfo
      twoMinted.state.books.whitelist.keys).toOption.map (List.map Prod.snd) =
        some [Dec.newDec 30, Dec.newDec 10] := by decide +kernel
  obtain ⟨pools, hpools, hvalues⟩ := Option.map_eq_some_iff.mp hinfo
  have hloop : twoMinted.state.Allocates simpleSupply pools :=
    ⟨by decide +kernel, by decide +kernel, toOption_eq_some.mp hpools, by rw [hvalues]; decide⟩
  obtain ⟨s', allocated, hok, -, hcredited⟩ :=
    (native_rewards_split reach_twoMinted (burns_simpleSupply _) hbank).2.2 pools hloop
  have hrun : (twoMinted.state.beginBlocker simpleSupply).toOption.map Prod.snd =
      some [(poolA, 3), (poolB, 2)] := by decide +kernel
  rw [hok] at hrun
  obtain rfl : allocated = [(poolA, 3), (poolB, 2)] := Option.some.inj hrun
  exact ⟨pools, s', hloop, hok, hcredited⟩

end Okexchain
