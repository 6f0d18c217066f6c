import Okexchain.Chain.Tendermint

/-!
# Tombstones

`HandleDoubleSign` writes a tombstone into the signing info of a key, and jails the validator.
`Unjail` looks at the tombstone; `handleMsgCreateValidator` does not. So a validator that was
destroyed, has unbonded and was removed can come back with its old key, outside of jail.

**Results.** `tombstoned_never_bonded`: as long as nobody creates a validator with a tombstoned key,
no validator with such a key is bonded at the end of a block. `tombstoned_comes_back`: otherwise one
can be.
-/

namespace Okexchain

section Tombstoned

variable {B : Type} {sk : PoolKeeper B} {weight : Int → Int} {n n' : ChainNode B} {k : Address}

/-- The message creates a validator with a key that has no tombstone, or none at all. -/
def ChainNode.NewKey (n : ChainNode B) : ChainAction B → Prop
  | .tx (.createValidator msg) => n.slashing.isTombstoned msg.pubKey = false
  | _ => True

theorem ChainNode.NewKey.keeps {a : ChainAction B} (h : n.NewKey a) : n.Keeps True False a := by
  cases a with
  | tx a =>
    rintro - msg rfl
    exact h
  | vote vote => exact False.elim
  | _ => trivial

/-- **A tombstone stays.** -/
theorem ChainInv.tombstoned {guarded strict : Prop} {w : ValidatorSet}
    (h : ChainInv sk guarded strict w n) {a : ChainAction B} (hallows : n.Allows a)
    (hkeeps : n.Keeps guarded strict a) (hstep : n.step sk weight a = .ok n')
    (htomb : n.slashing.isTombstoned k = true) : n'.slashing.isTombstoned k = true := by
  cases a with
  | initChain =>
    obtain ⟨⟨b, us⟩, -, hres⟩ := bind_eq_ok.mp hstep
    cases hres
    exact (SlashingBooks.isTombstoned_foldl_hook _ _ k).trans htomb
  | beginBlock time =>
    cases hstep
    exact htomb
  | vote vote => exact ((h.vote hkeeps hallows).of_ok hstep).2.tombstones k htomb
  | evidence e => exact ((h.evidence hallows).of_ok hstep).2.1.tombstones k htomb
  | tx a =>
    cases hstep
    exact (SlashingBooks.isTombstoned_foldl_hook _ _ k).trans htomb
  | setParams params =>
    cases hstep
    exact htomb
  | endBlock =>
    obtain ⟨⟨s, us, paid⟩, -, hres⟩ := bind_eq_ok.mp hstep
    cases hres
    exact (SlashingBooks.isTombstoned_foldl_hook _ _ k).trans htomb
  | restart time =>
    obtain ⟨⟨s, us⟩, -, hres⟩ := bind_eq_ok.mp hstep
    cases hres
    unfold SlashingBooks.isTombstoned at htomb ⊢
    rwa [SlashingBooks.initGenesis_exportGenesis]

/-- A tombstone stays for the rest of a run. -/
theorem ChainLater.tombstoned (hweight : ∀ week, Dec.one ≤ weight week)
    (hlater : ChainLater sk weight ChainNode.NewKey n n')
    (hn : ChainReach sk weight ChainNode.NewKey n) (htomb : n.slashing.isTombstoned k = true) :
    n'.slashing.isTombstoned k = true := by
  induction hlater with
  | refl => exact htomb
  | tail hlater hstep ih =>
    obtain ⟨a, -, hallows, hnew, hstep⟩ := hstep
    obtain ⟨w, h⟩ := ChainReach.inv True False hweight (fun _ _ hnew => hnew.keeps) (hn.later hlater)
    exact h.tombstoned hallows hnew.keeps hstep ih

/-- **A tombstoned key never validates again**, as long as nobody creates a validator with a
tombstoned key. -/
theorem tombstoned_never_bonded (hweight : ∀ week, Dec.one ≤ weight week)
    (hn : ChainReach sk weight ChainNode.NewKey n) (htomb : n.slashing.isTombstoned k = true)
    (hlater : ChainLater sk weight ChainNode.NewKey n n') (hphase : n'.phase = .between) :
    ∀ a v, n'.books.getValidator a = some v → v.consPubKey = k → v.status ≠ .bonded := by
  have htomb' := hlater.tombstoned hweight hn htomb
  obtain ⟨w, h⟩ := ChainReach.inv True False hweight (fun _ _ hnew => hnew.keeps) (hn.later hlater)
  rintro a v hv rfl hbonded
  have hjailed := (StakingBooks.has_of_get hv).mp
    (h.stores.ok.banned a ⟨v, hv, trivial, htomb'⟩)
  have hmem := h.stores.ok.jailed a ⟨v, hv, hjailed, hbonded⟩
  rw [show n'.staking.state.books.abandonedValidatorAddrs = [] from h.idle (hphase ▸ rfl)] at hmem
  exact List.not_mem_nil hmem

end Tombstoned

/-! ## A validator that comes back -/

/-- The first block: Alice has signed twice. -/
def aliceConvicted : ChainNode (KVStore Address Coins) :=
  (chainStart stakingParams).run simplePools (fun _ => Dec.one) [.tx createAlice, .tx createBob,
    .initChain, .beginBlock 5, .evidence ⟨"key", 5⟩]

theorem tombstoned_never_bonded_alice :
    aliceConvicted.slashing.isTombstoned "key" = true ∧
    (∃ v, aliceConvicted.books.getValidator "alice" = some v ∧ v.status = .bonded) ∧
    ∀ a v, (aliceConvicted.run simplePools (fun _ => Dec.one) [.endBlock]).books.getValidator a =
      some v → v.consPubKey = "key" → v.status ≠ .bonded := by
  have hn : ChainReach simplePools (fun _ => Dec.one) ChainNode.NewKey aliceConvicted :=
    (reach_chainStart _ _ _).later (.run (by decide +kernel) ⟨⟨createAlice_valid, rfl⟩,
      ⟨createBob_valid, rfl⟩, ⟨trivial, trivial⟩, ⟨trivial, trivial⟩, ⟨trivial, trivial⟩, trivial⟩)
  have htomb : aliceConvicted.slashing.isTombstoned "key" = true := by decide +kernel
  have hbonded : (aliceConvicted.books.getValidator "alice").map Validator.status =
      some .bonded := by decide +kernel
  have hlater : ChainLater simplePools (fun _ => Dec.one) ChainNode.NewKey aliceConvicted
      (aliceConvicted.run simplePools (fun _ => Dec.one) [.endBlock]) :=
    .run (by decide +kernel) ⟨⟨trivial, trivial⟩, trivial⟩
  exact ⟨htomb, Option.map_eq_some_iff.mp hbonded,
    tombstoned_never_bonded (fun _ => by decide) hn htomb hlater (by decide +kernel)⟩

/-- Alice destroys her validator, which is removed when it has unbonded. She creates it again, and
Bob destroys his. -/
def aliceBack : ChainNode (KVStore Address Coins) :=
  aliceConvicted.run simplePools (fun _ => Dec.one) [.tx (.destroyValidator "alice"), .endBlock,
    .beginBlock 105, .endBlock, .beginBlock 110, .tx createAlice, .tx (.destroyValidator "bob"),
    .endBlock]

/-- **A tombstoned key can validate again.** Alice's validator is kicked out for a double sign,
destroyed, and removed. Nothing stops Alice from creating it again with the same key, and when Bob's
validator leaves, hers is promoted. -/
theorem tombstoned_comes_back :
    ChainReach simplePools (fun _ => Dec.one) ChainNode.Ordinary aliceConvicted ∧
    aliceConvicted.slashing.isTombstoned "key" = true ∧
    ChainLater simplePools (fun _ => Dec.one) ChainNode.Ordinary aliceConvicted aliceBack ∧
    aliceBack.phase = .between ∧
    ∃ v, aliceBack.books.getValidator "alice" = some v ∧ v.consPubKey = "key" ∧
      v.status = .bonded := by
  have hfound : (aliceBack.books.getValidator "alice").map
      (fun v => (v.consPubKey, v.status)) = some ("key", .bonded) := by decide +kernel
  obtain ⟨v, hv, heq⟩ := Option.map_eq_some_iff.mp hfound
  obtain ⟨hkey, hstatus⟩ := Prod.mk.inj heq
  refine ⟨(reach_chainStart _ _ _).later (.run (by decide +kernel) ⟨⟨createAlice_valid, trivial⟩,
      ⟨createBob_valid, trivial⟩, ⟨trivial, trivial⟩, ⟨trivial, ?_⟩, ⟨trivial, trivial⟩, trivial⟩),
    by decide +kernel, .run (by decide +kernel) ⟨⟨⟨by decide, isUser_alice⟩, trivial⟩,
      ⟨trivial, trivial⟩, ⟨trivial, ?_⟩, ⟨trivial, trivial⟩, ⟨trivial, ?_⟩,
      ⟨createAlice_valid, trivial⟩, ⟨⟨by decide, isUser_bob⟩, trivial⟩, ⟨trivial, trivial⟩, trivial⟩,
    by decide +kernel, v, hv, hkey, hstatus⟩
  all_goals
    unfold ChainNode.Ordinary
    decide +kernel

end Okexchain
