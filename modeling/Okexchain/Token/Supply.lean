import Okexchain.Token.Keeper

/-!
# Module accounts

The supply keeper as the dex and farm modules use it: transfers between accounts and module
accounts, which are addressed by name, and burning. It is not part of the repository; the laws of
`SupplyKeeper` are what its documentation promises:

* a transfer that succeeds moves exactly the given coins, and burning removes them;
* a module account can always send what it holds (only accounts of users may be vesting);
* different module names have different addresses.

`tokenExist` is what the modules read of the token module.

**Results.** `getCoins_other`, `getCoins_source`, `getCoins_target`: what a transfer does to an
account, by its part in it. `Moved.of_module`, `Moved.to_module`: what a transfer between a user and
a module does to the modules.
-/

namespace Okexchain

/-- `sdk.DefaultBondDenom`. -/
def bondDenom : String := "okt"

/-- The name of the fee collector's module account. -/
def feeCollectorName : String := "fee_collector"

/-- The supply, bank and account keepers, over the stores `B` they own. -/
structure SupplyKeeper (B : Type) where
  getCoins : B → Address → Coins
  sendCoins : B → Address → Address → Coins → Option B
  burnCoins : B → Address → Coins → Option B
  /-- `supply.NewModuleAddress`. -/
  moduleAddress : String → Address
  /-- The token keeper's `TokenExist`. -/
  tokenExist : B → String → Bool
  moduleAddress_inj : ∀ {m m'}, moduleAddress m = moduleAddress m' → m = m'
  getCoins_sendCoins : ∀ {b source target c b'}, sendCoins b source target c = some b' → ∀ a,
    getCoins b' a = getCoins b a - (if a = source then c else 0) + (if a = target then c else 0)
  getCoins_burnCoins : ∀ {b source c b'}, burnCoins b source c = some b' → ∀ a,
    getCoins b' a = getCoins b a - (if a = source then c else 0)
  sendCoins_isSome : ∀ {b m target c}, (∀ d, 0 ≤ c d) →
    (∀ d, c d ≤ getCoins b (moduleAddress m) d) →
    (sendCoins b (moduleAddress m) target c).isSome

namespace SupplyKeeper

variable {B : Type} (sk : SupplyKeeper B)

/-- `GetModuleAccount(name).GetCoins()`. -/
def moduleCoins (b : B) (m : String) : Coins := sk.getCoins b (sk.moduleAddress m)

/-- `SendCoinsFromAccountToModule`. -/
def sendCoinsFromAccountToModule (b : B) (source : Address) (m : String) (c : Coins) : Option B :=
  sk.sendCoins b source (sk.moduleAddress m) c

/-- `SendCoinsFromModuleToAccount`. -/
def sendCoinsFromModuleToAccount (b : B) (m : String) (target : Address) (c : Coins) : Option B :=
  sk.sendCoins b (sk.moduleAddress m) target c

/-- `SendCoinsFromModuleToModule`. -/
def sendCoinsFromModuleToModule (b : B) (m m' : String) (c : Coins) : Option B :=
  sk.sendCoins b (sk.moduleAddress m) (sk.moduleAddress m') c

/-- An account that belongs to no module. -/
def IsUser (a : Address) : Prop := ∀ m, a ≠ sk.moduleAddress m

variable {sk} {b b' : B} {source target a : Address} {m : String} {c : Coins}

theorem getCoins_other (h : sk.sendCoins b source target c = some b') (hs : a ≠ source)
    (ht : a ≠ target) : sk.getCoins b' a = sk.getCoins b a := by
  rw [sk.getCoins_sendCoins h, if_neg hs, if_neg ht, sub_zero, add_zero]

theorem getCoins_source (h : sk.sendCoins b source target c = some b') (hne : source ≠ target) :
    sk.getCoins b' source = sk.getCoins b source - c := by
  rw [sk.getCoins_sendCoins h, if_pos rfl, if_neg hne, add_zero]

theorem getCoins_target (h : sk.sendCoins b source target c = some b') (hne : source ≠ target) :
    sk.getCoins b' target = sk.getCoins b target + c := by
  rw [sk.getCoins_sendCoins h, if_neg hne.symm, if_pos rfl, sub_zero]

/-- Coins have moved from one account to another, and nothing else has changed. -/
def Moved (sk : SupplyKeeper B) (b : B) (source target : Address) (c : Coins) (b' : B) : Prop :=
  ∀ a, sk.getCoins b' a =
    sk.getCoins b a - (if a = source then c else 0) + (if a = target then c else 0)

theorem Moved.of_send (h : sk.sendCoins b source target c = some b') :
    sk.Moved b source target c b' := sk.getCoins_sendCoins h

theorem Moved.zero (b : B) (source target : Address) : sk.Moved b source target 0 b := by
  intro a
  rw [ite_self, ite_self, sub_zero, add_zero]

/-- A payment out of a module, seen by a module. -/
theorem Moved.of_module (h : sk.Moved b (sk.moduleAddress m) target c b')
    (htarget : sk.IsUser target) (m' : String) :
    sk.moduleCoins b' m' = sk.moduleCoins b m' - if m' = m then c else 0 := by
  have ht : sk.moduleAddress m' ≠ target := (htarget m').symm
  unfold moduleCoins
  rw [h, if_neg ht, add_zero]
  refine congrArg _ (if_congr ?_ rfl rfl)
  exact ⟨fun he => sk.moduleAddress_inj he, fun he => he ▸ rfl⟩

/-- A payment into a module, seen by a module. -/
theorem Moved.to_module (h : sk.Moved b source (sk.moduleAddress m) c b')
    (hsource : sk.IsUser source) (m' : String) :
    sk.moduleCoins b' m' = sk.moduleCoins b m' + if m' = m then c else 0 := by
  have hs : sk.moduleAddress m' ≠ source := (hsource m').symm
  unfold moduleCoins
  rw [h, if_neg hs, sub_zero]
  refine congrArg _ (if_congr ?_ rfl rfl)
  exact ⟨fun he => sk.moduleAddress_inj he, fun he => he ▸ rfl⟩

theorem IsUser.module_ne (h : sk.IsUser a) (m : String) : sk.moduleAddress m ≠ a := (h m).symm

theorem moduleAddress_ne {m' : String} (h : m ≠ m') : sk.moduleAddress m ≠ sk.moduleAddress m' :=
  fun he => h (sk.moduleAddress_inj he)

end SupplyKeeper

/-! ## A simple bank -/

/-- A transfer between stored balances. -/
def move (b : KVStore Address Coins) (source target : Address) (c : Coins) :
    Option (KVStore Address Coins) :=
  if c.isNegative ∨ ((b.get source).getD 0 - c).isNegative then none
  else
    let b := b.set source ((b.get source).getD 0 - c)
    some (b.set target ((b.get target).getD 0 + c))

/-- Remove coins from a stored balance. -/
def burn (b : KVStore Address Coins) (source : Address) (c : Coins) :
    Option (KVStore Address Coins) :=
  if ((b.get source).getD 0 - c).isNegative then none
  else some (b.set source ((b.get source).getD 0 - c))

/-- A bank that holds a balance per account; a module's account is its name behind a hash, and
every token exists. -/
def simpleSupply : SupplyKeeper (KVStore Address Coins) where
  getCoins := fun b a => (b.get a).getD 0
  sendCoins := move
  burnCoins := burn
  moduleAddress := fun m => "#" ++ m
  tokenExist := fun _ _ => true
  moduleAddress_inj := fun h => String.append_right_inj "#" |>.mp h
  getCoins_sendCoins := fun {b source target c b'} h a => by
    unfold move at h
    split_ifs at h
    cases h
    simp only [KVStore.get_set]
    by_cases hs : a = source <;> by_cases ht : a = target <;> by_cases hst : target = source <;>
      simp_all
  getCoins_burnCoins := fun {b source c b'} h a => by
    unfold burn at h
    split_ifs at h
    cases h
    rw [KVStore.get_set]
    by_cases hs : a = source <;> simp_all
  sendCoins_isSome := fun {b m target c} hpos hle => by
    have h1 : c.isNegative = false := Coins.isNegative_eq_false.mpr hpos
    have h2 : ((b.get ("#" ++ m)).getD 0 - c).isNegative = false :=
      Coins.isNegative_eq_false.mpr fun d => by
        rw [DFinsupp.sub_apply]
        exact sub_nonneg.mpr (hle d)
    unfold move
    rw [if_neg (by simp [h1, h2])]
    rfl

theorem isUser_simpleSupply {a : Address} (h : a.toList.head? ≠ some '#') :
    simpleSupply.IsUser a := by
  rintro m rfl
  refine h ?_
  show ("#" ++ m).toList.head? = some '#'
  rw [String.toList_append]
  rfl

end Okexchain
