import Okexchain.Lib.KVStore
import Mathlib.Data.DFinsupp.BigOperators

/-!
# The token keeper: locked coins and the module account

Model of the part of `x/token/keeper.go` the exchange uses: `LockCoins`, `updateLockedCoins`,
`UnlockCoins`, `BalanceAccount` and `SendCoinsFromAccountToAccount`.

* `Coins` is a `sdk.SysCoins` value: an amount for finitely many denominations. The source's lists
  leave out zero amounts, so a coin list is zero exactly when the function is.
* `BankKeeper` is the bank, supply and account keepers, which are not part of the repository. Its
  laws are what their documentation promises: a transfer that succeeds moves exactly the given
  coins, and a transfer out of the module account succeeds when the account holds them.
* `Ledger` is the lock store (`GetLockAddress` and `GetLockFeeAddress` entries) next to the bank.
  The order keeper only logs a failed call; `failures` is that log.

An operation that fails half-way keeps what it has written: `unlockCoins` and `balanceAccount`
reduce the lock first and then ask the bank for the transfer.
-/

namespace Okexchain

/-- An account address. -/
abbrev Address := String

/-- `sdk.SysCoins`: an amount per denomination. -/
abbrev Coins := Π₀ _ : String, ℤ

/-- One coin. -/
def coin (denom : String) (amount : ℤ) : Coins := DFinsupp.single denom amount

/-- `sdk.SysCoin`. -/
structure DecCoin where
  denom : String
  amount : Int
deriving DecidableEq, Repr

theorem DecCoin.free_nonneg (denom : String) : 0 ≤ (⟨denom, 0⟩ : DecCoin).amount := le_rfl

/-- The coin as a coin list. -/
def DecCoin.toCoins (c : DecCoin) : Coins := coin c.denom c.amount

/-- Some amount is negative. -/
def Coins.isNegative (c : Coins) : Bool := decide (∃ d ∈ c.support, c d < 0)

theorem coin_apply (denom : String) (amount : ℤ) (d : String) :
    coin denom amount d = if denom = d then amount else 0 := by
  unfold coin
  rw [DFinsupp.single_apply]
  split_ifs with h
  · subst h
    rfl
  · rfl

@[simp] theorem coin_zero (denom : String) : coin denom 0 = 0 := DFinsupp.single_zero denom

theorem coin_sub (denom : String) (a b : ℤ) : coin denom (a - b) = coin denom a - coin denom b := by
  ext d
  rw [DFinsupp.sub_apply, coin_apply, coin_apply, coin_apply]
  split_ifs <;> omega

theorem coin_add (denom : String) (a b : ℤ) : coin denom (a + b) = coin denom a + coin denom b := by
  ext d
  rw [DFinsupp.add_apply, coin_apply, coin_apply, coin_apply]
  split_ifs <;> omega

theorem coin_neg (denom : String) (a : ℤ) : coin denom (-a) = -coin denom a := by
  rw [← zero_sub a, coin_sub, coin_zero, zero_sub]

theorem coin_nonneg {a : ℤ} (h : 0 ≤ a) (denom d : String) : 0 ≤ coin denom a d := by
  rw [coin_apply]
  split_ifs
  · exact h
  · exact le_rfl

theorem sumBy_apply {K V : Type} [LinearOrder K] (m : KVStore K V) (f : K → V → Coins)
    (d : String) : m.sumBy f d = m.sumBy fun k v => f k v d :=
  KVStore.map_sumBy f (DFinsupp.evalAddMonoidHom d)

theorem Coins.isNegative_eq_false {c : Coins} : c.isNegative = false ↔ ∀ d, 0 ≤ c d := by
  unfold Coins.isNegative
  rw [decide_eq_false_iff_not]
  constructor
  · intro h d
    by_contra hd
    exact h ⟨d, DFinsupp.mem_support_iff.mpr (fun h0 => hd (h0 ▸ le_rfl)), not_le.mp hd⟩
  · rintro h ⟨d, -, hd⟩
    exact absurd (h d) (not_le.mpr hd)

/-- The bank, supply and account keepers. -/
structure BankKeeper (B : Type) where
  getCoins : B → Address → Coins
  sendCoins : B → Address → Address → Coins → Option B
  blacklistedAddr : Address → Bool
  isContractAddress : B → Address → Bool
  higherThanMercury : Nat → Bool
  /-- The account of the token module. -/
  tokenModule : Address
  /-- The account of the fee collector. -/
  feeCollector : Address
  feeCollector_ne : feeCollector ≠ tokenModule
  /-- Module accounts do not receive transfers between accounts. -/
  blacklisted_tokenModule : blacklistedAddr tokenModule = true
  getCoins_sendCoins : ∀ {b source target c b'}, sendCoins b source target c = some b' → ∀ a,
    getCoins b' a = getCoins b a - (if a = source then c else 0) + (if a = target then c else 0)
  sendCoins_isSome : ∀ {b target c}, c ≠ 0 → (∀ d, 0 ≤ c d) →
    (∀ d, c d ≤ getCoins b tokenModule d) → (sendCoins b tokenModule target c).isSome

/-- A transfer between stored balances; it needs a positive amount that the sender holds. -/
def transfer (b : KVStore Address Coins) (source target : Address) (c : Coins) :
    Option (KVStore Address Coins) :=
  if c = 0 ∨ c.isNegative ∨ ((b.get source).getD 0 - c).isNegative then none
  else
    let b := b.set source ((b.get source).getD 0 - c)
    some (b.set target ((b.get target).getD 0 + c))

/-- A bank that holds a balance per account, with the two module accounts blacklisted. -/
def simpleBank : BankKeeper (KVStore Address Coins) where
  getCoins := fun b a => (b.get a).getD 0
  sendCoins := transfer
  blacklistedAddr := fun a => a = "token" || a = "fee_collector"
  isContractAddress := fun _ _ => false
  higherThanMercury := fun _ => false
  tokenModule := "token"
  feeCollector := "fee_collector"
  feeCollector_ne := by decide
  blacklisted_tokenModule := rfl
  getCoins_sendCoins := fun {b source target c b'} h a => by
    unfold transfer at h
    split_ifs at h
    cases h
    simp only [KVStore.get_set]
    by_cases hs : a = source <;> by_cases ht : a = target <;> by_cases hst : target = source <;>
      simp_all
  sendCoins_isSome := fun {b target c} hne hpos hle => by
    have h1 : c.isNegative = false := Coins.isNegative_eq_false.mpr hpos
    have h2 : ((b.get "token").getD 0 - c).isNegative = false :=
      Coins.isNegative_eq_false.mpr fun d => by
        rw [DFinsupp.sub_apply]
        exact sub_nonneg.mpr (hle d)
    unfold transfer
    rw [if_neg (by simp [hne, h1, h2])]
    rfl

/-- A call whose error the order keeper writes to its log. -/
inductive FailedCall where
  | unlockCoins (addr : Address) (coins : Coins)
  | balanceAccount (addr : Address) (outputCoins : Coins)
deriving DecidableEq

/-- The lock store and the bank. -/
structure Ledger (B : Type) where
  lockedCoins : KVStore Address Coins
  lockedFees : KVStore Address Coins
  bank : B
  failures : List FailedCall
deriving DecidableEq

/-- `LockCoinsTypeQuantity` and `LockCoinsTypeFee`. -/
inductive LockCoinsType where
  | quantity
  | fee
deriving DecidableEq, Repr

variable {B : Type}

namespace Ledger

/-- The entries of one kind of lock. -/
def lockMap (led : Ledger B) : LockCoinsType → KVStore Address Coins
  | .quantity => led.lockedCoins
  | .fee => led.lockedFees

/-- Replace the entries of one kind of lock. -/
def setLockMap (led : Ledger B) (m : KVStore Address Coins) : LockCoinsType → Ledger B
  | .quantity => { led with lockedCoins := m }
  | .fee => { led with lockedFees := m }

end Ledger

/-! ## The operations -/

namespace TokenKeeper

/-- Write an account's lock; an empty one is deleted. -/
def storeCoins (m : KVStore Address Coins) (addr : Address) (newCoins : Coins) :
    KVStore Address Coins :=
  if newCoins = 0 then m.delete addr else m.set addr newCoins

/-- `updateLockedCoins`. -/
def updateLockedCoins (led : Ledger B) (addr : Address) (coins : Coins) (doAdd : Bool)
    (t : LockCoinsType) : Option (Ledger B) :=
  let m := led.lockMap t
  if doAdd then
    match m.get addr with
    | none => some (led.setLockMap (storeCoins m addr coins) t)
    | some oldCoins => some (led.setLockMap (storeCoins m addr (oldCoins + coins)) t)
  else
    match m.get addr with
    | none => none
    | some oldCoins =>
      if (oldCoins - coins).isNegative then none
      else some (led.setLockMap (storeCoins m addr (oldCoins - coins)) t)

/-- A transfer between two accounts, module accounts included. -/
def sendCoins (bk : BankKeeper B) (led : Ledger B) (source target : Address) (coins : Coins) :
    Option (Ledger B) :=
  (bk.sendCoins led.bank source target coins).map fun b => { led with bank := b }

/-- `LockCoins`. -/
def lockCoins (bk : BankKeeper B) (led : Ledger B) (addr : Address) (coins : Coins)
    (t : LockCoinsType) : Option (Ledger B) :=
  match sendCoins bk led addr bk.tokenModule coins with
  | none => none
  | some led => updateLockedCoins led addr coins true t

/-- `UnlockCoins`: the ledger it leaves, and whether it succeeded. -/
def unlockCoins (bk : BankKeeper B) (led : Ledger B) (addr : Address) (coins : Coins)
    (t : LockCoinsType) : Ledger B × Bool :=
  match updateLockedCoins led addr coins false t with
  | none => (led, false)
  | some led =>
    match sendCoins bk led bk.tokenModule addr coins with
    | none => (led, false)
    | some led => (led, true)

/-- The transfer at the end of `BalanceAccount`. -/
def payInput (bk : BankKeeper B) (led : Ledger B) (addr : Address) (inputCoins : Coins) :
    Ledger B × Bool :=
  if inputCoins = 0 then (led, true)
  else
    match sendCoins bk led bk.tokenModule addr inputCoins with
    | none => (led, false)
    | some led => (led, true)

/-- `BalanceAccount`: the ledger it leaves, and whether it succeeded. -/
def balanceAccount (bk : BankKeeper B) (led : Ledger B) (addr : Address)
    (outputCoins inputCoins : Coins) : Ledger B × Bool :=
  if outputCoins = 0 then payInput bk led addr inputCoins
  else
    match updateLockedCoins led addr outputCoins false .quantity with
    | none => (led, false)
    | some led => payInput bk led addr inputCoins

/-- `SendCoinsFromAccountToAccount` at a block height. -/
def sendCoinsFromAccountToAccount (bk : BankKeeper B) (led : Ledger B) (height : Nat)
    (source target : Address) (coins : Coins) : Option (Ledger B) :=
  if bk.blacklistedAddr target then none
  else if bk.higherThanMercury height && bk.isContractAddress led.bank target then none
  else sendCoins bk led source target coins

end TokenKeeper

end Okexchain
