import Mathlib.Algebra.Group.Nat.Defs
import Mathlib.Data.Nat.Size
import Mathlib.Logic.Unique
import Mathlib.Order.Basic
import Okexchain.Lib.Checked

/-!
# Signatures of Ethereum transactions

Model of `MsgEthereumTx.VerifySig`, `isProtectedV`, `deriveChainID` (`x/evm/types/msg.go`) and
`recoverEthSig` (`x/evm/types/utils.go`). A signature is three numbers `V`, `R`, `S`. If `V` is 27
or 28 then the transaction is not bound to a chain. Every other `V` is *protected*: twice the chain
ID and 8 are subtracted from it, and of the result 27 or 28 has to remain.

* A `*big.Int` is an integer. `bitLen` and `uint64` are its methods `BitLen` and `Uint64`, which
  both read the absolute value of the number.
* `Ecdsa` is what the source takes from elsewhere: the hashes that are signed, and the recovery of a
  sender from a hash, `R`, `S` and a recovery byte. The two recovery bytes give different senders.
* `VerifySig` first reads the sender of an earlier call; here there was none.

`V` is compared with the chain ID by its distance from `2 c + 8` only, and the distance is read
without its sign. So the two accepted values `2 c + 35` and `2 c + 36` have mirror images below `2 c
+ 8`, which are accepted for the same chain and the same sender. `ChainID` computes another chain ID
from them.

**Results.** `MsgEthereumTx.verifySig_eq_ok` says which protected `V` are accepted.
`MsgEthereumTx.verifySig_chainID_iff`: **an accepted, protected `V` is one of the two values of this
chain if and only if it is not below `2 c + 8`, and it is the only one for its sender if and only if
its mirror image is negative, 27 or 28.**
-/

namespace Okexchain

namespace Evm

/-- `big.Int.BitLen`. -/
def bitLen (x : Int) : Nat := x.natAbs.size

/-- `big.Int.Uint64`: the low bits of the absolute value. -/
def uint64 (x : Int) : UInt64 := UInt64.ofNat x.natAbs

/-- The errors of `VerifySig`. -/
inductive SigError where
  | zeroChainID
  | invalidSignature
  | recoveryFailed
deriving DecidableEq, Repr

/-- The order of the curve. -/
def secp256k1N : Nat := 0xfffffffffffffffffffffffffffffffebaaedce6af48a03bbfd25e8cd0364141

/-- `ValidateSignatureValues`, with `homestead`. -/
def validateSignatureValues (v : UInt8) (r s : Nat) : Bool :=
  1 ≤ r && 1 ≤ s && s ≤ secp256k1N / 2 && r < secp256k1N && s < secp256k1N && (v = 0 || v = 1)

/-- Hashing and recovery. -/
structure Ecdsa (Data Hash Sender : Type) where
  /-- `RLPSignBytes`. -/
  rlpSignBytes : Data → Nat → Hash
  homesteadSignHash : Data → Hash
  /-- `Ecrecover`, and the address of the public key. -/
  recover : Hash → Nat → Nat → UInt8 → Option Sender
  recover_ne : ∀ hash r s sender, recover hash r s 0 = some sender → recover hash r s 1 ≠ some sender

/-- `MsgEthereumTx`: what is signed, and the signature. -/
structure MsgEthereumTx (Data : Type) where
  data : Data
  v : Nat
  r : Nat
  s : Nat

variable {Data Hash Sender : Type}

/-- `recoverEthSig`. -/
def recoverEthSig (E : Ecdsa Data Hash Sender) (r s : Nat) (vb : Int) (sigHash : Hash) :
    Except SigError Sender := do
  require (bitLen vb ≤ 8) .invalidSignature
  let v := (uint64 vb - 27).toUInt8
  require (validateSignatureValues v r s) .invalidSignature
  orThrow (E.recover sigHash r s v) .recoveryFailed

/-- `isProtectedV`. -/
def isProtectedV (v : Int) : Bool :=
  if bitLen v ≤ 8 then uint64 v ≠ 27 && uint64 v ≠ 28 else true

/-- `deriveChainID`. -/
def deriveChainID (v : Int) : Int :=
  if bitLen v ≤ 64 then
    if uint64 v = 27 ∨ uint64 v = 28 then 0 else ((uint64 v - 35) / 2).toNat
  else (v - 35) / 2

namespace MsgEthereumTx

/-- `VerifySig`, of a message that was not verified before. -/
def verifySig (E : Ecdsa Data Hash Sender) (chainID : Nat) (msg : MsgEthereumTx Data) :
    Except SigError Sender :=
  if isProtectedV msg.v then do
    require (chainID ≠ 0) .zeroChainID
    recoverEthSig E msg.r msg.s (msg.v - chainID * 2 - 8) (E.rlpSignBytes msg.data chainID)
  else recoverEthSig E msg.r msg.s msg.v (E.homesteadSignHash msg.data)

/-- `ChainID`. -/
def chainID (msg : MsgEthereumTx Data) : Int := deriveChainID msg.v

end MsgEthereumTx

/-! ## What is accepted -/

theorem bitLen_le {x : Int} {n : Nat} : bitLen x ≤ n ↔ x.natAbs < 2 ^ n :=
  Nat.size_le

theorem toNat_uint64 {x : Int} (h : bitLen x ≤ 64) : (uint64 x).toNat = x.natAbs := by
  rw [bitLen_le] at h
  unfold uint64
  rw [UInt64.toNat_ofNat', Nat.mod_eq_of_lt h]

/-- The recovery byte is the absolute value less 27, if that is below 256. -/
theorem toUInt8_uint64_sub (x : Int) (h : bitLen x ≤ 8) :
    ((uint64 x - 27).toUInt8 = 0 ↔ x.natAbs = 27) ∧ ((uint64 x - 27).toUInt8 = 1 ↔ x.natAbs = 28) := by
  have hx : (uint64 x).toNat = x.natAbs := toNat_uint64 (by omega)
  rw [bitLen_le] at h
  have hbyte : (uint64 x - 27).toUInt8.toNat = (229 + x.natAbs) % 256 := by
    rw [UInt64.toNat_toUInt8, UInt64.toNat_sub, hx]
    have h27 : (27 : UInt64).toNat = 27 := rfl
    omega
  have h0 : (0 : UInt8).toNat = 0 := rfl
  have h1 : (1 : UInt8).toNat = 1 := rfl
  rw [← UInt8.toNat_inj, ← UInt8.toNat_inj, hbyte, h0, h1]
  omega

theorem isProtectedV_iff (v : Nat) : isProtectedV v = true ↔ v ≠ 27 ∧ v ≠ 28 := by
  unfold isProtectedV
  split_ifs with h
  · have hv : (uint64 v).toNat = v := toNat_uint64 (by omega)
    rw [Bool.and_eq_true, decide_eq_true_eq, decide_eq_true_eq, ne_eq, ne_eq,
      ← UInt64.toNat_inj, ← UInt64.toNat_inj, hv]
    rfl
  · rw [bitLen_le] at h
    refine iff_of_true rfl ?_
    omega

/-- **Recovery reads `V` without its sign.** -/
theorem recoverEthSig_eq_ok {E : Ecdsa Data Hash Sender} {r s : Nat} {vb : Int} {sigHash : Hash}
    {sender : Sender} : recoverEthSig E r s vb sigHash = .ok sender ↔
      validateSignatureValues 0 r s = true ∧
        (vb.natAbs = 27 ∧ E.recover sigHash r s 0 = some sender ∨
          vb.natAbs = 28 ∧ E.recover sigHash r s 1 = some sender) := by
  have hvalid (v : UInt8) : validateSignatureValues v r s = true ↔
      validateSignatureValues 0 r s = true ∧ (v = 0 ∨ v = 1) := by
    unfold validateSignatureValues
    simp only [Bool.and_eq_true, Bool.or_eq_true, decide_eq_true_eq, true_or, and_true]
  unfold recoverEthSig
  simp only [bind_eq_ok, require_eq_ok, orThrow_eq_ok, Unique.exists_iff]
  rw [hvalid (uint64 vb - 27).toUInt8]
  constructor
  · rintro ⟨hlen, ⟨hv, hbyte⟩, hrecover⟩
    obtain ⟨h0, h1⟩ := toUInt8_uint64_sub vb hlen
    refine ⟨hv, ?_⟩
    obtain hbyte | hbyte := hbyte
    · exact .inl ⟨h0.mp hbyte, hbyte ▸ hrecover⟩
    · exact .inr ⟨h1.mp hbyte, hbyte ▸ hrecover⟩
  · rintro ⟨hv, habs⟩
    have hlen : bitLen vb ≤ 8 := by
      rw [bitLen_le]
      omega
    obtain ⟨h0, h1⟩ := toUInt8_uint64_sub vb hlen
    obtain ⟨habs, hrecover⟩ | ⟨habs, hrecover⟩ := habs
    · exact ⟨hlen, ⟨hv, .inl (h0.mpr habs)⟩, (h0.mpr habs).symm ▸ hrecover⟩
    · exact ⟨hlen, ⟨hv, .inr (h1.mpr habs)⟩, (h1.mpr habs).symm ▸ hrecover⟩

namespace MsgEthereumTx

/-- **The protected `V` that are accepted**: those at distance 27 or 28 from `2 c + 8`. -/
theorem verifySig_eq_ok {E : Ecdsa Data Hash Sender} {c : Nat} (hc : 1 ≤ c)
    {msg : MsgEthereumTx Data} (hV : msg.v ≠ 27 ∧ msg.v ≠ 28) {sender : Sender} :
    msg.verifySig E c = .ok sender ↔ validateSignatureValues 0 msg.r msg.s = true ∧
      (((msg.v : Int) - c * 2 - 8).natAbs = 27 ∧
          E.recover (E.rlpSignBytes msg.data c) msg.r msg.s 0 = some sender ∨
        ((msg.v : Int) - c * 2 - 8).natAbs = 28 ∧
          E.recover (E.rlpSignBytes msg.data c) msg.r msg.s 1 = some sender) := by
  unfold verifySig
  rw [if_pos ((isProtectedV_iff _).mpr hV)]
  simp only [bind_eq_ok, require_eq_ok, Unique.exists_iff, recoverEthSig_eq_ok]
  exact ⟨fun h => h.2, fun h => ⟨by omega, h⟩⟩

/-- Two protected `V` that are accepted for one sender are at the same distance. -/
theorem natAbs_eq_of_verifySig {E : Ecdsa Data Hash Sender} {c : Nat} (hc : 1 ≤ c)
    {msg : MsgEthereumTx Data} (hV : msg.v ≠ 27 ∧ msg.v ≠ 28) {v : Nat} (hv : v ≠ 27 ∧ v ≠ 28)
    {sender : Sender} (hmsg : msg.verifySig E c = .ok sender) :
    ({ msg with v } : MsgEthereumTx Data).verifySig E c = .ok sender ↔
      ((v : Int) - c * 2 - 8).natAbs = ((msg.v : Int) - c * 2 - 8).natAbs := by
  rw [verifySig_eq_ok hc hV] at hmsg
  rw [verifySig_eq_ok hc hv]
  obtain ⟨hvalid, ⟨habs, hrecover⟩ | ⟨habs, hrecover⟩⟩ := hmsg
  · have hother := E.recover_ne _ _ _ _ hrecover
    simp only [hvalid, habs, hrecover, hother, and_true, and_false, or_false, true_and]
  · have hother : E.recover (E.rlpSignBytes msg.data c) msg.r msg.s 0 ≠ some sender :=
      fun h => E.recover_ne _ _ _ _ h hrecover
    simp only [hvalid, habs, hrecover, hother, and_true, and_false, false_or, true_and]

/-- `ChainID` of the two values of a chain. -/
theorem chainID_eq {msg : MsgEthereumTx Data} {c : Nat}
    (h : msg.v = 2 * c + 35 ∨ msg.v = 2 * c + 36) : msg.chainID = c := by
  unfold chainID deriveChainID
  split_ifs with hlen hv
  · have h27 : (27 : UInt64).toNat = 27 := rfl
    have h28 : (28 : UInt64).toNat = 28 := rfl
    rw [← UInt64.toNat_inj, ← UInt64.toNat_inj, toNat_uint64 hlen] at hv
    omega
  · have h35 : (35 : UInt64).toNat = 35 := rfl
    have h2 : (2 : UInt64).toNat = 2 := rfl
    rw [UInt64.toNat_div, UInt64.toNat_sub_of_le _ _ (by
      rw [UInt64.le_iff_toNat_le, toNat_uint64 hlen]
      omega), toNat_uint64 hlen, h35, h2]
    omega
  · omega

/-- **A protected signature is accepted for this chain**, with one of the two values of `V` that
encode it, if and only if `V` is not below `2 c + 8`. For its sender no other protected `V` is
accepted if and only if the mirror image of `V` at `2 c + 8` is negative, 27 or 28. -/
theorem verifySig_chainID_iff (E : Ecdsa Data Hash Sender) (c : Nat) (hc : 1 ≤ c)
    (msg : MsgEthereumTx Data) (hV : msg.v ≠ 27 ∧ msg.v ≠ 28) (sender : Sender)
    (hmsg : msg.verifySig E c = .ok sender) :
    ((msg.v = 2 * c + 35 ∨ msg.v = 2 * c + 36) ∧ msg.chainID = c ↔ 2 * c + 8 ≤ msg.v) ∧
      ((∀ v : Nat, v ≠ 27 ∧ v ≠ 28 →
          ({ msg with v } : MsgEthereumTx Data).verifySig E c = .ok sender → v = msg.v) ↔
        4 * c + 16 < msg.v ∨ 4 * c + 16 - msg.v = 27 ∨ 4 * c + 16 - msg.v = 28) := by
  have habs : ((msg.v : Int) - c * 2 - 8).natAbs = 27 ∨ ((msg.v : Int) - c * 2 - 8).natAbs = 28 := by
    obtain ⟨-, ⟨habs, -⟩ | ⟨habs, -⟩⟩ := (verifySig_eq_ok hc hV).mp hmsg
    · exact .inl habs
    · exact .inr habs
  refine ⟨⟨fun h => by omega, fun h => ?_⟩, ⟨fun h => ?_, fun h v hv hother => ?_⟩⟩
  · have hv : msg.v = 2 * c + 35 ∨ msg.v = 2 * c + 36 := by omega
    exact ⟨hv, chainID_eq hv⟩
  · by_contra hmirror
    -- the mirror image is protected and at the same distance, so it is accepted
    have hsame := h (4 * c + 16 - msg.v) (by omega)
      ((natAbs_eq_of_verifySig hc hV (by omega) hmsg).mpr (by omega))
    omega
  · have hdist := (natAbs_eq_of_verifySig hc hV hv hmsg).mp hother
    omega

theorem pair_zero_ne_one (hash : Nat) (sender : Nat × UInt8) (h : some (hash, 0) = some sender) :
    some (hash, 1) ≠ some sender := by
  cases h
  simp

/-- A signature scheme in which everyone signs for themselves: the sender is the hash, told apart by
the recovery byte. -/
def plainEcdsa : Ecdsa Nat Nat (Nat × UInt8) where
  rlpSignBytes data chainID := data + chainID
  homesteadSignHash data := data
  recover hash _ _ v := some (hash, v)
  recover_ne hash _ _ sender := pair_zero_ne_one hash sender

/-- The theorem at chain 5, where the mirror image of 45 is negative. -/
theorem verifySig_chainID_five :
    (⟨100, 45, 1, 1⟩ : MsgEthereumTx Nat).verifySig plainEcdsa 5 = .ok (105, 0) ∧
      (⟨100, 45, 1, 1⟩ : MsgEthereumTx Nat).chainID = 5 ∧
      ∀ v : Nat, v ≠ 27 ∧ v ≠ 28 →
        (⟨100, v, 1, 1⟩ : MsgEthereumTx Nat).verifySig plainEcdsa 5 = .ok (105, 0) → v = 45 := by
  have hok : (⟨100, 45, 1, 1⟩ : MsgEthereumTx Nat).verifySig plainEcdsa 5 = .ok (105, 0) := by
    decide +kernel
  have h := verifySig_chainID_iff plainEcdsa 5 (by decide) ⟨100, 45, 1, 1⟩ (by decide) (105, 0) hok
  exact ⟨hok, (h.1.mpr (by decide)).2, h.2.mpr (by decide)⟩

/-- On chain 66 the values 167 and 113 of `V` are accepted for one sender. `ChainID` of the second
is 39. -/
theorem verifySig_mirrored :
    (⟨100, 167, 1, 1⟩ : MsgEthereumTx Nat).verifySig plainEcdsa 66 = .ok (166, 0) ∧
      (⟨100, 113, 1, 1⟩ : MsgEthereumTx Nat).verifySig plainEcdsa 66 = .ok (166, 0) ∧
      (⟨100, 167, 1, 1⟩ : MsgEthereumTx Nat).chainID = 66 ∧
      (⟨100, 113, 1, 1⟩ : MsgEthereumTx Nat).chainID = 39 := by
  decide +kernel

end MsgEthereumTx

end Evm

end Okexchain
