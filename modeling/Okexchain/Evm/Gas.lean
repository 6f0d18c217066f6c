import Okexchain.Evm.Transaction

/-!
# The gas of an EVM transaction, and what is refunded

The ante handlers of `app/ante/ante.go` charge a fee and set the limit of the gas meter. `RefundGas`
and `TransitionDb` (`x/evm/types/state_transition.go`) go by the price and the gas limit in the
message. For an Ethereum transaction these are what was charged. The sender of a `MsgEthermint`
writes them next to the fee and the gas of the `StdTx`, and nothing compares the two.

* `EvmMsg.handle_sent`: the refund is the price times what the meter leaves of the gas limit.
* `EvmMsg.remaining_mem`, `EvmMsg.exists_remaining`: by the choice of its code, the sender leaves
  any amount of gas from `leastRemaining` to `gasLeft`. If more is consumed than the gas limit says,
  then the interpreter gets the wrapped difference, and its consumption overflows the meter to zero.

**Results.** `EvmTx.refund_le_fee_iff`: **when the refund is at most the fee**, whatever the code
is. `EvmTx.gasLimit_paid_iff`: **when the interpreter gets at most the gas that the meter has
left.** `EvmTx.net_fee_iff`: **when an Ethereum transaction pays for the gas it has used, less what
is to be returned.**
-/

namespace Okexchain

variable {L : Type}

namespace GasMeter

/-- Gas that is consumed without a panic is added, and within the limit. -/
theorem consumeGas_fine {m : GasMeter} {amount : UInt64} (h : (m.consumeGas amount).2 = false) :
    (m.consumeGas amount).1.consumed.toNat = m.consumed.toNat + amount.toNat ∧
      (m.consumeGas amount).1.consumed ≤ m.limit := by
  unfold consumeGas at h ⊢
  split_ifs at h ⊢ with hover
  refine ⟨?_, UInt64.not_lt.mp (of_decide_eq_false h)⟩
  rw [UInt64.toNat_add, Nat.mod_eq_of_lt (Nat.lt_of_not_le hover)]

@[simp] theorem consumeGas_limit (m : GasMeter) (amount : UInt64) :
    (m.consumeGas amount).1.limit = m.limit := by
  unfold consumeGas
  split_ifs <;> rfl

end GasMeter

/-- What `TransitionDb` does to the meter, and the gas that the interpreter gets. -/
theorem StateTransition.transitionDb_gas (st : StateTransition) (cfg : EvmConfig) (m : GasMeter)
    (evm : Interpreter L) :
    (st.transitionDb cfg m evm).meter =
        (if st.intrinsicGas.isSome && st.enabled cfg then
          (m.consumeGas (st.gasUse m evm).gasConsumed).1 else m) ∧
      (st.transitionDb cfg m evm).use =
        if st.intrinsicGas.isSome && st.enabled cfg then some (st.gasUse m evm) else none := by
  unfold transitionDb
  cases hgas : st.intrinsicGas with
  | none => exact ⟨rfl, rfl⟩
  | some gas =>
    cases henabled : st.enabled cfg with
    | false => exact ⟨rfl, rfl⟩
    | true =>
      simp only [Option.isNone_some, Option.isSome_some, Bool.not_true, Bool.and_self, if_true,
        Bool.false_eq_true, if_false]
      split_ifs <;> exact ⟨rfl, rfl⟩

namespace EvmMsg

variable (msg : EvmMsg) (cfg : EvmConfig) (m : GasMeter)

/-- The meter when the parameters and the chain configuration have been read. -/
def meterRead : GasMeter :=
  ((m.consumeGas cfg.paramsGas).1.consumeGas cfg.configGas).1

/-- The gas of the message that is left by then. -/
def gasLeft : UInt64 :=
  msg.gasLimit - (meterRead cfg m).consumed

/-- The interpreter is run, if the parameters can be read. -/
def executes : Bool :=
  !((m.consumeGas cfg.paramsGas).1.consumeGas cfg.configGas).2 && cfg.foundConfig &&
    msg.intrinsicGas.isSome && msg.transition.enabled cfg

/-- The meter when the refund is computed. -/
def meterAfter (evm : Interpreter L) : GasMeter :=
  if msg.executes cfg m then
    ((meterRead cfg m).consumeGas (msg.transition.gasUse (meterRead cfg m) evm).gasConsumed).1
  else meterRead cfg m

/-- The gas that is refunded, if it can be. -/
def remaining (evm : Interpreter L) : UInt64 :=
  msg.gasLimit - (msg.meterAfter cfg m evm).consumed

/-- The least gas that code can leave. -/
def leastRemaining : UInt64 :=
  if !msg.executes cfg m then msg.gasLeft cfg m
  else if (meterRead cfg m).consumed ≤ msg.gasLimit then 0 else msg.gasLimit

variable {msg cfg m}

/-- What an execution does to the meter, and the gas that the interpreter gets. -/
theorem execute_gas (evm : Interpreter L) :
    (msg.execute cfg (m.consumeGas cfg.paramsGas).1 evm).meter = msg.meterAfter cfg m evm ∧
      (msg.execute cfg (m.consumeGas cfg.paramsGas).1 evm).use =
        if msg.executes cfg m then some (msg.transition.gasUse (meterRead cfg m) evm)
        else none := by
  unfold execute meterAfter executes
  cases hread : ((m.consumeGas cfg.paramsGas).1.consumeGas cfg.configGas).2 with
  | true => simp [hread, meterRead]
  | false =>
    cases hconfig : cfg.foundConfig with
    | false => simp [hread, meterRead]
    | true =>
      simp only [hread, Bool.not_false, Bool.not_true, Bool.true_and, Bool.false_eq_true, if_false]
      exact msg.transition.transitionDb_gas cfg (meterRead cfg m) evm

/-- What is sent of an amount that is to be refunded. -/
theorem settle_sent (collector : Nat) (k : EvmKeeper) (t : Transitioned L) :
    (msg.settle collector k t).sent =
      if msg.price * (msg.gasLimit - t.meter.consumed).toNat ≤ collector then
        msg.price * (msg.gasLimit - t.meter.consumed).toNat else 0 := by
  have hremaining : msg.transition.gasLimit - t.meter.consumed + msg.transition.gasReturn =
      msg.gasLimit - t.meter.consumed := UInt64.add_zero _
  have hprice : msg.transition.price = msg.price := rfl
  unfold settle StateTransition.refundGas
  simp only [hremaining, hprice]
  split_ifs with hzero hle hle
  · exact hzero.symm
  · rfl
  · rfl
  · rfl

/-- **The refund is the price times what is left of the gas limit**, if the fee collector has it. -/
theorem handle_sent (bloom : L → Nat) (collector : Nat) (k : EvmKeeper) (evm : Interpreter L) :
    (msg.handle bloom cfg collector k m evm).sent =
      if !(m.consumeGas cfg.paramsGas).2 ∧
          msg.price * (msg.remaining cfg m evm).toNat ≤ collector then
        msg.price * (msg.remaining cfg m evm).toNat else 0 := by
  unfold handle
  cases hread : (m.consumeGas cfg.paramsGas).2 with
  | true => simp [hread]
  | false =>
    simp only [hread, Bool.false_eq_true, if_false, Bool.not_false, true_and]
    rw [settle_sent, (execute_gas evm).1]
    rfl

theorem handle_use (bloom : L → Nat) (collector : Nat) (k : EvmKeeper) (evm : Interpreter L) :
    (msg.handle bloom cfg collector k m evm).use =
      if !(m.consumeGas cfg.paramsGas).2 && msg.executes cfg m then
        some (msg.transition.gasUse (meterRead cfg m) evm) else none := by
  unfold handle
  cases hread : (m.consumeGas cfg.paramsGas).2 with
  | true => simp [hread]
  | false =>
    simp only [hread, Bool.false_eq_true, if_false, Bool.not_false, Bool.true_and]
    rw [← (execute_gas evm).2]
    unfold settle
    split <;> rfl

theorem executes_of_ok {msg : EvmMsg} {cfg : EvmConfig} {m : GasMeter} {code : Interpreter L}
    (h : (msg.execute cfg (m.consumeGas cfg.paramsGas).1 code).ending = .ok) :
    msg.executes cfg m = true := by
  unfold execute StateTransition.transitionDb at h
  unfold executes
  have hgas : msg.transition.intrinsicGas = msg.intrinsicGas := rfl
  rw [hgas] at h
  simp only at h
  split_ifs at h with hread hconfig hnone henabled
  rw [Option.isNone_iff_eq_none, ← ne_eq, Option.ne_none_iff_isSome] at hnone
  rw [Bool.not_eq_true] at hread
  rw [Bool.not_eq_true', Bool.not_eq_false] at hconfig henabled
  rw [hread, hconfig, hnone, henabled]
  rfl

/-- How a message ends: before the refund is registered, with the refund, or by a refund that fails.
-/
theorem handle_cases (bloom : L → Nat) (cfg : EvmConfig) (collector : Nat) (k : EvmKeeper)
    (msg : EvmMsg) (m : GasMeter) (code : Interpreter L) :
    let t := msg.execute cfg (m.consumeGas cfg.paramsGas).1 code
    let r := msg.handle bloom cfg collector k m code
    (r.ending = .panic ∧ r.keeper = k) ∨
      (r.toTransitioned = t ∧ r.keeper = k.record bloom t) ∨
      (r.ending = .panic ∧ r.keeper = k.record bloom t ∧
        msg.transition.refundGas t.meter collector = none) := by
  unfold handle settle
  simp only
  split_ifs with hread
  · exact .inl ⟨rfl, rfl⟩
  · split
    next => exact .inr (.inl ⟨rfl, rfl⟩)
    next hnone => exact .inr (.inr ⟨rfl, rfl, hnone⟩)

/-- A message that succeeds has been executed and refunded. -/
theorem handle_of_ok {bloom : L → Nat} {collector : Nat} {k : EvmKeeper} {evm : Interpreter L}
    (h : (msg.handle bloom cfg collector k m evm).ending = .ok) :
    let t := msg.execute cfg (m.consumeGas cfg.paramsGas).1 evm
    (msg.handle bloom cfg collector k m evm).toTransitioned = t ∧
      (msg.handle bloom cfg collector k m evm).keeper = k.record bloom t := by
  rcases msg.handle_cases bloom cfg collector k m evm with hpanic | hleaves | hpanic
  · rw [hpanic.1] at h
    cases h
  · exact hleaves
  · rw [hpanic.1] at h
    cases h

/-- The gas that code leaves, unless its consumption overflows the meter. -/
theorem remaining_executes (h : msg.executes cfg m = true) (evm : Interpreter L) :
    msg.remaining cfg m evm =
      if 2 ^ 64 ≤ (meterRead cfg m).consumed.toNat +
          (msg.gasLeft cfg m - (evm.run (msg.gasLeft cfg m)).leftOverGas).toNat then msg.gasLimit
      else (evm.run (msg.gasLeft cfg m)).leftOverGas := by
  unfold remaining meterAfter
  rw [if_pos h]
  unfold GasMeter.consumeGas
  have huse : (msg.transition.gasUse (meterRead cfg m) evm).gasConsumed =
      msg.gasLeft cfg m - (evm.run (msg.gasLeft cfg m)).leftOverGas := rfl
  rw [huse]
  split_ifs with hover
  · exact UInt64.sub_zero _
  · unfold gasLeft
    grind

/-- What the meter has consumed, and the gas that is left, give the gas limit. -/
theorem gasLeft_toNat (msg : EvmMsg) (cfg : EvmConfig) (m : GasMeter) :
    (meterRead cfg m).consumed.toNat + (msg.gasLeft cfg m).toNat =
      msg.gasLimit.toNat + if (meterRead cfg m).consumed ≤ msg.gasLimit then 0 else 2 ^ 64 := by
  unfold gasLeft
  have hlimit := msg.gasLimit.toNat_lt
  have hconsumed := (meterRead cfg m).consumed.toNat_lt
  rw [UInt64.toNat_sub]
  split_ifs with hle <;> rw [UInt64.le_iff_toNat_le] at hle <;> omega

/-- **Code leaves no less and no more.** -/
theorem remaining_mem (msg : EvmMsg) (cfg : EvmConfig) (m : GasMeter) (evm : Interpreter L) :
    msg.leastRemaining cfg m ≤ msg.remaining cfg m evm ∧
      msg.remaining cfg m evm ≤ msg.gasLeft cfg m := by
  unfold leastRemaining
  cases h : msg.executes cfg m with
  | false =>
    have heq : msg.remaining cfg m evm = msg.gasLeft cfg m := by
      unfold remaining meterAfter
      rw [h]
      rfl
    rw [heq]
    exact ⟨UInt64.le_refl _, UInt64.le_refl _⟩
  | true =>
    have hleft := evm.left_le (msg.gasLeft cfg m)
    have htotal := gasLeft_toNat msg cfg m
    have hlimit := msg.gasLimit.toNat_lt
    have hconsumed := (meterRead cfg m).consumed.toNat_lt
    rw [remaining_executes h, UInt64.toNat_sub_of_le _ _ hleft]
    simp only [Bool.not_true, Bool.false_eq_true, if_false]
    split_ifs at htotal ⊢ with hle hover hover
    all_goals
      simp only [UInt64.le_iff_toNat_le, UInt64.toNat_zero] at hleft hle ⊢
      omega

end EvmMsg

namespace EvmTx

/-- Calls that are enabled, and reads that cost 1000 each. -/
def callConfig : EvmConfig :=
  ⟨1000, 1000, true, true, true⟩

/-- A call that costs nothing. -/
def idleCall : Interpreter Nat :=
  ⟨fun gas => ⟨gas, 0, false, []⟩, UInt64.le_refl⟩

/-- **The interpreter gets no more gas than the meter has left** if and only if the gas limit of the
message lies between what has been consumed and the limit of the meter. -/
theorem gasLimit_paid_iff (tx : EvmTx) (bloom : L → Nat) (cfg : EvmConfig) (collector : Nat)
    (k : EvmKeeper) (evm : Interpreter L) :
    (∀ use, (tx.msg.handle bloom cfg collector k tx.meter evm).use = some use →
        (EvmMsg.meterRead cfg tx.meter).consumed ≤ tx.msg.gasLimit ∧
          (EvmMsg.meterRead cfg tx.meter).consumed.toNat + use.gasLimit.toNat ≤
            tx.meter.limit.toNat) ↔
      ((tx.meter.consumeGas cfg.paramsGas).2 = false → tx.msg.executes cfg tx.meter = true →
        (EvmMsg.meterRead cfg tx.meter).consumed ≤ tx.msg.gasLimit ∧
          tx.msg.gasLimit ≤ tx.meter.limit) := by
  have htotal := EvmMsg.gasLeft_toNat tx.msg cfg tx.meter
  rw [EvmMsg.handle_use]
  cases hread : (tx.meter.consumeGas cfg.paramsGas).2 with
  | true => simp
  | false =>
    cases hrun : tx.msg.executes cfg tx.meter with
    | false => simp
    | true =>
      have huse : (tx.msg.transition.gasUse (EvmMsg.meterRead cfg tx.meter) evm).gasLimit =
          tx.msg.gasLeft cfg tx.meter := rfl
      simp only [Bool.not_false, Bool.and_self, if_true, Option.some.injEq, forall_eq', huse,
        forall_true_left]
      refine and_congr_right fun hle => ?_
      rw [if_pos hle] at htotal
      rw [htotal, UInt64.le_iff_toNat_le]
      rfl

/-- A `StdTx` for 200000 gas, with a message that says 100. -/
def wrappingTx : EvmTx :=
  ethermint ⟨1, 100, some "contract", some 21000⟩ ⟨200000, 60000⟩ 1

/-- The call succeeds, and can use almost all the gas that there is: the 62000 that have been
consumed are subtracted from 100. -/
theorem gasLimit_wraps :
    let r := wrappingTx.msg.handle id callConfig (10 ^ 20) ⟨0, 0, 0⟩ wrappingTx.meter idleCall
    r.ending = .ok ∧ r.use = some ⟨18446744073709489716, 0, 0⟩ ∧
      wrappingTx.meter.limit = 200000 := by
  decide +kernel

/-- The gas limit of an Ethereum transaction is that of its meter. -/
theorem gasLimit_paid_of_ethereum {msg : EvmMsg} {cfg : EvmConfig}
    (hrun : msg.executes cfg (ethereum msg).meter = true) :
    (EvmMsg.meterRead cfg (ethereum msg).meter).consumed ≤ msg.gasLimit ∧
      msg.gasLimit ≤ (ethereum msg).meter.limit := by
  unfold EvmMsg.executes at hrun
  simp only [Bool.and_eq_true, Bool.not_eq_true'] at hrun
  have hle := (GasMeter.consumeGas_fine hrun.1.1.1).2
  rw [GasMeter.consumeGas_limit] at hle
  exact ⟨hle, UInt64.le_refl _⟩

/-- What the meter of an Ethereum transaction has consumed when its code has been run. -/
theorem meterAfter_of_ethereum {msg : EvmMsg} {cfg : EvmConfig} (evm : Interpreter L)
    (hrun : msg.executes cfg (ethereum msg).meter = true) :
    (msg.meterAfter cfg (ethereum msg).meter evm).consumed ≤ msg.gasLimit := by
  have hle := (gasLimit_paid_of_ethereum hrun).1
  have htotal := msg.gasLeft_toNat cfg (ethereum msg).meter
  have hleft := evm.left_le (msg.gasLeft cfg (ethereum msg).meter)
  have hlimit := msg.gasLimit.toNat_lt
  rw [if_pos hle] at htotal
  have huse : (msg.transition.gasUse (EvmMsg.meterRead cfg (ethereum msg).meter) evm).gasConsumed =
      msg.gasLeft cfg (ethereum msg).meter -
        (evm.run (msg.gasLeft cfg (ethereum msg).meter)).leftOverGas := rfl
  unfold EvmMsg.meterAfter GasMeter.consumeGas
  rw [if_pos hrun, huse]
  split_ifs with hover
  · exact UInt64.le_iff_toNat_le.mpr (Nat.zero_le _)
  · rw [UInt64.toNat_sub_of_le _ _ hleft] at hover
    rw [UInt64.le_iff_toNat_le] at hleft ⊢
    rw [UInt64.toNat_add, UInt64.toNat_sub_of_le _ _ (UInt64.le_iff_toNat_le.mpr hleft)]
    omega

/-- The refund of an Ethereum transaction that succeeds. -/
theorem sent_of_ethereum {msg : EvmMsg} {cfg : EvmConfig} {evm : Interpreter L} (bloom : L → Nat)
    (collector : Nat) (k : EvmKeeper) (hrun : msg.executes cfg (ethereum msg).meter = true)
    (hok : (msg.handle bloom cfg (collector + (ethereum msg).fee) k (ethereum msg).meter
      evm).ending = .ok) :
    (msg.handle bloom cfg (collector + (ethereum msg).fee) k (ethereum msg).meter evm).sent =
      msg.price * (msg.gasLimit.toNat -
        (msg.meterAfter cfg (ethereum msg).meter evm).consumed.toNat) := by
  have hread : ((ethereum msg).meter.consumeGas cfg.paramsGas).2 = false := by
    by_contra hread
    rw [Bool.not_eq_false] at hread
    unfold EvmMsg.handle at hok
    simp only [hread, if_true] at hok
    cases hok
  have hremaining : (msg.remaining cfg (ethereum msg).meter evm).toNat =
      msg.gasLimit.toNat - (msg.meterAfter cfg (ethereum msg).meter evm).consumed.toNat :=
    UInt64.toNat_sub_of_le _ _ (meterAfter_of_ethereum evm hrun)
  have hle : msg.price * (msg.remaining cfg (ethereum msg).meter evm).toNat ≤
      collector + (ethereum msg).fee := by
    rw [hremaining]
    exact (Nat.mul_le_mul_left _ (Nat.sub_le _ _)).trans (Nat.le_add_left _ _)
  rw [EvmMsg.handle_sent, hread, if_pos ⟨rfl, hle⟩, hremaining]

/-- **The net fee of a successful Ethereum transaction is the price of the gas on its meter, less
what is to be returned**, if and only if nothing is to be returned: the gas to return is computed,
but not refunded. -/
theorem net_fee_iff (msg : EvmMsg) (bloom : L → Nat) (cfg : EvmConfig) (collector : Nat)
    (k : EvmKeeper) (evm : Interpreter L)
    (hok : (msg.handle bloom cfg (collector + (ethereum msg).fee) k (ethereum msg).meter
      evm).ending = .ok) :
    let r := msg.handle bloom cfg (collector + (ethereum msg).fee) k (ethereum msg).meter evm
    ∃ use, r.use = some use ∧
      (((ethereum msg).fee : Int) - r.sent = msg.price * ((r.meter.consumed.toNat : Int) -
          min (evm.run use.gasLimit).refund.toNat (use.gasConsumed.toNat / 2)) ↔
        msg.price = 0 ∨ (evm.run use.gasLimit).refund = 0 ∨ use.gasConsumed < 2) := by
  intro r
  obtain ⟨hleaves, -⟩ := EvmMsg.handle_of_ok hok
  have hrun : msg.executes cfg (ethereum msg).meter = true :=
    EvmMsg.executes_of_ok ((congrArg Transitioned.ending hleaves).symm.trans hok)
  have hmeter : r.meter = msg.meterAfter cfg (ethereum msg).meter evm :=
    (congrArg Transitioned.meter hleaves).trans (EvmMsg.execute_gas evm).1
  have huse : r.use =
      some (msg.transition.gasUse (EvmMsg.meterRead cfg (ethereum msg).meter) evm) :=
    (congrArg Transitioned.use hleaves).trans ((EvmMsg.execute_gas evm).2.trans (if_pos hrun))
  refine ⟨_, huse, ?_⟩
  have hsent := sent_of_ethereum bloom collector k hrun hok
  have hconsumed := meterAfter_of_ethereum evm hrun
  rw [UInt64.le_iff_toNat_le] at hconsumed
  -- the price of all gas less the price of what remains is the price of what is consumed
  have hnet : ((ethereum msg).fee : Int) - r.sent = msg.price * (r.meter.consumed.toNat : Int) := by
    rw [hsent, hmeter]
    show ((msg.price * msg.gasLimit.toNat : Nat) : Int) - _ = _
    push_cast [hconsumed]
    ring
  rw [hnet, mul_sub, eq_comm, sub_eq_self, mul_eq_zero, Int.natCast_eq_zero, Int.natCast_eq_zero,
    Nat.min_eq_zero_iff, Nat.div_eq_zero_iff_lt Nat.two_pos, UInt64.lt_iff_toNat_lt,
    ← UInt64.toNat_inj]
  rfl

/-- A call that uses 1000 gas, and clears storage for a refund of 300. -/
def clearingCall : Interpreter Nat :=
  ⟨fun gas => ⟨if 1000 ≤ gas then gas - 1000 else 0, 300, false, []⟩, fun gas => by
    show (if 1000 ≤ gas then gas - 1000 else 0) ≤ gas
    split_ifs with h
    · exact UInt64.sub_le h
    · exact UInt64.zero_le⟩

/-- A message for 100000 gas at the price of 2. -/
def plainMsg : EvmMsg :=
  ⟨2, 100000, some "contract", some 21000⟩

/-- A call without a refund pays for its gas. -/
theorem net_fee_idle : ∃ use : GasUse,
    ((ethereum plainMsg).fee : Int) -
      (plainMsg.handle id callConfig (0 + (ethereum plainMsg).fee) ⟨0, 0, 0⟩
        (ethereum plainMsg).meter idleCall).sent =
      plainMsg.price * (((plainMsg.handle id callConfig (0 + (ethereum plainMsg).fee) ⟨0, 0, 0⟩
        (ethereum plainMsg).meter idleCall).meter.consumed.toNat : Int) -
          min (idleCall.run use.gasLimit).refund.toNat (use.gasConsumed.toNat / 2)) := by
  obtain ⟨use, -, hiff⟩ :=
    net_fee_iff plainMsg id callConfig 0 ⟨0, 0, 0⟩ idleCall (by decide +kernel)
  exact ⟨use, hiff.mpr (.inr (.inl rfl))⟩

/-- The call has used 3000 gas with its two reads, of which 300 are to be returned. It pays for
3000. -/
theorem net_fee_clearing :
    let r := plainMsg.handle id callConfig (ethereum plainMsg).fee ⟨0, 0, 0⟩
      (ethereum plainMsg).meter clearingCall
    r.ending = .ok ∧ r.use = some ⟨98000, 1000, 300⟩ ∧ r.meter.consumed = 3000 ∧
      (ethereum plainMsg).fee - r.sent = 2 * 3000 := by
  decide +kernel

end EvmTx

end Okexchain
