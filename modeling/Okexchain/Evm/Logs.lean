import Okexchain.Evm.Gas

/-!
# The logs of a block

The bloom filter and the log size are fields of the keeper in `x/evm/keeper`, not of the store.
`BeginBlock` (`x/evm/keeper/abci.go`) resets them, the handlers of `x/evm/handler.go` add the logs
of each execution that succeeds, and `EndBlock` stores the bloom filter. A transaction can still
fail after that, and its store writes are then discarded, but not the fields:

* a later message of the same `StdTx` fails. That such a transaction has one message is checked in
  CheckTx only (`app/ante/validateMsg.go`);
* the deferred refund panics, as the fee collector does not have the amount.

A message of another module consumes gas and ends. Each EVM message comes with the balance of the
fee collector and with what its code does.

**Results.** `block_logs`: **if no EVM message is followed by another one, and the fee collector can
pay each refund, then the bloom filter is that of the logs of the successful transactions, and their
indexes are 0, 1, 2, …**. Ethereum transactions are of this kind. `failed_log_stays`: a transaction
with two messages is not.
-/

namespace Okexchain

variable {L : Type}

/-- A message of a transaction. -/
inductive TxMsg (L : Type) where
  | evm (msg : EvmMsg) (collector : Nat) (code : Interpreter L)
  | other (gas : UInt64) (ending : Ending)

/-- A transaction that the ante handler has let through. The fee of an Ethereum transaction has been
added to the fee collector. -/
inductive BlockTx (L : Type) where
  | ethereum (msg : EvmMsg) (collector : Nat) (code : Interpreter L)
  | std (meter : GasMeter) (msgs : List (TxMsg L))

namespace BlockTx

/-- The messages of a transaction. -/
def msgs : BlockTx L → List (TxMsg L)
  | ethereum msg collector code => [.evm msg (collector + msg.price * msg.gasLimit.toNat) code]
  | std _ msgs => msgs

/-- The meter that its messages are handled on. -/
def meter : BlockTx L → GasMeter
  | ethereum msg _ _ => (EvmTx.ethereum msg).meter
  | std meter _ => meter

end BlockTx

section Run

variable (bloom : L → Nat) (cfg : EvmConfig)

/-- `runMsgs`: the messages in order, up to the first that fails. The logs of all of them, with
their indexes, if none fails. -/
def runMsgs : EvmKeeper → GasMeter → List (TxMsg L) → EvmKeeper × Option (List (L × Nat))
  | k, _, [] => (k, some [])
  | k, m, .other gas ending :: msgs =>
    if (m.consumeGas gas).2 ∨ ending ≠ .ok then (k, none) else runMsgs k (m.consumeGas gas).1 msgs
  | k, m, .evm msg collector code :: msgs =>
    let r := msg.handle bloom cfg collector k m code
    if r.ending = .ok then
      let rest := runMsgs r.keeper r.meter msgs
      (rest.1, rest.2.map (r.logs.zipIdx k.logSize ++ ·))
    else (r.keeper, none)

/-- The transactions of a block, and the logs of those that succeed. -/
def deliverTxs : EvmKeeper → List (BlockTx L) → EvmKeeper × List (L × Nat)
  | k, [] => (k, [])
  | k, tx :: txs =>
    let r := runMsgs bloom cfg k tx.meter tx.msgs
    let rest := deliverTxs r.1 txs
    (rest.1, r.2.getD [] ++ rest.2)

end Run

/-- No message comes after an EVM message, and the fee collector has the price of all gas that is
left when its code is run. -/
def Guarded (cfg : EvmConfig) : GasMeter → List (TxMsg L) → Prop
  | _, [] => True
  | m, .other gas _ :: msgs => Guarded cfg (m.consumeGas gas).1 msgs
  | m, .evm msg collector _ :: msgs =>
    msgs = [] ∧ (msg.executes cfg m = true →
      msg.price * (msg.gasLeft cfg m).toNat ≤ collector)

/-! ## One message -/

/-- The refund fails only if the fee collector does not have the price of the gas that remains. -/
theorem EvmMsg.lt_of_refundGas_none {msg : EvmMsg} {m : GasMeter} {collector : Nat}
    (h : msg.transition.refundGas m collector = none) :
    collector < msg.price * (msg.gasLimit - m.consumed).toNat := by
  have hremaining : msg.transition.gasLimit - m.consumed + msg.transition.gasReturn =
      msg.gasLimit - m.consumed := UInt64.add_zero _
  have hprice : msg.transition.price = msg.price := rfl
  unfold StateTransition.refundGas at h
  simp only [hremaining, hprice] at h
  split_ifs at h with hzero hle
  exact Nat.lt_of_not_le hle

section Record

variable {bloom : L → Nat} {cfg : EvmConfig} {collector : Nat} {k : EvmKeeper} {msg : EvmMsg}
  {m : GasMeter} {code : Interpreter L}

/-- An execution that fails leaves the bloom filter and the log size. -/
theorem EvmKeeper.record_failed {t : Transitioned L} (h : t.ending ≠ .ok) :
    (k.record bloom t).bloom = k.bloom ∧ (k.record bloom t).logSize = k.logSize := by
  unfold record
  rw [if_neg h]
  exact ⟨rfl, rfl⟩

/-- **A message that succeeds adds its logs.** -/
theorem EvmMsg.handle_ok (h : (msg.handle bloom cfg collector k m code).ending = .ok) :
    let r := msg.handle bloom cfg collector k m code
    r.keeper.bloom = k.bloom ||| logsBloom bloom r.logs ∧
      r.keeper.logSize = k.logSize + r.logs.length := by
  obtain ⟨hleaves, hkeeper⟩ := handle_of_ok h
  simp only
  rw [hkeeper]
  rw [hleaves] at h ⊢
  unfold EvmKeeper.record
  rw [if_pos h]
  exact ⟨rfl, rfl⟩

/-- **A message that fails adds none**, if the fee collector can pay the refund. -/
theorem EvmMsg.handle_failed (h : (msg.handle bloom cfg collector k m code).ending ≠ .ok)
    (hpaid : msg.executes cfg m = true → msg.price * (msg.gasLeft cfg m).toNat ≤ collector) :
    let r := msg.handle bloom cfg collector k m code
    r.keeper.bloom = k.bloom ∧ r.keeper.logSize = k.logSize := by
  simp only
  rcases msg.handle_cases bloom cfg collector k m code with
    ⟨-, hkeeper⟩ | ⟨hleaves, hkeeper⟩ | ⟨-, hkeeper, hnone⟩
  · rw [hkeeper]
    exact ⟨rfl, rfl⟩
  · rw [hkeeper]
    rw [hleaves] at h
    exact EvmKeeper.record_failed h
  · rw [hkeeper]
    refine EvmKeeper.record_failed fun hok => ?_
    -- what remains is at most what was left, so it can be paid
    have hlt := lt_of_refundGas_none hnone
    rw [(execute_gas code).1] at hlt
    have hmost := UInt64.le_iff_toNat_le.mp (msg.remaining_mem cfg m code).2
    have hle := Nat.mul_le_mul_left msg.price hmost
    exact absurd (hlt.trans_le hle) (Nat.not_lt.mpr (hpaid (executes_of_ok hok)))

end Record

/-! ## The block -/

/-- The fields of the keeper are those of the logs. -/
structure Recorded (bloom : L → Nat) (k : EvmKeeper) (logs : List (L × Nat)) : Prop where
  bloom_eq : k.bloom = logsBloom bloom (logs.map Prod.fst)
  logSize_eq : k.logSize = logs.length
  index_eq : logs.map Prod.snd = List.range logs.length

theorem logsBloom_append (bloom : L → Nat) (xs ys : List L) :
    logsBloom bloom (xs ++ ys) = logsBloom bloom xs ||| logsBloom bloom ys := by
  unfold logsBloom
  have h : (ys.map bloom).foldl (· ||| ·) ((xs.map bloom).foldl (· ||| ·) 0 ||| 0) =
      (xs.map bloom).foldl (· ||| ·) 0 ||| (ys.map bloom).foldl (· ||| ·) 0 := List.foldl_assoc
  rw [Nat.or_zero] at h
  rw [List.map_append, List.foldl_append, h]

variable {bloom : L → Nat} {cfg : EvmConfig}

/-- The logs of a message go on where the keeper is. -/
theorem Recorded.append {k k' : EvmKeeper} {logs : List (L × Nat)} (h : Recorded bloom k logs)
    {added : List L} (hbloom : k'.bloom = k.bloom ||| logsBloom bloom added)
    (hsize : k'.logSize = k.logSize + added.length) :
    Recorded bloom k' (logs ++ added.zipIdx k.logSize) where
  bloom_eq := by
    rw [List.map_append, List.zipIdx_map_fst, logsBloom_append, hbloom, h.bloom_eq]
  logSize_eq := by
    rw [List.length_append, List.length_zipIdx, hsize, h.logSize_eq]
  index_eq := by
    rw [List.map_append, List.zipIdx_map_snd, List.length_append, List.length_zipIdx, h.index_eq,
      h.logSize_eq, List.range_eq_range', List.range_eq_range', ← List.range'_append_1,
      zero_add]

/-- The fields that logs depend on are all that matters. -/
theorem Recorded.congr {k k' : EvmKeeper} {logs : List (L × Nat)} (h : Recorded bloom k logs)
    (hbloom : k'.bloom = k.bloom) (hsize : k'.logSize = k.logSize) : Recorded bloom k' logs :=
  ⟨hbloom.trans h.bloom_eq, hsize.trans h.logSize_eq, h.index_eq⟩

/-- **A transaction that is guarded adds the logs of its success, and nothing if it fails.** -/
theorem Recorded.runMsgs {k : EvmKeeper} {logs : List (L × Nat)} (h : Recorded bloom k logs)
    {m : GasMeter} {msgs : List (TxMsg L)} (hg : Guarded cfg m msgs) :
    Recorded bloom (runMsgs bloom cfg k m msgs).1
      (logs ++ (Okexchain.runMsgs bloom cfg k m msgs).2.getD []) := by
  induction msgs generalizing m with
  | nil =>
    rw [Okexchain.runMsgs, Option.getD_some, List.append_nil]
    exact h
  | cons msg msgs ih =>
    cases msg with
    | other gas ending =>
      rw [Okexchain.runMsgs]
      split_ifs with hfail
      · rw [Option.getD_none, List.append_nil]
        exact h
      · exact ih hg
    | evm msg collector code =>
      obtain ⟨rfl, hpaid⟩ := hg
      rw [Okexchain.runMsgs]
      simp only
      split_ifs with hok
      · obtain ⟨hbloom, hsize⟩ := EvmMsg.handle_ok hok
        rw [Okexchain.runMsgs, Option.map_some, Option.getD_some, List.append_nil]
        exact h.append hbloom hsize
      · obtain ⟨hbloom, hsize⟩ := EvmMsg.handle_failed hok hpaid
        rw [Option.getD_none, List.append_nil]
        exact h.congr hbloom hsize

theorem Recorded.deliverTxs {k : EvmKeeper} {logs : List (L × Nat)} (h : Recorded bloom k logs)
    {txs : List (BlockTx L)} (hg : ∀ tx ∈ txs, Guarded cfg tx.meter tx.msgs) :
    Recorded bloom (deliverTxs bloom cfg k txs).1
      (logs ++ (Okexchain.deliverTxs bloom cfg k txs).2) := by
  induction txs generalizing k logs with
  | nil =>
    rw [Okexchain.deliverTxs, List.append_nil]
    exact h
  | cons tx txs ih =>
    have hhead := h.runMsgs (hg tx List.mem_cons_self)
    have htail := ih hhead fun tx htx => hg tx (List.mem_cons_of_mem _ htx)
    rw [List.append_assoc] at htail
    exact htail

theorem BlockTx.guarded_ethereum (cfg : EvmConfig) (msg : EvmMsg) (collector : Nat)
    (code : Interpreter L) :
    Guarded cfg (ethereum msg collector code).meter (ethereum msg collector code).msgs := by
  refine ⟨rfl, fun hrun => ?_⟩
  have hle := (EvmTx.gasLimit_paid_of_ethereum hrun).1
  have htotal := msg.gasLeft_toNat cfg (EvmTx.ethereum msg).meter
  rw [if_pos hle] at htotal
  have hleft : (msg.gasLeft cfg (EvmTx.ethereum msg).meter).toNat ≤ msg.gasLimit.toNat := by omega
  exact (Nat.mul_le_mul_left msg.price hleft).trans (Nat.le_add_left _ _)

/-- The keeper at the begin of a block. -/
def freshKeeper : EvmKeeper :=
  ⟨0, 0, 0⟩

/-- **The bloom filter of a block is that of the logs of its successful transactions, and these are
numbered without gaps**, if in each `StdTx` no message comes after an EVM message and the fee
collector can pay the refund. -/
theorem block_logs (bloom : L → Nat) (cfg : EvmConfig) {txs : List (BlockTx L)}
    (hg : ∀ meter msgs, .std meter msgs ∈ txs → Guarded cfg meter msgs) :
    let r := deliverTxs bloom cfg freshKeeper txs
    r.1.bloom = logsBloom bloom (r.2.map Prod.fst) ∧ r.2.map Prod.snd = List.range r.2.length := by
  have hall : ∀ tx ∈ txs, Guarded cfg tx.meter tx.msgs := by
    intro tx htx
    cases tx with
    | ethereum msg collector code => exact BlockTx.guarded_ethereum cfg msg collector code
    | std meter msgs => exact hg meter msgs htx
  have hfresh : Recorded bloom freshKeeper [] := ⟨rfl, rfl, rfl⟩
  have h := hfresh.deliverTxs hall
  exact ⟨h.bloom_eq, h.index_eq⟩

/-- A call that writes a log, and may fail then. -/
def logCall (failed : Bool) (log : Nat) : Interpreter Nat :=
  ⟨fun gas => ⟨gas, 0, failed, [log]⟩, UInt64.le_refl⟩

/-- A message for 100000 gas at the price of 1. -/
def callMsg : EvmMsg :=
  ⟨1, 100000, some "contract", some 21000⟩

/-- A call that fails after its log, and an Ethereum transaction with another one. -/
def guardedBlock : List (BlockTx Nat) :=
  [.std ⟨200000, 60000⟩ [.evm callMsg 1000000 (logCall true 1)],
    .ethereum callMsg 1000000 (logCall false 2)]

/-- The log that stays has index 0. -/
theorem block_logs_guarded :
    (deliverTxs id EvmTx.callConfig freshKeeper guardedBlock).2 = [(2, 0)] ∧
      (deliverTxs id EvmTx.callConfig freshKeeper guardedBlock).1.bloom = 2 := by
  have hrun : (deliverTxs id EvmTx.callConfig freshKeeper guardedBlock).2 = [(2, 0)] := by
    decide +kernel
  have hg : ∀ meter msgs, .std meter msgs ∈ guardedBlock → Guarded EvmTx.callConfig meter msgs := by
    intro meter msgs hmem
    rcases List.mem_cons.mp hmem with heq | hmem
    · cases heq
      exact ⟨rfl, fun _ => by decide +kernel⟩
    · cases List.mem_singleton.mp hmem
  have h := (block_logs id EvmTx.callConfig hg).1
  rw [hrun] at h
  exact ⟨hrun, h⟩

/-- The same two, but the first call succeeds, and a message after it fails. -/
def unguardedBlock : List (BlockTx Nat) :=
  [.std ⟨200000, 60000⟩ [.evm callMsg 1000000 (logCall false 1), .other 0 .error],
    .ethereum callMsg 1000000 (logCall false 2)]

/-- The only log of a successful transaction has index 1, and the bloom filter has the other one. -/
theorem failed_log_stays :
    (deliverTxs id EvmTx.callConfig freshKeeper unguardedBlock).2 = [(2, 1)] ∧
      (deliverTxs id EvmTx.callConfig freshKeeper unguardedBlock).1.bloom = 3 := by
  decide +kernel

end Okexchain
