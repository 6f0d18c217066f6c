import Okexchain.Lib.Checked
import Okexchain.Lib.Hex

/-!
# The exported genesis of the EVM module

Model of `ExportGenesis` in the default mode (`x/evm/genesis.go`), of the JSON form of its accounts,
and of `GenesisState.Validate` (`x/evm/types/genesis.go`, `x/evm/types/storage.go`,
`x/evm/types/chain_config.go`, `x/evm/types/params.go`).

* The export visits the accounts of the auth module and takes those that are `EthAccount`s, with the
  code that is stored for their code hash and with their storage. The keys of a storage are the keys
  of the store without the address, so they are distinct.
* Code that is nil is left out of the JSON text, and code that is not is written with `0x` before
  it. A block number that is nil is written as zero.
* An address stands for its text with mixed case, which depends on nothing else.
* `GenesisRules` are the checks of the sdk and of go-ethereum: the form of a denomination, and the
  EIPs that can be activated. The export has no transaction logs.

**Results.** `EvmGenesis.readBack_eq`: the JSON text is read back, with zero for block
numbers that are nil. `EvmState.accepts_export_iff`: **it is accepted if and only if every account
has code**, a nonzero address and no empty storage key, and the hash of the chain configuration and
the parameters are valid.
-/

namespace Okexchain

/-- A byte array of fixed length. -/
abbrev FixedBytes (n : Nat) : Type :=
  { bytes : List UInt8 // bytes.length = n }

/-- The array that is all zero. -/
def FixedBytes.zero (n : Nat) : FixedBytes n :=
  ⟨List.replicate n 0, List.length_replicate⟩

abbrev EthAddress : Type := FixedBytes 20

abbrev Hash : Type := FixedBytes 32

/-- `BytesToHash`: the last bytes, with zeros before them. -/
def bytesToHash (bytes : List UInt8) : Hash :=
  let cropped := bytes.drop (bytes.length - 32)
  ⟨List.replicate (32 - cropped.length) 0 ++ cropped, by
    rw [List.length_append, List.length_replicate, List.length_drop]
    omega⟩

/-- `hexutil.Encode`. -/
def hexEncode (bytes : List UInt8) : List Char :=
  '0' :: 'x' :: Hex.digits bytes

/-- A text without `0x` before it. -/
def stripHex : List Char → Option (List Char)
  | '0' :: 'x' :: cs => some cs
  | '0' :: 'X' :: cs => some cs
  | _ => none

/-- `FromHex`, which reads as far as it can. -/
def fromHex (text : List Char) : List UInt8 :=
  let digits := (stripHex text).getD text
  (Hex.decode (if digits.length % 2 = 1 then '0' :: digits else digits)).1

/-- `hexutil.MustDecode`, which panics unless all of the text is read. -/
def mustDecode (text : List Char) : Option (List UInt8) :=
  (stripHex text).bind fun digits =>
    if (Hex.decode digits).2 then some (Hex.decode digits).1 else none

/-! ## The state that is exported -/

/-- `State`, an entry of a storage. -/
structure StateEntry where
  key : Hash
  value : Hash
deriving DecidableEq

/-- The storage of an account, as it is iterated. -/
structure AccountStorage where
  states : List StateEntry
  nodup : (states.map StateEntry.key).Nodup

/-- An account of the auth module. -/
inductive AuthAccount where
  | eth (codeHash : Option Hash)
  | other

/-- The block numbers of a chain configuration, in the order in which they are validated. -/
inductive Fork where
  | homestead | daoFork | eip150 | eip155 | eip158 | byzantium | constantinople | petersburg
  | istanbul | muirGlacier | yoloV2 | ewasm
deriving DecidableEq

/-- `ChainConfig`. A number that is not set is nil. -/
structure ChainConfig where
  block : Fork → Option Int
  eip150Hash : List Char

/-- `ChainConfig{}`. -/
def ChainConfig.empty : ChainConfig :=
  ⟨fun _ => none, []⟩

/-- `Params`, what is validated. -/
structure EvmParams where
  evmDenom : String
  extraEIPs : List Int

/-- The stores that the export reads. -/
structure EvmState where
  accounts : List (EthAddress × AuthAccount)
  nodup : (accounts.map Prod.fst).Nodup
  emptyCodeHash : Hash
  codes : Hash → Option (List UInt8)
  storage : EthAddress → AccountStorage
  chainConfig : Option ChainConfig
  params : EvmParams

/-! ## The genesis -/

structure GenesisAccount where
  address : EthAddress
  code : Option (List UInt8)
  storage : List StateEntry

structure EvmGenesis where
  accounts : List GenesisAccount
  chainConfig : ChainConfig
  params : EvmParams

namespace EvmState

variable (s : EvmState)

/-- `GetCode`, of a state object that has been read from the account. -/
def getCode (codeHash : Option Hash) : Option (List UInt8) :=
  let hash := codeHash.getD s.emptyCodeHash
  if hash = s.emptyCodeHash then none else s.codes hash

/-- The genesis account of an account. -/
def genesisAccount : EthAddress × AuthAccount → Option GenesisAccount
  | (addr, .eth codeHash) => some ⟨addr, s.getCode codeHash, (s.storage addr).states⟩
  | (_, .other) => none

/-- `ExportGenesis` in the default mode. -/
def exportGenesis : EvmGenesis :=
  ⟨s.accounts.filterMap s.genesisAccount, s.chainConfig.getD .empty, s.params⟩

end EvmState

/-! ## JSON -/

/-- The JSON form of a storage entry. -/
structure StateJSON where
  key : List Char
  value : List Char

/-- The JSON form of a genesis account. Code that is left out is the empty text. -/
structure AccountJSON where
  address : EthAddress
  code : List Char
  storage : List StateJSON

def StateEntry.marshalJSON (state : StateEntry) : StateJSON :=
  ⟨hexEncode state.key.1, hexEncode state.value.1⟩

def StateJSON.unmarshalJSON (json : StateJSON) : StateEntry :=
  ⟨bytesToHash (fromHex json.key), bytesToHash (fromHex json.value)⟩

def GenesisAccount.marshalJSON (ga : GenesisAccount) : AccountJSON :=
  ⟨ga.address, ga.code.elim [] hexEncode, ga.storage.map StateEntry.marshalJSON⟩

/-- `UnmarshalJSON`, if it does not panic. -/
def AccountJSON.unmarshalJSON (json : AccountJSON) : Option GenesisAccount :=
  let storage := json.storage.map StateJSON.unmarshalJSON
  if json.code = [] then some ⟨json.address, none, storage⟩
  else (mustDecode json.code).map fun code => ⟨json.address, some code, storage⟩

/-- A number is written as zero if it is nil. -/
def ChainConfig.readBack (cc : ChainConfig) : ChainConfig :=
  { cc with block := fun fork => some ((cc.block fork).getD 0) }

/-- The genesis that is read from the JSON text of a genesis. -/
def EvmGenesis.readBack (gs : EvmGenesis) : Option EvmGenesis :=
  (gs.accounts.mapM fun ga : GenesisAccount => ga.marshalJSON.unmarshalJSON).map fun accounts =>
    ⟨accounts, gs.chainConfig.readBack, gs.params⟩

/-! ## Validation -/

/-- The errors of the validation. -/
inductive EvmGenesisError where
  | duplicatedAccount (address : EthAddress)
  | zeroAddress (address : EthAddress)
  | emptyCode
  | duplicateKey (index : Nat)
  | emptyKey
  | nilBlock (fork : Fork)
  | blankHash
  | hashLength (length : Nat)
  | invalidDenom (denom : String)
  | invalidEip (eip : Int)
deriving DecidableEq

/-- What the sdk and go-ethereum check. -/
structure GenesisRules where
  validDenom : String → Bool
  validEip : Int → Bool

/-- `StateEntry.Validate`. -/
def StateEntry.validate (state : StateEntry) : Except EvmGenesisError Unit :=
  require (state.key ≠ FixedBytes.zero 32) .emptyKey

/-- `Storage.Validate`, with the number of entries and the keys that have been seen. -/
def validateStorage (index : Nat) (seen : List Hash) : List StateEntry → Except EvmGenesisError Unit
  | [] => .ok ()
  | state :: rest => do
    require (state.key ∉ seen) (.duplicateKey index)
    state.validate
    validateStorage (index + 1) (state.key :: seen) rest

/-- `GenesisAccount.Validate`. -/
def GenesisAccount.validate (ga : GenesisAccount) : Except EvmGenesisError Unit := do
  require (ga.address ≠ FixedBytes.zero 20) (.zeroAddress ga.address)
  require (ga.code.getD [] ≠ []) .emptyCode
  validateStorage 0 [] ga.storage

/-- The accounts of a genesis, with the addresses that have been seen. -/
def validateAccounts (seen : List EthAddress) : List GenesisAccount → Except EvmGenesisError Unit
  | [] => .ok ()
  | ga :: rest => do
    require (ga.address ∉ seen) (.duplicatedAccount ga.address)
    ga.validate
    validateAccounts (ga.address :: seen) rest

/-- `unicode.IsSpace`. -/
def isSpace (c : Char) : Bool :=
  c.toNat ∈ [9, 10, 11, 12, 13, 32, 133, 160, 5760, 8232, 8233, 8239, 8287, 12288] ||
    (8192 ≤ c.toNat && c.toNat ≤ 8202)

def validateHash (text : List Char) : Except EvmGenesisError Unit := do
  require (¬ (text ≠ [] ∧ text.all isSpace)) .blankHash
  let length := (fromHex text).length
  require (¬ (0 < length ∧ length ≠ 32)) (.hashLength length)

def validateBlock (cc : ChainConfig) (fork : Fork) : Except EvmGenesisError Unit :=
  require (cc.block fork ≠ none) (.nilBlock fork)

/-- `ChainConfig.Validate`. -/
def ChainConfig.validate (cc : ChainConfig) : Except EvmGenesisError Unit := do
  [Fork.homestead, .daoFork, .eip150].forM (validateBlock cc)
  validateHash cc.eip150Hash
  [Fork.eip155, .eip158, .byzantium, .constantinople, .petersburg, .istanbul, .muirGlacier, .yoloV2,
    .ewasm].forM (validateBlock cc)

/-- `Params.Validate`. -/
def EvmParams.validate (rules : GenesisRules) (p : EvmParams) : Except EvmGenesisError Unit := do
  require (rules.validDenom p.evmDenom) (.invalidDenom p.evmDenom)
  p.extraEIPs.forM fun eip => require (rules.validEip eip) (.invalidEip eip)

/-- `GenesisState.Validate`. -/
def EvmGenesis.validate (rules : GenesisRules) (gs : EvmGenesis) : Except EvmGenesisError Unit := do
  validateAccounts [] gs.accounts
  gs.chainConfig.validate
  gs.params.validate rules

/-! ## What is written is read back -/

theorem fromHex_hexEncode (bytes : List UInt8) : fromHex (hexEncode bytes) = bytes := by
  have hstrip : (stripHex (hexEncode bytes)).getD (hexEncode bytes) = Hex.digits bytes := rfl
  have heven : ¬ (Hex.digits bytes).length % 2 = 1 := by
    rw [Hex.length_digits]
    omega
  unfold fromHex
  simp only [hstrip, if_neg heven, Hex.decode_digits]

theorem mustDecode_hexEncode (bytes : List UInt8) : mustDecode (hexEncode bytes) = some bytes := by
  have hstrip : stripHex (hexEncode bytes) = some (Hex.digits bytes) := rfl
  unfold mustDecode
  rw [hstrip, Option.bind_some, Hex.decode_digits]
  rfl

theorem bytesToHash_val (hash : Hash) : bytesToHash hash.1 = hash := by
  refine Subtype.ext ?_
  unfold bytesToHash
  simp only [hash.2, Nat.sub_self, List.drop_zero, List.replicate_zero, List.nil_append]

theorem StateEntry.unmarshalJSON_marshalJSON (state : StateEntry) :
    state.marshalJSON.unmarshalJSON = state := by
  unfold marshalJSON StateJSON.unmarshalJSON
  simp only [fromHex_hexEncode, bytesToHash_val]

theorem GenesisAccount.unmarshalJSON_marshalJSON (ga : GenesisAccount) :
    ga.marshalJSON.unmarshalJSON = some ga := by
  have hstorage : (ga.storage.map StateEntry.marshalJSON).map StateJSON.unmarshalJSON =
      ga.storage := by
    rw [List.map_map]
    exact (List.map_congr_left fun state _ => state.unmarshalJSON_marshalJSON).trans (List.map_id _)
  obtain ⟨address, code, storage⟩ := ga
  unfold marshalJSON AccountJSON.unmarshalJSON
  simp only [hstorage]
  cases code with
  | none => rfl
  | some code =>
    have hne : hexEncode code ≠ [] := List.cons_ne_nil _ _
    simp only [Option.elim_some, if_neg hne, mustDecode_hexEncode, Option.map_some]

/-- **The JSON text of a genesis is read back**, with zero for the block numbers that are nil. -/
theorem EvmGenesis.readBack_eq (gs : EvmGenesis) :
    gs.readBack = some { gs with chainConfig := gs.chainConfig.readBack } := by
  unfold readBack
  have hmap : (gs.accounts.mapM fun ga : GenesisAccount => ga.marshalJSON.unmarshalJSON) =
      some gs.accounts := by
    simp only [GenesisAccount.unmarshalJSON_marshalJSON]
    exact (List.mapM_pure (m := Option)).trans (congrArg some (List.map_id _))
  rw [hmap]
  rfl

/-! ## What is accepted -/

/-- A storage is valid if its keys are distinct and not empty. -/
theorem validateStorage_eq_ok {index : Nat} {seen : List Hash} {states : List StateEntry} :
    validateStorage index seen states = .ok () ↔
      (states.map StateEntry.key).Nodup ∧
        ∀ state ∈ states, state.key ∉ seen ∧ state.key ≠ FixedBytes.zero 32 := by
  induction states generalizing index seen with
  | nil => simp [validateStorage]
  | cons state states ih =>
    unfold validateStorage StateEntry.validate
    simp only [bind_eq_ok, require_eq_ok, exists_const, ih, List.mem_cons, not_or, List.map_cons,
      List.nodup_cons, List.mem_map, not_exists, not_and, forall_eq_or_imp]
    grind

/-- An account is valid if it has code, a nonzero address and no empty key. -/
theorem GenesisAccount.validate_eq_ok {ga : GenesisAccount}
    (hnodup : (ga.storage.map StateEntry.key).Nodup) :
    ga.validate = .ok () ↔ ga.address ≠ FixedBytes.zero 20 ∧ ga.code.getD [] ≠ [] ∧
      ∀ state ∈ ga.storage, state.key ≠ FixedBytes.zero 32 := by
  unfold validate
  simp only [bind_eq_ok, require_eq_ok, exists_const, validateStorage_eq_ok, hnodup, true_and,
    List.not_mem_nil, not_false_eq_true]

theorem validateAccounts_eq_ok {seen : List EthAddress} {accounts : List GenesisAccount} :
    validateAccounts seen accounts = .ok () ↔
      (accounts.map GenesisAccount.address).Nodup ∧
        ∀ ga ∈ accounts, ga.address ∉ seen ∧ ga.validate = .ok () := by
  induction accounts generalizing seen with
  | nil => simp [validateAccounts]
  | cons ga accounts ih =>
    unfold validateAccounts
    simp only [bind_eq_ok, require_eq_ok, exists_const, ih, List.mem_cons, not_or, List.map_cons,
      List.nodup_cons, List.mem_map, not_exists, not_and, forall_eq_or_imp]
    grind

/-- No block number that is read back is nil. -/
theorem ChainConfig.validate_readBack (cc : ChainConfig) :
    cc.readBack.validate = validateHash cc.eip150Hash := by
  have hblock : ∀ fork, validateBlock cc.readBack fork = .ok () := fun fork =>
    require_eq_ok.mpr (Option.some_ne_none _)
  unfold validate
  simp only [List.forM_eq_forM, List.forM_cons, List.forM_nil, hblock]
  show (do validateHash cc.eip150Hash; pure ()) = validateHash cc.eip150Hash
  exact bind_pure_unit

namespace EvmState

variable (s : EvmState)

theorem nodup_exportGenesis :
    ((s.accounts.filterMap s.genesisAccount).map GenesisAccount.address).Nodup := by
  have hsub : ((s.accounts.filterMap s.genesisAccount).map GenesisAccount.address).Sublist
      (s.accounts.map Prod.fst) := by
    induction s.accounts with
    | nil => exact List.Sublist.slnil
    | cons e rest ih =>
      obtain ⟨addr, account⟩ := e
      cases account with
      | eth codeHash => exact ih.cons_cons addr
      | other => exact ih.cons addr
  exact hsub.nodup s.nodup

/-- **The exported genesis is accepted if and only if every account has code**, a nonzero address
and no empty storage key, and the hash of the chain configuration and the parameters are valid. -/
theorem accepts_export_iff (rules : GenesisRules) :
    (∃ gs, s.exportGenesis.readBack = some gs ∧ gs.validate rules = .ok ()) ↔
      (∀ addr codeHash, (addr, .eth codeHash) ∈ s.accounts →
        addr ≠ FixedBytes.zero 20 ∧ (s.getCode codeHash).getD [] ≠ [] ∧
          ∀ state ∈ (s.storage addr).states, state.key ≠ FixedBytes.zero 32) ∧
      validateHash (s.chainConfig.getD .empty).eip150Hash = .ok () ∧
      s.params.validate rules = .ok () := by
  have haccount : ∀ addr codeHash,
      (⟨addr, s.getCode codeHash, (s.storage addr).states⟩ : GenesisAccount).validate = .ok () ↔
        addr ≠ FixedBytes.zero 20 ∧ (s.getCode codeHash).getD [] ≠ [] ∧
          ∀ state ∈ (s.storage addr).states, state.key ≠ FixedBytes.zero 32 :=
    fun addr _ => GenesisAccount.validate_eq_ok (s.storage addr).nodup
  rw [EvmGenesis.readBack_eq]
  simp only [Option.some.injEq, exists_eq_left', EvmGenesis.validate, exportGenesis, bind_eq_ok,
    Unique.exists_iff, PUnit.default_eq_unit, validateAccounts_eq_ok, s.nodup_exportGenesis,
    true_and, List.not_mem_nil, not_false_eq_true, ChainConfig.validate_readBack]
  refine and_congr_left fun _ => ?_
  constructor
  · intro h addr codeHash hmem
    exact (haccount addr codeHash).mp (h _ (List.mem_filterMap.mpr ⟨_, hmem, rfl⟩))
  · intro h ga hga
    obtain ⟨⟨addr, account⟩, hmem, heq⟩ := List.mem_filterMap.mp hga
    cases account with
    | eth codeHash =>
      cases heq
      exact (haccount addr codeHash).mpr (h addr codeHash hmem)
    | other => cases heq

/-- One account that no contract has been created at, as every sender of coins has one. -/
def plainState : EvmState where
  accounts := [(⟨List.replicate 20 1, List.length_replicate⟩, .eth none)]
  nodup := List.nodup_singleton _
  emptyCodeHash := FixedBytes.zero 32
  codes := fun _ => none
  storage := fun _ => ⟨[], List.nodup_nil⟩
  chainConfig := none
  params := ⟨"okt", []⟩

/-- Its export is rejected, as the account has no code. -/
theorem plain_account_rejected :
    ((plainState.exportGenesis.readBack.map fun gs =>
      gs.validate ⟨fun _ => true, fun _ => true⟩).map failure) = some (some .emptyCode) := by
  decide +kernel

end EvmState

end Okexchain
