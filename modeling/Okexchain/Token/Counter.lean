import Okexchain.Token.Genesis

/-!
# The token counter and the index of a user's tokens

What `NewToken`, `UpdateToken` and `DeleteUserToken` of `x/token/keeper.go` do to the counter under
`TokenNumberKey` and to the index of user tokens, along the runs of `Token/Genesis.lean`.

`NewToken` stores a token, enters it under its owner in the index, and adds one to the counter. A
token is new when it is issued and when it is the pool token of an exchange. But the handlers call
`NewToken` too when a token changes hands (`handleMsgConfirmOwnership`, and
`handleMsgTransferOwnership` to the black hole), after they have taken it out of the index under its
former owner. The index is right again then; the counter has counted the token once more.

**Results.**
* `Sound`: every token has an owner and stands in the index under this owner and nobody else. It
  holds along every run (`run_sound_ahead`).
* `Ahead n`: the counter is `n` ahead of the tokens. Every change of hands adds one
  (`Change.ahead`).
* `token_counter_iff`: the counter is right exactly when no token has changed hands, up to the `2 ^
  64` changes after which the counter is back where it was. `counter_after_handOver` is a run of
  three messages after which two tokens count as three.
* `user_tokens_exact`: `GetUserTokensInfo` gives the tokens that the user owns.
-/

namespace Okexchain

namespace TokenModule

namespace TokenState

variable {B : Type}

/-! ## What is counted and indexed -/

/-- The counter is the number of tokens, `uint64(len(tokens))`. -/
def Counts (s : TokenState B) : Prop := s.tokenNumber = UInt64.ofNat s.tokens.values.length

instance (s : TokenState B) : Decidable s.Counts := inferInstanceAs (Decidable (_ = _))

/-- Every token has exactly one entry in the index, under its owner. -/
def ListedOnce (s : TokenState B) : Prop :=
  ∀ symbol t, s.tokens.get symbol = some t →
    ∀ owner, (s.userTokens.get (toLex (owner, symbol))).isSome ↔ owner = t.owner

/-- The step puts a token in new hands: a confirmation is accepted, or a transfer to the black
hole. -/
def handsOver (k : Keepers B) (s : TokenState B) : TokenStep → Bool
  | .token ctx msg => s.accepts k ctx msg && msg.handsOver
  | .createExchange _ => false

/-- How often a token changes hands in a run. -/
def handOvers (k : Keepers B) (s : TokenState B) : List TokenStep → Nat
  | [] => 0
  | x :: steps => (s.handsOver k x).toNat + (s.step k x).handOvers k steps

/-! ## The index -/

variable {k : Keepers B} {s s' : TokenState B} {handed : Bool} {n : Nat}

/-- The entries of the index are the tokens under their owners, apart from those of one symbol. -/
def IndexedBut (symbol : String) (s : TokenState B) : Prop :=
  ∀ owner symbol', symbol' ≠ symbol → ((s.userTokens.get (toLex (owner, symbol'))).isSome ↔
    ∃ t, s.tokens.get symbol' = some t ∧ t.owner = owner)

/-- **The records are sound.** -/
structure Sound (s : TokenState B) : Prop where
  known : s.Known
  owned : ∀ symbol t, s.tokens.get symbol = some t → t.owner ≠ ""
  indexed : ∀ owner symbol, (s.userTokens.get (toLex (owner, symbol))).isSome ↔
    ∃ t, s.tokens.get symbol = some t ∧ t.owner = owner

theorem Sound.listedOnce (h : s.Sound) : s.ListedOnce := by
  intro symbol t hget owner
  rw [h.indexed]
  constructor
  · rintro ⟨t', hget', rfl⟩
    rw [hget] at hget'
    cases hget'
    rfl
  · rintro rfl
    exact ⟨t, hget, rfl⟩

theorem toLex_ne {owner owner' : Address} {symbol symbol' : String} (h : symbol' ≠ symbol) :
    toLex (owner', symbol') ≠ toLex (owner, symbol) :=
  fun heq => h (Prod.mk.inj (toLex.injective heq)).2

/-- A token is entered whose symbol the index does not hold. -/
theorem newToken_indexed {t : Token} (hrest : s.IndexedBut t.symbol)
    (hclear : ∀ owner, s.userTokens.get (toLex (owner, t.symbol)) = none) (owner : Address)
    (symbol : String) :
    ((s.newToken t).userTokens.get (toLex (owner, symbol))).isSome ↔
      ∃ t', (s.newToken t).tokens.get symbol = some t' ∧ t'.owner = owner := by
  show ((s.userTokens.set (toLex (t.owner, t.symbol)) ()).get (toLex (owner, symbol))).isSome ↔
    ∃ t', (s.tokens.put t).get symbol = some t' ∧ t'.owner = owner
  by_cases hs : symbol = t.symbol
  · subst hs
    rw [KeyedStore.get_put_self]
    by_cases ho : owner = t.owner
    · rw [ho, KVStore.get_set_self]
      exact ⟨fun _ => ⟨t, rfl, rfl⟩, fun _ => rfl⟩
    · have hne : toLex (owner, t.symbol) ≠ toLex (t.owner, t.symbol) :=
        fun heq => ho (Prod.mk.inj (toLex.injective heq)).1
      rw [KVStore.get_set_ne hne, hclear]
      refine ⟨fun h => absurd h (by decide), ?_⟩
      rintro ⟨t', ht', rfl⟩
      cases ht'
      exact absurd rfl ho
  · rw [KeyedStore.get_put_ne hs, KVStore.get_set_ne (toLex_ne hs)]
    exact hrest owner symbol hs

theorem Sound.newToken {t : Token} (h : s.Sound) (hfree : s.tokens.get t.symbol = none)
    (howner : t.owner ≠ "") : (s.newToken t).Sound where
  known := fun symbol hsome => by
    show ((s.tokens.put t).get symbol).isSome
    rw [KeyedStore.get_put]
    split_ifs
    · rfl
    · exact h.known symbol hsome
  owned := fun symbol t' hget => by
    change (s.tokens.put t).get symbol = some t' at hget
    rw [KeyedStore.get_put] at hget
    split_ifs at hget
    · cases hget
      exact howner
    · exact h.owned symbol t' hget
  indexed := by
    refine newToken_indexed (fun owner symbol _ => h.indexed owner symbol) fun owner => ?_
    rw [← Option.not_isSome_iff_eq_none, h.indexed]
    rintro ⟨t', hget, -⟩
    rw [hfree] at hget
    cases hget

/-- The index is right again after a change of hands. -/
theorem changeOwner_indexed {t : Token} (h : s.Sound) (hget : s.tokens.get t.symbol = some t)
    (a owner : Address) (symbol : String) :
    ((s.changeOwner t a).userTokens.get (toLex (owner, symbol))).isSome ↔
      ∃ t', (s.changeOwner t a).tokens.get symbol = some t' ∧ t'.owner = owner := by
  refine newToken_indexed (s := s.deleteUserToken t.owner t.symbol) (t := { t with owner := a })
    (fun owner symbol hs => ?_) (fun owner => ?_) owner symbol
  · show ((s.userTokens.delete _).get _).isSome ↔ _
    rw [KVStore.get_delete_ne (toLex_ne hs)]
    exact h.indexed owner symbol
  · -- what is left under the symbol would be a second owner
    show (s.userTokens.delete _).get _ = none
    rw [KVStore.get_delete]
    split_ifs with heq
    · rfl
    · rw [← Option.not_isSome_iff_eq_none, h.listedOnce t.symbol t hget]
      exact fun ho => heq (by rw [ho])

/-- **A message keeps the records sound.** -/
theorem Change.sound (h : Change k s handed s') (hs : s.Sound) : s'.Sound := by
  have hknown : s'.Known := h.known hs.known
  cases h with
  | keep h => exact ⟨hknown, h.tokens ▸ hs.owned, h.tokens ▸ h.userTokens ▸ hs.indexed⟩
  | issue t hfree hvalid h =>
    have hnew := hs.newToken hfree (Token.valid_iff.mp hvalid).1
    exact ⟨hknown, h.tokens ▸ hnew.owned, h.tokens ▸ h.userTokens ▸ hnew.indexed⟩
  | modify t t' hget hsymbol howner _ _ h =>
    have htokens : ∀ symbol, (s'.tokens.get symbol).map Token.owner =
        (s.tokens.get symbol).map Token.owner := by
      intro symbol
      rw [h.tokens]
      show ((s.tokens.put t').get symbol).map Token.owner = _
      rw [KeyedStore.get_put]
      split_ifs with heq
      · rw [heq, hsymbol, hget]
        exact congrArg some howner
      · rfl
    have hiff : ∀ symbol owner, (∃ t, s'.tokens.get symbol = some t ∧ t.owner = owner) ↔
        ∃ t, s.tokens.get symbol = some t ∧ t.owner = owner := by
      intro symbol owner
      rw [← Option.map_eq_some_iff, ← Option.map_eq_some_iff, htokens]
    refine ⟨hknown, fun symbol t₁ hget₁ => ?_, fun owner symbol => ?_⟩
    · obtain ⟨t₂, hget₂, howner₂⟩ := (hiff symbol t₁.owner).mp ⟨t₁, hget₁, rfl⟩
      exact howner₂ ▸ hs.owned symbol t₂ hget₂
    · rw [h.userTokens, hiff]
      exact hs.indexed owner symbol
  | offer c _ h => exact ⟨hknown, h.tokens ▸ hs.owned, h.tokens ▸ h.userTokens ▸ hs.indexed⟩
  | handOver t a ha hget h _ =>
    have htokens : s'.tokens = s.tokens.put { t with owner := a } := h.tokens
    have huser : s'.userTokens = (s.changeOwner t a).userTokens := h.userTokens
    refine ⟨hknown, fun symbol t₁ hget₁ => ?_, fun owner symbol => ?_⟩
    · rw [htokens, KeyedStore.get_put] at hget₁
      split_ifs at hget₁
      · cases hget₁
        exact ha
      · exact hs.owned symbol t₁ hget₁
    · rw [huser, htokens]
      exact changeOwner_indexed hs hget a owner symbol

/-! ## The counter -/

/-- The counter is `n` ahead of the tokens. -/
def Ahead (n : Nat) (s : TokenState B) : Prop :=
  s.tokenNumber = UInt64.ofNat (s.tokens.values.length + n)

theorem Ahead.newToken {t : Token} (h : s.Ahead n) (hfree : s.tokens.get t.symbol = none) :
    (s.newToken t).Ahead n := by
  show s.tokenNumber + 1 = UInt64.ofNat ((s.tokens.put t).values.length + n)
  rw [KeyedStore.length_values_put_new hfree, h, Nat.add_right_comm, UInt64.ofNat_add _ 1]
  rfl

/-- **A message that puts a token in new hands takes the counter one further ahead.** -/
theorem Change.ahead (h : Change k s handed s') (hn : s.Ahead n) :
    s'.Ahead (handed.toNat + n) := by
  have hsame : s'.tokenNumber = s.tokenNumber → s'.tokens.values.length = s.tokens.values.length →
      s'.Ahead (0 + n) := by
    intro hnumber hlength
    rw [Nat.zero_add, Ahead, hnumber, hlength]
    exact hn
  cases h with
  | keep h => exact hsame h.tokenNumber (by rw [h.tokens])
  | issue t hfree _ h =>
    have hnew := hn.newToken hfree
    rw [Bool.toNat_false, Nat.zero_add, Ahead, h.tokenNumber, h.tokens]
    exact hnew
  | modify t t' hget hsymbol _ _ _ h =>
    refine hsame h.tokenNumber ?_
    rw [h.tokens]
    exact KeyedStore.length_values_put_old (hsymbol ▸ hget)
  | offer c _ h => exact hsame h.tokenNumber (by rw [h.tokens])
  | handOver t a _ hget h _ =>
    have htokens : s'.tokens = s.tokens.put { t with owner := a } := h.tokens
    have hnumber : s'.tokenNumber = s.tokenNumber + 1 := h.tokenNumber
    have hlength : (s.tokens.put { t with owner := a }).values.length = s.tokens.values.length :=
      KeyedStore.length_values_put_old hget
    rw [Bool.toNat_true, Ahead, hnumber, htokens, hlength, hn, Nat.add_comm 1 n, ← Nat.add_assoc,
      UInt64.ofNat_add _ 1]
    rfl

/-! ## Along a run -/

/-- The pool token of a new exchange has a free name. -/
theorem Sound.pool_free (h : s.Sound) {msg : MsgCreateExchange}
    (hopens : s.Opens (.createExchange msg)) :
    s.tokens.get (getPoolTokenName msg.token0Name msg.token1Name) = none := by
  obtain ⟨-, -, -, -, -, -, howner⟩ := hopens
  unfold getTokenInfo at howner
  cases hget : s.tokens.get (getPoolTokenName msg.token0Name msg.token1Name) with
  | none => rfl
  | some t =>
    rw [hget] at howner
    exact absurd howner (h.owned _ _ hget)

/-- The step: the records stay sound, and the counter gets ahead when a token changes hands. -/
theorem step_sound_ahead (h : s.Sound) (hn : s.Ahead n) (x : TokenStep) :
    (s.step k x).Sound ∧ (s.step k x).Ahead ((s.handsOver k x).toNat + n) := by
  cases x with
  | token ctx msg =>
    have hchange := step_token_change k h.known ctx msg
    exact ⟨hchange.sound h, hchange.ahead hn⟩
  | createExchange msg =>
    show _ ∧ Ahead (0 + n) _
    rw [Nat.zero_add]
    by_cases hopens : s.Opens (.createExchange msg)
    · rw [step_of_opens hopens]
      have hfree := h.pool_free hopens
      have hsound : (s.newToken (initPoolToken k _)).Sound :=
        h.newToken hfree (k.moduleAddress_ne_empty swapModuleName)
      exact ⟨⟨hsound.known, hsound.owned, hsound.indexed⟩, hn.newToken hfree⟩
    · rw [step_of_not_opens hopens]
      exact ⟨h, hn⟩

/-- **The run**: the records stay sound, and the counter is ahead by the changes of hands. -/
theorem run_sound_ahead (h : s.Sound) (hn : s.Ahead n) (steps : List TokenStep) :
    (s.run k steps).Sound ∧ (s.run k steps).Ahead (s.handOvers k steps + n) := by
  induction steps generalizing s n with
  | nil =>
    refine ⟨h, ?_⟩
    rw [handOvers, Nat.zero_add]
    exact hn
  | cons x steps ih =>
    obtain ⟨hsound, hahead⟩ := step_sound_ahead (k := k) h hn x
    obtain ⟨hsound', hahead'⟩ := ih hsound hahead
    refine ⟨hsound', ?_⟩
    rw [handOvers, Nat.add_comm (s.handsOver k x).toNat, Nat.add_assoc]
    exact hahead'

/-- The counter is right again after every `2 ^ 64` counts too many. -/
theorem Ahead.counts_iff (h : s.Ahead n) : s.Counts ↔ 2 ^ 64 ∣ n := by
  unfold Counts
  rw [h, ← UInt64.toNat_inj, UInt64.toNat_ofNat', UInt64.toNat_ofNat']
  omega

end TokenState

/-! ## From a genesis -/

section FromGenesis

variable {B : Type} {k : Keepers B}

theorem sound_of_empty {s : TokenState B} (htokens : s.tokens = ∅) (huser : s.userTokens = ∅)
    (hoffers : s.confirmOwnerships = ∅) : s.Sound where
  known := fun symbol hsome => by
    rw [hoffers] at hsome
    cases hsome
  owned := fun symbol t hget => by
    rw [htokens] at hget
    cases hget
  indexed := fun owner symbol => by
    rw [htokens, huser]
    constructor
    · intro hsome
      cases hsome
    · rintro ⟨t, hget, -⟩
      cases hget

/-- The tokens of a genesis are stored one after the other. -/
theorem foldl_newToken_sound_ahead {tokens : List Token} {s : TokenState B}
    (hvalid : ∀ t ∈ tokens, t.Valid k) (hnodup : (tokens.map Token.symbol).Nodup)
    (hfree : ∀ t ∈ tokens, s.tokens.get t.symbol = none) (hsound : s.Sound) (hahead : s.Ahead 0) :
    (tokens.foldl TokenState.newToken s).Sound ∧
      (tokens.foldl TokenState.newToken s).Ahead 0 := by
  induction tokens generalizing s with
  | nil => exact ⟨hsound, hahead⟩
  | cons t tokens ih =>
    obtain ⟨ht, hvalid⟩ := List.forall_mem_cons.mp hvalid
    obtain ⟨hnot, hnodup⟩ := List.nodup_cons.mp hnodup
    obtain ⟨htfree, hfree⟩ := List.forall_mem_cons.mp hfree
    refine ih hvalid hnodup (fun t' ht' => ?_)
      (hsound.newToken htfree (Token.valid_iff.mp ht).1) (hahead.newToken htfree)
    have hne : t'.symbol ≠ t.symbol := fun heq => hnot (heq ▸ List.mem_map_of_mem ht')
    exact (KeyedStore.get_put_ne hne).trans (hfree t' ht')

/-- A genesis that passes and repeats no symbol is stored with a sound index and the right
counter. -/
theorem initGenesis_sound_ahead {bank : B} {swapPairs : KVStore String SwapTokenPair}
    {data : GenesisState} {s : TokenState B} (hdata : validateGenesis k data = .ok ())
    (hnodup : (data.tokens.map Token.symbol).Nodup)
    (h : initGenesis bank swapPairs data = some s) : s.Sound ∧ s.Ahead 0 := by
  unfold initGenesis at h
  simp only [Option.bind_eq_bind, Option.bind_eq_some_iff, Option.pure_def,
    Option.some.injEq] at h
  obtain ⟨led₁, -, led₂, -, rfl⟩ := h
  obtain ⟨hsound, hahead⟩ := foldl_newToken_sound_ahead (validateGenesis_eq_ok.mp hdata) hnodup
    (s := ⟨data.params, ∅, ∅, 0, ∅, ⟨∅, ∅, bank, []⟩, swapPairs⟩) (fun _ _ => rfl)
    (sound_of_empty rfl rfl rfl) rfl
  -- the locks that are read next are no records of tokens
  exact ⟨⟨hsound.known, hsound.owned, hsound.indexed⟩, hahead⟩

/-- **The counter counts tokens**, and the index holds each once under its owner, exactly when no
token has changed hands (or `2 ^ 64` times, or a multiple of that). -/
theorem token_counter_iff {bank : B} {swapPairs : KVStore String SwapTokenPair}
    {data : GenesisState} {s : TokenState B} (hdata : validateGenesis k data = .ok ())
    (hnodup : (data.tokens.map Token.symbol).Nodup)
    (hinit : initGenesis bank swapPairs data = some s) (steps : List TokenStep) :
    (s.run k steps).Counts ∧ (s.run k steps).ListedOnce ↔ 2 ^ 64 ∣ s.handOvers k steps := by
  obtain ⟨hsound, hahead⟩ := initGenesis_sound_ahead hdata hnodup hinit
  obtain ⟨hsound', hahead'⟩ := TokenState.run_sound_ahead (k := k) hsound hahead steps
  rw [hahead'.counts_iff, Nat.add_zero]
  exact ⟨fun h => h.1, fun h => ⟨h, hsound'.listedOnce⟩⟩

/-- **The tokens of a user** are those it owns, after every run and whatever the counter says. -/
theorem user_tokens_exact {bank : B} {swapPairs : KVStore String SwapTokenPair}
    {data : GenesisState} {s : TokenState B} (hdata : validateGenesis k data = .ok ())
    (hnodup : (data.tokens.map Token.symbol).Nodup)
    (hinit : initGenesis bank swapPairs data = some s) (steps : List TokenStep) (owner : Address)
    (t : Token) : t ∈ (s.run k steps).getUserTokensInfo owner ↔
      (s.run k steps).tokens.get t.symbol = some t ∧ t.owner = owner := by
  obtain ⟨hsound, hahead⟩ := initGenesis_sound_ahead hdata hnodup hinit
  obtain ⟨hrun, -⟩ := TokenState.run_sound_ahead (k := k) hsound hahead steps
  generalize s.run k steps = s' at hrun ⊢
  unfold TokenState.getUserTokensInfo
  simp only [List.mem_map, List.mem_filter, KVStore.mem_keys, decide_eq_true_eq]
  constructor
  · rintro ⟨key, ⟨⟨u, hu⟩, rfl⟩, rfl⟩
    obtain ⟨t, ht, howner⟩ := (hrun.indexed _ _).mp (Option.isSome_of_eq_some hu)
    have hinfo : s'.getTokenInfo (ofLex key).2 = t := congrArg (Option.getD · _) ht
    rw [hinfo]
    exact ⟨(KeyedStore.key_of_get ht).symm ▸ ht, howner⟩
  · rintro ⟨ht, howner⟩
    obtain ⟨u, hu⟩ := Option.isSome_iff_exists.mp ((hrun.indexed owner _).mpr ⟨t, ht, howner⟩)
    exact ⟨_, ⟨⟨u, hu⟩, rfl⟩, congrArg (Option.getD · _) ht⟩

end FromGenesis

/-- Alice creates an exchange of her two tokens: there are three tokens, and they are counted. -/
theorem token_counter_exchange :
    (exampleStart.run simpleKeepers [.createExchange ⟨"okt", "usdk", "alice"⟩]).tokenNumber = 3 ∧
      (exampleStart.run simpleKeepers [.createExchange ⟨"okt", "usdk", "alice"⟩]).Counts ∧
      (exampleStart.run simpleKeepers [.createExchange ⟨"okt", "usdk", "alice"⟩]).ListedOnce := by
  have hdata : validateGenesis simpleKeepers exampleGenesis = .ok () :=
    toOption_eq_some.mp (by decide +kernel)
  have hnodup : (exampleGenesis.tokens.map Token.symbol).Nodup := by decide +kernel
  have hinit : initGenesis (∅, 0) ∅ exampleGenesis = some exampleStart := rfl
  exact ⟨by decide +kernel, (token_counter_iff hdata hnodup hinit
    [.createExchange ⟨"okt", "usdk", "alice"⟩]).mpr ⟨0, rfl⟩⟩

/-- **After bob has accepted the token of alice's the counter says three**, and there are two. -/
theorem counter_after_handOver :
    validateGenesis simpleKeepers exampleGenesis = .ok () ∧
      (exampleGenesis.tokens.map Token.symbol).Nodup ∧
      initGenesis (∅, 0) ∅ exampleGenesis = some exampleStart ∧
      (exampleStart.run simpleKeepers handOver).tokenNumber = 3 ∧
      (exampleStart.run simpleKeepers handOver).tokens.values.length = 2 :=
  ⟨toOption_eq_some.mp (by decide +kernel), by decide +kernel, rfl, by decide +kernel,
    by decide +kernel⟩

theorem user_tokens_exact_handOver :
    exampleToken "okt" ∈ (exampleStart.run simpleKeepers handOver).getUserTokensInfo "alice" := by
  have hdata : validateGenesis simpleKeepers exampleGenesis = .ok () :=
    toOption_eq_some.mp (by decide +kernel)
  exact (user_tokens_exact hdata (by decide +kernel) rfl handOver _ _).mpr ⟨by decide +kernel, rfl⟩

end TokenModule

end Okexchain
