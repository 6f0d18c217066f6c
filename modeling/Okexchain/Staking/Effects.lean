import Okexchain.Staking.Spec
import Okexchain.Lib.Trace

/-!
# The effects of staking

Everything the staking handlers and `EndBlocker` do is a trace of a few effects on the store and the
two pools.

* A *revision* replaces a delegator's record by one that can be stored (`Revision`). A handler that
  moves no tokens makes revisions that keep the tokens of the delegator (`Retallies`).
* A deposit, a withdrawal, a new and a destroyed validator move tokens into, between or out of the
  pools, and say so.
* Jailing and the validator set at the end of a block change validators, but not their votes.
* An entry of the queue of undelegations is paid, or lapses because there is nothing to pay or the
  pool cannot pay.

**Results.** `SharesOK.updateShares_revision`, `SharesOK.updateProxy_revision`: what the keeper
functions do. `StakingEffect.sharesOK`: every effect keeps the agreement of the votes.
-/

namespace Okexchain

/-! ## Revisions -/

/-- A delegator's record is replaced by one that can be stored. -/
structure Revision (d : Address) (o o' : Option Delegator) (b b' : StakingBooks) : Prop extends
    Revised d o o' b b' where
  sound : ∀ r, o' = some r → r.Sound
  exist : ∀ r a, o' = some r → a ∈ r.validatorAddresses → (b.getValidator a).isSome

theorem Revised.revision {d : Address} {o : Option Delegator} {r : Delegator}
    {b b' : StakingBooks} (h : Revised d o (some r) b b') (hsound : r.Sound)
    (hexist : ∀ a ∈ r.validatorAddresses, (b.getValidator a).isSome) :
    Revision d o (some r) b b' := by
  refine ⟨h, fun r' hr' => ?_, fun r' a hr' ha => ?_⟩
  · cases hr'
    exact hsound
  · cases hr'
    exact hexist a ha

theorem Revised.revision_none {d : Address} {o : Option Delegator} {b b' : StakingBooks}
    (h : Revised d o none b b') : Revision d o none b b' :=
  ⟨h, fun _ hr => (by cases hr), fun _ _ hr => by cases hr⟩

theorem FollowsAt.isSome {δ : Int} {o o' : Option Validator} (h : FollowsAt δ o o')
    (h' : o'.isSome) : o.isSome := by
  cases o with
  | none =>
    rw [h.1] at h'
    exact h'
  | some v => rfl

theorem Revision.trans {d : Address} {o o' o'' : Option Delegator} {b b' b'' : StakingBooks}
    (h : Revision d o o' b b') (h' : Revision d o' o'' b' b'') : Revision d o o'' b b'' :=
  ⟨h.toRevised.trans h'.toRevised, h'.sound, fun r a hr ha =>
    (h.validators a).isSome (h'.exist r a hr ha)⟩

theorem SharesOK.revision {d : Address} {o o' : Option Delegator} {b b' : StakingBooks}
    (h : SharesOK b) (hrev : Revision d o o' b b') : SharesOK b' :=
  h.revised hrev.toRevised hrev.sound hrev.exist

theorem calculateWeight_pos {weight : Int → Int} (hweight : ∀ week, Dec.one ≤ weight week)
    {time tokens : Int} (h : 0 < tokens) : 0 < calculateWeight weight time tokens :=
  lt_of_lt_of_le h (Dec.le_mul h.le (hweight _))

namespace SharesOK

variable {d : Address} {b b' : StakingBooks} {r : Delegator} {weight : Int → Int}
  {time tokens : Int}

/-- A record is written that votes as before. -/
theorem setDelegator_revision (h : SharesOK b) (r' : Delegator) (hr : b.getDelegator d = some r)
    (hkey : r'.delegatorAddress = r.delegatorAddress)
    (haddrs : r'.validatorAddresses = r.validatorAddresses) (hshares : r'.shares = r.shares)
    (htokens : 0 < r'.tokens) (hdelegated : 0 ≤ r'.totalDelegatedTokens)
    (hproxy : r'.proxyAddress ≠ some r'.delegatorAddress) :
    Revision d (some r) (some r') b (b.setDelegator r') := by
  have hsound := h.sound d r hr
  refine (h.setDelegator_revised_some hr hkey haddrs hshares).revision ?_ fun a ha => ?_
  · refine ⟨haddrs ▸ hsound.nodup, htokens, hdelegated, hproxy, fun hne => ?_⟩
    rw [hshares]
    exact hsound.shares (haddrs ▸ hne)
  · exact h.exist d r a hr (haddrs ▸ ha)

/-- **What `UpdateShares` does.** -/
theorem updateShares_revision (h : SharesOK b) (hweight : ∀ week, Dec.one ≤ weight week)
    (hr : b.getDelegator d = some r) (htokens : 0 < tokens)
    (hok : b.updateShares weight time d tokens = .ok b') :
    ∃ shares, Revision d (some r) (some { r with shares := shares }) b b' ∧
      SameUndelegations b b' := by
  have hsound := h.sound d r hr
  obtain ⟨hrev, hsame⟩ := h.updateShares_revised hr hok
  refine ⟨_, hrev.revision ?_ fun a ha => h.exist d r a hr ha, hsame⟩
  refine ⟨hsound.nodup, hsound.tokens, hsound.delegated, hsound.proxy, fun hne => ?_⟩
  show 0 < if r.validatorAddresses = [] then r.shares else calculateWeight weight time tokens
  rw [if_neg hne]
  exact calculateWeight_pos hweight htokens

/-- **What `UpdateProxy` does**: the proxy of a delegator gets other tokens to vote with. -/
theorem updateProxy_revision (h : SharesOK b) (hweight : ∀ week, Dec.one ≤ weight week)
    {delegator : Delegator} {p : Address} (hp : delegator.proxyAddress = some p)
    (hok : b.updateProxy weight time delegator tokens = .ok b') :
    ∃ rp rp', Revision p (some rp) (some rp') b b' ∧ rp'.tokens = rp.tokens ∧
      SameUndelegations b b' := by
  unfold StakingBooks.updateProxy at hok
  rw [hp] at hok
  dsimp only at hok
  simp only [bind_eq_ok, orThrow_eq_ok, require_eq_ok, exists_const] at hok
  obtain ⟨rp, hrp, hnonneg, hok⟩ := hok
  have hsound := h.sound p rp hrp
  obtain rfl : rp.delegatorAddress = p := KeyedStore.key_of_get hrp
  have hset := h.setDelegator_revision ({ rp with
    totalDelegatedTokens := rp.totalDelegatedTokens + tokens }) hrp rfl rfl rfl hsound.tokens
    hnonneg hsound.proxy
  have hpos : 0 < rp.totalDelegatedTokens + tokens + rp.tokens := by
    have := hsound.tokens
    omega
  obtain ⟨shares, hupdate, hsame⟩ :=
    (h.revision hset).updateShares_revision hweight hset.after hpos hok
  exact ⟨rp, _, hset.trans hupdate, rfl, hsame.infos, hsame.queue⟩

end SharesOK

/-! ## Effects -/

/-- What the staking runs are about: the store and the two pools. -/
structure StakingLedger where
  books : StakingBooks
  bonded : Coins
  notBonded : Coins

/-- The ledger of a state. -/
def StakingState.ledger {B : Type} (sk : PoolKeeper B) (s : StakingState B) : StakingLedger :=
  ⟨s.books, sk.moduleCoins s.bank bondedPoolName, sk.moduleCoins s.bank notBondedPoolName⟩

/-- What is unbonded and paid, and when. -/
inductive StakingEvent where
  | unbonded (addr : Address) (quantity time : Int)
  | paid (addr : Address) (quantity time : Int)
deriving DecidableEq

/-- Nothing moves: neither the pools nor the undelegations. -/
structure SameFunds (l l' : StakingLedger) : Prop where
  undelegations : SameUndelegations l.books l'.books
  bonded : l'.bonded = l.bonded
  notBonded : l'.notBonded = l.notBonded

/-- The votes and their records stay as they are. -/
structure SameVotes (b b' : StakingBooks) : Prop where
  delegators : b'.delegators = b.delegators
  shares : b'.shares = b.shares

/-- What the handlers and `EndBlocker` do. -/
inductive StakingEffect (user : Address → Prop) (destroyOK : StakingBooks → Address → Prop)
    (params : StakingParams) (time : Int) : StakingLedger → List StakingEvent →
    StakingLedger → Prop where
  /-- A record is revised, with the same tokens. -/
  | retally {l l' : StakingLedger} (d : Address) (o o' : Option Delegator)
      (hrev : Revision d o o' l.books l'.books) (htokens : tokensOf o' = tokensOf o)
      (hsame : SameFunds l l') : StakingEffect user destroyOK params time l [] l'
  /-- Validators change, but not their votes. -/
  | validators {l l' : StakingLedger}
      (hfollows : ∀ a, FollowsAt 0 (l.books.getValidator a) (l'.books.getValidator a))
      (hvotes : SameVotes l.books l'.books) (hindex : IndexOK l.books → IndexOK l'.books)
      (hsame : SameFunds l l') : StakingEffect user destroyOK params time l [] l'
  | deposit {l l' : StakingLedger} (d : Address) (o : Option Delegator) (r : Delegator)
      (quantity : Int) (hrev : Revision d o (some r) l.books l'.books) (hpos : 0 < quantity)
      (htokens : r.tokens = tokensOf o + quantity)
      (hundelegations : SameUndelegations l.books l'.books)
      (hbonded : l'.bonded = l.bonded + coin params.bondDenom quantity)
      (hnotBonded : l'.notBonded = l.notBonded) : StakingEffect user destroyOK params time l [] l'
  | withdraw {l l' : StakingLedger} (d : Address) (o o' : Option Delegator) (quantity : Int)
      (huser : user d) (hrev : Revision d o o' l.books l'.books) (hpos : 0 < quantity)
      (htokens : tokensOf o' = tokensOf o - quantity)
      (hundelegations : SameUndelegations
        (l.books.addUndelegation d quantity (time + params.unbondingTime)) l'.books)
      (hbonded : l'.bonded = l.bonded - coin params.bondDenom quantity)
      (hnotBonded : l'.notBonded = l.notBonded + coin params.bondDenom quantity) :
      StakingEffect user destroyOK params time l [.unbonded d quantity time] l'
  | create {l l' : StakingLedger} (a : Address) (v : Validator)
      (hnew : l.books.getValidator a = none)
      (hvalidators : ∀ q, l'.books.getValidator q =
        if q = a then some v else l.books.getValidator q)
      (hshares : v.delegatorShares = Dec.one) (hmsd : 0 < v.minSelfDelegation)
      (hvotes : SameVotes l.books l'.books) (hindex : IndexOK l.books → IndexOK l'.books)
      (hundelegations : SameUndelegations l.books l'.books)
      (hbonded : l'.bonded = l.bonded + coin params.bondDenom v.minSelfDelegation)
      (hnotBonded : l'.notBonded = l.notBonded) : StakingEffect user destroyOK params time l [] l'
  /-- A validator gives up its self delegation, which is unbonded over any other undelegation. -/
  | destroy {l l' : StakingLedger} (a : Address) (v : Validator) (huser : user a)
      (hok : destroyOK l.books a)
      (hget : l.books.getValidator a = some v) (hmsd : v.minSelfDelegation ≠ 0)
      (helsewhere : ∀ q, q ≠ a → l'.books.getValidator q = l.books.getValidator q)
      (hhere : match l'.books.getValidator a with
        | none => v.delegatorShares = Dec.one
        | some v' => v'.minSelfDelegation = 0 ∧ v'.jailed = true ∧
          v'.delegatorShares = v.delegatorShares - Dec.one)
      (hvotes : SameVotes l.books l'.books) (hindex : IndexOK l.books → IndexOK l'.books)
      (hundelegations : SameUndelegations ((l.books.setUndelegating
        ⟨a, v.minSelfDelegation, time + params.unbondingTime⟩).setAddrByTimeKey
          (time + params.unbondingTime) a) l'.books)
      (hcovered : v.minSelfDelegation ≤ l.bonded bondDenom)
      (hbonded : l'.bonded = l.bonded - coin bondDenom v.minSelfDelegation)
      (hnotBonded : l'.notBonded = l.notBonded + coin bondDenom v.minSelfDelegation) :
      StakingEffect user destroyOK params time l [.unbonded a v.minSelfDelegation time] l'
  /-- An entry of the queue is paid. -/
  | pay {l l' : StakingLedger} (key : Int ×ₗ Address) (info : UndelegationInfo)
      (hentry : (l.books.undelegateQueue.get key).isSome) (htime : (ofLex key).1 ≤ time)
      (hinfo : l.books.getUndelegating (ofLex key).2 = some info)
      (hbooks : l'.books = (l.books.deleteAddrByTimeKey (ofLex key).1 (ofLex key).2).deleteUndelegating
        (ofLex key).2)
      (hbonded : l'.bonded = l.bonded)
      (hnotBonded : l'.notBonded = l.notBonded - coin params.bondDenom info.quantity) :
      StakingEffect user destroyOK params time l [.paid (ofLex key).2 info.quantity time] l'
  /-- An entry of the queue is dropped: there is nothing to pay, or the pool does not hold it. -/
  | lapse {l l' : StakingLedger} (key : Int ×ₗ Address) (htime : (ofLex key).1 ≤ time)
      (hnothing : ∀ info, l.books.getUndelegating (ofLex key).2 = some info → 0 ≤ info.quantity →
        ¬ ∀ denom, coin params.bondDenom info.quantity denom ≤ l.notBonded denom)
      (hbooks : l'.books = l.books.deleteAddrByTimeKey (ofLex key).1 (ofLex key).2)
      (hbonded : l'.bonded = l.bonded) (hnotBonded : l'.notBonded = l.notBonded) :
      StakingEffect user destroyOK params time l [] l'

/-! ## The votes agree after every effect -/

namespace SharesOK

variable {b b' : StakingBooks}

/-- When validators change, but not their votes, any record may be seen as revised to itself. -/
theorem selfRevision (h : SharesOK b)
    (hfollows : ∀ a, FollowsAt 0 (b.getValidator a) (b'.getValidator a))
    (hvotes : SameVotes b b') (hindex : IndexOK b → IndexOK b') :
    Revision "" (b.getDelegator "") (b.getDelegator "") b b' := by
  have hget : ∀ d, b'.getDelegator d = b.getDelegator d := fun d => by
    unfold StakingBooks.getDelegator
    rw [hvotes.delegators]
  refine ⟨⟨rfl, hget "", fun e _ => hget e, fun e a => ?_, fun a => ?_, hindex⟩, h.sound "",
    fun r a => h.exist "" r a⟩
  · unfold StakingBooks.getShares
    rw [hvotes.shares]
    split_ifs with he
    · rw [he]
      exact h.records "" a
    · rfl
  · rw [sub_self]
    exact hfollows a

theorem follows (h : SharesOK b)
    (hfollows : ∀ a, FollowsAt 0 (b.getValidator a) (b'.getValidator a))
    (hvotes : SameVotes b b') (hindex : IndexOK b → IndexOK b') : SharesOK b' :=
  h.revision (h.selfRevision hfollows hvotes hindex)

theorem totalVotes_congr (hvotes : SameVotes b b') (a : Address) :
    b'.totalVotes a = b.totalVotes a := by
  unfold StakingBooks.totalVotes
  rw [hvotes.delegators]

/-- A validator is new, or has changed in a way of its own. -/
theorem changed (h : SharesOK b) {a : Address}
    (helsewhere : ∀ q, q ≠ a → b'.getValidator q = b.getValidator q) (hvotes : SameVotes b b')
    (hindex : IndexOK b → IndexOK b') (hnone : b'.getValidator a = none → b.totalVotes a = 0)
    (hsome : ∀ v, b'.getValidator a = some v → v.delegatorShares = b.totalVotes a + v.own ∧
      0 ≤ v.minSelfDelegation ∧ (v.minSelfDelegation = 0 → v.jailed = true)) : SharesOK b' := by
  have hget : ∀ d, b'.getDelegator d = b.getDelegator d := fun d => by
    unfold StakingBooks.getDelegator
    rw [hvotes.delegators]
  refine ⟨fun d r hr => h.sound d r (hget d ▸ hr), fun d q => ?_, fun d r q hr hq => ?_,
    fun q v hv => ?_, fun q v hv => ?_, hindex h.index⟩
  · unfold StakingBooks.getShares
    rw [hvotes.shares, hget]
    exact h.records d q
  · rw [hget] at hr
    by_cases hqa : q = a
    · rw [hqa] at hq ⊢
      cases hv : b'.getValidator a with
      | some v => rfl
      | none => exact absurd hq (not_mem_of_totalVotes h.sound (hnone hv) hr)
    · rw [helsewhere q hqa]
      exact h.exist d r q hr hq
  · rw [totalVotes_congr hvotes]
    by_cases hqa : q = a
    · rw [hqa] at hv ⊢
      exact (hsome v hv).1
    · rw [helsewhere q hqa] at hv
      exact h.totals q v hv
  · by_cases hqa : q = a
    · rw [hqa] at hv
      exact (hsome v hv).2
    · rw [helsewhere q hqa] at hv
      exact h.msd q v hv

end SharesOK

/-- **Every effect keeps the agreement of the votes.** -/
theorem StakingEffect.sharesOK {user : Address → Prop}
    {destroyOK : StakingBooks → Address → Prop} {params : StakingParams} {time : Int}
    {l l' : StakingLedger} {evs : List StakingEvent}
    (he : StakingEffect user destroyOK params time l evs l') (h : SharesOK l.books) : SharesOK l'.books := by
  cases he with
  | retally d o o' hrev => exact h.revision hrev
  | validators hfollows hvotes hindex => exact h.follows hfollows hvotes hindex
  | deposit d o r quantity hrev => exact h.revision hrev
  | withdraw d o o' quantity huser hrev => exact h.revision hrev
  | create a v hnew hvalidators hshares hmsd hvotes hindex =>
    refine h.changed (a := a) (fun q hq => ?_) hvotes hindex (fun hnone => ?_) fun v' hv' => ?_
    · rw [hvalidators, if_neg hq]
    · exact h.totalVotes_of_none hnew
    · rw [hvalidators, if_pos rfl] at hv'
      cases hv'
      rw [h.totalVotes_of_none hnew, Validator.own, if_pos hmsd, zero_add]
      exact ⟨hshares, hmsd.le, fun hzero => absurd hzero hmsd.ne'⟩
  | destroy a v huser hok hget hmsd helsewhere hhere hvotes hindex =>
    have htotal := h.totals a v hget
    have hpos : 0 < v.minSelfDelegation := lt_of_le_of_ne (h.msd a v hget).1 hmsd.symm
    rw [Validator.own, if_pos hpos] at htotal
    refine h.changed helsewhere hvotes hindex (fun hnone => ?_) fun v' hv' => ?_
    · rw [hnone] at hhere
      dsimp only at hhere
      omega
    · rw [hv'] at hhere
      obtain ⟨hzero, hjailed, hshares⟩ := hhere
      have hown : v'.own = 0 := if_neg (by omega)
      exact ⟨by omega, hzero.ge, fun _ => hjailed⟩
  | pay key info hentry htime hinfo hbooks =>
    rw [hbooks]
    exact h.follows (fun a => .refl _) ⟨rfl, rfl⟩ fun hi => hi.congr rfl rfl
  | lapse key htime hnothing hbooks =>
    rw [hbooks]
    exact h.follows (fun a => .refl _) ⟨rfl, rfl⟩ fun hi => hi.congr rfl rfl

/-! ## Retallies -/

/-- Everything the effects look at stays as it is. -/
structure SameStake (b b' : StakingBooks) : Prop extends SameVotes b b',
    SameUndelegations b b' where
  validators : b'.validators = b.validators
  index : b'.validatorsByConsAddr = b.validatorsByConsAddr

/-- A record is revised with the same tokens. -/
def Retally (b b' : StakingBooks) : Prop :=
  ∃ d o o', Revision d o o' b b' ∧ tokensOf o' = tokensOf o ∧ SameUndelegations b b'

/-- What a handler does that moves no tokens. -/
abbrev Retallies : StakingBooks → StakingBooks → Prop := Relation.ReflTransGen Retally

namespace SharesOK

variable {b b' : StakingBooks}

theorem retally (h : SharesOK b) (hr : Retally b b') : SharesOK b' := by
  obtain ⟨d, o, o', hrev, -⟩ := hr
  exact h.revision hrev

theorem retallies (h : SharesOK b) (hr : Retallies b b') : SharesOK b' := by
  induction hr with
  | refl => exact h
  | tail _ hstep ih => exact ih.retally hstep

theorem retally_of_same (h : SharesOK b) (b' : StakingBooks) (hsame : SameStake b b') : Retally b b' := by
  refine ⟨"", _, _, h.selfRevision (fun a => ?_) hsame.toSameVotes
    (fun hi => hi.congr hsame.validators hsame.index), rfl, hsame.toSameUndelegations⟩
  unfold StakingBooks.getValidator
  rw [hsame.validators]
  exact .refl _

end SharesOK

theorem Retallies.trace {user : Address → Prop}
    {destroyOK : StakingBooks → Address → Prop} {params : StakingParams} {time : Int}
    {b b' : StakingBooks} (h : Retallies b b') (bonded notBonded : Coins) :
    Trace (StakingEffect user destroyOK params time) ⟨b, bonded, notBonded⟩ [] ⟨b', bonded, notBonded⟩ := by
  induction h with
  | refl => exact .refl _
  | tail _ hstep ih =>
    obtain ⟨d, o, o', hrev, htokens, hsame⟩ := hstep
    exact ih.trans (.single (.retally d o o' hrev htokens ⟨hsame, rfl, rfl⟩))

end Okexchain
