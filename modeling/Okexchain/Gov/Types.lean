import Okexchain.Staking.Keeper

/-!
# Governance: types

Model of the types of `x/gov/types` that a tally reads and writes: `proposal.go`, `vote.go` and
`params.go`. Proposal IDs are natural numbers.
-/

namespace Okexchain

namespace Gov

/-- `ProposalStatus`. -/
inductive ProposalStatus where
  | depositPeriod
  | votingPeriod
  | passed
  | rejected
  | failed
deriving DecidableEq, Repr

/-- `VoteOption`. -/
inductive VoteOption where
  | empty
  | yes
  | abstain
  | no
  | noWithVeto
deriving DecidableEq, Repr

/-- `TallyResult`. -/
structure TallyResult where
  totalPower : Int
  totalVotedPower : Int
  yes : Int
  abstain : Int
  no : Int
  noWithVeto : Int
deriving DecidableEq, Repr

/-- `Vote`. -/
structure Vote where
  proposalID : Nat
  voter : Address
  option : VoteOption
deriving DecidableEq, Repr

/-- `TallyParams`. -/
structure TallyParams where
  quorum : Int
  threshold : Int
  veto : Int
  yesInVotePeriod : Int

/-- What goes wrong. Both are panics. -/
inductive GovError where
  /-- A panic of the staking keeper. -/
  | validatorNotFound (addr : Address)
  /-- A panic: `Quo` by zero. -/
  | divisionByZero

end Gov

end Okexchain
