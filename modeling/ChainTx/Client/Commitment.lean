/-!
# Commitment levels

How settled a ledger observation must be before it is trusted, and the status the cluster reports
for a signature. Five of the eight levels are older spellings kept for older nodes; each level
requires one of the three statuses, and a status satisfies every level whose requirement it
reaches. Levels that resolve within a few slots wait 30 seconds for confirmation, the others 60,
unless a timeout is given.
-/

namespace ChainTx

/-- How settled an observation must be. -/
inductive Commitment where
  | processed
  | confirmed
  | finalized
  | recent
  | single
  | singleGossip
  | root
  | max
  deriving DecidableEq, Inhabited

/-- The status reported for a signature, from least to most settled. -/
inductive ConfirmationStatus where
  | processed
  | confirmed
  | finalized
  deriving DecidableEq, Inhabited

namespace ConfirmationStatus

/-- The rank of a status in settledness. -/
def rank : ConfirmationStatus → Nat
  | .processed => 0
  | .confirmed => 1
  | .finalized => 2

def all : List ConfirmationStatus := [.processed, .confirmed, .finalized]

def name : ConfirmationStatus → String
  | .processed => "processed"
  | .confirmed => "confirmed"
  | .finalized => "finalized"

end ConfirmationStatus

namespace Commitment

def all : List Commitment :=
  [.processed, .confirmed, .finalized, .recent, .single, .singleGossip, .root, .max]

/-- The name of a level as it is written. -/
def name : Commitment → String
  | .processed => "processed"
  | .confirmed => "confirmed"
  | .finalized => "finalized"
  | .recent => "recent"
  | .single => "single"
  | .singleGossip => "singleGossip"
  | .root => "root"
  | .max => "max"

/-- The least settled status that satisfies the level. -/
def requiredStatus : Commitment → ConfirmationStatus
  | .processed | .recent => .processed
  | .confirmed | .single | .singleGossip => .confirmed
  | .finalized | .root | .max => .finalized

/-- Whether a status is settled enough for the level. -/
def isSatisfiedBy (c : Commitment) (s : ConfirmationStatus) : Bool :=
  c.requiredStatus.rank ≤ s.rank

/-- The default confirmation timeout, in milliseconds. -/
def defaultTimeoutMs : Nat := 60000

/-- The timeout of levels that resolve within a few slots, in milliseconds. -/
def fastTimeoutMs : Nat := 30000

/-- How long confirmation waits, in milliseconds; a given timeout always wins. -/
def confirmationTimeoutMs (c : Commitment) (initial : Option Nat) : Nat :=
  match initial with
  | some t => t
  | none =>
    match c with
    | .processed | .recent | .single | .confirmed | .singleGossip => fastTimeoutMs
    | .finalized | .root | .max => defaultTimeoutMs

end Commitment

end ChainTx
