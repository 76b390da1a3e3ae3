import ChainTx.Client.Commitment
import ChainTx.Json.Value
import ChainTx.Key.Text
/-!
# Values exchanged with a node

What a node reports: the slot an answer was observed at, the latest blockhash with the last block
height it is valid for, and the status of a signature. A status names its level directly, or
older nodes give only a count of confirmations: none means rooted, zero means processed.
-/

namespace ChainTx

/-- The latest blockhash and the last block height at which it is accepted. -/
structure LatestBlockhash where
  blockhash : Blockhash
  lastValidBlockHeight : Nat
  deriving DecidableEq

/-- The status of a signature as a node reports it. -/
structure SignatureStatus where
  slot : Nat
  /-- None once the block is rooted. -/
  confirmations : Option Nat
  err : Option Json
  confirmationStatus : Option ConfirmationStatus

namespace SignatureStatus

/-- The reported status, or the one the confirmation count implies. -/
def level (s : SignatureStatus) : ConfirmationStatus :=
  match s.confirmationStatus, s.confirmations with
  | some st, _ => st
  | none, none => .finalized
  | none, some 0 => .processed
  | none, some _ => .confirmed

def satisfies (s : SignatureStatus) (c : Commitment) : Bool := c.isSatisfiedBy s.level

end SignatureStatus

/-- How a transaction is submitted. -/
structure SendOptions where
  skipPreflight : Bool
  /-- The connection's commitment when none. -/
  preflightCommitment : Option Commitment
  maxRetries : Option Nat
  minContextSlot : Option Nat
  deriving DecidableEq

def SendOptions.default : SendOptions := ⟨false, none, none, none⟩

/-- How a transaction is submitted and confirmed. -/
structure ConfirmOptions where
  send : SendOptions
  /-- The connection's commitment when none. -/
  commitment : Option Commitment
  deriving DecidableEq

end ChainTx
