import ChainTx.Client.Script
import ChainTx.Runtime.Scheduler
/-!
# The shared state of a client run

Everything the programs of one run share: the node, the blockhash cache of the connection, the
mailboxes through which the two racers of a confirmation report, and the results of fetches run
side by side.
-/

namespace ChainTx

/-- A cached blockhash and the time it was fetched. -/
structure CacheEntry where
  latest : LatestBlockhash
  fetchedAt : Nat

/-- The blockhash cache: the entry, whether a refresh is running, and the signatures sent under
the entry's blockhash. -/
structure CacheState where
  entry : Option CacheEntry
  polling : Bool
  sent : List Signature

def CacheState.empty : CacheState := ⟨none, false, []⟩

/-- The outcome of waiting for a transaction: its settlement, or why there is none. -/
abbrev Outcome := Except ClientError Settlement

/-- A channel from the racers of a confirmation: the reports not yet read, each with the name of
the racer that made it, and how many racers may still report. -/
structure Mailbox where
  reports : List (String × Outcome)
  senders : Nat

/-- The state shared by the programs of a run. -/
structure World where
  node : Node
  cache : CacheState
  /-- Mailboxes by key. -/
  mailboxes : List (Nat × Mailbox)
  /-- Finished fetches by key: the blockhash or the failure, and the time it came. -/
  fetched : List (Nat × (Except ClientError LatestBlockhash × Nat))

/-- A run on a node with the given script and an empty cache. -/
def World.start (script : Script) : World := ⟨Node.ofScript script, .empty, [], []⟩

/-- Programs of a client run. -/
abbrev Async := Runtime.Prog World

end ChainTx
