import ChainTx.Client.Node
import ChainTx.Client.Confirmation
/-!
# The blockhash cache

One recent blockhash shared by every send of a connection, refreshed when it is older than the
time to live. Only one refresh runs at a time: a caller that finds one running checks again every
`busyWaitMs`, and then takes what it stored. A refresh asks the node until it answers a blockhash
other than the cached one, `refreshIntervalMs` apart, at most `maxRefreshAttempts` times.

The cache also keeps the signatures sent under the current blockhash, so that the same
transaction is not sent twice; storing a new blockhash forgets them.
-/

namespace ChainTx

open Runtime.Prog (now delay update modify read never racing guarded)

/-- Attempts made to see a blockhash other than the cached one. -/
def maxRefreshAttempts : Nat := 50

/-- The pause between refresh attempts: half a slot. -/
def refreshIntervalMs : Nat := 200

/-- How often a caller checks again while another refresh runs. -/
def busyWaitMs : Nat := 100

namespace BlockhashCache

/-- The cached blockhash, whatever its age. -/
def cached : Async (Option LatestBlockhash) := read fun w => w.cache.entry.map (·.latest)

/-- The cached blockhash if it is younger than `ttl`. -/
def fresh (ttl : Nat) : Async (Option LatestBlockhash) := do
  let t ← now
  read fun w => match w.cache.entry with
    | some e => if t - e.fetchedAt < ttl then some e.latest else none
    | none => none

/-- Stores a new blockhash and forgets the signatures sent under the old one. -/
def store (latest : LatestBlockhash) : Async Unit := do
  let t ← now
  modify fun w => { w with cache := { w.cache with entry := some ⟨latest, t⟩, sent := [] } }

/-- Takes the right to refresh, if no refresh is running. -/
def acquire : Async Bool :=
  update fun w =>
    if w.cache.polling then (w, false) else ({ w with cache := { w.cache with polling := true } }, true)

def release : Async Unit := modify fun w => { w with cache := { w.cache with polling := false } }

/-- Asks the node for a blockhash other than `previous`, at most `n` more times. -/
def refreshFrom (rpc : Rpc) (cancel : Nat) (started : Nat) (previous : Option Blockhash) :
    Nat → Async (Except ClientError LatestBlockhash)
  | 0 => do
    let t ← now
    pure (.error (.blockhashStale maxRefreshAttempts (t - started)))
  | n + 1 => do
    match ← racing cancel (rpc.latestBlockhash .finalized) with
    | none => pure (.error .cancelled)
    | some (.error e) => pure (.error (.ofRpc e))
    | some (.ok latest) =>
      if previous ≠ some latest.blockhash then do
        store latest
        pure (.ok latest)
      else do
        match ← racing cancel (delay refreshIntervalMs) with
        | none => pure (.error .cancelled)
        | some () => refreshFrom rpc cancel started previous n

/-- A refresh: a blockhash other than the cached one, stored. -/
def refresh (rpc : Rpc) (cancel : Nat) : Async (Except ClientError LatestBlockhash) := do
  let started ← now
  let previous ← cached
  refreshFrom rpc cancel started (previous.map (·.blockhash)) maxRefreshAttempts

/-- Looks for a usable blockhash at most `n` times, refreshing when no refresh is running. -/
def getFrom (rpc : Rpc) (ttl : Nat) (usable : LatestBlockhash → Bool) (cancel : Nat) :
    Nat → Async (Except ClientError LatestBlockhash)
  | 0 => never
  | n + 1 => do
    match (← fresh ttl).filter usable with
    | some latest => pure (.ok latest)
    | none =>
      if ← acquire then do
        let r ← guarded release do
          match (← fresh ttl).filter usable with
          | some latest => pure (.ok latest)
          | none => refresh rpc cancel
        release
        pure r
      else do
        match ← racing cancel (delay busyWaitMs) with
        | none => pure (.error .cancelled)
        | some () => getFrom rpc ttl usable cancel n

/-- A blockhash younger than `ttl`, refreshed if needed. With `force`, the blockhash cached at the
call is never the answer: the caller gets one stored after it, by its own refresh or by one that
was running. A caller waiting on another's refresh checks again until `horizon`. -/
def getOrRefresh (horizon : Nat) (rpc : Rpc) (ttl : Nat) (force : Bool) (cancel : Nat) :
    Async (Except ClientError LatestBlockhash) := do
  let stale ← if force then (·.map (·.blockhash)) <$> cached else pure none
  let usable := fun (l : LatestBlockhash) => !force || some l.blockhash != stale
  getFrom rpc ttl usable cancel (roundsWithin horizon busyWaitMs)

/-- Records a signature about to be sent: false if it was already sent under this blockhash. -/
def recordSignature (sig : Signature) : Async Bool :=
  update fun w =>
    if w.cache.sent.contains sig then (w, false)
    else ({ w with cache := { w.cache with sent := sig :: w.cache.sent } }, true)

def wasSent (sig : Signature) : Async Bool := read fun w => w.cache.sent.contains sig

end BlockhashCache

end ChainTx
