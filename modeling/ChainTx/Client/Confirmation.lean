import ChainTx.Client.Node
/-!
# Waiting for a transaction to settle

A confirmation races two jobs. One subscribes to the signature, then checks its current status so
that a status reached in between is not missed, and otherwise waits for the subscription's
notification. The other watches for the transaction becoming impossible to land: a timer, the
block height passing the blockhash's last valid height, or the durable nonce moving on. The first
report wins; then both jobs are stopped, and a subscription left open is closed in the background.

A transaction that executed with an error has settled: its error is part of the settlement.
-/

namespace ChainTx

open Runtime.Prog (now delay update modify waitFor never wake freshKey fork childToken
  cancelToken racing guarded)

/-- How a confirmation decides that the transaction has expired. -/
inductive Strategy where
  /-- After a fixed time. -/
  | timeout (signature : Signature)
  /-- Once the block height passes the last height at which the blockhash is valid. -/
  | blockHeight (signature : Signature) (lastValidBlockHeight : Nat)
  /-- Once the nonce account no longer holds the nonce the transaction used. -/
  | durableNonce (signature : Signature) (nonceAccount : Address) (nonceValue : Blockhash)
      (minContextSlot : Nat)

def Strategy.signature : Strategy → Signature
  | .timeout s | .blockHeight s _ | .durableNonce s _ _ _ => s

def blockHeightPollMs : Nat := 1000
def noncePollMs : Nat := 2000
def nonceStatusPollMs : Nat := 400

/-- The status checks made after the nonce moves before giving up. -/
def nonceStatusMaxPolls : Nat := 150

/-- Rounds enough for a loop that waits `interval` each round to outlast `horizon`. -/
def roundsWithin (horizon interval : Nat) : Nat := horizon / interval + 2

/-- The settlement a status reports, when it reaches the commitment. -/
def settledBy (c : Commitment) (slot : Nat) (status : Option SignatureStatus) : Option Settlement :=
  match status with
  | some st => if st.satisfies c then some ⟨slot, st.err⟩ else none
  | none => none

/-- Subscribes, checks the status, and otherwise waits for the notification. The subscription is
closed in place once there is an outcome, or in the background if this is dropped first. -/
def waitForSignature (rpc : Rpc) (sig : Signature) (c : Commitment) : Async Outcome := do
  match ← rpc.subscribe sig c with
  | .error e => pure (.error (.ofRpc e))
  | .ok sub =>
    guarded (fork (Node.unsubscribe sub)) do
      let status ← rpc.signatureStatus sig
      let early := match status with
        | .ok (slot, st) => settledBy c slot st
        | .error _ => none
      let outcome ← match early with
        | some s => pure (.ok s)
        | none => do
          match ← Node.recv sub with
          | some n => pure (n.mapError ClientError.ofRpc)
          | none => pure (.error (.rpc .subscriptionClosed))
      Node.unsubscribe sub
      pure outcome

/-- Expires after `timeoutMs`. -/
def expireAfter (sig : Signature) (timeoutMs : Nat) : Async Outcome := do
  delay timeoutMs
  pure (.error (.expired (.timeout sig timeoutMs)))

/-- Polls the block height until it passes `lastValid`; failed polls are skipped. -/
def watchBlockHeight (rpc : Rpc) (sig : Signature) (lastValid : Nat) (c : Commitment) :
    Nat → Async Outcome
  | 0 => never
  | n + 1 => do
    let r ← rpc.blockHeight c
    match r with
    | .ok h =>
      if h > lastValid then pure (.error (.expired (.blockheightExceeded sig)))
      else do
        delay blockHeightPollMs
        watchBlockHeight rpc sig lastValid c n
    | .error _ => do
      delay blockHeightPollMs
      watchBlockHeight rpc sig lastValid c n

/-- Polls the nonce account until it no longer holds `value`: the slot of the last read. -/
def watchNonceValue (rpc : Rpc) (account : Address) (value : Blockhash) (minSlot : Nat)
    (c : Commitment) (lastChecked : Nat) : Nat → Async Nat
  | 0 => never
  | n + 1 => do
    let r ← rpc.nonceAccount account c (some minSlot)
    match r with
    | .ok (slot, some a) =>
      if a.nonce = value then do
        delay noncePollMs
        watchNonceValue rpc account value minSlot c slot n
      else pure slot
    | .ok (slot, none) => pure slot
    | .error _ => do
      delay noncePollMs
      watchNonceValue rpc account value minSlot c lastChecked n

/-- Settles from the status seen at a slot no older than `lastChecked`, polling at most `n` times;
a status that does not reach the commitment means the nonce was used by something else. -/
def statusAfterNonce (rpc : Rpc) (sig : Signature) (c : Commitment) (lastChecked : Nat) :
    Nat → Async Outcome
  | 0 => pure (.error (.expired (.nonceInvalid sig)))
  | n + 1 => do
    let r ← rpc.signatureStatus sig
    match r with
    | .ok (slot, st) =>
      if slot ≥ lastChecked then
        match settledBy c slot st with
        | some s => pure (.ok s)
        | none => pure (.error (.expired (.nonceInvalid sig)))
      else do
        delay nonceStatusPollMs
        statusAfterNonce rpc sig c lastChecked n
    | .error _ => do
      delay nonceStatusPollMs
      statusAfterNonce rpc sig c lastChecked n

/-- Watches the nonce, polling until `horizon` at most, then settles from the status once it has
moved. -/
def watchNonce (horizon : Nat) (rpc : Rpc) (sig : Signature) (account : Address)
    (value : Blockhash) (minSlot : Nat) (c : Commitment) : Async Outcome := do
  let slot ← watchNonceValue rpc account value minSlot c minSlot (roundsWithin horizon noncePollMs)
  statusAfterNonce rpc sig c slot nonceStatusMaxPolls

/-- The name the watcher of a strategy reports under. -/
def Strategy.watcherName : Strategy → String
  | .timeout _ => "timeout"
  | .blockHeight .. => "block height watcher"
  | .durableNonce .. => "nonce watcher"

/-- The job that watches for expiry; its polling loops last until `horizon`. -/
def watcher (horizon : Nat) (rpc : Rpc) (initialTimeoutMs : Option Nat) (c : Commitment) :
    Strategy → Async Outcome
  | .timeout sig => expireAfter sig (c.confirmationTimeoutMs initialTimeoutMs)
  | .blockHeight sig lastValid =>
    watchBlockHeight rpc sig lastValid c (roundsWithin horizon blockHeightPollMs)
  | .durableNonce sig account value minSlot => watchNonce horizon rpc sig account value minSlot c

/-- Opens a mailbox for `senders` racers. -/
def openMailbox (senders : Nat) : Async Nat := do
  let key ← freshKey
  modify fun w => { w with mailboxes := (key, ⟨[], senders⟩) :: w.mailboxes }
  pure key

/-- Changes the mailbox of a key. -/
def World.withMailbox (w : World) (key : Nat) (f : Mailbox → Mailbox) : World :=
  { w with mailboxes := w.mailboxes.map fun (k, m) => if k = key then (k, f m) else (k, m) }

/-- Reports an outcome under the name of the racer that has it. -/
def post (box : Nat) (report : String × Outcome) : Async Unit := do
  modify fun w => w.withMailbox box fun m => { m with reports := m.reports ++ [report] }
  wake box

/-- A racer is done: when it is the last, the mailbox closes. -/
def leave (box : Nat) : Async Unit := do
  modify fun w => w.withMailbox box fun m => { m with senders := m.senders - 1 }
  wake box

/-- The first report not yet read; none once every racer has left without one. -/
def receive (box : Nat) : Async (Option (String × Outcome)) :=
  waitFor box fun w =>
    match w.mailboxes.lookup box with
    | some ⟨o :: rest, n⟩ => some (w.withMailbox box fun _ => ⟨rest, n⟩, some o)
    | some ⟨[], 0⟩ => some (w, none)
    | some _ => none
    | none => some (w, none)

/-- Runs `work` until `stop` is cancelled, and reports its outcome under `name` if it gets one. -/
def racer (name : String) (stop box : Nat) (work : Async Outcome) : Async Unit := do
  match ← racing stop work with
  | some o => post box (name, o)
  | none => pure ()
  leave box

/-- Starts the two racers and waits for the first report, with the name of the racer that made it:
none when `cancel` comes first or both racers stop without one. Both racers are then stopped. -/
def race (horizon : Nat) (rpc : Rpc) (initialTimeoutMs : Option Nat) (strategy : Strategy)
    (c : Commitment) (cancel : Nat) : Async (Option (String × Outcome)) := do
  let stop ← childToken cancel
  let box ← openMailbox 2
  fork (racer "subscription" stop box (waitForSignature rpc strategy.signature c))
  fork (racer strategy.watcherName stop box (watcher horizon rpc initialTimeoutMs c strategy))
  let received ← guarded (cancelToken stop) (racing cancel (receive box))
  cancelToken stop
  pure received.join

/-- The outcome of a confirmation from the report it received. -/
def outcomeOf : Option (String × Outcome) → Outcome
  | some (_, o) => o
  | none => .error .cancelled

/-- Waits until the signature reaches `c` or the strategy says it has expired. Cancelling `cancel`
stops both racers and gives `cancelled`; it does not recall the transaction. The watcher's polling
loops last until `horizon`, the end of the run it is part of. -/
def confirm (horizon : Nat) (rpc : Rpc) (initialTimeoutMs : Option Nat) (strategy : Strategy)
    (c : Commitment) (cancel : Nat) : Async Outcome := do
  let received ← race horizon rpc initialTimeoutMs strategy c cancel
  pure (outcomeOf received)

end ChainTx
