import ChainTx.Client.Node
import ChainTx.Client.Config
/-!
# Retrying calls

A node wrapped so that transport failures and rate limiting are tried again, up to the configured
number of attempts (at least one). Between attempts it waits for the delay a rate limit asks for,
or else the backoff of the attempt that failed. A cancellation token stops a call at once, whether
it is waiting on the node or between attempts. Subscribing is passed through untouched.
-/

namespace ChainTx

open Runtime.Prog (delay racing)

/-- The wait after a failed attempt. -/
def retryDelay (e : RpcError) (config : RetryConfig) (attempt : Nat) : Nat :=
  match e with
  | .rateLimited (some ms) => ms
  | _ => config.backoffMs attempt

/-- Tries `call` as attempt `attempt`, with `left` attempts after it allowed. -/
def retryFrom {α : Type} (config : RetryConfig) (cancel : Nat) (call : Async (Except RpcError α))
    (attempt : Nat) : Nat → Async (Except RpcError α)
  | 0 => do
    match ← racing cancel call with
    | none => pure (.error .cancelled)
    | some r => pure r
  | left + 1 => do
    match ← racing cancel call with
    | none => pure (.error .cancelled)
    | some (.ok v) => pure (.ok v)
    | some (.error e) =>
      if e.isRetryable then do
        match ← racing cancel (delay (retryDelay e config attempt)) with
        | none => pure (.error .cancelled)
        | some () => retryFrom config cancel call (attempt + 1) left
      else pure (.error e)

/-- Runs `call` with the retry policy of `config`, stopped by `cancel`. -/
def withRetry {α : Type} (config : RetryConfig) (cancel : Nat) (call : Async (Except RpcError α)) :
    Async (Except RpcError α) :=
  retryFrom config cancel call 1 (max config.maxAttempts 1 - 1)

/-- A node whose calls are retried. -/
def Rpc.retrying (inner : Rpc) (config : RetryConfig) (cancel : Nat) : Rpc where
  sendRaw wire options := withRetry config cancel (inner.sendRaw wire options)
  latestBlockhash c := withRetry config cancel (inner.latestBlockhash c)
  signatureStatus sig := withRetry config cancel (inner.signatureStatus sig)
  blockHeight c := withRetry config cancel (inner.blockHeight c)
  nonceAccount a c slot := withRetry config cancel (inner.nonceAccount a c slot)
  subscribe := inner.subscribe

end ChainTx
