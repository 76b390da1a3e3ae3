import ChainTx.Client.Commitment
/-!
# Connection settings

Every setting has a default, so a partial description fills in the rest. Retries of failed RPC
calls back off exponentially: retry `n` (counted from 1) waits the initial backoff doubled `n - 1`
times, the doubling capped at 32, the product saturating at the largest 64-bit value, and the
wait capped at the maximum backoff.
-/

namespace ChainTx

/-- The largest 64-bit value. -/
def u64Max : Nat := Nat.pow 2 64 - 1

/-- Backoff for retryable RPC failures. -/
structure RetryConfig where
  maxAttempts : Nat
  initialBackoffMs : Nat
  maxBackoffMs : Nat
  deriving DecidableEq

namespace RetryConfig

def default : RetryConfig := ⟨5, 500, 8000⟩

/-- The wait before retry number `attempt`, in milliseconds. -/
def backoffMs (c : RetryConfig) (attempt : Nat) : Nat :=
  let factor := Nat.pow 2 (min (attempt - 1) 32)
  min (min (c.initialBackoffMs * factor) u64Max) c.maxBackoffMs

end RetryConfig

/-- Connection settings. -/
structure ConnectionConfig where
  commitment : Commitment
  /-- Overrides the confirmation timeout of the commitment level. -/
  confirmTimeoutMs : Option Nat
  /-- Fetch a fresh blockhash for every send. -/
  disableBlockhashCaching : Bool
  blockhashCacheTtlMs : Nat
  retry : RetryConfig
  deriving DecidableEq

def ConnectionConfig.default : ConnectionConfig :=
  ⟨.finalized, none, false, 30000, RetryConfig.default⟩

end ChainTx
