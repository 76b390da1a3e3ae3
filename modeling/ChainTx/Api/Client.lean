import ChainTx.Api.RoundTrip
import ChainTx.Client.Forms
import ChainTx.Client.Error
/-!
# Requests on the client's settings, statuses and errors

Settings and statuses are given in their JSON forms and read as the client reads them, so a
malformed form fails with the reading error. Durations in answers are milliseconds, as decimal
strings.
-/

namespace ChainTx.Api

def commitmentJson (c : Commitment) : Json := .str c.name

def statusJson (s : ConfirmationStatus) : Json := .str s.name

def commitmentOp (req : Json) : Handler Json := do
  let c ← decodeWith ClientForms.commitment (← field req "commitment")
  let initial ← optWith req "initial_timeout_ms" asU64
  pure (obj [("commitment", commitmentJson c), ("required_status", statusJson c.requiredStatus),
    ("satisfied_by", .arr (ConfirmationStatus.all.map fun s => .bool (c.isSatisfiedBy s))),
    ("timeout_ms", u64Json (c.confirmationTimeoutMs initial))])

def retryConfigJson (c : RetryConfig) : Json :=
  obj [("max_attempts", Json.nat c.maxAttempts), ("initial_backoff_ms", u64Json c.initialBackoffMs),
    ("max_backoff_ms", u64Json c.maxBackoffMs)]

def retryBackoff (req : Json) : Handler Json := do
  let c ← match optField req "config" with
    | some j => decodeWith ClientForms.retryConfig j
    | none => pure RetryConfig.default
  let attempts ← mapM' (asNatBelow (Nat.pow 2 32) "attempt must be u32") (← arrField req "attempts")
  pure (obj [("max_attempts", Json.nat c.maxAttempts),
    ("initial_backoff_ms", u64Json c.initialBackoffMs), ("max_backoff_ms", u64Json c.maxBackoffMs),
    ("backoff_ms", .arr (attempts.map fun a => u64Json (c.backoffMs a)))])

def connectionConfigOp (req : Json) : Handler Json := do
  let c ← decodeWith ClientForms.connectionConfig (← field req "config")
  pure (obj [("commitment", commitmentJson c.commitment),
    ("confirm_timeout_ms", Json.opt u64Json c.confirmTimeoutMs),
    ("disable_blockhash_caching", .bool c.disableBlockhashCaching),
    ("blockhash_cache_ttl_ms", u64Json c.blockhashCacheTtlMs),
    ("effective_timeout_ms", u64Json (c.commitment.confirmationTimeoutMs c.confirmTimeoutMs)),
    ("retry", retryConfigJson c.retry)])

def signatureStatusOp (req : Json) : Handler Json := do
  let s ← decodeWith ClientForms.signatureStatus (← field req "status")
  pure (obj [("level", statusJson s.level),
    ("satisfies", obj (Commitment.all.map fun c => (c.name, .bool (s.satisfies c))))])

/-- A JSON integer that fits in 64 signed bits. -/
def asI64 : Json → Handler Int
  | .num (.int i) =>
    if -Int.ofNat (Nat.pow 2 63) ≤ i ∧ i < Int.ofNat (Nat.pow 2 63) then pure i
    else bad "code must be i64"
  | _ => bad "code must be i64"

/-- The node failure a request describes, if it names one. -/
def rpcErrorOf (req : Json) (kind : String) : Handler (Option RpcError) := do
  match kind with
  | "transport" => return some (.transport (← strField req "message"))
  | "rate_limited" => return some (.rateLimited (← optWith req "retry_after_ms" asU64))
  | "response" => return some (.response (← asI64 (← field req "code")) (← strField req "message"))
  | "send_transaction" =>
    let message ← strField req "message"
    let logs ← mapM' asString (← arrField req "logs")
    return some (.sendTransaction message logs)
  | "subscription_closed" => return some .subscriptionClosed
  | "cancelled" => return some .cancelled
  | _ => return none

/-- The expiry a request describes, if it names one. -/
def expiryOf (req : Json) (kind : String) : Handler (Option TransactionExpired) := do
  match kind with
  | "timeout" => return some (.timeout (← signatureField req "signature") (← u64Field req "timeout_ms"))
  | "blockheight_exceeded" => return some (.blockheightExceeded (← signatureField req "signature"))
  | "nonce_invalid" => return some (.nonceInvalid (← signatureField req "signature"))
  | _ => return none

def clientErrorOp (req : Json) : Handler Json := do
  let kind ← strField req "kind"
  match ← rpcErrorOf req kind with
  | some e =>
    let ce := ClientError.ofRpc e
    pure (obj [("message", .str e.message), ("retryable", .bool e.isRetryable),
      ("client_message", .str ce.message),
      ("client_kind", .str (match ce with | .cancelled => "Cancelled" | _ => "Rpc"))])
  | none =>
    match ← expiryOf req kind with
    | some e =>
      pure (obj [("message", .str e.message), ("signature", signatureJson e.signature),
        ("client_message", .str (ClientError.expired e).message)])
    | none =>
      match kind with
      | "blockhash_stale" =>
        let attempts ← asU32 (← field req "attempts")
        let elapsed ← u64Field req "elapsed_ms"
        pure (obj [("client_message", .str (ClientError.blockhashStale attempts elapsed).message)])
      | "transaction_failed" =>
        let s ← signatureField req "signature"
        let err ← field req "err"
        pure (obj [("client_message", .str (ClientError.transactionFailed s err).message)])
      | other => bad ("unknown client error kind " ++ other)

/-- The JSON forms of the client's values by type name. -/
def clientForms : List (String × (Json → Handler Json)) := [
  ("Commitment", through ClientForms.commitment commitmentJson),
  ("TransactionConfirmationStatus", through ClientForms.status statusJson),
  ("SignatureStatus", through ClientForms.signatureStatus ClientForms.signatureStatusJson),
  ("LatestBlockhash", through ClientForms.latestBlockhash ClientForms.latestBlockhashJson),
  ("SendOptions", through ClientForms.sendOptions ClientForms.sendOptionsJson),
  ("ConfirmOptions", through ClientForms.confirmOptions ClientForms.confirmOptionsJson),
  ("ResponseOptionSignatureStatus",
    through ClientForms.statusResponse ClientForms.statusResponseJson)]

/-- Reads a value in the JSON form of a named type and writes it back. -/
def roundTripAll (req : Json) : Handler Json := do
  let name ← strField req "type"
  let value := (req.get? "value").getD .null
  match (forms ++ clientForms).find? (·.1 == name) with
  | some (_, f) => f value
  | none => bad ("unknown serde type " ++ name)

end ChainTx.Api
