import ChainTx.Client.Config
import ChainTx.Client.Rpc
import ChainTx.Json.Forms
/-!
# JSON forms of the client's values

Levels and statuses are their camel-case names; records have camel-case keys. Submission options
and the commitment of confirmation share one object: the commitment is read from its key first,
then the submission options from the other keys.
-/

namespace ChainTx.ClientForms

open Decode

def commitment : Decoder Commitment := names (Commitment.all.map fun c => (c.name, c))

def status : Decoder ConfirmationStatus :=
  names (ConfirmationStatus.all.map fun s => (s.name, s))

/-- Any value, null meaning none. -/
def anyValue : Decoder Json := fun j => .ok j

def signatureStatus : Decoder SignatureStatus :=
  record "SignatureStatus" [check "slot" u64, check "confirmations" (option u64),
      check "err" (option anyValue), check "confirmationStatus" (option status)]
    fun r => do
      let slot ← r.field 0 "slot" u64
      let confirmations ← r.optField 1 "confirmations" u64
      let err ← r.optField 2 "err" anyValue
      let st ← r.optField 3 "confirmationStatus" status
      pure ⟨slot, confirmations, err, st⟩

def signatureStatusJson (s : SignatureStatus) : Json :=
  .mkObj [("slot", Json.nat s.slot), ("confirmations", Json.opt Json.nat s.confirmations),
    ("err", s.err.getD .null),
    ("confirmationStatus", Json.opt (fun (c : ConfirmationStatus) => .str c.name) s.confirmationStatus)]

def latestBlockhash : Decoder LatestBlockhash :=
  record "LatestBlockhash" [check "blockhash" Forms.blockhash, check "lastValidBlockHeight" u64]
    fun r => do
      let h ← r.field 0 "blockhash" Forms.blockhash
      let n ← r.field 1 "lastValidBlockHeight" u64
      pure ⟨h, n⟩

def latestBlockhashJson (b : LatestBlockhash) : Json :=
  .mkObj [("blockhash", Forms.blockhashJson b.blockhash),
    ("lastValidBlockHeight", Json.nat b.lastValidBlockHeight)]

/-- The checks of the submission options' fields. -/
def sendChecks : List FieldCheck :=
  [check "skipPreflight" bool, check "preflightCommitment" (option commitment),
    check "maxRetries" (option usize), check "minContextSlot" (option u64)]

def buildSend (r : Record) : Except DecodeError SendOptions := do
  let skip ← r.field 0 "skipPreflight" bool
  let pre ← r.optField 1 "preflightCommitment" commitment
  let retries ← r.optField 2 "maxRetries" usize
  let minSlot ← r.optField 3 "minContextSlot" u64
  pure ⟨skip, pre, retries, minSlot⟩

def sendOptions : Decoder SendOptions := record "SendOptions" sendChecks buildSend

def sendFields (o : SendOptions) : List (String × Json) :=
  [("skipPreflight", .bool o.skipPreflight),
    ("preflightCommitment", Json.opt (fun (c : Commitment) => .str c.name) o.preflightCommitment),
    ("maxRetries", Json.opt Json.nat o.maxRetries), ("minContextSlot", Json.opt Json.nat o.minContextSlot)]

def sendOptionsJson (o : SendOptions) : Json := .mkObj (sendFields o)

/-- Confirmation options: an object whose `commitment` key is read first and whose other keys are
the submission options. -/
def confirmOptions : Decoder ConfirmOptions
  | .obj es => do
    let c ← match es.find? (·.1 == "commitment") with
      | some (_, v) => option commitment v
      | none => pure none
    let rest := es.filter (·.1 != "commitment")
    checkEntries sendChecks rest
    let send ← buildSend ⟨"SendOptions", 4, .entries rest⟩
    pure ⟨send, c⟩
  | j => .error (.invalidType (unexpected j) "struct ConfirmOptions")

def confirmOptionsJson (o : ConfirmOptions) : Json :=
  .mkObj (sendFields o.send ++
    [("commitment", Json.opt (fun (c : Commitment) => .str c.name) o.commitment)])

/-- The slot of an answer. -/
def context : Decoder Nat :=
  record "RpcContext" [check "slot" u64] fun r => r.field 0 "slot" u64

/-- An answer about a signature: its slot and the status, if any. -/
def statusResponse : Decoder (Nat × Option SignatureStatus) :=
  record "Response" [check "context" context, check "value" (option signatureStatus)]
    fun r => do
      let slot ← r.field 0 "context" context
      let v ← r.optField 1 "value" signatureStatus
      pure (slot, v)

def statusResponseJson (r : Nat × Option SignatureStatus) : Json :=
  .mkObj [("context", .mkObj [("slot", Json.nat r.1)]), ("value", Json.opt signatureStatusJson r.2)]

def retryConfig : Decoder RetryConfig :=
  record "RetryConfig" [check "maxAttempts" u32, check "initialBackoffMs" u64,
      check "maxBackoffMs" u64]
    fun r => do
      let d := RetryConfig.default
      let a ← r.defaulted 0 "maxAttempts" u32 d.maxAttempts
      let i ← r.defaulted 1 "initialBackoffMs" u64 d.initialBackoffMs
      let m ← r.defaulted 2 "maxBackoffMs" u64 d.maxBackoffMs
      pure ⟨a, i, m⟩

def connectionConfig : Decoder ConnectionConfig :=
  record "ConnectionConfig" [check "commitment" commitment,
      check "confirmTransactionInitialTimeoutMs" (option u64),
      check "disableBlockhashCaching" bool, check "blockhashCacheTtlMs" u64,
      check "retry" retryConfig]
    fun r => do
      let d := ConnectionConfig.default
      let c ← r.defaulted 0 "commitment" commitment d.commitment
      let t ← r.defaulted 1 "confirmTransactionInitialTimeoutMs" (option u64) d.confirmTimeoutMs
      let dis ← r.defaulted 2 "disableBlockhashCaching" bool d.disableBlockhashCaching
      let ttl ← r.defaulted 3 "blockhashCacheTtlMs" u64 d.blockhashCacheTtlMs
      let retry ← r.defaulted 4 "retry" retryConfig d.retry
      pure ⟨c, t, dis, ttl, retry⟩

end ChainTx.ClientForms
