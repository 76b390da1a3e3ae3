import ChainTx.Api.NodeScript
import ChainTx.Api.Transactions
/-!
# Requests that run the client against a scripted node

Each request runs one program on a fresh virtual clock starting at zero: a confirmation, a list of
calls through the retrying node, steps on a blockhash cache, or steps on a connection. Steps run
one after another; each answers its result with the time it ended. A step that cannot be read
answers its failure in place of a result. A cancellation time counts from the start of the step it
belongs to, or of the run for the whole-run tokens.
-/

namespace ChainTx.Api

open Runtime.Prog (now delay modify read waitFor wake freshKey fork cancelAfter)

/-! ## Confirmation -/

/-- `confirm {node, strategy, commitment?, initial_timeout_ms?, cancel_at_ms?, retry?,
retry_cancel_at_ms?}`: the outcome and the time it took. -/
def confirmOp (req : Json) : Handler Json := do
  let script ← nodeScript req
  let strategy ← asStrategy (← field req "strategy")
  let commitment ← commitmentOr req "commitment" .finalized
  let retry ← optWith req "retry" (decodeWith ClientForms.retryConfig)
  let initial ← optWith req "initial_timeout_ms" asU64
  let cancelAt ← optWith req "cancel_at_ms" asU64
  let retryCancelAt ← optWith req "retry_cancel_at_ms" asU64
  let main : Async (Outcome × Nat) := do
    let retryToken ← cancelAfter (retry.bind fun _ => retryCancelAt)
    let rpc := match retry with
      | some config => Rpc.scripted.retrying config retryToken
      | none => Rpc.scripted
    let cancel ← cancelAfter cancelAt
    let start ← now
    let outcome ← confirm Runtime.horizonMs rpc initial strategy commitment cancel
    let t ← now
    pure (outcome, t - start)
  pure (simulate main script fun (outcome, elapsed) =>
    [("result", clientAnswer settlementJson outcome), ("elapsed_ms", Json.nat elapsed)])

/-! ## Retried calls -/

/-- A call on the node. -/
inductive RpcCall where
  | send (wire : List UInt8) (options : SendOptions)
  | blockhash (c : Commitment)
  | status (sig : Signature)
  | height (c : Commitment)
  | nonce (address : Address) (c : Commitment) (minContextSlot : Option Nat)
  | subscribe (sig : Signature) (c : Commitment)

/-- A call `{method, ...}`. -/
def asRpcCall (j : Json) : Handler RpcCall := do
  match ← strField j "method" with
  | "send" =>
    let wire ← hexField j "wire"
    return .send wire (← sendOptionsOf j)
  | "blockhash" => return .blockhash (← commitmentOr j "commitment" .finalized)
  | "status" => return .status (← signatureField j "signature")
  | "height" => return .height (← commitmentOr j "commitment" .finalized)
  | "nonce" =>
    let slot ← optWith j "min_context_slot" asU64
    let address ← addressField j "address"
    return .nonce address (← commitmentOr j "commitment" .finalized) slot
  | "subscribe" =>
    let sig ← signatureField j "signature"
    return .subscribe sig (← commitmentOr j "commitment" .finalized)
  | other => bad ("unknown rpc method " ++ other)

/-- Makes a call and answers its result. A subscription is dropped at once, which closes it in
the background. -/
def runCall (rpc : Rpc) : RpcCall → Async Json
  | .send wire options => rpcAnswer signatureJson <$> rpc.sendRaw wire options
  | .blockhash c => rpcAnswer latestJson <$> rpc.latestBlockhash c
  | .status sig => rpcAnswer statusReplyJson <$> rpc.signatureStatus sig
  | .height c => rpcAnswer u64Json <$> rpc.blockHeight c
  | .nonce address c slot => rpcAnswer nonceReplyJson <$> rpc.nonceAccount address c slot
  | .subscribe sig c => do
    match ← rpc.subscribe sig c with
    | .error e => pure (rpcErrorJson e)
    | .ok sub => do
      fork (Node.unsubscribe sub)
      pure (.str "subscribed")

/-- `rpc_retry {node, config?, cancel_at_ms?, calls}`: the calls one after another through the
retrying node. -/
def rpcRetryOp (req : Json) : Handler Json := do
  let script ← nodeScript req
  let config ← match optField req "config" with
    | some c => decodeWith ClientForms.retryConfig c
    | none => pure RetryConfig.default
  let cancelAt ← optWith req "cancel_at_ms" asU64
  let calls ← mapM' asRpcCall (← arrField req "calls")
  let main : Async (List Json) := do
    let tok ← cancelAfter cancelAt
    let rpc := Rpc.scripted.retrying config tok
    calls.mapM fun c => do
      let r ← runCall rpc c
      let t ← now
      pure (timedJson r t)
  pure (simulate main script fun results => [("results", .arr results)])

/-! ## The blockhash cache -/

/-- Runs steps one after another: the result of each with the time it ended. -/
def runSteps {β : Type} (f : β → Async Json) : List β → Async (List Json)
  | [] => pure []
  | step :: rest => do
    let r ← f step
    let t ← now
    let rs ← runSteps f rest
    pure (timedJson r t :: rs)

/-- A fetch of the cache, started `startMs` after the step: forced or not, and cancelled
`cancelAt` after its start. -/
structure Fetch where
  force : Bool
  startMs : Nat
  cancelAt : Option Nat

def asFetch (j : Json) : Handler Fetch := do
  let force ← flagOff j "force"
  let start := (← optWith j "start_ms" asU64).getD 0
  pure ⟨force, start, ← optWith j "cancel_at_ms" asU64⟩

/-- A fetch of the cache as it answers. -/
def fetchNow (ttl : Nat) (force : Bool) (cancelAt : Option Nat) : Async Json := do
  let tok ← cancelAfter cancelAt
  clientAnswer latestJson <$> BlockhashCache.getOrRefresh Runtime.horizonMs Rpc.scripted ttl force tok

/-- Starts a fetch on its own; the key under which it leaves its result and end time. -/
def startFetch (ttl : Nat) (f : Fetch) : Async Nat := do
  let key ← freshKey
  fork do
    delay f.startMs
    let tok ← cancelAfter f.cancelAt
    let r ← BlockhashCache.getOrRefresh Runtime.horizonMs Rpc.scripted ttl f.force tok
    let t ← now
    modify fun w => { w with fetched := (key, (r, t)) :: w.fetched }
    wake key
  pure key

/-- Runs fetches side by side; each answers with the time it ended, in the order given. A fetch
that cannot be read answers its failure, without a time. -/
def fetchMany (ttl : Nat) (gets : List Json) : Async Json := do
  let started ← gets.mapM fun g =>
    match asFetch g with
    | .ok f => Except.ok <$> startFetch ttl f
    | .error e => pure (.error e)
  let results ← started.mapM fun
    | .ok key => do
      let (r, t) ← waitFor key fun w => (w.fetched.lookup key).map fun r => (w, r)
      pure (timedJson (clientAnswer latestJson r) t)
    | .error e => pure e.toJson
  pure (.arr results)

/-- Adds replies to the node's script. -/
def extendScript (add : Script → Script) : Async Json := do
  modify fun w => { w with node := { w.node with script := add w.node.script } }
  pure .null

/-- A step on the cache. -/
inductive CacheStep where
  | get (force : Bool) (cancelAt : Option Nat)
  | getMany (gets : List Json)
  | sleep (ms : Nat)
  | record (sig : Signature)
  | wasSent (sig : Signature)
  | cached
  | script (add : Script → Script)

def asCacheStep (step : Json) : Handler CacheStep := do
  match ← strField step "op" with
  | "get" =>
    let force ← flagOff step "force"
    return .get force (← optWith step "cancel_at_ms" asU64)
  | "get_many" => return .getMany (← arrField step "gets")
  | "sleep" => return .sleep (← u64Field step "ms")
  | "record" => return .record (← signatureField step "signature")
  | "was_sent" => return .wasSent (← signatureField step "signature")
  | "cached" => pure .cached
  | "script" => return .script (← scriptAddition (← strField step "method") (← arrField step "items"))
  | other => bad ("unknown cache step " ++ other)

/-- Runs a step on the cache. -/
def CacheStep.run (ttl : Nat) : CacheStep → Async Json
  | .get force cancelAt => fetchNow ttl force cancelAt
  | .getMany fetches => fetchMany ttl fetches
  | .sleep ms => do
    delay ms
    pure .null
  | .record sig => Json.bool <$> BlockhashCache.recordSignature sig
  | .wasSent sig => Json.bool <$> BlockhashCache.wasSent sig
  | .cached => Json.opt latestJson <$> BlockhashCache.cached
  | .script add => extendScript add

/-- `blockhash_cache {node, ttl_ms?, steps}`. Every step is read before the run starts, so a step
that cannot be read fails the whole request. -/
def blockhashCacheOp (req : Json) : Handler Json := do
  let script ← nodeScript req
  let ttl := (← optWith req "ttl_ms" asU64).getD 30000
  let steps ← mapM' asCacheStep (← arrField req "steps")
  pure (simulate (runSteps (CacheStep.run ttl) steps) script fun results => [("steps", .arr results)])

/-! ## Connections -/

/-- Transactions by name. -/
abbrev Slots := List (String × Transaction)

def Slots.put (slots : Slots) (id : String) (tx : Transaction) : Slots :=
  (id, tx) :: slots.filter (·.1 != id)

/-- The transaction named by a step's `id`. -/
def slotOf (slots : Slots) (step : Json) : Handler (String × Transaction) := do
  let id ← strField step "id"
  match slots.lookup id with
  | some tx => pure (id, tx)
  | none => bad ("no transaction " ++ id)

/-- A send's result with the transaction as it ends up. -/
def sentJson (r : Except ClientError Signature) (tx : Transaction) : Json :=
  obj [("result", clientAnswer signatureJson r), ("state", transactionStateJson tx)]

/-- A step on a connection, read against the transactions it may name. -/
inductive ConnectionStep where
  /-- A new transaction, built with the results of its building steps. -/
  | newTx (id : String) (tx : Transaction) (results : List Json)
  | sendTransaction (id : String) (tx : Transaction) (signers : List Keypair)
      (options : SendOptions) (cancelAt : Option Nat)
  | sendAndConfirm (id : String) (tx : Transaction) (signers : List Keypair)
      (options : ConfirmOptions) (cancelAt : Option Nat)
  | sendVersioned (tx : VersionedTransaction) (options : SendOptions) (cancelAt : Option Nat)
  | sendRaw (wire : List UInt8) (options : SendOptions) (cancelAt : Option Nat)
  | confirmTransaction (strategy : Strategy) (commitment : Option Commitment)
      (cancelAt : Option Nat)
  | latestBlockhash (cancelAt : Option Nat)
  | sleep (ms : Nat)
  | script (add : Script → Script)
  | info
  | wasSent (sig : Signature)

/-- The signers of a send, by their seeds; none when not given. -/
def signersOf (step : Json) : Handler (List Keypair) := do
  match optField step "signers" with
  | some s => mapM' asKeypair (← asArray s)
  | none => pure []

def asConnectionStep (slots : Slots) (step : Json) : Handler ConnectionStep := do
  match ← strField step "op" with
  | "new_tx" =>
    let id ← strField step "id"
    let tx ← initialTransaction step
    let steps ← match optField step "steps" with
      | some s => asArray s
      | none => pure []
    let (tx, results) := legacyRun tx steps
    pure (.newTx id tx results)
  | "send_transaction" =>
    let (id, tx) ← slotOf slots step
    let signers ← signersOf step
    let options ← sendOptionsOf step
    return .sendTransaction id tx signers options (← optWith step "cancel_at_ms" asU64)
  | "send_and_confirm" =>
    let (id, tx) ← slotOf slots step
    let signers ← signersOf step
    let options ← match optField step "options" with
      | some o => decodeWith ClientForms.confirmOptions o
      | none => pure ⟨SendOptions.default, none⟩
    return .sendAndConfirm id tx signers options (← optWith step "cancel_at_ms" asU64)
  | "send_versioned" =>
    let tx ← lift (VersionedTransaction.deserialize (← hexField step "wire"))
    let options ← sendOptionsOf step
    return .sendVersioned tx options (← optWith step "cancel_at_ms" asU64)
  | "send_raw" =>
    let wire ← hexField step "wire"
    let options ← sendOptionsOf step
    return .sendRaw wire options (← optWith step "cancel_at_ms" asU64)
  | "confirm_transaction" =>
    let strategy ← asStrategy (← field step "strategy")
    let cancelAt ← optWith step "cancel_at_ms" asU64
    return .confirmTransaction strategy (← optWith step "commitment" (decodeWith ClientForms.commitment))
      cancelAt
  | "latest_blockhash" => return .latestBlockhash (← optWith step "cancel_at_ms" asU64)
  | "sleep" => return .sleep (← u64Field step "ms")
  | "script" => return .script (← scriptAddition (← strField step "method") (← arrField step "items"))
  | "info" => pure .info
  | "was_sent" => return .wasSent (← signatureField step "signature")
  | other => bad ("unknown connection step " ++ other)

/-- Runs a step on a connection: the transactions after it and its result. -/
def ConnectionStep.run (c : Connection) (slots : Slots) : ConnectionStep → Async (Slots × Json)
  | .newTx id tx results =>
    pure (slots.put id tx, obj [("results", .arr results), ("state", transactionStateJson tx)])
  | .sendTransaction id tx signers options cancelAt => do
    let tok ← cancelAfter cancelAt
    let (tx, r) ← c.sendTransaction Runtime.horizonMs tx signers options tok
    pure (slots.put id tx, sentJson r tx)
  | .sendAndConfirm id tx signers options cancelAt => do
    let tok ← cancelAfter cancelAt
    let (tx, r) ← c.sendAndConfirm Runtime.horizonMs tx signers options tok
    pure (slots.put id tx, sentJson r tx)
  | .sendVersioned tx options cancelAt => do
    let tok ← cancelAfter cancelAt
    let r ← c.sendVersioned tx options tok
    pure (slots, clientAnswer signatureJson r)
  | .sendRaw wire options cancelAt => do
    let tok ← cancelAfter cancelAt
    let r ← c.sendRaw wire options tok
    pure (slots, clientAnswer signatureJson r)
  | .confirmTransaction strategy commitment cancelAt => do
    let tok ← cancelAfter cancelAt
    let r ← c.confirmTransaction Runtime.horizonMs strategy commitment tok
    pure (slots, clientAnswer settlementJson r)
  | .latestBlockhash cancelAt => do
    let tok ← cancelAfter cancelAt
    let r ← c.latestBlockhash Runtime.horizonMs tok
    pure (slots, clientAnswer latestJson r)
  | .sleep ms => do
    delay ms
    pure (slots, .null)
  | .script add => do
    let r ← extendScript add
    pure (slots, r)
  | .info => do
    let cached ← BlockhashCache.cached
    pure (slots, obj [("commitment", .str c.config.commitment.name),
      ("disable_blockhash_caching", .bool c.config.disableBlockhashCaching),
      ("cached", Json.opt latestJson cached)])
  | .wasSent sig => do
    let r ← BlockhashCache.wasSent sig
    pure (slots, .bool r)

/-- Runs the steps on a connection one after another. -/
def connectionSteps (c : Connection) (slots : Slots) : List Json → Async (List Json)
  | [] => pure []
  | step :: rest => do
    let (slots, r) ← match asConnectionStep slots step with
      | .ok s => s.run c slots
      | .error f => pure (slots, f.toJson)
    let t ← now
    let rs ← connectionSteps c slots rest
    pure (timedJson r t :: rs)

/-- `connection {node, config?, with_retry?, connection_cancel_at_ms?, steps}`. -/
def connectionOp (req : Json) : Handler Json := do
  let script ← nodeScript req
  let config ← match optField req "config" with
    | some c => decodeWith ClientForms.connectionConfig c
    | none => pure ConnectionConfig.default
  let withRetry ← flagOff req "with_retry"
  let cancelAt ← optWith req "connection_cancel_at_ms" asU64
  let steps ← arrField req "steps"
  let main : Async (List Json) := do
    let tok ← cancelAfter (if withRetry then cancelAt else none)
    let rpc := if withRetry then Rpc.scripted.retrying config.retry tok else Rpc.scripted
    connectionSteps ⟨rpc, config⟩ [] steps
  pure (simulate main script fun results => [("steps", .arr results)])

end ChainTx.Api
