import ChainTx.Api.Client
import ChainTx.Client.Connection
/-!
# Node scripts and the answers of simulated runs

A request on the client runs it against a scripted node, given as `{send?, blockhash?, status?,
height?, nonce?, subscribe?}`: for each method a list of replies. A reply may carry `delay_ms`, and
may be a failure `{"error": {kind, ...}}` instead of a success.

Answers give blockhashes with their height as decimal text, settlements as `{slot, err}`, and a
client error as `{"error": kind, "message": text}`, its kind prefixed by the family it belongs to.
A run that does not end before the horizon answers `{"error": "Hang", message}`.
-/

namespace ChainTx.Api

/-! ## Reading scripts -/

/-- A node failure `{kind, ...}`. -/
def asRpcError (j : Json) : Handler RpcError := do
  let kind ← strField j "kind"
  match ← rpcErrorOf j kind with
  | some e => pure e
  | none => bad ("unknown rpc error kind " ++ kind)

/-- A reply: a failure under `error`, or the success `ok` reads. -/
def asReply {α : Type} (ok : Json → Handler α) (j : Json) : Handler (Reply α) := do
  let delay := (← optWith j "delay_ms" asU64).getD 0
  match optField j "error" with
  | some e => pure ⟨delay, .error (← asRpcError e)⟩
  | none => pure ⟨delay, .ok (← ok j)⟩

def asLatest (j : Json) : Handler LatestBlockhash := do
  let h ← blockhashField j "blockhash"
  let n ← u64Field j "last_valid_block_height"
  pure ⟨h, n⟩

/-- `{slot, value?}`, the value in the status's JSON form. -/
def asStatusReply (j : Json) : Handler StatusReply := do
  let slot ← u64Field j "slot"
  let value ← optWith j "value" (decodeWith ClientForms.signatureStatus)
  pure (slot, value)

/-- An initialized nonce account `{nonce, authority?, lamports_per_signature?}`: the authority is
all zeros and the fee 5000 unless given. -/
def asNonceValue (j : Json) : Handler NonceAccount := do
  let nonce ← blockhashField j "nonce"
  let authority := (← optWith j "authority" asAddress).getD Address.zero
  let lamports := (← optWith j "lamports_per_signature" asU64).getD 5000
  pure ⟨1, 1, authority, nonce, lamports⟩

def asNonceReply (j : Json) : Handler NonceReply := do
  let slot ← u64Field j "slot"
  let value ← optWith j "value" asNonceValue
  pure (slot, value)

/-- `{after_ms?, slot, err?}` or `{after_ms?, error}`; it comes at once unless delayed. -/
def asNotification (j : Json) : Handler Notification := do
  let after := (← optWith j "after_ms" asU64).getD 0
  match optField j "error" with
  | some e => pure ⟨after, .error (← asRpcError e)⟩
  | none => pure ⟨after, .ok ⟨← u64Field j "slot", optField j "err"⟩⟩

/-- `{notifications?, then?}`: after the last notification the subscription stays silent
(`pending`, the default) or closes (`close`). -/
def asFeed (j : Json) : Handler Feed := do
  let notifications ← match optField j "notifications" with
    | some a => mapM' asNotification (← asArray a)
    | none => pure []
  let closes ← match optField j "then" with
    | none => pure false
    | some t =>
      match ← asString t with
      | "pending" => pure false
      | "close" => pure true
      | other => bad ("unknown subscription end " ++ other)
  pure ⟨notifications, closes⟩

/-- The replies of one method. -/
def repliesOf {α : Type} (ok : Json → Handler α) (items : List Json) : Handler (List (Reply α)) :=
  mapM' (asReply ok) items

/-- Replies to add to a method of a script. -/
def scriptAddition (method : String) (items : List Json) : Handler (Script → Script) := do
  match method with
  | "send" =>
    let rs ← repliesOf (fun _ => pure ()) items
    pure fun s => { s with send := s.send ++ rs }
  | "blockhash" =>
    let rs ← repliesOf asLatest items
    pure fun s => { s with blockhash := s.blockhash ++ rs }
  | "status" =>
    let rs ← repliesOf asStatusReply items
    pure fun s => { s with status := s.status ++ rs }
  | "height" =>
    let rs ← repliesOf (fun j => u64Field j "height") items
    pure fun s => { s with height := s.height ++ rs }
  | "nonce" =>
    let rs ← repliesOf asNonceReply items
    pure fun s => { s with nonce := s.nonce ++ rs }
  | "subscribe" =>
    let rs ← repliesOf asFeed items
    pure fun s => { s with subscribe := s.subscribe ++ rs }
  | other => bad ("unknown rpc method " ++ other)

/-- The methods of a script, in the order they are read. -/
def scriptMethods : List String := ["send", "blockhash", "status", "height", "nonce", "subscribe"]

/-- A script `{send?, blockhash?, status?, height?, nonce?, subscribe?}`. -/
def asScript (node : Json) : Handler Script :=
  scriptMethods.foldlM (fun s m => do
    match optField node m with
    | some items => pure ((← scriptAddition m (← asArray items)) s)
    | none => pure s) Script.empty

/-- The script under `node`; without one the node has no replies. -/
def nodeScript (req : Json) : Handler Script :=
  match optField req "node" with
  | some n => asScript n
  | none => pure Script.empty

/-- An expiry strategy `{kind, signature, ...}`; the signature is read before the kind. -/
def asStrategy (j : Json) : Handler Strategy := do
  let sig ← signatureField j "signature"
  match ← strField j "kind" with
  | "timeout" => return .timeout sig
  | "block_height" => return .blockHeight sig (← u64Field j "last_valid_block_height")
  | "durable_nonce" =>
    let account ← addressField j "nonce_account"
    let value ← blockhashField j "nonce_value"
    return .durableNonce sig account value (← u64Field j "min_context_slot")
  | other => bad ("unknown strategy kind " ++ other)

/-- A commitment under `key`, `otherwise` when absent. -/
def commitmentOr (j : Json) (key : String) (otherwise : Commitment) : Handler Commitment :=
  match optField j key with
  | some c => decodeWith ClientForms.commitment c
  | none => pure otherwise

/-- Submission options under `options`, the defaults when absent. -/
def sendOptionsOf (j : Json) : Handler SendOptions :=
  match optField j "options" with
  | some o => decodeWith ClientForms.sendOptions o
  | none => pure SendOptions.default

/-- A flag that is false unless given. -/
def flagOff (j : Json) (k : String) : Handler Bool :=
  match optField j k with
  | some b => asBool b
  | none => pure false

/-! ## Answers -/

def latestJson (l : LatestBlockhash) : Json :=
  obj [("blockhash", blockhashJson l.blockhash),
    ("last_valid_block_height", u64Json l.lastValidBlockHeight)]

def settlementJson (s : Settlement) : Json :=
  obj [("slot", Json.nat s.slot), ("err", s.err.getD .null)]

def RpcError.kindName : RpcError → String
  | .transport _ => "Transport"
  | .rateLimited _ => "RateLimited"
  | .response _ _ => "Response"
  | .sendTransaction _ _ => "SendTransaction"
  | .subscriptionClosed => "SubscriptionClosed"
  | .cancelled => "Cancelled"

def TransactionExpired.kindName : TransactionExpired → String
  | .timeout _ _ => "Timeout"
  | .blockheightExceeded _ => "BlockheightExceeded"
  | .nonceInvalid _ => "NonceInvalid"

def rpcErrorJson (e : RpcError) : Json := errorJson ("Rpc." ++ RpcError.kindName e) e.message

def clientErrorJson (e : ClientError) : Json :=
  let kind := match e with
    | .rpc r => "Rpc." ++ RpcError.kindName r
    | .expired x => "Expired." ++ TransactionExpired.kindName x
    | .cancelled => "Cancelled"
    | .blockhashStale _ _ => "BlockhashStale"
    | .transactionFailed _ _ => "TransactionFailed"
    | .sol s => "Sol." ++ SolError.kindName s
  errorJson kind e.message

/-- A client result in place: its value, or its error object. -/
def clientAnswer {α : Type} (f : α → Json) : Except ClientError α → Json
  | .ok a => f a
  | .error e => clientErrorJson e

/-- A node result in place: its value, or its error object. -/
def rpcAnswer {α : Type} (f : α → Json) : Except RpcError α → Json
  | .ok a => f a
  | .error e => rpcErrorJson e

def statusReplyJson (r : StatusReply) : Json :=
  obj [("slot", Json.nat r.1), ("value", Json.opt ClientForms.signatureStatusJson r.2)]

def nonceReplyJson (r : NonceReply) : Json :=
  obj [("slot", Json.nat r.1), ("value", Json.opt (fun (a : NonceAccount) =>
    obj [("nonce", blockhashJson a.nonce), ("authority", addressJson a.authorizedPubkey),
      ("lamports_per_signature", u64Json a.lamportsPerSignature)]) r.2)]

/-- The calls a node received, as `[t_ms, method, detail]`. -/
def callsJson (n : Node) : Json :=
  .arr (n.calls.toList.map fun c => .arr [Json.nat c.atMs, .str c.method, c.detail])

def hangJson : Json :=
  errorJson "Hang" ("no outcome within " ++ toString (Runtime.horizonMs / 1000) ++ " s of virtual time")

/-- Runs `main` on a node with `script`: the fields `answer` makes of its value, with the node's
calls and unsubscribes once the jobs that are ready have run. -/
def simulate {α : Type} (main : Async α) (script : Script) (answer : α → List (String × Json)) :
    Json :=
  match Runtime.run Runtime.horizonMs main (World.start script) with
  | none => hangJson
  | some (a, s) =>
    obj (answer a ++ [("calls", callsJson s.world.node),
      ("unsubscribes", Json.nat s.world.node.unsubscribed.length)])

/-- A result and the time it came. -/
def timedJson (result : Json) (t : Nat) : Json := obj [("result", result), ("t_ms", Json.nat t)]

end ChainTx.Api
