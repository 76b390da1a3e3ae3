import ChainTx.Client.World
import ChainTx.Client.Forms
import ChainTx.Transaction.Versioned
import ChainTx.Text.Hex
/-!
# Talking to a node

`Rpc` is what the client needs from a node: submit a transaction, read the latest blockhash, a
signature's status, the block height and a nonce account, and subscribe to a signature. The
scripted node answers each call with the next reply of its script, after the reply's delay; it
records every call with the time it came. A submission is decoded as a transaction and answered
with its first signature.

A subscription is read and closed through the node that opened it, whatever wraps that node.
-/

namespace ChainTx

open Runtime.Prog (now delay update modify never)

/-- What the client needs from a node. -/
structure Rpc where
  sendRaw : List UInt8 → SendOptions → Async (Except RpcError Signature)
  latestBlockhash : Commitment → Async (Except RpcError LatestBlockhash)
  signatureStatus : Signature → Async (Except RpcError StatusReply)
  blockHeight : Commitment → Async (Except RpcError Nat)
  nonceAccount : Address → Commitment → Option Nat → Async (Except RpcError NonceReply)
  /-- Opens a subscription to a signature: its number. -/
  subscribe : Signature → Commitment → Async (Except RpcError Nat)

namespace Node

/-- Records a call. -/
def record (n : Node) (atMs : Nat) (method : String) (detail : Json) : Node :=
  { n with calls := n.calls.push ⟨atMs, method, detail⟩ }

/-- Answers a call with the next reply of its method, after the reply's delay. -/
def answer {α : Type} (method : String) (detail : Json) (replies : Script → List (Reply α))
    (keep : Script → List (Reply α) → Script) : Async (Except RpcError α) := do
  let t ← now
  let next ← update fun w =>
    let (r, rest) := takeReply (replies w.node.script)
    let node := { w.node with script := keep w.node.script rest }
    ({ w with node := node.record t method detail }, r)
  match next with
  | none => pure (.error (.transport ("unscripted " ++ method)))
  | some r => do
    delay r.delayMs
    pure r.result

/-- The first signature of a submitted transaction, as the node reads it. -/
def accept (wire : List UInt8) : Except RpcError Signature :=
  match VersionedTransaction.deserialize wire with
  | .error e => .error (.response (-32602) e.message)
  | .ok tx =>
    match tx.signatures with
    | s :: _ => .ok s
    | [] => .error (.response (-32602) "transaction has no signatures")

def sendRaw (wire : List UInt8) (options : SendOptions) : Async (Except RpcError Signature) := do
  let detail := Json.mkObj [("wire", .str (Hex.encode wire)),
    ("options", ClientForms.sendOptionsJson options)]
  let r ← answer "send" detail (·.send) fun s l => { s with send := l }
  pure (r.bind fun _ => accept wire)

def latestBlockhash (c : Commitment) : Async (Except RpcError LatestBlockhash) :=
  answer "blockhash" (.str c.name) (·.blockhash) fun s l => { s with blockhash := l }

def signatureStatus (sig : Signature) : Async (Except RpcError StatusReply) :=
  answer "status" (.str sig.toBase58) (·.status) fun s l => { s with status := l }

def blockHeight (c : Commitment) : Async (Except RpcError Nat) :=
  answer "height" (.str c.name) (·.height) fun s l => { s with height := l }

def nonceAccount (address : Address) (c : Commitment) (minContextSlot : Option Nat) :
    Async (Except RpcError NonceReply) :=
  let detail := Json.mkObj [("address", .str address.toBase58), ("commitment", .str c.name),
    ("min_context_slot", Json.opt Json.nat minContextSlot)]
  answer "nonce" detail (·.nonce) fun s l => { s with nonce := l }

def subscribe (sig : Signature) (c : Commitment) : Async (Except RpcError Nat) := do
  let detail := Json.mkObj [("signature", .str sig.toBase58), ("commitment", .str c.name)]
  let r ← answer "subscribe" detail (·.subscribe) fun s l => { s with subscribe := l }
  match r with
  | .error e => pure (.error e)
  | .ok feed =>
    update fun w =>
      ({ w with node := { w.node with feeds := w.node.feeds ++ [feed] } }, .ok w.node.feeds.length)

/-- What a subscription does next. -/
inductive Next where
  | deliver (n : Notification)
  | closed
  | silent

/-- Takes the next notification of a subscription. -/
def nextOf (w : World) (sub : Nat) : World × Next :=
  match w.node.feeds[sub]? with
  | none => (w, .closed)
  | some f =>
    match f.notifications with
    | n :: rest =>
      let feeds := w.node.feeds.set sub { f with notifications := rest }
      ({ w with node := { w.node with feeds := feeds } }, .deliver n)
    | [] => (w, if f.closes then .closed else .silent)

/-- The next notification of a subscription, after its wait; none once the subscription has
closed. A silent subscription never answers. -/
def recv (sub : Nat) : Async (Option (Except RpcError Settlement)) := do
  match ← update fun w => nextOf w sub with
  | .deliver n => do
    delay n.afterMs
    pure (some n.result)
  | .closed => pure none
  | .silent => never

def unsubscribe (sub : Nat) : Async Unit := do
  let t ← now
  modify fun w =>
    { w with node := { w.node.record t "unsubscribe" .null with
      unsubscribed := w.node.unsubscribed ++ [sub] } }

end Node

/-- The scripted node. -/
def Rpc.scripted : Rpc :=
  ⟨Node.sendRaw, Node.latestBlockhash, Node.signatureStatus, Node.blockHeight, Node.nonceAccount,
    Node.subscribe⟩

end ChainTx
