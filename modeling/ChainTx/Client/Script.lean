import ChainTx.Client.Error
import ChainTx.Account.Nonce
/-!
# A scripted node

A node that answers from a script: for each method a list of replies, taken in turn, the last one
repeating for ever. A method with no replies fails with a transport error. A reply may be delayed,
and may be a failure.

A subscription to a signature delivers a list of notifications, each after a wait of its own, and
then either closes or stays silent for ever.
-/

namespace ChainTx

/-- What a transaction's settlement reports: the slot it was seen at and its error, if any. -/
structure Settlement where
  slot : Nat
  err : Option Json

/-- A scripted answer: how long the node takes, and what it answers. -/
structure Reply (α : Type) where
  delayMs : Nat
  result : Except RpcError α

/-- A scripted notification: the wait before it and what it delivers. -/
structure Notification where
  afterMs : Nat
  result : Except RpcError Settlement

/-- The notifications of a subscription, and whether it closes after the last. -/
structure Feed where
  notifications : List Notification
  closes : Bool

/-- An answer about a signature: the slot it was observed at and the status, if any. -/
abbrev StatusReply := Nat × Option SignatureStatus

/-- An answer about a nonce account: the slot it was observed at and the account, if any. -/
abbrev NonceReply := Nat × Option NonceAccount

/-- The replies of each method. -/
structure Script where
  send : List (Reply Unit)
  blockhash : List (Reply LatestBlockhash)
  status : List (Reply StatusReply)
  height : List (Reply Nat)
  nonce : List (Reply NonceReply)
  subscribe : List (Reply Feed)

def Script.empty : Script := ⟨[], [], [], [], [], []⟩

/-- The next reply of a list and what is left: the last reply stays. -/
def takeReply {α : Type} : List α → Option α × List α
  | [] => (none, [])
  | [r] => (some r, [r])
  | r :: rest => (some r, rest)

/-- A call the node received: when, the method, and its arguments. -/
structure CallRecord where
  atMs : Nat
  method : String
  detail : Json

/-- The node: its script, the subscriptions it has opened, and what it has seen. -/
structure Node where
  script : Script
  /-- Subscriptions by number. -/
  feeds : List Feed
  calls : Array CallRecord
  /-- The subscriptions asked to close, by number, in the order asked. -/
  unsubscribed : List Nat

def Node.ofScript (script : Script) : Node := ⟨script, [], #[], []⟩

end ChainTx
