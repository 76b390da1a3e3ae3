import ChainTx.Client.Rpc
import ChainTx.Error
/-!
# Client errors

Failures reported by a node or on the way to it, transactions that can no longer be confirmed,
and the errors of the client as a whole. Transport failures and rate limiting are worth
retrying; every other failure is a definitive answer.
-/

namespace ChainTx

/-- A failure reported by, or on the way to, a node. -/
inductive RpcError where
  | transport (message : String)
  | rateLimited (retryAfterMs : Option Nat)
  /-- An error object of the RPC protocol. -/
  | response (code : Int) (message : String)
  /-- A rejected submission, usually by preflight simulation, with its logs. -/
  | sendTransaction (message : String) (logs : List String)
  | subscriptionClosed
  | cancelled

namespace RpcError

def message : RpcError → String
  | .transport m => "transport error: " ++ m
  | .rateLimited _ => "rate limited by RPC node"
  | .response c m => "RPC error " ++ toString c ++ ": " ++ m
  | .sendTransaction m logs => m ++ (if logs.isEmpty then "" else "\n" ++ "\n".intercalate logs)
  | .subscriptionClosed => "signature subscription closed"
  | .cancelled => "RPC request cancelled"

def isRetryable : RpcError → Bool
  | .transport _ | .rateLimited _ => true
  | _ => false

end RpcError

/-- A transaction that can no longer be confirmed. -/
inductive TransactionExpired where
  | timeout (signature : Signature) (timeoutMs : Nat)
  | blockheightExceeded (signature : Signature)
  | nonceInvalid (signature : Signature)

namespace TransactionExpired

def signature : TransactionExpired → Signature
  | .timeout s _ | .blockheightExceeded s | .nonceInvalid s => s

def message : TransactionExpired → String
  | .timeout s ms => "Transaction was not confirmed in " ++ toString (ms / 1000) ++
      " seconds. It is unknown if it succeeded or failed. Check signature `" ++ s.toBase58 ++
      "` using the Solana Explorer or CLI tools"
  | .blockheightExceeded s => "Signature " ++ s.toBase58 ++ " has expired: block height exceeded."
  | .nonceInvalid s => "Signature " ++ s.toBase58 ++ " has expired: the nonce is no longer valid."

end TransactionExpired

/-- The errors of the client. -/
inductive ClientError where
  | rpc (e : RpcError)
  | expired (e : TransactionExpired)
  | cancelled
  | blockhashStale (attempts : Nat) (elapsedMs : Nat)
  | transactionFailed (signature : Signature) (err : Json)
  | sol (e : SolError)

namespace ClientError

/-- A node's failure as a client error; a cancelled call is the client's cancellation. -/
def ofRpc : RpcError → ClientError
  | .cancelled => .cancelled
  | e => .rpc e

def message : ClientError → String
  | .rpc e => e.message
  | .expired e => e.message
  | .cancelled => "operation cancelled"
  | .blockhashStale n ms =>
    "unable to obtain a new blockhash after " ++ toString n ++ " attempts (" ++ toString ms ++ "ms)"
  | .transactionFailed s err => "transaction " ++ s.toBase58 ++ " failed: " ++ err.render
  | .sol e => e.message

end ClientError

end ChainTx
