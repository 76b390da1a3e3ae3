import ChainTx.Client.BlockhashCache
import ChainTx.Client.Retry
import ChainTx.Transaction.Legacy
/-!
# Connections

A client bound to one node: sending, the blockhash cache and confirmation share it. Each operation
is given the horizon of the run it is part of, which bounds its waiting loops.

A legacy transaction is sent with the cached blockhash, unless it uses a durable nonce, which it
keeps (and it is signed only when signers are given). When its signature was already sent under
that blockhash, the cache is refreshed by force and the transaction signed again, so no two sends
of a connection are the same bytes. Submission takes the connection's commitment for preflight
unless the options name one. Confirmation follows what the transaction carries: the blockhash's
last valid height, else its durable nonce, else a plain timeout.
-/

namespace ChainTx

open Runtime.Prog (now delay update modify read never racing guarded)

/-- A client bound to one node. -/
structure Connection where
  rpc : Rpc
  config : ConnectionConfig

/-- The expiry strategy a transaction's lifetime gives. -/
def strategyFor (tx : Transaction) (sig : Signature) : Except SolError Strategy :=
  match tx.recentBlockhash, tx.lastValidBlockHeight with
  | some _, some h => .ok (.blockHeight sig h)
  | _, _ =>
    match tx.nonceInfo, tx.minNonceContextSlot with
    | some n, some m =>
      match n.instruction.accounts.head? with
      | some a => .ok (.durableNonce sig a.pubkey n.nonce m)
      | none => .error (.invalidInstructionData .nonceWithoutAccounts)
    | _, _ => .ok (.timeout sig)

/-- Rounds of signing before a send gives up looking for a blockhash it has not used. -/
def resignRounds : Nat := 64

namespace Connection

/-- The cached blockhash, refreshed when older than the time to live. -/
def latestBlockhash (horizon : Nat) (c : Connection) (cancel : Nat) :
    Async (Except ClientError LatestBlockhash) :=
  BlockhashCache.getOrRefresh horizon c.rpc c.config.blockhashCacheTtlMs
    c.config.disableBlockhashCaching cancel

/-- Submits wire bytes; the preflight commitment defaults to the connection's. -/
def sendRaw (c : Connection) (wire : List UInt8) (options : SendOptions) (cancel : Nat) :
    Async (Except ClientError Signature) := do
  let options := { options with
    preflightCommitment := some (options.preflightCommitment.getD c.config.commitment) }
  match ← racing cancel (c.rpc.sendRaw wire options) with
  | none => pure (.error .cancelled)
  | some r => pure (r.mapError ClientError.ofRpc)

/-- Sends a signed transaction as it is. -/
def sendVersioned (c : Connection) (tx : VersionedTransaction) (options : SendOptions)
    (cancel : Nat) : Async (Except ClientError Signature) :=
  match tx.serialize with
  | .error e => pure (.error (.sol e))
  | .ok wire => c.sendRaw wire options cancel

/-- Puts the cached blockhash into the transaction and signs it, at most `n` times, until its
signature is one not yet sent. -/
def signFresh (horizon : Nat) (c : Connection) (signers : List Keypair) (cancel : Nat) :
    Nat → Transaction → Bool → Async (Transaction × Except ClientError Unit)
  | 0, _, _ => never
  | n + 1, tx, force => do
    match ← BlockhashCache.getOrRefresh horizon c.rpc c.config.blockhashCacheTtlMs force cancel with
    | .error e => pure (tx, .error e)
    | .ok latest =>
      let tx := { tx with
        recentBlockhash := some latest.blockhash
        lastValidBlockHeight := some latest.lastValidBlockHeight }
      match tx.sign signers with
      | (tx, .error e) => pure (tx, .error (.sol e))
      | (tx, .ok ()) =>
        match tx.signature with
        | none => pure (tx, .error (.sol .feePayerRequired))
        | some sig =>
          if ← BlockhashCache.recordSignature sig then pure (tx, .ok ())
          else signFresh horizon c signers cancel n tx true

/-- Signs and sends a legacy transaction: the transaction as it ends up, and the signature. -/
def sendTransaction (horizon : Nat) (c : Connection) (tx : Transaction) (signers : List Keypair)
    (options : SendOptions) (cancel : Nat) : Async (Transaction × Except ClientError Signature) := do
  let (tx, signed) ← match tx.nonceInfo with
    | some _ =>
      if signers.isEmpty then pure (tx, .ok ())
      else pure (match tx.sign signers with
        | (tx, .ok ()) => (tx, .ok ())
        | (tx, .error e) => (tx, .error (.sol e)))
    | none => c.signFresh horizon signers cancel resignRounds tx c.config.disableBlockhashCaching
  match signed with
  | .error e => pure (tx, .error e)
  | .ok () =>
    match tx.serializeWith true true with
    | (tx, .error e) => pure (tx, .error (.sol e))
    | (tx, .ok wire) => do
      let r ← c.sendRaw wire options cancel
      pure (tx, r)

/-- Waits for a signature with an explicit strategy; the commitment defaults to the
connection's. -/
def confirmTransaction (horizon : Nat) (c : Connection) (strategy : Strategy)
    (commitment : Option Commitment) (cancel : Nat) : Async Outcome :=
  confirm horizon c.rpc c.config.confirmTimeoutMs strategy (commitment.getD c.config.commitment)
    cancel

/-- Sends a transaction and waits for it; a transaction that executed with an error fails. -/
def sendAndConfirm (horizon : Nat) (c : Connection) (tx : Transaction) (signers : List Keypair)
    (options : ConfirmOptions) (cancel : Nat) :
    Async (Transaction × Except ClientError Signature) := do
  let (tx, sent) ← c.sendTransaction horizon tx signers options.send cancel
  match sent with
  | .error e => pure (tx, .error e)
  | .ok sig =>
    match strategyFor tx sig with
    | .error e => pure (tx, .error (.sol e))
    | .ok strategy => do
      match ← c.confirmTransaction horizon strategy options.commitment cancel with
      | .error e => pure (tx, .error e)
      | .ok s =>
        match s.err with
        | some err => pure (tx, .error (.transactionFailed sig err))
        | none => pure (tx, .ok sig)

end Connection

end ChainTx
