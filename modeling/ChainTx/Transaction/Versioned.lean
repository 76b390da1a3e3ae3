import ChainTx.Transaction.Wire
import ChainTx.Message.V0
import ChainTx.Key.Keypair
/-!
# Versioned transactions

A compiled message of either format with one signature slot per required signer, positionally:
slot `i` belongs to the message's `i`-th signer key. An all-zero signature is an empty slot.
The slots are a plain list that may be shortened, so a signer's slot can be missing.
-/

namespace ChainTx

/-- A message with its signature slots. -/
structure VersionedTransaction where
  signatures : List Signature
  message : VersionedMessage
  deriving DecidableEq

namespace VersionedTransaction

/-- Wraps a message with signatures: none gives empty slots, otherwise one per required
signer. -/
def new (m : VersionedMessage) (sigs : List Signature) : Except SolError VersionedTransaction :=
  let expected := m.header.numRequiredSignatures.toNat
  if sigs.isEmpty then .ok ⟨List.replicate expected .zero, m⟩
  else if sigs.length = expected then .ok ⟨sigs, m⟩
  else .error (.signatureCountMismatch expected sigs.length)

/-- The fee payer's signature. -/
def signature (tx : VersionedTransaction) : Option Signature := tx.signatures.head?

/-- The slot of a signer key. -/
def signerIndex (tx : VersionedTransaction) (pubkey : Address) : Except SolError Nat :=
  let keys := tx.message.signerKeys
  match keys.idxOf? pubkey with
  | none => .error (.unknownSigner pubkey)
  | some i =>
    if i ≥ tx.signatures.length then .error (.signatureCountMismatch keys.length tx.signatures.length)
    else .ok i

/-- Puts a signature into the slot of a key. -/
def addSignature (tx : VersionedTransaction) (pubkey : Address) (sig : Signature) :
    Except SolError VersionedTransaction := do
  let i ← tx.signerIndex pubkey
  pure { tx with signatures := tx.signatures.set i sig }

/-- Signs with each signer in turn: the slot of its key first, then its signature. A failure keeps
the signatures placed before it. -/
def signAll {S : Type} [Signer S] (tx : VersionedTransaction) (data : List UInt8) :
    List S → VersionedTransaction × Except SolError Unit
  | [] => (tx, .ok ())
  | k :: rest =>
    match tx.signerIndex (Signer.pubkey k) with
    | .error e => (tx, .error e)
    | .ok i =>
      match Signer.trySignMessage k data with
      | .error e => (tx, .error e)
      | .ok sig => signAll { tx with signatures := tx.signatures.set i sig } data rest

/-- Signs the message with each of the signers. -/
def sign {S : Type} [Signer S] (tx : VersionedTransaction) (signers : List S) :
    VersionedTransaction × Except SolError Unit :=
  tx.signAll tx.message.encode signers

/-- Wraps a message and signs it. -/
def tryNew {S : Type} [Signer S] (m : VersionedMessage) (signers : List S) :
    Except SolError VersionedTransaction := do
  let tx ← new m []
  match tx.sign signers with
  | (tx, .ok ()) => pure tx
  | (_, .error e) => throw e

/-- Checks every signer's slot: an empty or missing slot is a missing signature. -/
def verifySignatures (tx : VersionedTransaction) : Except SolError Unit :=
  let data := tx.message.encode
  let missing := (tx.message.signerKeys.zipIdx.filterMap fun (k, i) =>
    match tx.signatures[i]? with
    | some s => if s.isEmpty then some k else none
    | none => some k)
  let invalid := (tx.message.signerKeys.zipIdx.filterMap fun (k, i) =>
    match tx.signatures[i]? with
    | some s => if s.isEmpty then none else if k.verifies data s.bytes then none else some k
    | none => none)
  if invalid.isEmpty && missing.isEmpty then .ok ()
  else .error (.signatureVerificationFailed invalid missing)

/-- The wire bytes. -/
def serialize (tx : VersionedTransaction) : Except SolError (List UInt8) :=
  TransactionWire.encode tx.signatures tx.message.encode

/-- Decodes a transaction; the signature count must match the header. -/
def deserialize (bytes : List UInt8) : Except SolError VersionedTransaction := do
  let ((sigs, m), rest) ← (do
      let sigs ← TransactionWire.readSignatures
      let m ← VersionedMessage.read
      pure (sigs, m)).run bytes
  MessageWire.expectEnd rest
  let expected := m.header.numRequiredSignatures.toNat
  if sigs.length ≠ expected then throw (.signatureCountMismatch expected sigs.length)
  pure ⟨sigs, m⟩

end VersionedTransaction

end ChainTx
