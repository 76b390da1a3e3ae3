import ChainTx.Transaction.Wire
import ChainTx.Message.Legacy
import ChainTx.Account.Nonce
import ChainTx.Key.Keypair
/-!
# Legacy transactions under construction

A transaction gathers instructions, a fee payer, a blockhash or a durable nonce, and one signature
slot per required signer. Its message is compiled on demand, every time it is needed:

* the accounts of all instructions are merged per key in first-seen order, the fee payer first
  and each program as a read-only non-signer;
* every key holding a signature slot must be among them, and becomes a signer;
* the keys are ordered signers first, then writable ones, ties by base58 text (a stable sort),
  and the fee payer is moved to the front as a writable signer.

Compiling lines the slots up with the message's signers: the slots survive only when they name
exactly the signers, in order; otherwise they are replaced by unsigned slots for the signers.

Operations that fail part way keep the changes they made before failing, so each one gives back
the transaction together with its outcome.
-/

namespace ChainTx

/-- A required signer with its signature, once it has signed. -/
structure SignerSlot where
  pubkey : Address
  signature : Option Signature
  deriving DecidableEq

/-- A legacy transaction under construction. -/
structure Transaction where
  signatures : List SignerSlot
  instructions : List Instruction
  /-- The fee payer set explicitly. -/
  explicitPayer : Option Address
  recentBlockhash : Option Blockhash
  lastValidBlockHeight : Option Nat
  nonceInfo : Option NonceInfo
  minNonceContextSlot : Option Nat
  deriving DecidableEq

/-- An outcome together with the transaction as the operation left it. -/
abbrev TxResult (α : Type) := Transaction × Except SolError α

namespace Transaction

/-- The empty transaction. -/
def empty : Transaction := ⟨[], [], none, none, none, none, none⟩

/-- An empty transaction valid under a blockhash. -/
def withBlockhash (h : Blockhash) (lastValid : Nat) : Transaction :=
  { empty with recentBlockhash := some h, lastValidBlockHeight := some lastValid }

/-- An empty transaction that uses a durable nonce. -/
def withNonce (info : NonceInfo) (minSlot : Nat) : Transaction :=
  { empty with nonceInfo := some info, minNonceContextSlot := some minSlot }

/-- The explicit fee payer, or else the key of the first slot. -/
def feePayer (tx : Transaction) : Option Address :=
  match tx.explicitPayer with
  | some p => some p
  | none => tx.signatures.head?.map (·.pubkey)

/-- The fee payer's signature, which names the transaction. -/
def signature (tx : Transaction) : Option Signature :=
  tx.signatures.head?.bind (·.signature)

/-- Merges an account into the list: a known key gains the roles, a new key goes last. -/
def mergeMeta (metas : List AccountMeta) (m : AccountMeta) : List AccountMeta :=
  if metas.any (·.pubkey == m.pubkey) then
    metas.map fun x =>
      if x.pubkey = m.pubkey then
        { x with isSigner := x.isSigner || m.isSigner, isWritable := x.isWritable || m.isWritable }
      else x
  else metas ++ [m]

/-- The accounts of the fee payer and the instructions, merged per key. -/
def mergedMetas (payer : Address) (ixs : List Instruction) : List AccountMeta :=
  ixs.foldl (fun metas ix =>
      mergeMeta (ix.accounts.foldl mergeMeta metas) ⟨ix.programId, false, false⟩)
    [⟨payer, true, true⟩]

/-- Makes every slot's key a signer; a key not among the accounts fails. -/
def promoteSigners (metas : List AccountMeta) : List SignerSlot → Except SolError (List AccountMeta)
  | [] => .ok metas
  | s :: rest =>
    if metas.any (·.pubkey == s.pubkey) then
      promoteSigners (metas.map fun x => if x.pubkey = s.pubkey then { x with isSigner := true } else x)
        rest
    else .error (.unknownSigner s.pubkey)

/-- Signers first, then writable accounts, ties by base58 text. -/
def metaOrder (a b : AccountMeta) : Ordering :=
  (compare b.isSigner a.isSigner).then ((compare b.isWritable a.isWritable).then
    (Address.compareText a.pubkey b.pubkey))

/-- The header counting signers, read-only signers and read-only non-signers. -/
def headerFor (metas : List AccountMeta) : Except SolError MessageHeader :=
  let count (p : AccountMeta → Bool) : Except SolError UInt8 :=
    let n := (metas.filter p).length
    if n > 255 then .error (.tooManyAccountKeys metas.length) else .ok n.toUInt8
  do
    let nrs ← count (·.isSigner)
    let ros ← count fun m => m.isSigner && !m.isWritable
    let rou ← count fun m => !m.isSigner && !m.isWritable
    pure ⟨nrs, ros, rou⟩

/-- Drops the first account of a key. -/
def dropKey : List AccountMeta → Address → List AccountMeta
  | [], _ => []
  | m :: ms, k => if m.pubkey = k then ms else m :: dropKey ms k

/-- The instructions to compile and the blockhash: a nonce replaces the blockhash and puts its
instruction first unless it already is. -/
def payload (tx : Transaction) : List Instruction × Option Blockhash :=
  match tx.nonceInfo with
  | some info =>
    (if tx.instructions.head? = some info.instruction then tx.instructions
      else info.instruction :: tx.instructions, some info.nonce)
  | none => (tx.instructions, tx.recentBlockhash)

/-- Compiles the instructions into a message, leaving the slots alone. -/
def compileMessage (tx : Transaction) : Except SolError LegacyMessage := do
  let (ixs, blockhash?) := tx.payload
  let blockhash ← match blockhash? with
    | some h => pure h
    | none => throw .recentBlockhashRequired
  let payer ← match tx.feePayer with
    | some p => pure p
    | none => throw .feePayerRequired
  let metas ← promoteSigners (mergedMetas payer ixs) tx.signatures
  let sorted := metas.mergeSort fun a b => metaOrder a b != .gt
  let metas := ⟨payer, true, true⟩ :: dropKey sorted payer
  if metas.length > 256 then throw (.tooManyAccountKeys metas.length)
  let header ← headerFor metas
  let keys := metas.map (·.pubkey)
  let compiled ← (AccountKeys.mk keys none).compileInstructions ixs
  pure ⟨header, keys, blockhash, compiled⟩

/-- Lines the slots up with the signers of a message. -/
def realign (tx : Transaction) (m : LegacyMessage) : Transaction :=
  let signed := m.accountKeys.take m.header.numRequiredSignatures.toNat
  if tx.signatures.map (·.pubkey) = signed then tx
  else { tx with signatures := signed.map fun k => ⟨k, none⟩ }

/-- Compiles and lines the slots up with the message's signers. -/
def compile (tx : Transaction) : TxResult LegacyMessage :=
  match tx.compileMessage with
  | .ok m => (tx.realign m, .ok m)
  | .error e => (tx, .error e)

/-- The bytes that signers sign. -/
def serializeMessage (tx : Transaction) : TxResult (List UInt8) :=
  let (tx, r) := tx.compile
  (tx, r.map LegacyMessage.encode)

/-- Puts a signature into the slot of a key. -/
def setSignature (tx : Transaction) (pubkey : Address) (sig : Signature) :
    Except SolError Transaction :=
  if tx.signatures.any (·.pubkey == pubkey) then
    .ok { tx with signatures := setFirst tx.signatures }
  else .error (.unknownSigner pubkey)
where
  /-- Sets the first slot of the key. -/
  setFirst : List SignerSlot → List SignerSlot
    | [] => []
    | s :: rest => if s.pubkey = pubkey then ⟨pubkey, some sig⟩ :: rest else s :: setFirst rest

/-- The signers, the first of each key kept. -/
def dedupSigners {S : Type} [Signer S] (signers : List S) : List S :=
  go [] signers
where
  /-- Keeps the signers whose key is not yet in `seen`. -/
  go (seen : List Address) : List S → List S
    | [] => []
    | k :: rest =>
      if seen.contains (Signer.pubkey k) then go seen rest
      else k :: go (Signer.pubkey k :: seen) rest

/-- Signs the bytes of a message with each signer in turn, stopping at the first failure: a
signer that cannot sign, or one whose key has no slot. -/
def signWith {S : Type} [Signer S] (tx : Transaction) (data : List UInt8) : List S → TxResult Unit
  | [] => (tx, .ok ())
  | k :: rest =>
    match Signer.trySignMessage k data with
    | .error e => (tx, .error e)
    | .ok sig =>
      match tx.setSignature (Signer.pubkey k) sig with
      | .ok tx => signWith tx data rest
      | .error e => (tx, .error e)

/-- Compiles, then signs with the given signers. -/
def compileAndSign {S : Type} [Signer S] (tx : Transaction) (signers : List S) : TxResult Unit :=
  match tx.compile with
  | (tx, .ok m) => tx.signWith m.encode signers
  | (tx, .error e) => (tx, .error e)

/-- Signs with every given signer, replacing all earlier slots. -/
def sign {S : Type} [Signer S] (tx : Transaction) (signers : List S) : TxResult Unit :=
  let signers := dedupSigners signers
  { tx with signatures := signers.map fun k => ⟨Signer.pubkey k, none⟩ }.compileAndSign signers

/-- Adds signatures of the given signers, keeping the others. -/
def partialSign {S : Type} [Signer S] (tx : Transaction) (signers : List S) : TxResult Unit :=
  tx.compileAndSign (dedupSigners signers)

/-- Attaches a signature made elsewhere. -/
def addSignature (tx : Transaction) (pubkey : Address) (sig : Signature) : TxResult Unit :=
  match tx.compile with
  | (tx, .ok _) =>
    match tx.setSignature pubkey sig with
    | .ok tx => (tx, .ok ())
    | .error e => (tx, .error e)
  | (tx, .error e) => (tx, .error e)

/-- The keys whose signature does not verify, and, when all are required, those not signed. -/
def signednessError (tx : Transaction) (data : List UInt8) (requireAll : Bool) : Option SolError :=
  let invalid := tx.signatures.filterMap fun s =>
    match s.signature with
    | some sig => if s.pubkey.verifies data sig.bytes then none else some s.pubkey
    | none => none
  let missing := if requireAll then
      tx.signatures.filterMap fun s => if s.signature.isNone then some s.pubkey else none
    else []
  if invalid.isEmpty && missing.isEmpty then none
  else some (.signatureVerificationFailed invalid missing)

/-- Whether every present signature verifies and, if required, every signer has signed. -/
def verifySignatures (tx : Transaction) (requireAll : Bool) : TxResult Bool :=
  match tx.serializeMessage with
  | (tx, .ok data) => (tx, .ok (tx.signednessError data requireAll).isNone)
  | (tx, .error e) => (tx, .error e)

/-- The wire bytes, after the checks the flags ask for. -/
def serializeWith (tx : Transaction) (requireAll verify : Bool) : TxResult (List UInt8) :=
  match tx.serializeMessage with
  | (tx, .error e) => (tx, .error e)
  | (tx, .ok data) =>
    let check : Option SolError :=
      if verify then tx.signednessError data requireAll
      else if requireAll then
        let missing := tx.signatures.filterMap fun s =>
          if s.signature.isNone then some s.pubkey else none
        if missing.isEmpty then none else some (.signatureVerificationFailed [] missing)
      else none
    match check with
    | some e => (tx, .error e)
    | none =>
      (tx, TransactionWire.encode (tx.signatures.map fun s => s.signature.getD .zero) data)

/-- Rebuilds a transaction from a compiled message and one signature per required signer; an
all-zero signature is an unsigned slot. -/
def populate (m : LegacyMessage) (sigs : List Signature) : Except SolError Transaction := do
  let expected := m.header.numRequiredSignatures.toNat
  if sigs.length ≠ expected then throw (.signatureCountMismatch expected sigs.length)
  let slots := (sigs.zip m.accountKeys).map fun (s, k) =>
    ⟨k, if s.isEmpty then none else some s⟩
  let signed := slots.map (·.pubkey)
  let keyAt (i : Nat) : Except SolError Address :=
    match m.accountKeys[i]? with
    | some k => .ok k
    | none => .error (.invalidMessage (.accountIndexOutOfRange i))
  let ixs ← m.instructions.mapM fun c => do
    let accounts ← c.accounts.mapM fun i => do
      let k ← keyAt i.toNat
      pure (⟨k, signed.contains k || m.isSigner i.toNat, m.isWritable i.toNat⟩ : AccountMeta)
    let program ← keyAt c.programIdIndex.toNat
    pure (⟨program, accounts, c.data⟩ : Instruction)
  pure { empty with
    recentBlockhash := some m.recentBlockhash
    explicitPayer := if expected > 0 then m.accountKeys.head? else none
    signatures := slots
    instructions := ixs }

/-- Decodes a legacy transaction from wire bytes. -/
def fromWire (bytes : List UInt8) : Except SolError Transaction := do
  let ((sigs, m), rest) ← (do
      let sigs ← TransactionWire.readSignatures
      let m ← LegacyMessage.read
      pure (sigs, m)).run bytes
  MessageWire.expectEnd rest
  populate m sigs

end Transaction

end ChainTx
