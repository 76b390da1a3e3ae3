import ChainTx.Key.Address
import ChainTx.Text.Utf8
/-!
# Errors

Every way an operation of the core can fail, as causes. The text of each error is given by
`SolError.message`, the one place where wording lives; the families of causes that share one
kind of error (a malformed message, bad instruction data, a bad key text) carry their own
`message` below it.
-/

namespace ChainTx

/-- Why a text or byte string is no key of the expected size. -/
inductive KeyTextError where
  /-- The text has more bytes than any key's base58 form. -/
  | tooLong (bytes : Nat)
  /-- The text is no base58. -/
  | base58 (e : Base58.Error)
  /-- The bytes have the wrong count. -/
  | wrongSize (expected got : Nat)
  deriving DecidableEq, Repr

def KeyTextError.message : KeyTextError → String
  | .tooLong n => s!"base58 string too long: {n} chars"
  | .base58 e => "base58 decode failed: " ++ e.message
  | .wrongSize e g => s!"expected {e} bytes, got {g}"

/-- Why bytes are no keypair. -/
inductive PrivateKeyError where
  | seedSize (got : Nat)
  | secretSize (got : Nat)
  | base58 (e : Base58.Error)
  /-- The public half is no point of the curve. -/
  | notAPoint
  /-- The public half is not the key of the secret half. -/
  | mismatched
  deriving DecidableEq, Repr

def PrivateKeyError.message : PrivateKeyError → String
  | .seedSize n => s!"seed must be 32 bytes, got {n}"
  | .secretSize n => s!"secret key must be 64 bytes, got {n}"
  | .base58 e => "base58 decode failed: " ++ e.message
  | .notAPoint => "signature error: Cannot decompress Edwards point"
  | .mismatched => "signature error: Mismatched Keypair detected"

/-- Why a message is malformed or cannot be used. -/
inductive MessageError where
  | trailingBytes (n : Nat)
  | tooFewKeys (signers keys : Nat)
  | noWritableSigner
  | readonlyUnsignedExceeds
  | indexOutOfRange (total : Nat)
  | legacyNotVersioned
  | lookupCountMismatch (expected got : Nat)
  | lookupsUnresolved
  | invalidHeader
  | noAccountKeys
  | missingAccountKey (index : Nat)
  | missingProgramId (index : Nat)
  | accountIndexOutOfRange (index : Nat)
  deriving DecidableEq, Repr

def MessageError.message : MessageError → String
  | .trailingBytes n => s!"{n} trailing bytes after message"
  | .tooFewKeys s k => s!"header requires {s} signatures but only {k} keys are present"
  | .noWritableSigner => "message has no writable signer"
  | .readonlyUnsignedExceeds => "readonly unsigned count exceeds unsigned keys"
  | .indexOutOfRange t => s!"instruction index out of range for {t} account keys"
  | .legacyNotVersioned => "expected a versioned message but found a legacy message"
  | .lookupCountMismatch e g => s!"expected {e} account keys from lookups, got {g}"
  | .lookupsUnresolved => "address table lookups were not resolved"
  | .invalidHeader => "message header is invalid"
  | .noAccountKeys => "no account keys found to decompile"
  | .missingAccountKey i => s!"failed to find key for account key index {i}"
  | .missingProgramId i => s!"failed to find program id for program id index {i}"
  | .accountIndexOutOfRange i => s!"account index {i} out of range"

/-- Why instruction data cannot be read. -/
inductive InstructionDataError where
  | unknownSystem (tag : Nat)
  | seedNotUtf8 (e : Utf8.Error)
  | memoNotUtf8 (e : Utf8.Error)
  | unknownBudget (tag : Nat)
  | nonceWithoutAccounts
  deriving DecidableEq, Repr

def InstructionDataError.message : InstructionDataError → String
  | .unknownSystem t => s!"unknown system instruction {t}"
  | .seedNotUtf8 e => "seed is not UTF-8: " ++ e.message
  | .memoNotUtf8 e => "memo is not UTF-8: " ++ e.message
  | .unknownBudget t => s!"unknown compute budget instruction {t}"
  | .nonceWithoutAccounts => "advance nonce instruction has no accounts"

/-- Why account data is no lookup table. -/
inductive LookupTableError where
  | tooShort (len : Nat)
  | misaligned (regionLen : Nat)
  | badAuthorityTag (tag : Nat)
  deriving DecidableEq, Repr

def LookupTableError.message : LookupTableError → String
  | .tooShort n => s!"account data too short: {n} < 56"
  | .misaligned n => s!"address region of {n} bytes is not a multiple of 32"
  | .badAuthorityTag t => s!"invalid authority option tag {t}"

/-- The errors of the core. -/
inductive SolError where
  | invalidAddress (e : KeyTextError)
  | invalidSignature (e : KeyTextError)
  | invalidBlockhash (e : KeyTextError)
  | invalidPrivateKey (e : PrivateKeyError)
  | signingError (message : String)
  | maxSeedLengthExceeded (len max : Nat)
  | maxSeedsExceeded (len max : Nat)
  | invalidSeeds
  | noViableBump
  | tooManyAccountKeys (n : Nat)
  | noWritableSigner
  | payerNotFirst
  | accountIndexOverflow
  | lookupTableIndexOverflow (index : Nat)
  | unknownInstructionKey (key : Address)
  | feePayerRequired
  | recentBlockhashRequired
  | unknownSigner (key : Address)
  | transactionTooLarge (size max : Nat)
  | tooManySignatures (n : Nat)
  | signatureCountMismatch (expected actual : Nat)
  | signatureVerificationFailed (invalid missing : List Address)
  | unexpectedEof (field : String)
  | lengthOverflow
  | unsupportedVersion (version : Nat)
  | invalidMessage (e : MessageError)
  | lookupTableNotFound (table : Address)
  | lookupTableIndexOutOfRange (table : Address) (index : Nat)
  | invalidLookupTable (e : LookupTableError)
  | invalidNonceAccount (len : Nat)
  | invalidInstructionData (e : InstructionDataError)
  deriving DecidableEq

/-- The keys of a verification report, each between backquotes, with the plural mark. -/
def keyListText (keys : List Address) : String :=
  (if keys.length = 1 then "" else "(s)") ++ " [`" ++
    "`, `".intercalate (keys.map Address.toBase58) ++ "`]."

/-- The report of a failed signature check: the keys with a wrong signature, then those with
none. -/
def verificationText (invalid missing : List Address) : String :=
  "Signature verification failed." ++
    (if invalid.isEmpty then "" else "\nInvalid signature for public key" ++ keyListText invalid) ++
    (if missing.isEmpty then "" else "\nMissing signature for public key" ++ keyListText missing)

/-- The text of an error. -/
def SolError.message : SolError → String
  | .invalidAddress e => "invalid address: " ++ e.message
  | .invalidSignature e => "invalid signature: " ++ e.message
  | .invalidBlockhash e => "invalid blockhash: " ++ e.message
  | .invalidPrivateKey e => "invalid private key: " ++ e.message
  | .signingError msg => "signing error: " ++ msg
  | .maxSeedLengthExceeded l m => s!"max seed length exceeded: {l} > {m}"
  | .maxSeedsExceeded l m => s!"max seeds exceeded: {l} > {m}"
  | .invalidSeeds => "invalid seeds, address must fall off the curve"
  | .noViableBump => "unable to find a viable program address bump seed"
  | .tooManyAccountKeys n => s!"max static account keys length exceeded: {n} > 256"
  | .noWritableSigner => "expected at least one writable signer key"
  | .payerNotFirst => "expected first writable signer key to be the fee payer"
  | .accountIndexOverflow => "account index overflow encountered during compilation"
  | .lookupTableIndexOverflow i => s!"max lookup table index exceeded: {i}"
  | .unknownInstructionKey k =>
    "encountered an unknown instruction account key during compilation: " ++ k.toBase58
  | .feePayerRequired => "transaction fee payer required"
  | .recentBlockhashRequired => "transaction recent blockhash required"
  | .unknownSigner k => "unknown signer: " ++ k.toBase58
  | .transactionTooLarge s m => s!"transaction too large: {s} > {m}"
  | .tooManySignatures n => s!"too many signatures: {n}"
  | .signatureCountMismatch e a => s!"expected {e} signatures, got {a}"
  | .signatureVerificationFailed inv miss => verificationText inv miss
  | .unexpectedEof f => "unexpected end of data while decoding " ++ f
  | .lengthOverflow => "short-vec length overflow"
  | .unsupportedVersion v => s!"unsupported message version: {v}"
  | .invalidMessage e => "invalid message: " ++ e.message
  | .lookupTableNotFound t =>
    "failed to find address lookup table account for table key " ++ t.toBase58
  | .lookupTableIndexOutOfRange t i =>
    s!"failed to find address for index {i} in address lookup table " ++ t.toBase58
  | .invalidLookupTable e => "invalid address lookup table: " ++ e.message
  | .invalidNonceAccount n => s!"invalid nonce account: expected 80 bytes, got {n}"
  | .invalidInstructionData e => "invalid instruction data: " ++ e.message

end ChainTx
