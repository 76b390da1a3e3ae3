import ChainTx.Api.Request
/-!
# Answers

Answers are JSON. A failure is the object `{"error": kind, "message": text}`, where the kind of a
library error is the name of its case as the protocol spells it.
-/

namespace ChainTx.Api

/-- The protocol's name of each kind of library error. -/
def SolError.kindName : SolError → String
  | .invalidAddress _ => "InvalidAddress"
  | .invalidSignature _ => "InvalidSignature"
  | .invalidBlockhash _ => "InvalidBlockhash"
  | .invalidPrivateKey _ => "InvalidPrivateKey"
  | .signingError _ => "SigningError"
  | .maxSeedLengthExceeded _ _ => "MaxSeedLengthExceeded"
  | .maxSeedsExceeded _ _ => "MaxSeedsExceeded"
  | .invalidSeeds => "InvalidSeeds"
  | .noViableBump => "NoViableBump"
  | .tooManyAccountKeys _ => "TooManyAccountKeys"
  | .noWritableSigner => "NoWritableSigner"
  | .payerNotFirst => "PayerNotFirst"
  | .accountIndexOverflow => "AccountIndexOverflow"
  | .lookupTableIndexOverflow _ => "LookupTableIndexOverflow"
  | .unknownInstructionKey _ => "UnknownInstructionKey"
  | .feePayerRequired => "FeePayerRequired"
  | .recentBlockhashRequired => "RecentBlockhashRequired"
  | .unknownSigner _ => "UnknownSigner"
  | .transactionTooLarge _ _ => "TransactionTooLarge"
  | .tooManySignatures _ => "TooManySignatures"
  | .signatureCountMismatch _ _ => "SignatureCountMismatch"
  | .signatureVerificationFailed _ _ => "SignatureVerificationFailed"
  | .unexpectedEof _ => "UnexpectedEof"
  | .lengthOverflow => "LengthOverflow"
  | .unsupportedVersion _ => "UnsupportedVersion"
  | .invalidMessage _ => "InvalidMessage"
  | .lookupTableNotFound _ => "LookupTableNotFound"
  | .lookupTableIndexOutOfRange _ _ => "LookupTableIndexOutOfRange"
  | .invalidLookupTable _ => "InvalidLookupTable"
  | .invalidNonceAccount _ => "InvalidNonceAccount"
  | .invalidInstructionData _ => "InvalidInstructionData"

/-- The error object of a kind and a text. -/
def errorJson (kind message : String) : Json :=
  .obj [("error", .str kind), ("message", .str message)]

/-- The error object of a library error. -/
def solErrorJson (e : SolError) : Json := errorJson (SolError.kindName e) e.message

/-- The error object of a failure. -/
def Failure.toJson : Failure → Json
  | .badInput m => errorJson "BadInput" m
  | .sol e => solErrorJson e
  | .unreadable m => errorJson "SerdeError" m

/-- A result in place: its value, or its error object. -/
def answerOf (r : Handler Json) : Json :=
  match r with
  | .ok j => j
  | .error f => f.toJson

/-- A library result in place. -/
def solAnswer {α : Type} (f : α → Json) : Except SolError α → Json
  | .ok a => f a
  | .error e => solErrorJson e

/-- Hexadecimal text as JSON. -/
def hexJson (b : List UInt8) : Json := .str (Hex.encode b)

/-- A 64-bit number as decimal text. -/
def u64Json (n : Nat) : Json := .str (toString n)

def addressJson (a : Address) : Json := .str a.toBase58
def blockhashJson (h : Blockhash) : Json := .str h.toBase58
def signatureJson (s : Signature) : Json := .str s.toBase58

/-- An object; members in any order. -/
def obj (fields : List (String × Json)) : Json := .obj fields

end ChainTx.Api
