import ChainTx.Error
import ChainTx.Key.Blockhash
import ChainTx.Key.Signature
/-!
# Reading keys

Addresses, blockhashes and signatures are read from base58 text or taken from raw bytes. An
address text longer than 44 bytes, the longest base58 form of 32 bytes, is refused before it is
decoded; the other two are decoded first and then their byte count is checked.
-/

namespace ChainTx

/-- The longest base58 text of an address. -/
def Address.maxTextLength : Nat := 44

/-- The address of a byte string of length 32. -/
def Address.fromSlice (b : List UInt8) : Except SolError Address :=
  match Address.ofBytes? b with
  | some a => .ok a
  | none => .error (.invalidAddress (.wrongSize 32 b.length))

/-- Reads an address from base58 text. -/
def Address.parse (s : String) : Except SolError Address :=
  if s.utf8ByteSize > Address.maxTextLength then .error (.invalidAddress (.tooLong s.utf8ByteSize))
  else match Base58.decode s with
    | .error e => .error (.invalidAddress (.base58 e))
    | .ok b => Address.fromSlice b

/-- The blockhash of a byte string of length 32. -/
def Blockhash.fromSlice (b : List UInt8) : Except SolError Blockhash :=
  match Blockhash.ofBytes? b with
  | some h => .ok h
  | none => .error (.invalidBlockhash (.wrongSize 32 b.length))

/-- Reads a blockhash from base58 text. -/
def Blockhash.parse (s : String) : Except SolError Blockhash :=
  match Base58.decode s with
  | .error e => .error (.invalidBlockhash (.base58 e))
  | .ok b => Blockhash.fromSlice b

/-- The signature of a byte string of length 64. -/
def Signature.fromSlice (b : List UInt8) : Except SolError Signature :=
  match Signature.ofBytes? b with
  | some s => .ok s
  | none => .error (.invalidSignature (.wrongSize 64 b.length))

/-- Reads a signature from base58 text. -/
def Signature.parse (s : String) : Except SolError Signature :=
  match Base58.decode s with
  | .error e => .error (.invalidSignature (.base58 e))
  | .ok b => Signature.fromSlice b

end ChainTx
