import ChainTx.Text.Base58
/-!
# Signatures

A signature is 64 bytes, `R ‖ S` of Ed25519; its text is base58. The all-zero signature stands
for a slot that has not been signed.
-/

namespace ChainTx

/-- A 64-byte signature. -/
structure Signature where
  bytes : List UInt8
  size_eq : bytes.length = 64
  deriving DecidableEq

namespace Signature

instance : Inhabited Signature := ⟨⟨List.replicate 64 0, by simp⟩⟩

/-- The signature of 64 bytes. -/
def ofBytes? (b : List UInt8) : Option Signature :=
  if h : b.length = 64 then some ⟨b, h⟩ else none

/-- The all-zero signature. -/
def zero : Signature := ⟨List.replicate 64 0, by simp⟩

/-- Whether every byte is zero. -/
def isEmpty (s : Signature) : Bool := s.bytes.all (· == 0)

/-- The base58 text. -/
def toBase58 (s : Signature) : String := Base58.encode s.bytes

/-- The diagnostic form `Signature(<base58>)`. -/
def debugText (s : Signature) : String := "Signature(" ++ s.toBase58 ++ ")"

end Signature

end ChainTx
