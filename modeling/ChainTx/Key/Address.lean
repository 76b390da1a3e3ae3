import ChainTx.Text.Base58
import ChainTx.Crypto.Ed25519
/-!
# Addresses

An address is 32 bytes: an Ed25519 public key, or a value derived to fall off the curve. Its text
is base58. Two orders matter: the order of the raw bytes, and the order of the base58 texts
compared character by character, which the account table uses to sort keys.
-/

namespace ChainTx

/-- A 32-byte account address. -/
structure Address where
  bytes : List UInt8
  size_eq : bytes.length = 32
  deriving DecidableEq

namespace Address

instance : Inhabited Address := ⟨⟨List.replicate 32 0, by simp⟩⟩

/-- The address of 32 bytes. -/
def ofBytes? (b : List UInt8) : Option Address :=
  if h : b.length = 32 then some ⟨b, h⟩ else none

/-- The all-zero address. -/
def zero : Address := ⟨List.replicate 32 0, by simp⟩

/-- Whether every byte is zero. -/
def isDefault (a : Address) : Bool := a.bytes.all (· == 0)

/-- The base58 text. -/
def toBase58 (a : Address) : String := Base58.encode a.bytes

/-- The diagnostic form `Address(<base58>)`. -/
def debugText (a : Address) : String := "Address(" ++ a.toBase58 ++ ")"

/-- Whether the bytes encode a point of the curve. -/
def isOnCurve (a : Address) : Bool := Ed25519.isPoint a.bytes

/-- Whether `sig` (64 bytes) signs `msg` under this address as a public key. -/
def verifies (a : Address) (msg : List UInt8) (sig : List UInt8) : Bool :=
  Ed25519.verify a.bytes msg sig

/-- Lexicographic order of byte lists. -/
def compareBytes : List UInt8 → List UInt8 → Ordering
  | [], [] => .eq
  | [], _ :: _ => .lt
  | _ :: _, [] => .gt
  | x :: xs, y :: ys => if x < y then .lt else if y < x then .gt else compareBytes xs ys

/-- The order of the raw bytes. -/
def compareRaw (a b : Address) : Ordering := compareBytes a.bytes b.bytes

/-- The order of the base58 texts. -/
def compareText (a b : Address) : Ordering := compare a.toBase58 b.toBase58

end Address

end ChainTx
