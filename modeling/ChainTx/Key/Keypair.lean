import ChainTx.Key.Text
/-!
# Keypairs

A keypair is a 32-byte Ed25519 seed together with its public key, the address it signs for. It
is made from the seed, or from the 64 bytes `seed ‖ public key` (the public half must be a point
and must be the seed's own key), or from the base58 text of those 64 bytes. Signing is
deterministic.

Transactions sign through `Signer`: anything that names its key and can try to sign a message.
A keypair always signs; a hardware or remote signer may fail.
-/

namespace ChainTx

theorem Ed25519.publicKey_length (seed : List UInt8) : (Ed25519.publicKey seed).length = 32 := by
  simp [Ed25519.publicKey, Edwards.Point.compress, Edwards.leBytes]

/-- An Ed25519 keypair. -/
structure Keypair where
  seed : List UInt8
  seed_length : seed.length = 32

namespace Keypair

/-- The address of the public key. -/
def pubkey (k : Keypair) : Address := ⟨Ed25519.publicKey k.seed, Ed25519.publicKey_length k.seed⟩

/-- The keypair of a 32-byte seed. -/
def fromSeed (seed : List UInt8) : Except SolError Keypair :=
  if h : seed.length = 32 then .ok ⟨seed, h⟩
  else .error (.invalidPrivateKey (.seedSize seed.length))

/-- The keypair of the 64 bytes `seed ‖ public key`. -/
def fromBytes (bytes : List UInt8) : Except SolError Keypair :=
  if bytes.length ≠ 64 then .error (.invalidPrivateKey (.secretSize bytes.length))
  else
    let seed := bytes.take 32
    let pub := bytes.drop 32
    if !Ed25519.isPoint pub then .error (.invalidPrivateKey .notAPoint)
    else if Ed25519.publicKey seed ≠ pub then .error (.invalidPrivateKey .mismatched)
    else fromSeed seed

/-- The keypair of the base58 text of its 64 bytes. -/
def fromBase58 (s : String) : Except SolError Keypair :=
  match Base58.decode s with
  | .error e => .error (.invalidPrivateKey (.base58 e))
  | .ok bytes => fromBytes bytes

/-- The 64 bytes `seed ‖ public key`. -/
def toBytes (k : Keypair) : List UInt8 := k.seed ++ k.pubkey.bytes

/-- The signature of a message. -/
def sign (k : Keypair) (msg : List UInt8) : Signature :=
  ⟨Ed25519.sign k.seed msg, by
    simp [Ed25519.sign, Edwards.Point.compress, Edwards.leBytes]⟩

/-- The diagnostic form, which shows the public key only. -/
def debugText (k : Keypair) : String :=
  "Keypair \x7b pubkey: " ++ k.pubkey.debugText ++ ", .. \x7d"

end Keypair

/-- Anything that can produce an Ed25519 signature for an address. -/
class Signer (S : Type) where
  pubkey : S → Address
  trySignMessage : S → List UInt8 → Except SolError Signature

instance : Signer Keypair := ⟨Keypair.pubkey, fun k msg => .ok (k.sign msg)⟩

@[simp] theorem Keypair.signer_pubkey (k : Keypair) : Signer.pubkey k = k.pubkey := rfl

@[simp] theorem Keypair.trySignMessage_eq (k : Keypair) (msg : List UInt8) :
    Signer.trySignMessage k msg = .ok (k.sign msg) := rfl

end ChainTx
