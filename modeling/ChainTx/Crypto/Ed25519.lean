import ChainTx.Crypto.Edwards
import ChainTx.Crypto.Sha512
/-!
# Ed25519 signatures

The signature scheme of RFC 8032. A 32-byte seed is hashed with SHA-512; the first half, clamped,
is the secret scalar `a` and the second half the nonce prefix. The public key is `[a]B`. A
signature of `M` is `R ‖ S` with `r = H(prefix ‖ M)`, `R = [r]B`, `k = H(R ‖ A ‖ M)` and
`S = r + k a` modulo the group order `ℓ`.

Verification is the cofactorless check: `S` must be below `ℓ`, the public key must be a point,
and `[S]B - [k]A` must encode to exactly the bytes `R`, with `k` hashed over the public key's
bytes as given.
-/

namespace ChainTx.Ed25519

open Edwards

/-- The order `ℓ` of the base point. -/
def groupOrder : Nat := Nat.pow 2 252 + 27742317777372353535851937790883648493

/-- The secret scalar of a seed: the low half of its hash, clamped. -/
def secretScalar (seed : List UInt8) : Nat :=
  let v := leValue ((Sha512.hash seed).take 32)
  (v % Nat.pow 2 254 - v % 8) + Nat.pow 2 254

/-- The nonce prefix of a seed: the high half of its hash. -/
def noncePrefix (seed : List UInt8) : List UInt8 := (Sha512.hash seed).drop 32

/-- A hash read as a scalar modulo `ℓ`. -/
def hashScalar (bytes : List UInt8) : Nat := leValue (Sha512.hash bytes) % groupOrder

/-- The 32-byte public key of a seed. -/
def publicKey (seed : List UInt8) : List UInt8 :=
  (basepoint.smul (secretScalar seed)).compress

/-- The 64-byte signature of a message under a seed. -/
def sign (seed : List UInt8) (msg : List UInt8) : List UInt8 :=
  let a := secretScalar seed
  let pub := publicKey seed
  let r := hashScalar (noncePrefix seed ++ msg)
  let rBytes := (basepoint.smul r).compress
  let k := hashScalar (rBytes ++ pub ++ msg)
  rBytes ++ leBytes 32 ((r + k * a) % groupOrder)

/-- Whether 32 bytes encode a point. -/
def isPoint (bytes : List UInt8) : Bool := (decompress? bytes).isSome

/-- Whether `sig` is a signature of `msg` under the public key `pub`. -/
def verify (pub : List UInt8) (msg : List UInt8) (sig : List UInt8) : Bool :=
  match decompress? pub with
  | none => false
  | some A =>
    let rBytes := sig.take 32
    let s := leValue (sig.drop 32)
    if s ≥ groupOrder then false
    else
      let k := hashScalar (rBytes ++ pub ++ msg)
      ((basepoint.smul s).add (A.neg.smul k)).compress == rBytes

end ChainTx.Ed25519
