import ChainTx.Error
/-!
# Compact lengths

A length is written in groups of seven bits, least significant first, every group but the last
with its top bit set. Reading accepts at most five groups and a value below `2^32`; it accepts
groups of zero at the end (a longer form than needed), ignores what follows the last group, and
reports a text that ends inside the groups as running out of data.
-/

namespace ChainTx.ShortVec

/-- The groups of a length. -/
def encode (n : Nat) : List UInt8 :=
  if n < 128 then [n.toUInt8] else (n % 128 + 128).toUInt8 :: encode (n / 128)
termination_by n
decreasing_by omega

/-- A byte string prefixed with its length. -/
def encodeBytes (bytes : List UInt8) : List UInt8 := encode bytes.length ++ bytes

/-- The most groups a length may take. -/
def maxGroups : Nat := 5

/-- Reads groups from group index `i` on, the value so far `acc`; gives the value and the number
of bytes read. -/
def decodeFrom (i : Nat) (acc : Nat) : List UInt8 → Except SolError (Nat × Nat)
  | [] => .error (.unexpectedEof "short-vec length")
  | b :: rest =>
    if i ≥ maxGroups then .error .lengthOverflow
    else
      let acc := acc + b.toNat % 128 * Nat.pow 2 (7 * i)
      if b.toNat < 128 then
        if acc < Nat.pow 2 32 then .ok (acc, i + 1) else .error .lengthOverflow
      else decodeFrom (i + 1) acc rest

/-- Reads a length at the front of a byte string: its value and how many bytes it took. -/
def decode (bytes : List UInt8) : Except SolError (Nat × Nat) := decodeFrom 0 0 bytes

end ChainTx.ShortVec
