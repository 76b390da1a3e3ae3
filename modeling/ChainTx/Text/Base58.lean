import ChainTx.Text.Quoted
/-!
# Base58 text

The Bitcoin alphabet of 58 characters (digits and letters without `0`, `O`, `I`, `l`) writes a
byte string as one number in base 58, most significant digit first, after one `1` for every
leading zero byte. Reading walks the text byte by byte: the first byte above 127 and the first
ASCII character outside the alphabet are refused with their byte index.
-/

namespace ChainTx.Base58

/-- The alphabet, digit value 0 first. -/
def alphabet : List Char :=
  "123456789ABCDEFGHJKLMNPQRSTUVWXYZabcdefghijkmnopqrstuvwxyz".toList

/-- The character of one digit (`d < 58`). -/
def digitChar (d : Nat) : Char := alphabet.getD d '1'

/-- The value of an alphabet character. -/
def digitValue? (c : Char) : Option Nat := alphabet.idxOf? c

/-- The big-endian value of a byte string. -/
def bytesValue (bytes : List UInt8) : Nat :=
  bytes.foldl (fun acc b => acc * 256 + b.toNat) 0

/-- The base-58 digits of a positive number, most significant first (none for zero). -/
def digitsOf (n : Nat) : List Char :=
  if n = 0 then [] else digitsOf (n / 58) ++ [digitChar (n % 58)]
termination_by n
decreasing_by omega

/-- The big-endian bytes of a positive number, without leading zeros (none for zero). -/
def bytesOf (n : Nat) : List UInt8 :=
  if n = 0 then [] else bytesOf (n / 256) ++ [(n % 256).toUInt8]
termination_by n
decreasing_by omega

/-- Base58 text of a byte string. -/
def encode (bytes : List UInt8) : String :=
  let zeros := (bytes.takeWhile (· == 0)).length
  String.ofList (List.replicate zeros '1' ++ digitsOf (bytesValue bytes))

/-- Why a text is no base58 byte string. -/
inductive Error where
  /-- An ASCII character outside the alphabet, at a byte index. -/
  | invalidCharacter (c : Char) (index : Nat)
  /-- A byte above 127, at its byte index. -/
  | nonAscii (index : Nat)
  deriving DecidableEq, Repr

/-- The text of a reading error. -/
def Error.message : Error → String
  | .invalidCharacter c i =>
    s!"provided string contained invalid character {Quoted.char c} at byte {i}"
  | .nonAscii i => s!"provided string contained non-ascii character starting at byte {i}"

/-- Reads the digits from byte index `i` on, accumulating the value. -/
def digitsValue (i : Nat) (acc : Nat) : List UInt8 → Except Error Nat
  | [] => .ok acc
  | b :: rest =>
    if b.toNat > 127 then .error (.nonAscii i)
    else match digitValue? (Char.ofNat b.toNat) with
      | none => .error (.invalidCharacter (Char.ofNat b.toNat) i)
      | some d => digitsValue (i + 1) (acc * 58 + d) rest

/-- Reads base58 text into bytes. -/
def decode (s : String) : Except Error (List UInt8) := do
  let raw := s.toUTF8.toList
  let value ← digitsValue 0 0 raw
  let ones := (raw.takeWhile (· == 49)).length
  pure (List.replicate ones 0 ++ bytesOf value)

end ChainTx.Base58
