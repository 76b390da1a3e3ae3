/-!
# Hexadecimal text

Byte strings are written two lowercase digits a byte, high nibble first, with no prefix.

Reading refuses, before looking at any pair, a text that is not ASCII or has an odd length.
Each pair of characters is then read as a base-16 numeral of the byte: two digits of either
case, or a plus sign followed by one digit. The first pair that is neither is refused.
-/

namespace ChainTx.Hex

/-- The digit that writes a nibble (`n < 16`), lowercase. -/
def digit (n : Nat) : Char :=
  if n < 10 then Char.ofNat (48 + n) else Char.ofNat (87 + n)

/-- The two digits of one byte. -/
def byteDigits (b : UInt8) : List Char :=
  [digit (b.toNat / 16), digit (b.toNat % 16)]

/-- Lowercase hexadecimal text of a byte string. -/
def encode (bytes : List UInt8) : String :=
  String.ofList (bytes.flatMap byteDigits)

/-- The value of one hexadecimal digit, in either case. -/
def digitValue? (c : Char) : Option Nat :=
  if '0' ≤ c ∧ c ≤ '9' then some (c.toNat - 48)
  else if 'a' ≤ c ∧ c ≤ 'f' then some (c.toNat - 87)
  else if 'A' ≤ c ∧ c ≤ 'F' then some (c.toNat - 55)
  else none

/-- Why a text is no hexadecimal byte string. -/
inductive Error where
  | oddLength
  | badDigit
  deriving DecidableEq, Repr

/-- The text of a reading error. -/
def Error.message : Error → String
  | .oddLength => "odd hex length"
  | .badDigit => "bad hex"

/-- The byte a pair of characters stands for: two digits, or a plus sign and one digit. -/
def pairValue? (h l : Char) : Option Nat :=
  if h = '+' then digitValue? l
  else do
    let hi ← digitValue? h
    let lo ← digitValue? l
    pure (hi * 16 + lo)

/-- Reads pairs of characters. -/
def decodePairs : List Char → Option (List UInt8)
  | [] => some []
  | [_] => none
  | h :: l :: rest => do
    let v ← pairValue? h l
    let tail ← decodePairs rest
    pure (v.toUInt8 :: tail)

/-- Reads a hexadecimal byte string. -/
def decode (s : String) : Except Error (List UInt8) :=
  if !s.toList.all (·.toNat < 128) || s.length % 2 = 1 then .error .oddLength
  else match decodePairs s.toList with
    | some bytes => .ok bytes
    | none => .error .badDigit

end ChainTx.Hex
