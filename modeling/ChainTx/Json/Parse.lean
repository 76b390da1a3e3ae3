import ChainTx.Json.Value
/-!
# Reading JSON text

A recursive-descent reader of RFC 8259 text that stops at the first error and reports where it
found it: the line, counted from 1, and the column, counted in bytes of the UTF-8 text on that
line. An error found at a character is placed at that character's first byte; one found after
reading is placed after the last byte read; a position just after a newline is column 0 of the
next line.

Containers nest at most 127 deep: the 128th opening bracket is an error at that bracket.

Numbers. An integer literal without fraction or exponent is exact while it is a 64-bit word: in
`[0, 2^64)`, or in `[-2^63, -1]` with a minus sign (minus zero is the binary64 zero). Any other
literal is a binary64 value, obtained by a fixed procedure rather than by exact rounding:

* digits go into a 64-bit significand as long as the next one fits; after that, further integer
  digits each raise the decimal exponent by one, and further fraction digits are dropped (a
  fraction after an overlong integer still takes the digits that fit);
* the significand is rounded to binary64 and multiplied or divided once by the binary64 value
  nearest to the power of ten, the product or quotient rounded again; an exponent past 308 is
  first brought down by dividing by `10^308`;
* a result past the largest finite value is an error, as is an exponent of more than nine digits
  with a non-zero significand and no minus sign; with a minus sign it gives zero.
-/

namespace ChainTx.Json

open Decimal (Binary64)

/-! ## Errors and positions -/

/-- What the reader found wrong. -/
inductive SyntaxCode where
  | eofWhileParsingList
  | eofWhileParsingObject
  | eofWhileParsingString
  | eofWhileParsingValue
  | expectedColon
  | expectedListCommaOrEnd
  | expectedObjectCommaOrEnd
  | expectedSomeIdent
  | expectedSomeValue
  | invalidEscape
  | invalidNumber
  | numberOutOfRange
  | controlCharacterWhileParsingString
  | keyMustBeAString
  | loneLeadingSurrogateInHexEscape
  | trailingComma
  | trailingCharacters
  | unexpectedEndOfHexEscape
  | recursionLimitExceeded
  deriving DecidableEq, Repr

def SyntaxCode.message : SyntaxCode → String
  | .eofWhileParsingList => "EOF while parsing a list"
  | .eofWhileParsingObject => "EOF while parsing an object"
  | .eofWhileParsingString => "EOF while parsing a string"
  | .eofWhileParsingValue => "EOF while parsing a value"
  | .expectedColon => "expected `:`"
  | .expectedListCommaOrEnd => "expected `,` or `]`"
  | .expectedObjectCommaOrEnd => "expected `,` or `\x7d`"
  | .expectedSomeIdent => "expected ident"
  | .expectedSomeValue => "expected value"
  | .invalidEscape => "invalid escape"
  | .invalidNumber => "invalid number"
  | .numberOutOfRange => "number out of range"
  | .controlCharacterWhileParsingString =>
    "control character (\\u0000-\\u001F) found while parsing a string"
  | .keyMustBeAString => "key must be a string"
  | .loneLeadingSurrogateInHexEscape => "lone leading surrogate in hex escape"
  | .trailingComma => "trailing comma"
  | .trailingCharacters => "trailing characters"
  | .unexpectedEndOfHexEscape => "unexpected end of hex escape"
  | .recursionLimitExceeded => "recursion limit exceeded"

/-- An error with the line and the byte column where it was found. -/
structure SyntaxError where
  code : SyntaxCode
  line : Nat
  column : Nat
  deriving DecidableEq, Repr

def SyntaxError.message (e : SyntaxError) : String :=
  e.code.message ++ " at line " ++ toString e.line ++ " column " ++ toString e.column

/-- The text not yet read, with the position after what was read: the line, and the bytes read
on it. -/
structure Cursor where
  rest : List Char
  line : Nat
  column : Nat

namespace Cursor

/-- The cursor at the start of a text. -/
def start (s : String) : Cursor := ⟨s.toList, 1, 0⟩

/-- Reads one character. -/
def advance (c : Cursor) : Cursor :=
  match c.rest with
  | [] => c
  | ch :: r => if ch = '\n' then ⟨r, c.line + 1, 0⟩ else ⟨r, c.line, c.column + ch.utf8Size⟩

/-- Reads `k` characters known to be ASCII and not newlines. -/
def skipAscii (c : Cursor) (k : Nat) : Cursor := ⟨c.rest.drop k, c.line, c.column + k⟩

/-- An error placed after what was read. -/
def here (c : Cursor) (code : SyntaxCode) : SyntaxError := ⟨code, c.line, c.column⟩

/-- An error placed at the next character, after its first byte; at the end of the text, there. -/
def atNext (c : Cursor) (code : SyntaxCode) : SyntaxError :=
  match c.rest with
  | [] => ⟨code, c.line, c.column⟩
  | '\n' :: _ => ⟨code, c.line + 1, 0⟩
  | _ :: _ => ⟨code, c.line, c.column + 1⟩

/-- The line and column after reading characters. -/
def positionAfter (line column : Nat) (cs : List Char) : Nat × Nat :=
  cs.foldl (fun (p : Nat × Nat) ch => if ch = '\n' then (p.1 + 1, 0) else (p.1, p.2 + ch.utf8Size))
    (line, column)

/-- An error placed at the end of the text. -/
def atEnd (c : Cursor) (code : SyntaxCode) : SyntaxError :=
  let (line, column) := positionAfter c.line c.column c.rest
  ⟨code, line, column⟩

/-- The line and column after `n` more bytes; a character cut short counts the bytes read. -/
def afterBytes (line column : Nat) : Nat → List Char → Nat × Nat
  | 0, _ => (line, column)
  | _, [] => (line, column)
  | n + 1, ch :: r =>
    if ch = '\n' then afterBytes (line + 1) 0 n r
    else if ch.utf8Size ≤ n + 1 then afterBytes line (column + ch.utf8Size) (n + 1 - ch.utf8Size) r
    else (line, column + n + 1)

/-- The bytes not yet read. -/
def bytesLeft (c : Cursor) : Nat := c.rest.foldl (fun n ch => n + ch.utf8Size) 0

end Cursor

/-- Characters that separate tokens. -/
def isSpace (c : Char) : Bool := c = ' ' || c = '\n' || c = '\r' || c = '\t'

/-- Reads whitespace. -/
def spaceFrom : List Char → Nat → Nat → Cursor
  | [], line, column => ⟨[], line, column⟩
  | ch :: r, line, column =>
    if ch = '\n' then spaceFrom r (line + 1) 0
    else if isSpace ch then spaceFrom r line (column + 1)
    else ⟨ch :: r, line, column⟩

def Cursor.skipSpace (c : Cursor) : Cursor := spaceFrom c.rest c.line c.column

/-! ## Strings -/

/-- The value of a hexadecimal digit. -/
def hexValue? (c : Char) : Option Nat :=
  if '0' ≤ c ∧ c ≤ '9' then some (c.toNat - 48)
  else if 'a' ≤ c ∧ c ≤ 'f' then some (c.toNat - 87)
  else if 'A' ≤ c ∧ c ≤ 'F' then some (c.toNat - 55)
  else none

/-- The value of four hexadecimal digits. -/
def hexQuad (a b c d : Char) : Option Nat :=
  match hexValue? a, hexValue? b, hexValue? c, hexValue? d with
  | some w, some x, some y, some z => some (((w * 16 + x) * 16 + y) * 16 + z)
  | _, _, _, _ => none

/-- Reads the four hexadecimal digits of a `\u` escape: they are the next four bytes. -/
def hexEscape (c : Cursor) : Except SyntaxError (Nat × Cursor) :=
  if c.bytesLeft < 4 then .error (c.atEnd .eofWhileParsingString)
  else
    let bad : SyntaxError :=
      let (line, column) := Cursor.afterBytes c.line c.column 4 c.rest
      ⟨.invalidEscape, line, column⟩
    match c.rest with
    | a :: b :: d :: e :: _ =>
      match hexQuad a b d e with
      | some v => .ok (v, c.skipAscii 4)
      | none => .error bad
    | _ => .error bad

/-- Reads a `\u` escape after its `u`; a leading surrogate must be followed by an escaped
trailing one. -/
def unicodeEscape (c : Cursor) : Except SyntaxError (Char × Cursor) := do
  let (n, c) ← hexEscape c
  if 0xDC00 ≤ n ∧ n ≤ 0xDFFF then throw (c.here .loneLeadingSurrogateInHexEscape)
  if n < 0xD800 ∨ 0xDBFF < n then return (Char.ofNat n, c)
  match c.rest with
  | [] => throw (c.here .eofWhileParsingString)
  | '\\' :: _ =>
    let c := c.advance
    match c.rest with
    | [] => throw (c.here .eofWhileParsingString)
    | 'u' :: _ =>
      let (lo, c) ← hexEscape c.advance
      if lo < 0xDC00 ∨ 0xDFFF < lo then throw (c.here .loneLeadingSurrogateInHexEscape)
      return (Char.ofNat (0x10000 + (n - 0xD800) * 0x400 + (lo - 0xDC00)), c)
    | _ => throw (c.atNext .unexpectedEndOfHexEscape)
  | _ => throw (c.atNext .unexpectedEndOfHexEscape)

/-- Reads an escape after its backslash. -/
def escape (c : Cursor) : Except SyntaxError (Char × Cursor) :=
  match c.rest with
  | [] => .error (c.here .eofWhileParsingString)
  | ch :: _ =>
    let c' := c.advance
    if ch = '"' then .ok ('"', c')
    else if ch = '\\' then .ok ('\\', c')
    else if ch = '/' then .ok ('/', c')
    else if ch = 'b' then .ok (Char.ofNat 8, c')
    else if ch = 'f' then .ok (Char.ofNat 12, c')
    else if ch = 'n' then .ok ('\n', c')
    else if ch = 'r' then .ok ('\r', c')
    else if ch = 't' then .ok ('\t', c')
    else if ch = 'u' then unicodeEscape c'
    else .error (c.atNext .invalidEscape)

/-- Reads the rest of a string after its opening quote, the characters so far in reverse; each of
the at most `fuel` steps reads at least one character. -/
def stringFrom (acc : List Char) : Nat → Cursor → Except SyntaxError (String × Cursor)
  | 0, c => .error (c.atEnd .eofWhileParsingString)
  | fuel + 1, c =>
    match c.rest with
    | [] => .error (c.here .eofWhileParsingString)
    | ch :: _ =>
      if ch = '"' then .ok (String.ofList acc.reverse, c.advance)
      else if ch = '\\' then
        match escape c.advance with
        | .ok (e, c') => stringFrom (e :: acc) fuel c'
        | .error err => .error err
      else if ch.toNat < 0x20 then .error (c.advance.here .controlCharacterWhileParsingString)
      else stringFrom (ch :: acc) fuel c.advance

/-- Reads a string after its opening quote. -/
def string (c : Cursor) : Except SyntaxError (String × Cursor) :=
  stringFrom [] (c.rest.length + 1) c

/-! ## Numbers -/

/-- The largest 64-bit word. -/
def wordMax : Nat := Nat.pow 2 64 - 1

/-- The largest exponent the reader accumulates. -/
def exponentMax : Nat := Nat.pow 2 31 - 1

def digitValue (c : Char) : Nat := c.toNat - 48

/-- Appends leading digits to a significand while it stays a 64-bit word: the significand, how
many digits it took, and the rest. -/
def takeSignificand (s : Nat) : List Char → Nat × Nat × List Char
  | [] => (s, 0, [])
  | d :: r =>
    if d.isDigit ∧ s * 10 + digitValue d ≤ wordMax then
      let (s', k, rest) := takeSignificand (s * 10 + digitValue d) r
      (s', k + 1, rest)
    else (s, 0, d :: r)

/-- The number of leading digits. -/
def digitCount (cs : List Char) : Nat := (cs.takeWhile Char.isDigit).length

/-- Accumulates exponent digits after the first, stopping at the first that would pass
`exponentMax`: the exponent, how many digits it read (the one that overflows included), and
whether it overflowed. -/
def exponentDigits (e : Nat) : List Char → Nat × Nat × Bool
  | [] => (e, 0, false)
  | d :: r =>
    if d.isDigit then
      if e * 10 + digitValue d > exponentMax then (e, 1, true)
      else
        let (e', k, overflow) := exponentDigits (e * 10 + digitValue d) r
        (e', k + 1, overflow)
    else (e, 0, false)

/-- An exponent kept within the 32-bit range. -/
def clampExponent (e : Int) : Int :=
  max (-(exponentMax : Int) - 1) (min e exponentMax)

/-- Scales a binary64 value by `10^e`, dividing by `10^308` first while `|e|` exceeds 308; `none`
when the value overflows. The loop ends once the value is zero or the exponent is in range. -/
def scaleBy (f : Binary64) : Int → Nat → Option Binary64
  | _, 0 => some f
  | e, fuel + 1 =>
    if e.natAbs ≤ 308 then
      (Binary64.pow10 e.natAbs).bind fun p => if e ≥ 0 then f.mul p else f.div p
    else if f.isZero then some f
    else if e ≥ 0 then none
    else ((Binary64.pow10 308).bind f.div).bind fun f' => scaleBy f' (e + 308) fuel

/-- The binary64 value the reader gives `±significand · 10^exponent`; `none` when it overflows. -/
def scaled (negative : Bool) (significand : Nat) (exponent : Int) : Option Binary64 :=
  (Binary64.ofNat significand).bind fun f =>
    (scaleBy f exponent 8).map fun v => if negative then v.neg else v

/-- The number ends here: its value, or an overflow placed after its last character. -/
def finish (negative : Bool) (s : Nat) (e : Int) (c : Cursor) :
    Except SyntaxError (JsonNumber × Cursor) :=
  match scaled negative s e with
  | some v => .ok (.float v, c)
  | none => .error (c.here .numberOutOfRange)

/-- Reads an exponent from its `e`, the significand and decimal exponent so far. -/
def exponentPart (negative : Bool) (s : Nat) (e0 : Int) (c : Cursor) :
    Except SyntaxError (JsonNumber × Cursor) :=
  let c := c.skipAscii 1
  let (positive, c) := match c.rest with
    | '+' :: _ => (true, c.skipAscii 1)
    | '-' :: _ => (false, c.skipAscii 1)
    | _ => (true, c)
  match c.rest with
  | [] => .error (c.here .eofWhileParsingValue)
  | d :: r =>
    if !d.isDigit then .error (c.atNext .invalidNumber)
    else
      let (e, k, overflow) := exponentDigits (digitValue d) r
      let c := c.skipAscii (k + 1)
      if overflow then
        if s ≠ 0 ∧ positive then .error (c.here .numberOutOfRange)
        else
          let zero : Binary64 := ⟨negative, 0, 0⟩
          .ok (.float zero, c.skipAscii (digitCount c.rest))
      else finish negative s (clampExponent (if positive then e0 + e else e0 - e)) c

/-- After digits that no longer fit: the rest are dropped, then an exponent may follow. -/
def droppedFraction (negative : Bool) (s : Nat) (e : Int) (c : Cursor) :
    Except SyntaxError (JsonNumber × Cursor) :=
  let c := c.skipAscii (digitCount c.rest)
  match c.rest with
  | ch :: _ => if ch = 'e' ∨ ch = 'E' then exponentPart negative s e c else finish negative s e c
  | [] => finish negative s e c

/-- Reads a fraction from its point, the significand and decimal exponent so far. -/
def fraction (negative : Bool) (s : Nat) (e0 : Int) (c : Cursor) :
    Except SyntaxError (JsonNumber × Cursor) :=
  let c := c.skipAscii 1
  let (s', k, rest) := takeSignificand s c.rest
  let c := c.skipAscii k
  let e := e0 - k
  match rest with
  | [] => if k = 0 then .error (c.atNext .eofWhileParsingValue) else finish negative s' e c
  | ch :: _ =>
    if ch.isDigit then droppedFraction negative s' e c
    else if k = 0 then .error (c.atNext .invalidNumber)
    else if ch = 'e' ∨ ch = 'E' then exponentPart negative s' e c
    else finish negative s' e c

/-- An integer literal: exact unless it is minus zero or below `-2^63`. -/
def wordNumber (negative : Bool) (s : Nat) : JsonNumber :=
  if !negative then .int s
  else if s ≠ 0 ∧ s ≤ Nat.pow 2 63 then .int (-(s : Int))
  else match Binary64.ofNat s with
    | some v => .float v.neg
    | none => .int 0

/-- After a significand: a fraction, an exponent, or the end of an integer. -/
def afterSignificand (negative : Bool) (s : Nat) (c : Cursor) :
    Except SyntaxError (JsonNumber × Cursor) :=
  match c.rest with
  | '.' :: _ => fraction negative s 0 c
  | ch :: _ =>
    if ch = 'e' ∨ ch = 'E' then exponentPart negative s 0 c
    else .ok (wordNumber negative s, c)
  | [] => .ok (wordNumber negative s, c)

/-- After integer digits that no longer fit: each further digit raises the exponent. -/
def longInteger (negative : Bool) (s : Nat) (c : Cursor) :
    Except SyntaxError (JsonNumber × Cursor) :=
  let k := digitCount c.rest
  let c := c.skipAscii k
  match c.rest with
  | '.' :: _ => fraction negative s k c
  | ch :: _ => if ch = 'e' ∨ ch = 'E' then exponentPart negative s k c else finish negative s k c
  | [] => finish negative s k c

/-- Reads a number after its sign. -/
def number (negative : Bool) (c : Cursor) : Except SyntaxError (JsonNumber × Cursor) :=
  match c.rest with
  | [] => .error (c.here .eofWhileParsingValue)
  | ch :: r =>
    if ch = '0' then
      let c := c.skipAscii 1
      match r with
      | d :: _ => if d.isDigit then .error (c.atNext .invalidNumber) else afterSignificand negative 0 c
      | [] => afterSignificand negative 0 c
    else if ch.isDigit then
      let (s, k, rest) := takeSignificand (digitValue ch) r
      let c := c.skipAscii (k + 1)
      match rest with
      | d :: _ => if d.isDigit then longInteger negative s c else afterSignificand negative s c
      | [] => afterSignificand negative s c
    else .error (c.atNext .invalidNumber)

/-! ## Values -/

/-- Reads a literal word after its first letter. -/
def ident (c : Cursor) : List Char → Except SyntaxError Cursor
  | [] => .ok c
  | w :: ws =>
    match c.rest with
    | [] => .error (c.here .eofWhileParsingValue)
    | ch :: _ => if ch = w then ident (c.skipAscii 1) ws else .error (c.atNext .expectedSomeIdent)

/-- The deepest nesting allowed, plus one. -/
def depthLimit : Nat := 128

mutual
/-- Reads one value, leading whitespace skipped; `depth` more containers may open while it stays
above one. Each call reads at least one character or fails, so `fuel` bounds the calls. -/
def value (fuel depth : Nat) (c : Cursor) : Except SyntaxError (Json × Cursor) :=
  match fuel with
  | 0 => .error (c.atEnd .recursionLimitExceeded)
  | fuel + 1 =>
    let c := c.skipSpace
    match c.rest with
    | [] => .error (c.atNext .eofWhileParsingValue)
    | ch :: _ =>
      if ch = 'n' then (ident (c.skipAscii 1) "ull".toList).map (.null, ·)
      else if ch = 't' then (ident (c.skipAscii 1) "rue".toList).map (.bool true, ·)
      else if ch = 'f' then (ident (c.skipAscii 1) "alse".toList).map (.bool false, ·)
      else if ch = '-' then (number true (c.skipAscii 1)).map fun (n, c) => (.num n, c)
      else if ch.isDigit then (number false c).map fun (n, c) => (.num n, c)
      else if ch = '"' then (string c.advance).map fun (s, c) => (.str s, c)
      else if ch = '[' then
        if depth ≤ 1 then .error (c.atNext .recursionLimitExceeded)
        else (items fuel (depth - 1) true [] c.advance).map fun (xs, c) => (.arr xs, c)
      else if ch = '\x7b' then
        if depth ≤ 1 then .error (c.atNext .recursionLimitExceeded)
        else (members fuel (depth - 1) true [] c.advance).map fun (ms, c) => (mkObj ms, c)
      else .error (c.atNext .expectedSomeValue)

/-- Reads array items after the opening bracket, the items so far in reverse. -/
def items (fuel depth : Nat) (first : Bool) (acc : List Json) (c : Cursor) :
    Except SyntaxError (List Json × Cursor) :=
  match fuel with
  | 0 => .error (c.atEnd .recursionLimitExceeded)
  | fuel + 1 =>
    let c := c.skipSpace
    let next : Except SyntaxError Cursor :=
      match c.rest with
      | [] => .error (c.atNext .eofWhileParsingList)
      | ch :: _ =>
        if first then .ok c
        else if ch = ',' then
          let c := c.advance.skipSpace
          match c.rest with
          | [] => .error (c.atNext .eofWhileParsingValue)
          | ']' :: _ => .error (c.atNext .trailingComma)
          | _ :: _ => .ok c
        else .error (c.atNext .expectedListCommaOrEnd)
    match c.rest with
    | ']' :: _ => .ok (acc.reverse, c.advance)
    | _ =>
      match next with
      | .error e => .error e
      | .ok c =>
        match value fuel depth c with
        | .error e => .error e
        | .ok (v, c) => items fuel depth false (v :: acc) c

/-- Reads object members after the opening brace, the members so far in reverse. -/
def members (fuel depth : Nat) (first : Bool) (acc : List (String × Json)) (c : Cursor) :
    Except SyntaxError (List (String × Json) × Cursor) :=
  match fuel with
  | 0 => .error (c.atEnd .recursionLimitExceeded)
  | fuel + 1 =>
    let c := c.skipSpace
    let key : Except SyntaxError Cursor :=
      match c.rest with
      | [] => .error (c.atNext .eofWhileParsingObject)
      | ch :: _ =>
        if first then (if ch = '"' then .ok c else .error (c.atNext .keyMustBeAString))
        else if ch = ',' then
          let c := c.advance.skipSpace
          match c.rest with
          | [] => .error (c.atNext .eofWhileParsingValue)
          | '"' :: _ => .ok c
          | '\x7d' :: _ => .error (c.atNext .trailingComma)
          | _ :: _ => .error (c.atNext .keyMustBeAString)
        else .error (c.atNext .expectedObjectCommaOrEnd)
    match c.rest with
    | '\x7d' :: _ => .ok (acc.reverse, c.advance)
    | _ =>
      match key with
      | .error e => .error e
      | .ok c =>
        match string c.advance with
        | .error e => .error e
        | .ok (k, c) =>
          let c := c.skipSpace
          let colon : Except SyntaxError Cursor :=
            match c.rest with
            | ':' :: _ => .ok c.advance
            | [] => .error (c.atNext .eofWhileParsingObject)
            | _ :: _ => .error (c.atNext .expectedColon)
          match colon with
          | .error e => .error e
          | .ok c =>
            match value fuel depth c with
            | .error e => .error e
            | .ok (v, c) => members fuel depth false ((k, v) :: acc) c
end

/-- Reads a whole text as one JSON value. -/
def parse (s : String) : Except SyntaxError Json := do
  let (v, c) ← value (3 * s.length + 3) depthLimit (Cursor.start s)
  let c := c.skipSpace
  match c.rest with
  | [] => pure v
  | _ :: _ => throw (c.atNext .trailingCharacters)

end ChainTx.Json
