import ChainTx.Text.Hex
import ChainTx.Text.Printable
/-!
# Quoted characters and strings in diagnostics

Error texts quote a character between single quotes and a string between double quotes. Inside
the quotes a backslash, the quote in use, the null character, tab, line feed and carriage return
are written as two-character escapes; a grapheme extender and a character that is not printable
are written `\u{h}` with the code in lowercase hexadecimal; every other character stands for
itself.
-/

namespace ChainTx.Quoted

/-- Lowercase hexadecimal digits of a number, most significant first, at least one digit. -/
def hexDigits (n : Nat) : List Char :=
  if n < 16 then [Hex.digit n] else hexDigits (n / 16) ++ [Hex.digit (n % 16)]
termination_by n
decreasing_by omega

/-- Whether a character is written by its code in a diagnostic. -/
def byCode (c : Char) : Bool :=
  Printable.isGraphemeExtend c || !Printable.isPrintable c

/-- The escaped form of one character, given which quote encloses it. -/
def escapeChar (quote : Char) (c : Char) : List Char :=
  if c = '\\' then ['\\', '\\']
  else if c = quote then ['\\', quote]
  else if c = '\x00' then ['\\', '0']
  else if c = '\t' then ['\\', 't']
  else if c = '\n' then ['\\', 'n']
  else if c = '\r' then ['\\', 'r']
  else if byCode c then ['\\', 'u', '\x7b'] ++ hexDigits c.toNat ++ ['\x7d']
  else [c]

/-- A character between single quotes. -/
def char (c : Char) : String :=
  String.ofList ('\'' :: escapeChar '\'' c ++ ['\''])

/-- A string between double quotes. -/
def string (s : String) : String :=
  String.ofList ('"' :: s.toList.flatMap (escapeChar '"') ++ ['"'])

end ChainTx.Quoted
