/-!
# UTF-8 byte strings

A well-formed UTF-8 sequence is one ASCII byte, or a lead byte followed by one to three
continuation bytes in the ranges of the Unicode standard (no overlong forms, no surrogates, nothing
above U+10FFFF). Decoding stops at the first sequence that breaks the rule and reports where the
valid prefix ends and, unless the input simply ran out, how many bytes the broken sequence spans.
-/

namespace ChainTx.Utf8

/-- Where decoding stopped: the length of the valid prefix, and the length of the bad sequence,
or `none` when the input ended inside a sequence. -/
structure Error where
  validUpTo : Nat
  errorLen : Option Nat
  deriving DecidableEq, Repr

/-- The text of a decoding error. -/
def Error.message (e : Error) : String :=
  match e.errorLen with
  | some n => s!"invalid utf-8 sequence of {n} bytes from index {e.validUpTo}"
  | none => s!"incomplete utf-8 byte sequence from index {e.validUpTo}"

/-- Whether a byte continues a sequence. -/
def isCont (b : UInt8) : Bool := 0x80 ≤ b && b ≤ 0xbf

/-- The allowed range of the second byte after a lead byte of a three- or four-byte sequence. -/
def secondRange (lead : UInt8) : UInt8 × UInt8 :=
  if lead = 0xe0 then (0xa0, 0xbf)
  else if lead = 0xed then (0x80, 0x9f)
  else if lead = 0xf0 then (0x90, 0xbf)
  else if lead = 0xf4 then (0x80, 0x8f)
  else (0x80, 0xbf)

/-- How many bytes a sequence with this lead byte takes, or 0 for a byte that cannot lead. -/
def width (lead : UInt8) : Nat :=
  if lead < 0x80 then 1
  else if lead < 0xc2 then 0
  else if lead < 0xe0 then 2
  else if lead < 0xf0 then 3
  else if lead < 0xf5 then 4
  else 0

/-- The code point of a sequence already known to be well formed. -/
def codePoint (bytes : List UInt8) : Nat :=
  match bytes with
  | [a] => a.toNat
  | [a, b] => (a.toNat % 32) * 64 + b.toNat % 64
  | [a, b, c] => (a.toNat % 16) * 4096 + (b.toNat % 64) * 64 + c.toNat % 64
  | [a, b, c, d] =>
    (a.toNat % 8) * 262144 + (b.toNat % 64) * 4096 + (c.toNat % 64) * 64 + d.toNat % 64
  | _ => 0

/-- Counts the continuation bytes after the second byte of a sequence: `some k` (`k < need`) at
the first wrong byte, `none` when the input ends first, `some need` when all are right. -/
def tailCount : Nat → List UInt8 → Option Nat
  | 0, _ => some 0
  | _ + 1, [] => none
  | n + 1, b :: bs => if isCont b then (tailCount n bs).map (· + 1) else some 0

/-- Checks the `need` bytes after a lead byte, the first of them against the lead byte's range:
`some k` (`k < need`) at the first wrong byte, `none` when the input ends first, and `some need`
when all are right. -/
def contCount (lead : UInt8) (need : Nat) (rest : List UInt8) : Option Nat :=
  match need, rest with
  | 0, _ => some 0
  | _ + 1, [] => none
  | n + 1, b :: bs =>
    let r := secondRange lead
    if r.1 ≤ b && b ≤ r.2 then (tailCount n bs).map (· + 1) else some 0

/-- Decodes from byte offset `pos`, the characters so far kept in reverse. -/
def decodeFrom (pos : Nat) (acc : List Char) : List UInt8 → Except Error (List Char)
  | [] => .ok acc.reverse
  | lead :: rest =>
    let w := width lead
    if w = 0 then .error ⟨pos, some 1⟩
    else if w = 1 then decodeFrom (pos + 1) (Char.ofNat lead.toNat :: acc) rest
    else match contCount lead (w - 1) rest with
      | none => .error ⟨pos, none⟩
      | some k =>
        if k < w - 1 then .error ⟨pos, some (k + 1)⟩
        else
          decodeFrom (pos + w) (Char.ofNat (codePoint (lead :: rest.take (w - 1))) :: acc)
            (rest.drop (w - 1))
termination_by bytes => bytes.length
decreasing_by
  · exact Nat.lt_succ_self rest.length
  · rw [List.length_drop]
    exact Nat.lt_of_le_of_lt (Nat.sub_le ..) (Nat.lt_succ_self rest.length)

/-- Decodes UTF-8 bytes into text. -/
def decode (bytes : List UInt8) : Except Error String :=
  (decodeFrom 0 [] bytes).map String.ofList

end ChainTx.Utf8
