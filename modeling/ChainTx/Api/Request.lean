import ChainTx.Json.Decode
import ChainTx.Key.Keypair
import ChainTx.Text.Hex
/-!
# Requests

The service answers requests that are JSON objects. This module reads their fields: a field that
is absent or `null` is missing; bytes are hexadecimal text; keys are base58 text read by the
library's own parsers, so that a malformed key fails with the library's error; a 64-bit number
may be a JSON integer or a decimal string.
-/

namespace ChainTx.Api

/-- Why a request fails. -/
inductive Failure where
  /-- The request itself is malformed. -/
  | badInput (message : String)
  /-- The library refused it. -/
  | sol (e : SolError)
  /-- A JSON form could not be read as the type it stands for. -/
  | unreadable (message : String)
  deriving Inhabited

/-- Computations of a request's answer. -/
abbrev Handler := Except Failure

/-- Lifts a library result. -/
def lift {α : Type} : Except SolError α → Handler α
  | .ok a => .ok a
  | .error e => .error (.sol e)

/-- A failure for a malformed request. -/
def bad {α : Type} (message : String) : Handler α := .error (.badInput message)

/-- A required field. -/
def field (req : Json) (k : String) : Handler Json :=
  match req.field? k with
  | some v => pure v
  | none => bad ("missing field " ++ k)

/-- An optional field, `null` read as absent. -/
def optField (req : Json) (k : String) : Option Json := req.field? k

/-- A field read as text; absent or of another kind, it is the default. -/
def textOr (req : Json) (k : String) (dflt : String) : String :=
  match optField req k with
  | some (.str s) => s
  | _ => dflt

def asString : Json → Handler String
  | .str s => pure s
  | _ => bad "expected string"

def asArray : Json → Handler (List Json)
  | .arr xs => pure xs
  | _ => bad "expected array"

def asBool : Json → Handler Bool
  | .bool b => pure b
  | _ => bad "expected bool"

/-- The value of a decimal digit string, if it is one. -/
def decimal? (s : String) : Option Nat :=
  if s.isEmpty || !s.toList.all Char.isDigit then none
  else some (s.toList.foldl (fun acc c => acc * 10 + (c.toNat - 48)) 0)

/-- The value of a text read as an unsigned 64-bit number: an optional plus sign, then decimal
digits, the value below `2^64`. -/
def u64Text? (s : String) : Option Nat :=
  let digits := match s.toList with
    | '+' :: r => String.ofList r
    | r => String.ofList r
  (decimal? digits).filter (· < Nat.pow 2 64)

/-- A number below `2^64`, written as a JSON integer or as decimal text. -/
def asU64 (j : Json) : Handler Nat :=
  let fail : Handler Nat := bad ("expected u64, got " ++ j.render)
  match j with
  | .num (.int i) => if 0 ≤ i ∧ i < Int.pow 2 64 then pure i.toNat else fail
  | .str s => match u64Text? s with
    | some n => pure n
    | none => fail
  | _ => fail

/-- A 64-bit number below a bound; `failure` when it is not below it. -/
def asNatBelow (bound : Nat) (failure : String) (j : Json) : Handler Nat := do
  let n ← asU64 j
  if n < bound then pure n else bad failure

/-- An 8-bit number. -/
def asU8 : Json → Handler Nat := asNatBelow 256 "expected u8"

/-- A 32-bit number. -/
def asU32 : Json → Handler Nat := asNatBelow (Nat.pow 2 32) "expected u32"

/-- Bytes written as hexadecimal text. -/
def asHex (j : Json) : Handler (List UInt8) := do
  let s ← asString j
  match Hex.decode s with
  | .ok b => pure b
  | .error e => bad e.message

def asAddress (j : Json) : Handler Address := do lift (Address.parse (← asString j))
def asBlockhash (j : Json) : Handler Blockhash := do lift (Blockhash.parse (← asString j))
def asSignature (j : Json) : Handler Signature := do lift (Signature.parse (← asString j))

/-- A keypair given by its 32-byte seed in hexadecimal. -/
def asKeypair (j : Json) : Handler Keypair := do lift (Keypair.fromSeed (← asHex j))

def strField (req : Json) (k : String) : Handler String := do asString (← field req k)
def hexField (req : Json) (k : String) : Handler (List UInt8) := do asHex (← field req k)
def u64Field (req : Json) (k : String) : Handler Nat := do asU64 (← field req k)
def boolField (req : Json) (k : String) : Handler Bool := do asBool (← field req k)
def arrField (req : Json) (k : String) : Handler (List Json) := do asArray (← field req k)
def addressField (req : Json) (k : String) : Handler Address := do asAddress (← field req k)
def blockhashField (req : Json) (k : String) : Handler Blockhash := do asBlockhash (← field req k)
def signatureField (req : Json) (k : String) : Handler Signature := do asSignature (← field req k)

/-- An optional field read by `f`. -/
def optWith {α : Type} (req : Json) (k : String) (f : Json → Handler α) : Handler (Option α) :=
  match optField req k with
  | some v => some <$> f v
  | none => pure none

/-- Each item of a list read by `f`, the first failure winning. -/
def mapM' {α β : Type} (f : α → Handler β) : List α → Handler (List β)
  | [] => pure []
  | x :: xs => do
    let y ← f x
    let ys ← mapM' f xs
    pure (y :: ys)

/-- A JSON form read by a decoder; its failure is a decoding failure. -/
def decodeWith {α : Type} (d : Decode.Decoder α) (j : Json) : Handler α :=
  match d j with
  | .ok a => pure a
  | .error e => .error (.unreadable e.message)

end ChainTx.Api
