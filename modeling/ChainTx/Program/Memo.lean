import ChainTx.Instruction
import ChainTx.Key.WellKnown
/-!
# The memo program

A memo is UTF-8 text carried as the instruction data; every listed key must sign.
-/

namespace ChainTx.MemoProgram

/-- A memo instruction whose `signers` sign read-only. -/
def memo (text : String) (signers : List Address) : Instruction :=
  ⟨Address.memoProgram, signers.map fun s => ⟨s, true, false⟩, text.toUTF8.toList⟩

/-- The text of memo data. -/
def decode (data : List UInt8) : Except SolError String :=
  match Utf8.decode data with
  | .ok s => .ok s
  | .error e => .error (.invalidInstructionData (.memoNotUtf8 e))

end ChainTx.MemoProgram
