import ChainTx.Key.Text
/-!
# Instructions

An instruction names the program to run, the accounts it touches (each marked as signer and as
writable or not) and opaque data for the program. A compiled instruction refers to its program
and accounts by their one-byte index in a message's account table.
-/

namespace ChainTx

/-- An account an instruction touches, with its roles. -/
structure AccountMeta where
  pubkey : Address
  isSigner : Bool
  isWritable : Bool
  deriving DecidableEq

/-- An instruction for one program. -/
structure Instruction where
  programId : Address
  accounts : List AccountMeta
  data : List UInt8
  deriving DecidableEq

/-- An instruction whose program and accounts are indexes into an account table. -/
structure CompiledInstruction where
  programIdIndex : UInt8
  accounts : List UInt8
  data : List UInt8
  deriving DecidableEq

/-- The text of a list of numbers, `[a, b, c]`. -/
def numberListText (xs : List Nat) : String :=
  "[" ++ ", ".intercalate (xs.map toString) ++ "]"

/-- The diagnostic form of a compiled instruction. -/
def CompiledInstruction.debugText (ix : CompiledInstruction) : String :=
  "CompiledInstruction \x7b program_id_index: " ++ toString ix.programIdIndex.toNat ++
    ", accounts: " ++ numberListText (ix.accounts.map UInt8.toNat) ++
    ", data: " ++ numberListText (ix.data.map UInt8.toNat) ++ " \x7d"

end ChainTx
