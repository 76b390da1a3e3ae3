import ChainTx.Instruction
import ChainTx.Key.WellKnown
import ChainTx.Wire.Reader
/-!
# The compute budget program

Its instructions carry a one-byte tag followed by little-endian fields: 4 bytes for unit counts
and sizes, 8 for the unit price. Bytes past the last field are ignored.
-/

namespace ChainTx

/-- An instruction of the compute budget program. -/
inductive BudgetInstruction where
  | requestUnitsDeprecated (units additionalFee : Nat)
  | requestHeapFrame (bytes : Nat)
  | setComputeUnitLimit (units : Nat)
  /-- The priority fee in micro-lamports per compute unit. -/
  | setComputeUnitPrice (microLamports : Nat)
  | setLoadedAccountsDataSizeLimit (bytes : Nat)
  deriving DecidableEq

namespace BudgetInstruction

/-- The instruction data. -/
def encode : BudgetInstruction → List UInt8
  | .requestUnitsDeprecated u f => 0 :: leBytes 4 u ++ leBytes 4 f
  | .requestHeapFrame b => 1 :: leBytes 4 b
  | .setComputeUnitLimit u => 2 :: leBytes 4 u
  | .setComputeUnitPrice p => 3 :: leBytes 8 p
  | .setLoadedAccountsDataSizeLimit b => 4 :: leBytes 4 b

/-- A 4-byte field. -/
def readU32 : Reader Nat := Reader.readLE 4 "u32 field"

/-- The payload of the instruction with tag `tag`. -/
def readPayload (tag : Nat) : Reader BudgetInstruction :=
  match tag with
  | 0 => return .requestUnitsDeprecated (← readU32) (← readU32)
  | 1 => return .requestHeapFrame (← readU32)
  | 2 => return .setComputeUnitLimit (← readU32)
  | 3 => return .setComputeUnitPrice (← Reader.readLE 8 "u64 field")
  | 4 => return .setLoadedAccountsDataSizeLimit (← readU32)
  | other => throw (.invalidInstructionData (.unknownBudget other))

/-- Reads instruction data. -/
def decode (data : List UInt8) : Except SolError BudgetInstruction := do
  let (ix, _) ← Reader.run
    (do readPayload (← Reader.readU8 "compute budget instruction").toNat) data
  pure ix

end BudgetInstruction

namespace BudgetProgram

/-- An instruction of the compute budget program; it touches no accounts. -/
def instruction (ix : BudgetInstruction) : Instruction :=
  ⟨Address.computeBudgetProgram, [], ix.encode⟩

def setComputeUnitLimit (units : Nat) : Instruction := instruction (.setComputeUnitLimit units)

def setComputeUnitPrice (microLamports : Nat) : Instruction :=
  instruction (.setComputeUnitPrice microLamports)

def requestHeapFrame (bytes : Nat) : Instruction := instruction (.requestHeapFrame bytes)

end BudgetProgram

end ChainTx
