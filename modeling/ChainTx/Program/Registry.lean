import ChainTx.Program.System
import ChainTx.Program.ComputeBudget
import ChainTx.Program.Memo
/-!
# Reading instructions by their program

A registry maps program ids to the kind of program whose data format they use. An instruction of
an unregistered program is reported as unknown, not as an error; malformed data of a registered
program is an error.
-/

namespace ChainTx

/-- The data formats a registry knows. -/
inductive ProgramKind where
  | system
  | computeBudget
  | memo
  deriving DecidableEq

/-- An instruction read by its program's format. -/
inductive ParsedInstruction where
  | system (ix : SystemInstruction)
  | computeBudget (ix : BudgetInstruction)
  | memo (text : String)
  /-- The program is not registered. -/
  | unknown (programId : Address)
  deriving DecidableEq

/-- Program ids with their kinds; a later registration replaces an earlier one. -/
structure ProgramRegistry where
  programs : List (Address × ProgramKind)

namespace ProgramRegistry

/-- The registry that knows no program. -/
def empty : ProgramRegistry := ⟨[]⟩

/-- The kind registered for a program. -/
def kind (r : ProgramRegistry) (programId : Address) : Option ProgramKind :=
  (r.programs.find? fun e => e.1 = programId).map Prod.snd

/-- Registers a program, giving back the kind it replaced. -/
def register (r : ProgramRegistry) (programId : Address) (k : ProgramKind) :
    ProgramRegistry × Option ProgramKind :=
  (⟨(programId, k) :: r.programs.filter fun e => e.1 ≠ programId⟩, r.kind programId)

/-- The system, compute budget and both memo programs. -/
def withBuiltins : ProgramRegistry :=
  ⟨[(Address.memoV1Program, .memo), (Address.memoProgram, .memo),
    (Address.computeBudgetProgram, .computeBudget), (Address.systemProgram, .system)]⟩

/-- Reads an instruction by its program's format. -/
def parse (r : ProgramRegistry) (ix : Instruction) : Except SolError ParsedInstruction :=
  match r.kind ix.programId with
  | some .system => ParsedInstruction.system <$> SystemInstruction.decode ix.data
  | some .computeBudget => ParsedInstruction.computeBudget <$> BudgetInstruction.decode ix.data
  | some .memo => ParsedInstruction.memo <$> MemoProgram.decode ix.data
  | none => pure (.unknown ix.programId)

end ProgramRegistry

end ChainTx
