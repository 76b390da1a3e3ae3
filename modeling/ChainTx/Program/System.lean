import ChainTx.Instruction
import ChainTx.Key.WellKnown
import ChainTx.Wire.Reader
/-!
# The system program

The instructions of the system program and their data. The data is a 4-byte little-endian
discriminant followed by the fields in order: numbers as 8 little-endian bytes, keys as their 32
bytes and strings as an 8-byte little-endian length and their UTF-8 bytes. Reading ignores bytes
past the last field.
-/

namespace ChainTx

/-- An instruction of the system program with its payload. -/
inductive SystemInstruction where
  | createAccount (lamports space : Nat) (owner : Address)
  | assign (owner : Address)
  | transfer (lamports : Nat)
  | createAccountWithSeed (base : Address) (seed : String) (lamports space : Nat) (owner : Address)
  | advanceNonceAccount
  | withdrawNonceAccount (lamports : Nat)
  | initializeNonceAccount (authority : Address)
  | authorizeNonceAccount (authority : Address)
  | allocate (space : Nat)
  | allocateWithSeed (base : Address) (seed : String) (space : Nat) (owner : Address)
  | assignWithSeed (base : Address) (seed : String) (owner : Address)
  | transferWithSeed (lamports : Nat) (fromSeed : String) (fromOwner : Address)
  | upgradeNonceAccount
  deriving DecidableEq

namespace SystemInstruction

/-- The number that opens the data of each instruction. -/
def discriminant : SystemInstruction → Nat
  | .createAccount .. => 0
  | .assign .. => 1
  | .transfer .. => 2
  | .createAccountWithSeed .. => 3
  | .advanceNonceAccount => 4
  | .withdrawNonceAccount .. => 5
  | .initializeNonceAccount .. => 6
  | .authorizeNonceAccount .. => 7
  | .allocate .. => 8
  | .allocateWithSeed .. => 9
  | .assignWithSeed .. => 10
  | .transferWithSeed .. => 11
  | .upgradeNonceAccount => 12

/-- A number as 8 little-endian bytes. -/
def u64Bytes (n : Nat) : List UInt8 := leBytes 8 n

/-- A string as its length and UTF-8 bytes. -/
def stringBytes (s : String) : List UInt8 := u64Bytes s.utf8ByteSize ++ s.toUTF8.toList

/-- The payload after the discriminant. -/
def payload : SystemInstruction → List UInt8
  | .createAccount l s o => u64Bytes l ++ u64Bytes s ++ o.bytes
  | .assign o => o.bytes
  | .transfer l => u64Bytes l
  | .createAccountWithSeed b seed l s o =>
    b.bytes ++ stringBytes seed ++ u64Bytes l ++ u64Bytes s ++ o.bytes
  | .advanceNonceAccount => []
  | .withdrawNonceAccount l => u64Bytes l
  | .initializeNonceAccount a => a.bytes
  | .authorizeNonceAccount a => a.bytes
  | .allocate s => u64Bytes s
  | .allocateWithSeed b seed s o => b.bytes ++ stringBytes seed ++ u64Bytes s ++ o.bytes
  | .assignWithSeed b seed o => b.bytes ++ stringBytes seed ++ o.bytes
  | .transferWithSeed l seed o => u64Bytes l ++ stringBytes seed ++ o.bytes
  | .upgradeNonceAccount => []

/-- The instruction data. -/
def encode (ix : SystemInstruction) : List UInt8 := leBytes 4 ix.discriminant ++ ix.payload

/-- An 8-byte number field. -/
def readU64 : Reader Nat := Reader.readLE 8 "u64 field"

/-- A key field. -/
def readAddress : Reader Address := do
  let bytes ← Reader.readBytes 32 "address field"
  match Address.ofBytes? bytes with
  | some a => pure a
  | none => throw (.unexpectedEof "address field")

/-- A string field: its length, then UTF-8 bytes. The length is read as a 64-bit number and taken
whole, as on a 64-bit target; where the platform size is narrower a length past it would fail as
a length overflow, a path this reader does not have. -/
def readString : Reader String := do
  let n ← readU64
  let bytes ← Reader.readBytes n "string field"
  match Utf8.decode bytes with
  | .ok s => pure s
  | .error e => throw (.invalidInstructionData (.seedNotUtf8 e))

/-- The payload of the instruction with discriminant `tag`. -/
def readPayload (tag : Nat) : Reader SystemInstruction :=
  match tag with
  | 0 => return .createAccount (← readU64) (← readU64) (← readAddress)
  | 1 => return .assign (← readAddress)
  | 2 => return .transfer (← readU64)
  | 3 => do
    let base ← readAddress
    let seed ← readString
    let lamports ← readU64
    let space ← readU64
    return .createAccountWithSeed base seed lamports space (← readAddress)
  | 4 => pure .advanceNonceAccount
  | 5 => return .withdrawNonceAccount (← readU64)
  | 6 => return .initializeNonceAccount (← readAddress)
  | 7 => return .authorizeNonceAccount (← readAddress)
  | 8 => return .allocate (← readU64)
  | 9 => return .allocateWithSeed (← readAddress) (← readString) (← readU64) (← readAddress)
  | 10 => return .assignWithSeed (← readAddress) (← readString) (← readAddress)
  | 11 => return .transferWithSeed (← readU64) (← readString) (← readAddress)
  | 12 => pure .upgradeNonceAccount
  | other => throw (.invalidInstructionData (.unknownSystem other))

/-- Reads instruction data; bytes past the last field are ignored. -/
def decode (data : List UInt8) : Except SolError SystemInstruction := do
  let (ix, _) ← Reader.run (do readPayload (← Reader.readLE 4 "system instruction")) data
  pure ix

end SystemInstruction

namespace SystemProgram

open SystemInstruction

/-- An instruction of the system program. -/
def instruction (accounts : List AccountMeta) (ix : SystemInstruction) : Instruction :=
  ⟨Address.systemProgram, accounts, ix.encode⟩

/-- Moves lamports from a signing account to another. -/
def transfer (src dst : Address) (lamports : Nat) : Instruction :=
  instruction [⟨src, true, true⟩, ⟨dst, false, true⟩] (.transfer lamports)

/-- Funds and allocates a new account owned by `owner`; both accounts sign. -/
def createAccount (src newAccount : Address) (lamports space : Nat) (owner : Address) :
    Instruction :=
  instruction [⟨src, true, true⟩, ⟨newAccount, true, true⟩] (.createAccount lamports space owner)

/-- Hands an account over to a program. -/
def assign (account owner : Address) : Instruction :=
  instruction [⟨account, true, true⟩] (.assign owner)

/-- Allocates space in an account. -/
def allocate (account : Address) (space : Nat) : Instruction :=
  instruction [⟨account, true, true⟩] (.allocate space)

/-- Advances a durable nonce; it must be the first instruction of its transaction. -/
def advanceNonceAccount (nonceAccount authority : Address) : Instruction :=
  instruction [⟨nonceAccount, false, true⟩, ⟨Address.recentBlockhashesSysvar, false, false⟩,
    ⟨authority, true, false⟩] .advanceNonceAccount

/-- Initializes a fresh nonce account under `authority`. -/
def initializeNonceAccount (nonceAccount authority : Address) : Instruction :=
  instruction [⟨nonceAccount, false, true⟩, ⟨Address.recentBlockhashesSysvar, false, false⟩,
    ⟨Address.rentSysvar, false, false⟩] (.initializeNonceAccount authority)

end SystemProgram

end ChainTx
