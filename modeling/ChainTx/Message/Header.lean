import ChainTx.Instruction
import ChainTx.Wire.Reader
/-!
# Message headers and the shared wire layout

A message lists its account keys in four runs: writable signers, readonly signers, writable
non-signers, readonly non-signers. The header gives the number of signers and the sizes of the two
readonly runs. This module also holds the parts of the wire layout that both message versions
share, and the consistency check every decoded message passes.
-/

namespace ChainTx

/-- Signer and writability counts of a message's account keys. -/
structure MessageHeader where
  numRequiredSignatures : UInt8
  numReadonlySigned : UInt8
  numReadonlyUnsigned : UInt8
  deriving DecidableEq, Inhabited

namespace MessageHeader

/-- Whether the static key at `index`, of `numStatic` static keys, is writable. -/
def isStaticWritable (h : MessageHeader) (index numStatic : Nat) : Bool :=
  let signed := h.numRequiredSignatures.toNat
  if index < signed then index < signed - h.numReadonlySigned.toNat
  else index - signed < (numStatic - signed) - h.numReadonlyUnsigned.toNat

/-- The three header bytes. -/
def encode (h : MessageHeader) : List UInt8 :=
  [h.numRequiredSignatures, h.numReadonlySigned, h.numReadonlyUnsigned]

/-- Reads the three header bytes. -/
def read : Reader MessageHeader := do
  let a ← Reader.readU8 "message header"
  let b ← Reader.readU8 "message header"
  let c ← Reader.readU8 "message header"
  pure ⟨a, b, c⟩

/-- Checks a header and instruction indexes against the key counts: the signers must be among
the static keys, a message with signers needs a writable one, the readonly unsigned run must fit
in the unsigned keys, and every index must name a key. -/
def check (h : MessageHeader) (numStatic numTotal : Nat) (ixs : List CompiledInstruction) :
    Except SolError Unit :=
  let signed := h.numRequiredSignatures.toNat
  if signed > numStatic then .error (.invalidMessage (.tooFewKeys signed numStatic))
  else if h.numReadonlySigned ≥ h.numRequiredSignatures ∧ h.numRequiredSignatures > 0 then
    .error (.invalidMessage .noWritableSigner)
  else if h.numReadonlyUnsigned.toNat > numStatic - signed then
    .error (.invalidMessage .readonlyUnsignedExceeds)
  else if ixs.any (fun ix => (ix.programIdIndex :: ix.accounts).any (·.toNat ≥ numTotal)) then
    .error (.invalidMessage (.indexOutOfRange numTotal))
  else .ok ()

end MessageHeader

namespace MessageWire

/-- Keys with their compact count. -/
def encodeKeys (keys : List Address) : List UInt8 :=
  ShortVec.encode keys.length ++ keys.flatMap (·.bytes)

/-- One compiled instruction. -/
def encodeInstruction (ix : CompiledInstruction) : List UInt8 :=
  ix.programIdIndex :: (ShortVec.encodeBytes ix.accounts ++ ShortVec.encodeBytes ix.data)

/-- Compiled instructions with their compact count. -/
def encodeInstructions (ixs : List CompiledInstruction) : List UInt8 :=
  ShortVec.encode ixs.length ++ ixs.flatMap encodeInstruction

/-- 32 bytes read as an address. -/
def readAddress (what : String) : Reader Address := do
  let b ← Reader.readBytes 32 what
  match Address.ofBytes? b with
  | some a => pure a
  | none => throw (.unexpectedEof what)

/-- The account keys. -/
def readKeys : Reader (List Address) := do
  let n ← Reader.readLength "account keys"
  Reader.readMany (readAddress "account key") n

/-- The recent blockhash. -/
def readBlockhash : Reader Blockhash := do
  let b ← Reader.readBytes 32 "recent blockhash"
  match Blockhash.ofBytes? b with
  | some h => pure h
  | none => throw (.unexpectedEof "recent blockhash")

/-- One compiled instruction. -/
def readInstruction : Reader CompiledInstruction := do
  let p ← Reader.readU8 "program id index"
  let accounts ← Reader.readVec "instruction accounts"
  let data ← Reader.readVec "instruction data"
  pure ⟨p, accounts, data⟩

/-- The compiled instructions. -/
def readInstructions : Reader (List CompiledInstruction) := do
  let n ← Reader.readLength "instructions"
  Reader.readMany readInstruction n

/-- Fails unless every byte was read. -/
def expectEnd (rest : List UInt8) : Except SolError Unit :=
  if rest.isEmpty then .ok () else .error (.invalidMessage (.trailingBytes rest.length))

end MessageWire

end ChainTx
