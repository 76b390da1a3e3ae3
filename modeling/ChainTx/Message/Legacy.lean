import ChainTx.Message.AccountKeys
/-!
# Legacy messages

A legacy message is a header, its account keys, a recent blockhash and compiled instructions. On
the wire the four parts follow each other, lists prefixed by their compact count. Decoding checks
the header and every index against the keys.
-/

namespace ChainTx

/-- A message in the legacy format. -/
structure LegacyMessage where
  header : MessageHeader
  accountKeys : List Address
  recentBlockhash : Blockhash
  instructions : List CompiledInstruction
  deriving DecidableEq

namespace LegacyMessage

/-- Compiles instructions into a message paid by `payer`. -/
def compile (payer : Address) (ixs : List Instruction) (blockhash : Blockhash) :
    Except SolError LegacyMessage := do
  let (header, keys) ← (KeyTable.compile ixs payer).components
  let compiled ← (AccountKeys.mk keys none).compileInstructions ixs
  pure ⟨header, keys, blockhash, compiled⟩

/-- The keys of the message. -/
def keys (m : LegacyMessage) : AccountKeys := ⟨m.accountKeys, none⟩

/-- Whether the key at an index must sign. -/
def isSigner (m : LegacyMessage) (i : Nat) : Bool := i < m.header.numRequiredSignatures.toNat

/-- Whether the key at an index is writable. -/
def isWritable (m : LegacyMessage) (i : Nat) : Bool :=
  i < m.accountKeys.length && m.header.isStaticWritable i m.accountKeys.length

/-- Whether the key at an index is invoked as a program. -/
def isProgramId (m : LegacyMessage) (i : Nat) : Bool :=
  m.instructions.any (·.programIdIndex.toNat == i)

/-- The indexes of invoked programs that name a key, ascending, each once. -/
def programIndexes (m : LegacyMessage) : List Nat :=
  (List.range m.accountKeys.length).filter m.isProgramId

/-- The invoked programs, by index. -/
def programIds (m : LegacyMessage) : List Address :=
  m.programIndexes.filterMap (m.accountKeys[·]?)

/-- The keys that are not invoked, in index order. -/
def nonProgramIds (m : LegacyMessage) : List Address :=
  ((List.range m.accountKeys.length).filter (!m.isProgramId ·)).filterMap (m.accountKeys[·]?)

/-- The wire form, which is also what signers sign. -/
def encode (m : LegacyMessage) : List UInt8 :=
  m.header.encode ++ MessageWire.encodeKeys m.accountKeys ++ m.recentBlockhash.bytes ++
    MessageWire.encodeInstructions m.instructions

/-- Reads a legacy message and checks it. -/
def read : Reader LegacyMessage := do
  let header ← MessageHeader.read
  let keys ← MessageWire.readKeys
  let blockhash ← MessageWire.readBlockhash
  let ixs ← MessageWire.readInstructions
  match header.check keys.length keys.length ixs with
  | .error e => throw e
  | .ok () => pure ⟨header, keys, blockhash, ixs⟩

/-- Decodes exactly one legacy message. -/
def decode (bytes : List UInt8) : Except SolError LegacyMessage := do
  let (m, rest) ← read.run bytes
  MessageWire.expectEnd rest
  pure m

end LegacyMessage

end ChainTx
