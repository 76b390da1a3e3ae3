import ChainTx.Message.Legacy
/-!
# Version 0 messages

A version-0 message is a legacy message that may also load accounts from lookup tables. On the
wire it starts with the prefix byte `0x80` and ends with its table lookups. Compiling drains
non-signer, non-program keys into the given tables, table by table, before the static keys are
laid out.
-/

namespace ChainTx

/-- The prefix byte of a version-0 message. -/
def versionPrefix : UInt8 := 0x80

/-- A message in the version-0 format. -/
structure V0Message where
  header : MessageHeader
  staticKeys : List Address
  recentBlockhash : Blockhash
  instructions : List CompiledInstruction
  lookups : List TableLookup
  deriving DecidableEq

/-- What a version-0 message's loaded keys are taken from: keys already loaded, or tables. -/
structure KeySource where
  loaded : Option LoadedAddresses
  tables : List LookupTable

namespace V0Message

/-- Drains keys into the tables in order, collecting lookups and loaded keys. -/
def extractAll (t : KeyTable) :
    List LookupTable → Except SolError (KeyTable × List TableLookup × LoadedAddresses)
  | [] => .ok (t, [], LoadedAddresses.empty)
  | table :: rest =>
    match t.extract table with
    | (_, .error e) => .error e
    | (t', .ok none) => extractAll t' rest
    | (t', .ok (some (l, loaded))) => do
      let (t'', ls, more) ← extractAll t' rest
      pure (t'', l :: ls, loaded.append more)

/-- Compiles instructions into a message paid by `payer`, loading what it can from tables. -/
def compile (payer : Address) (ixs : List Instruction) (blockhash : Blockhash)
    (tables : List LookupTable) : Except SolError V0Message := do
  let (t, lookups, loaded) ← extractAll (KeyTable.compile ixs payer) tables
  let (header, keys) ← t.components
  let compiled ← (AccountKeys.mk keys (some loaded)).compileInstructions ixs
  pure ⟨header, keys, blockhash, compiled, lookups⟩

/-- The number of keys the lookups load. -/
def numLoaded (m : V0Message) : Nat := (m.lookups.map TableLookup.size).foldr (· + ·) 0

/-- The number of writable keys the lookups load. -/
def numLoadedWritable (m : V0Message) : Nat :=
  (m.lookups.map (·.writableIndexes.length)).foldr (· + ·) 0

/-- Whether the key at an index must sign. -/
def isSigner (m : V0Message) (i : Nat) : Bool := i < m.header.numRequiredSignatures.toNat

/-- Whether the key at an index is writable: a static key by the header, a loaded key when it is
among the writable loaded keys. -/
def isWritable (m : V0Message) (i : Nat) : Bool :=
  let n := m.staticKeys.length
  if i ≥ n then i - n < m.numLoadedWritable else m.header.isStaticWritable i n

/-- The loaded keys of the lookups, from the tables. -/
def resolve (m : V0Message) (tables : List LookupTable) : Except SolError LoadedAddresses :=
  resolveLookups tables m.lookups

/-- The keys of the message: loaded keys given win (their count must match the lookups), else
the tables are resolved, else a message with lookups fails. -/
def keys (m : V0Message) (src : KeySource) : Except SolError AccountKeys :=
  match src.loaded with
  | some l =>
    if l.size ≠ m.numLoaded then
      .error (.invalidMessage (.lookupCountMismatch m.numLoaded l.size))
    else .ok ⟨m.staticKeys, some l⟩
  | none =>
    if !src.tables.isEmpty then (m.resolve src.tables).map fun l => ⟨m.staticKeys, some l⟩
    else if !m.lookups.isEmpty then .error (.invalidMessage .lookupsUnresolved)
    else .ok ⟨m.staticKeys, none⟩

/-- The wire form, which is also what signers sign. -/
def encode (m : V0Message) : List UInt8 :=
  versionPrefix :: (m.header.encode ++ MessageWire.encodeKeys m.staticKeys ++ m.recentBlockhash.bytes ++
    MessageWire.encodeInstructions m.instructions ++ ShortVec.encode m.lookups.length ++
    m.lookups.flatMap TableLookup.encode)

/-- Reads a version-0 message, prefix included, and checks it. -/
def read : Reader V0Message := do
  let pfx ← Reader.readU8 "message prefix"
  if pfx < 0x80 then throw (.invalidMessage .legacyNotVersioned)
  if pfx &&& 0x7f ≠ 0 then throw (.unsupportedVersion (pfx &&& 0x7f).toNat)
  let header ← MessageHeader.read
  let keys ← MessageWire.readKeys
  let blockhash ← MessageWire.readBlockhash
  let ixs ← MessageWire.readInstructions
  let n ← Reader.readLength "address table lookups"
  let lookups ← Reader.readMany TableLookup.read n
  let m : V0Message := ⟨header, keys, blockhash, ixs, lookups⟩
  match header.check keys.length (keys.length + m.numLoaded) ixs with
  | .error e => throw e
  | .ok () => pure m

/-- Decodes exactly one version-0 message. -/
def decode (bytes : List UInt8) : Except SolError V0Message := do
  let (m, rest) ← read.run bytes
  MessageWire.expectEnd rest
  pure m

end V0Message

/-- A message in either format. -/
inductive VersionedMessage where
  | legacy (m : LegacyMessage)
  | v0 (m : V0Message)
  deriving DecidableEq

namespace VersionedMessage

def header : VersionedMessage → MessageHeader
  | .legacy m => m.header
  | .v0 m => m.header

def staticKeys : VersionedMessage → List Address
  | .legacy m => m.accountKeys
  | .v0 m => m.staticKeys

def recentBlockhash : VersionedMessage → Blockhash
  | .legacy m => m.recentBlockhash
  | .v0 m => m.recentBlockhash

def instructions : VersionedMessage → List CompiledInstruction
  | .legacy m => m.instructions
  | .v0 m => m.instructions

def lookups : VersionedMessage → List TableLookup
  | .legacy _ => []
  | .v0 m => m.lookups

/-- The same message with another recent blockhash. -/
def setBlockhash (h : Blockhash) : VersionedMessage → VersionedMessage
  | .legacy m => .legacy { m with recentBlockhash := h }
  | .v0 m => .v0 { m with recentBlockhash := h }

/-- The keys that must sign: the first `numRequiredSignatures` static keys (as many as exist). -/
def signerKeys (m : VersionedMessage) : List Address :=
  m.staticKeys.take m.header.numRequiredSignatures.toNat

def isSigner (m : VersionedMessage) (i : Nat) : Bool := i < m.header.numRequiredSignatures.toNat

/-- The number of keys a message names, static and loaded. -/
def numKeys : VersionedMessage → Nat
  | .legacy m => m.accountKeys.length
  | .v0 m => m.staticKeys.length + m.numLoaded

def isWritable : VersionedMessage → Nat → Bool
  | .legacy m => m.isWritable
  | .v0 m => m.isWritable

/-- The keys of the message; a legacy message has only its static keys. -/
def keys (m : VersionedMessage) (src : KeySource) : Except SolError AccountKeys :=
  match m with
  | .legacy m => .ok m.keys
  | .v0 m => m.keys src

def encode : VersionedMessage → List UInt8
  | .legacy m => m.encode
  | .v0 m => m.encode

/-- Reads a message of either format, told apart by the top bit of the first byte. -/
def read : Reader VersionedMessage := do
  let pfx ← Reader.peekU8 "message prefix"
  if pfx < 0x80 then return .legacy (← LegacyMessage.read)
  if pfx &&& 0x7f = 0 then return .v0 (← V0Message.read)
  throw (.unsupportedVersion (pfx &&& 0x7f).toNat)

/-- Decodes exactly one message of either format. -/
def decode (bytes : List UInt8) : Except SolError VersionedMessage := do
  let (m, rest) ← read.run bytes
  MessageWire.expectEnd rest
  pure m

end VersionedMessage

end ChainTx
