import ChainTx.Account.LookupTable
import ChainTx.Message.Header
/-!
# Table lookups of versioned messages

A versioned message may load accounts from lookup tables: for each table it names the table's
address and two lists of one-byte indexes, the writable ones and the readonly ones. Resolving the
lookups against the tables gives the loaded addresses: all writable ones, table by table, then all
readonly ones.
-/

namespace ChainTx

/-- The accounts a message loads from one lookup table. -/
structure TableLookup where
  accountKey : Address
  writableIndexes : List UInt8
  readonlyIndexes : List UInt8
  deriving DecidableEq

/-- The accounts loaded from lookup tables, writable ones first. -/
structure LoadedAddresses where
  writable : List Address
  readonly : List Address
  deriving DecidableEq

namespace LoadedAddresses

/-- No loaded accounts. -/
def empty : LoadedAddresses := ⟨[], []⟩

/-- The number of loaded accounts. -/
def size (l : LoadedAddresses) : Nat := l.writable.length + l.readonly.length

/-- Loaded accounts of two groups of tables, one after the other. -/
def append (l m : LoadedAddresses) : LoadedAddresses := ⟨l.writable ++ m.writable, l.readonly ++ m.readonly⟩

end LoadedAddresses

namespace TableLookup

/-- The number of accounts one lookup loads. -/
def size (l : TableLookup) : Nat := l.writableIndexes.length + l.readonlyIndexes.length

/-- The wire form of one lookup. -/
def encode (l : TableLookup) : List UInt8 :=
  l.accountKey.bytes ++ ShortVec.encodeBytes l.writableIndexes ++
    ShortVec.encodeBytes l.readonlyIndexes

/-- Reads one lookup. -/
def read : Reader TableLookup := do
  let key ← MessageWire.readAddress "lookup table key"
  let w ← Reader.readVec "writable indexes"
  let r ← Reader.readVec "readonly indexes"
  pure ⟨key, w, r⟩

/-- The addresses at the given indexes of a table. -/
def fetch (t : LookupTable) : List UInt8 → Except SolError (List Address)
  | [] => .ok []
  | i :: rest => do
    let a ← t.get i.toNat
    let as ← fetch t rest
    pure (a :: as)

end TableLookup

/-- Resolves lookups against tables, each lookup against the first table of its key. -/
def resolveLookups (tables : List LookupTable) : List TableLookup → Except SolError LoadedAddresses
  | [] => .ok LoadedAddresses.empty
  | l :: rest => do
    let t ← match tables.find? (·.key == l.accountKey) with
      | some t => pure t
      | none => throw (.lookupTableNotFound l.accountKey)
    let w ← TableLookup.fetch t l.writableIndexes
    let r ← TableLookup.fetch t l.readonlyIndexes
    let more ← resolveLookups tables rest
    pure (LoadedAddresses.append ⟨w, r⟩ more)

end ChainTx
