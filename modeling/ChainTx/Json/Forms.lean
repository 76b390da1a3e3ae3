import ChainTx.Json.Decode
import ChainTx.Message.V0
import ChainTx.Account.LookupTable
/-!
# JSON forms of the core values

Keys, hashes and signatures are their base58 text; byte strings are arrays of numbers; records
are objects with camel-case keys. Reading a key text checks it exactly as parsing does, and its
failure text becomes the decoding error. A message is taken as it is written, with no check of
its header against its keys.
-/

namespace ChainTx.Forms

open Decode

/-- The version a message or transaction is written in. -/
inductive TxVersion where
  | legacy
  | number (n : Nat)
  deriving DecidableEq

def addressJson (a : Address) : Json := .str a.toBase58
def blockhashJson (h : Blockhash) : Json := .str h.toBase58
def signatureJson (s : Signature) : Json := .str s.toBase58
def bytesJson (bs : List UInt8) : Json := .arr (bs.map fun b => Json.nat b.toNat)
def addressesJson (as : List Address) : Json := .arr (as.map addressJson)

def address : Decoder Address := parsedString Address.parse SolError.message
def blockhash : Decoder Blockhash := parsedString Blockhash.parse SolError.message
def signature : Decoder Signature := parsedString Signature.parse SolError.message

/-- A byte. -/
def byte : Decoder UInt8 := fun j => (u8 j).map Nat.toUInt8

def bytes : Decoder (List UInt8) := list byte

def accountMetaJson (m : AccountMeta) : Json :=
  .mkObj [("pubkey", addressJson m.pubkey), ("isSigner", .bool m.isSigner),
    ("isWritable", .bool m.isWritable)]

def accountMeta : Decoder AccountMeta :=
  record "AccountMeta" [check "pubkey" address, check "isSigner" bool, check "isWritable" bool]
    fun r => do
      let k ← r.field 0 "pubkey" address
      let s ← r.field 1 "isSigner" bool
      let w ← r.field 2 "isWritable" bool
      pure ⟨k, s, w⟩

def instructionJson (ix : Instruction) : Json :=
  .mkObj [("programId", addressJson ix.programId), ("accounts", .arr (ix.accounts.map accountMetaJson)),
    ("data", bytesJson ix.data)]

def instruction : Decoder Instruction :=
  record "Instruction" [check "programId" address, check "accounts" (list accountMeta),
      check "data" bytes]
    fun r => do
      let p ← r.field 0 "programId" address
      let a ← r.field 1 "accounts" (list accountMeta)
      let d ← r.field 2 "data" bytes
      pure ⟨p, a, d⟩

def compiledInstructionJson (ix : CompiledInstruction) : Json :=
  .mkObj [("programIdIndex", Json.nat ix.programIdIndex.toNat), ("accounts", bytesJson ix.accounts),
    ("data", bytesJson ix.data)]

def compiledInstruction : Decoder CompiledInstruction :=
  record "CompiledInstruction" [check "programIdIndex" byte, check "accounts" bytes,
      check "data" bytes]
    fun r => do
      let p ← r.field 0 "programIdIndex" byte
      let a ← r.field 1 "accounts" bytes
      let d ← r.field 2 "data" bytes
      pure ⟨p, a, d⟩

def headerJson (h : MessageHeader) : Json :=
  .mkObj [("numRequiredSignatures", Json.nat h.numRequiredSignatures.toNat),
    ("numReadonlySignedAccounts", Json.nat h.numReadonlySigned.toNat),
    ("numReadonlyUnsignedAccounts", Json.nat h.numReadonlyUnsigned.toNat)]

def header : Decoder MessageHeader :=
  record "MessageHeader" [check "numRequiredSignatures" byte,
      check "numReadonlySignedAccounts" byte, check "numReadonlyUnsignedAccounts" byte]
    fun r => do
      let a ← r.field 0 "numRequiredSignatures" byte
      let b ← r.field 1 "numReadonlySignedAccounts" byte
      let c ← r.field 2 "numReadonlyUnsignedAccounts" byte
      pure ⟨a, b, c⟩

def legacyMessageJson (m : LegacyMessage) : Json :=
  .mkObj [("header", headerJson m.header), ("accountKeys", addressesJson m.accountKeys),
    ("recentBlockhash", blockhashJson m.recentBlockhash),
    ("instructions", .arr (m.instructions.map compiledInstructionJson))]

def legacyMessage : Decoder LegacyMessage :=
  record "Message" [check "header" header, check "accountKeys" (list address),
      check "recentBlockhash" blockhash, check "instructions" (list compiledInstruction)]
    fun r => do
      let h ← r.field 0 "header" header
      let k ← r.field 1 "accountKeys" (list address)
      let b ← r.field 2 "recentBlockhash" blockhash
      let i ← r.field 3 "instructions" (list compiledInstruction)
      pure ⟨h, k, b, i⟩

def tableLookupJson (l : TableLookup) : Json :=
  .mkObj [("accountKey", addressJson l.accountKey), ("writableIndexes", bytesJson l.writableIndexes),
    ("readonlyIndexes", bytesJson l.readonlyIndexes)]

def tableLookup : Decoder TableLookup :=
  record "MessageAddressTableLookup" [check "accountKey" address, check "writableIndexes" bytes,
      check "readonlyIndexes" bytes]
    fun r => do
      let k ← r.field 0 "accountKey" address
      let w ← r.field 1 "writableIndexes" bytes
      let ro ← r.field 2 "readonlyIndexes" bytes
      pure ⟨k, w, ro⟩

def v0MessageJson (m : V0Message) : Json :=
  .mkObj [("header", headerJson m.header), ("accountKeys", addressesJson m.staticKeys),
    ("recentBlockhash", blockhashJson m.recentBlockhash),
    ("instructions", .arr (m.instructions.map compiledInstructionJson)),
    ("addressTableLookups", .arr (m.lookups.map tableLookupJson))]

def v0Message : Decoder V0Message :=
  record "MessageV0" [check "header" header, check "accountKeys" (list address),
      check "recentBlockhash" blockhash, check "instructions" (list compiledInstruction),
      check "addressTableLookups" (list tableLookup)]
    fun r => do
      let h ← r.field 0 "header" header
      let k ← r.field 1 "accountKeys" (list address)
      let b ← r.field 2 "recentBlockhash" blockhash
      let i ← r.field 3 "instructions" (list compiledInstruction)
      let l ← r.field 4 "addressTableLookups" (list tableLookup)
      pure ⟨h, k, b, i, l⟩

def versionJson : TxVersion → Json
  | .legacy => .str "legacy"
  | .number n => Json.nat n

/-- The word `legacy` or a version number below 256. -/
def version : Decoder TxVersion
  | .str "legacy" => .ok .legacy
  | .str s => .error (.custom ("unknown transaction version " ++ Quoted.string s))
  | .num (.int i) =>
    if 0 ≤ i ∧ i < 256 then .ok (.number i.toNat)
    else .error (.custom "data did not match any variant of untagged enum Raw")
  | _ => .error (.custom "data did not match any variant of untagged enum Raw")

def loadedJson (l : LoadedAddresses) : Json :=
  .mkObj [("writable", addressesJson l.writable), ("readonly", addressesJson l.readonly)]

def loaded : Decoder LoadedAddresses :=
  record "LoadedAddresses" [check "writable" (list address), check "readonly" (list address)]
    fun r => do
      let w ← r.field 0 "writable" (list address)
      let ro ← r.field 1 "readonly" (list address)
      pure ⟨w, ro⟩

def tableStateJson (s : LookupTableState) : Json :=
  .mkObj [("typeIndex", Json.nat s.typeIndex.toNat),
    ("deactivationSlot", Json.nat s.deactivationSlot.toNat),
    ("lastExtendedSlot", Json.nat s.lastExtendedSlot.toNat),
    ("lastExtendedSlotStartIndex", Json.nat s.lastExtendedSlotStartIndex.toNat),
    ("authority", Json.opt addressJson s.authority), ("addresses", addressesJson s.addresses)]

def tableState : Decoder LookupTableState :=
  record "AddressLookupTableState" [check "typeIndex" u32, check "deactivationSlot" u64,
      check "lastExtendedSlot" u64, check "lastExtendedSlotStartIndex" byte,
      check "authority" (option address), check "addresses" (list address)]
    fun r => do
      let t ← r.field 0 "typeIndex" u32
      let d ← r.field 1 "deactivationSlot" u64
      let l ← r.field 2 "lastExtendedSlot" u64
      let s ← r.field 3 "lastExtendedSlotStartIndex" byte
      let a ← r.optField 4 "authority" address
      let as ← r.field 5 "addresses" (list address)
      pure ⟨t.toUInt32, d.toUInt64, l.toUInt64, s, a, as⟩

def tableJson (t : LookupTable) : Json :=
  .mkObj [("key", addressJson t.key), ("state", tableStateJson t.state)]

def table : Decoder LookupTable :=
  record "AddressLookupTableAccount" [check "key" address, check "state" tableState]
    fun r => do
      let k ← r.field 0 "key" address
      let s ← r.field 1 "state" tableState
      pure ⟨k, s⟩

end ChainTx.Forms
