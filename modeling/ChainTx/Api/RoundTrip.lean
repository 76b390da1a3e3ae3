import ChainTx.Api.Transactions
/-!
# Reading and writing JSON forms

A value given in the JSON form of a named type is read as that type and written back in the same
form; a value that is no such form fails with the reading error.
-/

namespace ChainTx.Api

/-- Reads with `d` and writes back with `f`. -/
def through {α : Type} (d : Decode.Decoder α) (f : α → Json) (j : Json) : Handler Json :=
  f <$> decodeWith d j

/-- The JSON forms by type name. -/
def forms : List (String × (Json → Handler Json)) := [
  ("Address", through Forms.address Forms.addressJson),
  ("Hash", through Forms.blockhash Forms.blockhashJson),
  ("Signature", through Forms.signature Forms.signatureJson),
  ("AccountMeta", through Forms.accountMeta Forms.accountMetaJson),
  ("Instruction", through Forms.instruction Forms.instructionJson),
  ("CompiledInstruction", through Forms.compiledInstruction Forms.compiledInstructionJson),
  ("MessageHeader", through Forms.header Forms.headerJson),
  ("Message", through Forms.legacyMessage Forms.legacyMessageJson),
  ("MessageV0", through Forms.v0Message Forms.v0MessageJson),
  ("MessageAddressTableLookup", through Forms.tableLookup Forms.tableLookupJson),
  ("TransactionVersion", through Forms.version Forms.versionJson),
  ("LoadedAddresses", through Forms.loaded Forms.loadedJson),
  ("AddressLookupTableState", through Forms.tableState Forms.tableStateJson),
  ("AddressLookupTableAccount", through Forms.table Forms.tableJson)]

/-- The diagnostic forms and byte views of the given values. -/
def debugForms (req : Json) : Handler Json := do
  let address ← optWith req "address" asAddress
  let hash ← optWith req "hash" asBlockhash
  let sig ← optWith req "signature" asSignature
  let seed ← optWith req "seed" asKeypair
  let compiled ← optWith req "compiled" fun c => do
    let p ← asU8 (← field c "program_id_index")
    let accounts ← mapM' asU8 (← arrField c "accounts")
    let data ← hexField c "data"
    pure (⟨p.toUInt8, accounts.map Nat.toUInt8, data⟩ : CompiledInstruction)
  let entries : List (List (String × Json)) := [
    match address with
    | some a => [("address", .str a.debugText), ("address_bytes", hexJson a.bytes)]
    | none => [],
    match hash with
    | some h => [("hash", .str h.debugText), ("hash_bytes", hexJson h.bytes)]
    | none => [],
    match sig with
    | some s => [("signature", .str s.debugText), ("signature_bytes", hexJson s.bytes),
        ("signature_to_bytes", hexJson s.bytes), ("is_default", .bool s.isEmpty)]
    | none => [],
    match seed with
    | some k => [("keypair", .str k.debugText)]
    | none => [],
    match compiled with
    | some c => [("compiled", .str c.debugText)]
    | none => []]
  pure (obj entries.flatten)

end ChainTx.Api
