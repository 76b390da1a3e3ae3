import ChainTx.Api.Messages
import ChainTx.Program.Registry
import ChainTx.Account.Nonce
/-!
# Requests on program instructions and account data

Program instructions are objects tagged by `type`, with their fields under snake-case keys;
64-bit fields are decimal strings in answers and numbers or strings in requests. Account data is
hexadecimal text.
-/

namespace ChainTx.Api

/-! ## System program instructions -/

def systemIxJson : SystemInstruction → Json
  | .createAccount l s o => obj [("type", .str "CreateAccount"), ("lamports", u64Json l),
      ("space", u64Json s), ("owner", addressJson o)]
  | .assign o => obj [("type", .str "Assign"), ("owner", addressJson o)]
  | .transfer l => obj [("type", .str "Transfer"), ("lamports", u64Json l)]
  | .createAccountWithSeed b seed l s o => obj [("type", .str "CreateAccountWithSeed"),
      ("base", addressJson b), ("seed", .str seed), ("lamports", u64Json l), ("space", u64Json s),
      ("owner", addressJson o)]
  | .advanceNonceAccount => obj [("type", .str "AdvanceNonceAccount")]
  | .withdrawNonceAccount l => obj [("type", .str "WithdrawNonceAccount"), ("lamports", u64Json l)]
  | .initializeNonceAccount a => obj [("type", .str "InitializeNonceAccount"),
      ("authority", addressJson a)]
  | .authorizeNonceAccount a => obj [("type", .str "AuthorizeNonceAccount"),
      ("authority", addressJson a)]
  | .allocate s => obj [("type", .str "Allocate"), ("space", u64Json s)]
  | .allocateWithSeed b seed s o => obj [("type", .str "AllocateWithSeed"), ("base", addressJson b),
      ("seed", .str seed), ("space", u64Json s), ("owner", addressJson o)]
  | .assignWithSeed b seed o => obj [("type", .str "AssignWithSeed"), ("base", addressJson b),
      ("seed", .str seed), ("owner", addressJson o)]
  | .transferWithSeed l seed o => obj [("type", .str "TransferWithSeed"), ("lamports", u64Json l),
      ("from_seed", .str seed), ("from_owner", addressJson o)]
  | .upgradeNonceAccount => obj [("type", .str "UpgradeNonceAccount")]

/-- A system instruction `{type, ...fields}`. -/
def asSystemIx (j : Json) : Handler SystemInstruction := do
  match ← strField j "type" with
  | "CreateAccount" =>
    return .createAccount (← u64Field j "lamports") (← u64Field j "space") (← addressField j "owner")
  | "Assign" => return .assign (← addressField j "owner")
  | "Transfer" => return .transfer (← u64Field j "lamports")
  | "CreateAccountWithSeed" => do
    let base ← addressField j "base"
    let seed ← strField j "seed"
    let lamports ← u64Field j "lamports"
    let space ← u64Field j "space"
    return .createAccountWithSeed base seed lamports space (← addressField j "owner")
  | "AdvanceNonceAccount" => pure .advanceNonceAccount
  | "WithdrawNonceAccount" => return .withdrawNonceAccount (← u64Field j "lamports")
  | "InitializeNonceAccount" => return .initializeNonceAccount (← addressField j "authority")
  | "AuthorizeNonceAccount" => return .authorizeNonceAccount (← addressField j "authority")
  | "Allocate" => return .allocate (← u64Field j "space")
  | "AllocateWithSeed" => do
    let base ← addressField j "base"
    let seed ← strField j "seed"
    let space ← u64Field j "space"
    return .allocateWithSeed base seed space (← addressField j "owner")
  | "AssignWithSeed" =>
    return .assignWithSeed (← addressField j "base") (← strField j "seed") (← addressField j "owner")
  | "TransferWithSeed" =>
    return .transferWithSeed (← u64Field j "lamports") (← strField j "from_seed")
      (← addressField j "from_owner")
  | "UpgradeNonceAccount" => pure .upgradeNonceAccount
  | other => bad ("unknown system instruction type " ++ other)

def systemEncode (req : Json) : Handler Json := do
  let ix ← asSystemIx (← field req "ix")
  pure (obj [("hex", hexJson ix.encode), ("discriminant", Json.nat ix.discriminant)])

def systemDecode (req : Json) : Handler Json := do
  pure (systemIxJson (← lift (SystemInstruction.decode (← hexField req "hex"))))

/-! ## Compute budget instructions -/

def budgetIxJson : BudgetInstruction → Json
  | .requestUnitsDeprecated u f => obj [("type", .str "RequestUnitsDeprecated"),
      ("units", Json.nat u), ("additional_fee", Json.nat f)]
  | .requestHeapFrame b => obj [("type", .str "RequestHeapFrame"), ("bytes", Json.nat b)]
  | .setComputeUnitLimit u => obj [("type", .str "SetComputeUnitLimit"), ("units", Json.nat u)]
  | .setComputeUnitPrice p => obj [("type", .str "SetComputeUnitPrice"), ("micro_lamports", u64Json p)]
  | .setLoadedAccountsDataSizeLimit b => obj [("type", .str "SetLoadedAccountsDataSizeLimit"),
      ("bytes", Json.nat b)]

/-- A 32-bit field. -/
def u32Field (j : Json) (k : String) : Handler Nat := do
  asU32 (← field j k)

/-- A compute budget instruction `{type, ...fields}`. -/
def asBudgetIx (j : Json) : Handler BudgetInstruction := do
  match ← strField j "type" with
  | "RequestUnitsDeprecated" =>
    return .requestUnitsDeprecated (← u32Field j "units") (← u32Field j "additional_fee")
  | "RequestHeapFrame" => return .requestHeapFrame (← u32Field j "bytes")
  | "SetComputeUnitLimit" => return .setComputeUnitLimit (← u32Field j "units")
  | "SetComputeUnitPrice" => return .setComputeUnitPrice (← u64Field j "micro_lamports")
  | "SetLoadedAccountsDataSizeLimit" => return .setLoadedAccountsDataSizeLimit (← u32Field j "bytes")
  | other => bad ("unknown compute budget instruction type " ++ other)

def budgetEncode (req : Json) : Handler Json := do
  pure (hexJson (← asBudgetIx (← field req "ix")).encode)

def budgetDecode (req : Json) : Handler Json := do
  pure (budgetIxJson (← lift (BudgetInstruction.decode (← hexField req "hex"))))

def memoDecode (req : Json) : Handler Json := do
  pure (.str (← lift (MemoProgram.decode (← hexField req "hex"))))

/-! ## Builders and the registry -/

/-- An instruction from a named builder. -/
def build (req : Json) : Handler Json := do
  let ix ← match ← strField req "kind" with
    | "transfer" =>
      pure (SystemProgram.transfer (← addressField req "from") (← addressField req "to")
        (← u64Field req "lamports"))
    | "create_account" => do
      let src ← addressField req "from"
      let newAccount ← addressField req "new_account"
      let lamports ← u64Field req "lamports"
      let space ← u64Field req "space"
      pure (SystemProgram.createAccount src newAccount lamports space (← addressField req "owner"))
    | "assign" => pure (SystemProgram.assign (← addressField req "account") (← addressField req "owner"))
    | "allocate" => pure (SystemProgram.allocate (← addressField req "account") (← u64Field req "space"))
    | "advance_nonce_account" =>
      pure (SystemProgram.advanceNonceAccount (← addressField req "nonce_account")
        (← addressField req "authority"))
    | "initialize_nonce_account" =>
      pure (SystemProgram.initializeNonceAccount (← addressField req "nonce_account")
        (← addressField req "authority"))
    | "set_compute_unit_limit" => pure (BudgetProgram.setComputeUnitLimit (← u32Field req "units"))
    | "set_compute_unit_price" =>
      pure (BudgetProgram.setComputeUnitPrice (← u64Field req "micro_lamports"))
    | "request_heap_frame" => pure (BudgetProgram.requestHeapFrame (← u32Field req "bytes"))
    | "memo" => do
      let text ← strField req "text"
      let signers ← mapM' asAddress (← arrField req "signers")
      pure (MemoProgram.memo text signers)
    | other => bad ("unknown builder " ++ other)
  pure (instructionJson ix)

def kindName : ProgramKind → String
  | .system => "System"
  | .computeBudget => "ComputeBudget"
  | .memo => "Memo"

def asKind (j : Json) : Handler ProgramKind := do
  match ← asString j with
  | "System" => pure .system
  | "ComputeBudget" => pure .computeBudget
  | "Memo" => pure .memo
  | other => bad ("unknown program kind " ++ other)

def parsedJson : ParsedInstruction → Json
  | .system ix => obj [("kind", .str "System"), ("value", systemIxJson ix)]
  | .computeBudget ix => obj [("kind", .str "ComputeBudget"), ("value", budgetIxJson ix)]
  | .memo text => obj [("kind", .str "Memo"), ("value", .str text)]
  | .unknown p => obj [("kind", .str "Unknown"), ("program_id", addressJson p)]

/-- Registers each entry in turn, collecting the kinds they replaced. -/
def registerAll (r : ProgramRegistry) : List (Address × ProgramKind) →
    ProgramRegistry × List (Option ProgramKind)
  | [] => (r, [])
  | (k, kind) :: rest =>
    let (r, prev) := r.register k kind
    let (r, prevs) := registerAll r rest
    (r, prev :: prevs)

def registryParse (req : Json) : Handler Json := do
  let builtins := match optField req "builtins" with
    | some (.bool b) => b
    | _ => true
  let entries ← match optField req "register" with
    | some r => mapM' (fun e => do
        match ← asArray e with
        | [k, kind] => pure (← asAddress k, ← asKind kind)
        | _ => bad "expected [address, kind]") (← asArray r)
    | none => pure []
  let ix ← asInstruction (← field req "instruction")
  let (registry, previous) := registerAll (if builtins then .withBuiltins else .empty) entries
  pure (obj [("previous", .arr (previous.map (Json.opt (.str ∘ kindName)))),
    ("kind", Json.opt (.str ∘ kindName) (registry.kind ix.programId)),
    ("parsed", solAnswer parsedJson (registry.parse ix))])

/-! ## Lookup table and nonce accounts -/

def tableStateJson (s : LookupTableState) : Json :=
  obj [("type_index", Json.nat s.typeIndex.toNat), ("deactivation_slot", u64Json s.deactivationSlot.toNat),
    ("last_extended_slot", u64Json s.lastExtendedSlot.toNat),
    ("last_extended_slot_start_index", Json.nat s.lastExtendedSlotStartIndex.toNat),
    ("authority", Json.opt addressJson s.authority), ("addresses", addressListJson s.addresses)]

def lookupTableDecode (req : Json) : Handler Json := do
  let data ← hexField req "hex"
  let key ← match optField req "key" with
    | some k => asAddress k
    | none => pure Address.zero
  let state ← lift (LookupTableState.decode data)
  let t : LookupTable := ⟨key, state⟩
  let count := min state.addresses.length 255
  pure (obj [("state", tableStateJson state), ("is_active", .bool t.isActive),
    ("reencoded", hexJson state.encode),
    ("get", .arr ((List.range (count + 1)).map fun i => solAnswer addressJson (t.get i)))])

/-- A table state with the answer's field names; a null authority is none. -/
def asTableState (j : Json) : Handler LookupTableState := do
  let typeIndex ← asU32 (← field j "type_index")
  let deactivation ← u64Field j "deactivation_slot"
  let lastExtended ← u64Field j "last_extended_slot"
  let startIndex ← asU8 (← field j "last_extended_slot_start_index")
  let authority ← optWith j "authority" asAddress
  let addresses ← mapM' asAddress (← arrField j "addresses")
  pure ⟨typeIndex.toUInt32, deactivation.toUInt64, lastExtended.toUInt64, startIndex.toUInt8,
    authority, addresses⟩

def lookupTableEncode (req : Json) : Handler Json := do
  let state ← asTableState (← field req "state")
  let data := state.encode
  pure (obj [("hex", hexJson data),
    ("decoded", solAnswer tableStateJson (LookupTableState.decode data))])

def lookupTableGet (req : Json) : Handler Json := do
  let t ← asLookupTable req
  let index ← asU8 (← field req "index")
  let a ← lift (t.get index)
  pure (obj [("address", addressJson a), ("is_active", .bool t.isActive)])

def nonceDecode (req : Json) : Handler Json := do
  let n ← lift (NonceAccount.decode (← hexField req "hex"))
  pure (obj [("version", Json.nat n.version), ("state", Json.nat n.state),
    ("authorized_pubkey", addressJson n.authorizedPubkey), ("nonce", blockhashJson n.nonce),
    ("lamports_per_signature", u64Json n.lamportsPerSignature),
    ("is_initialized", .bool n.isInitialized)])

def nonceAdvance (req : Json) : Handler Json := do
  let nonce ← blockhashField req "nonce"
  let info := NonceInfo.advance nonce (← addressField req "account") (← addressField req "authority")
  pure (obj [("nonce", blockhashJson info.nonce), ("instruction", instructionJson info.instruction)])

end ChainTx.Api
