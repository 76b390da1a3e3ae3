import ChainTx.Api.Answer
import ChainTx.Message.Draft
import ChainTx.Json.Forms
/-!
# Requests on messages

Instructions, lookup tables and loaded addresses are read from the request; a message is given
as wire bytes (`hex`, with a `format`), as what to compile (`compile`), or as its JSON form.
Messages are answered as one object with their parts and their wire bytes.
-/

namespace ChainTx.Api

/-! ## Reading -/

/-- An account with its roles, `[address, is_signer, is_writable]`. -/
def asAccountMeta (j : Json) : Handler AccountMeta := do
  match ← asArray j with
  | [k, s, w] => pure ⟨← asAddress k, ← asBool s, ← asBool w⟩
  | _ => bad "expected [pubkey, is_signer, is_writable]"

/-- An instruction; missing accounts or data are empty. -/
def asInstruction (j : Json) : Handler Instruction := do
  let program ← addressField j "program_id"
  let accounts ← match optField j "accounts" with
    | some a => mapM' asAccountMeta (← asArray a)
    | none => pure []
  let data ← match optField j "data" with
    | some d => asHex d
    | none => pure []
  pure ⟨program, accounts, data⟩

/-- The instructions under a key; an absent list is empty. -/
def instructionsField (req : Json) (k : String) : Handler (List Instruction) := do
  match optField req k with
  | some v => mapM' asInstruction (← asArray v)
  | none => pure []

/-- A lookup table `{key, addresses, deactivation_slot?}`, active unless a slot is given. -/
def asLookupTable (j : Json) : Handler LookupTable := do
  let key ← addressField j "key"
  let addresses ← mapM' asAddress (← arrField j "addresses")
  let t := LookupTable.ofAddresses key addresses
  match ← optWith j "deactivation_slot" asU64 with
  | some s => pure { t with state := { t.state with deactivationSlot := s.toUInt64 } }
  | none => pure t

/-- An optional list of tables. -/
def tablesField (req : Json) (k : String) : Handler (List LookupTable) := do
  match optField req k with
  | some t => mapM' asLookupTable (← asArray t)
  | none => pure []

/-- Loaded addresses `{writable, readonly}`, each list optional. -/
def asLoaded (j : Json) : Handler LoadedAddresses := do
  let w ← match optField j "writable" with
    | some v => mapM' asAddress (← asArray v)
    | none => pure []
  let r ← match optField j "readonly" with
    | some v => mapM' asAddress (← asArray v)
    | none => pure []
  pure ⟨w, r⟩

/-- A transaction message: `payer`, `instructions`, `blockhash`. -/
def asTransactionMessage (j : Json) : Handler TransactionMessage := do
  let payer ← addressField j "payer"
  let ixs ← instructionsField j "instructions"
  let blockhash ← blockhashField j "blockhash"
  pure ⟨payer, ixs, blockhash⟩

/-- Compiles `{version?, payer, instructions, blockhash, tables?}`. The version is `legacy` unless
it is given as text; the tables are read only for a `v0` message. -/
def compileRequest (j : Json) : Handler VersionedMessage := do
  let tm ← asTransactionMessage j
  match textOr j "version" "legacy" with
  | "legacy" => .legacy <$> lift tm.toLegacy
  | "v0" => .v0 <$> lift (tm.toV0 (← tablesField j "tables"))
  | other => bad ("unknown version " ++ other)

/-- Decodes wire bytes in a format: `versioned` (the default, also for a format that is not
text), `legacy` or `v0`. -/
def decodeRequest (j : Json) : Handler VersionedMessage := do
  let bytes ← hexField j "hex"
  match textOr j "format" "versioned" with
  | "versioned" => lift (VersionedMessage.decode bytes)
  | "legacy" => .legacy <$> lift (LegacyMessage.decode bytes)
  | "v0" => .v0 <$> lift (V0Message.decode bytes)
  | other => bad ("unknown format " ++ other)

/-! ## Answering -/

def headerJson (h : MessageHeader) : Json :=
  .arr [Json.nat h.numRequiredSignatures.toNat, Json.nat h.numReadonlySigned.toNat,
    Json.nat h.numReadonlyUnsigned.toNat]

def byteListJson (bs : List UInt8) : Json := .arr (bs.map (Json.nat ·.toNat))

def addressListJson (as : List Address) : Json := .arr (as.map addressJson)

def compiledInstructionJson (ix : CompiledInstruction) : Json :=
  obj [("program_id_index", Json.nat ix.programIdIndex.toNat),
    ("accounts", byteListJson ix.accounts), ("data", hexJson ix.data)]

def tableLookupJson (l : TableLookup) : Json :=
  obj [("account_key", addressJson l.accountKey), ("writable_indexes", byteListJson l.writableIndexes),
    ("readonly_indexes", byteListJson l.readonlyIndexes)]

def loadedJson (l : LoadedAddresses) : Json :=
  obj [("writable", addressListJson l.writable), ("readonly", addressListJson l.readonly)]

def instructionJson (ix : Instruction) : Json :=
  obj [("program_id", addressJson ix.programId),
    ("accounts", .arr (ix.accounts.map fun a =>
      .arr [addressJson a.pubkey, .bool a.isSigner, .bool a.isWritable])),
    ("data", hexJson ix.data)]

/-- The parts of a message and its wire bytes. -/
def messageFields (m : VersionedMessage) : List (String × Json) :=
  [("version", match m with | .legacy _ => .str "legacy" | .v0 _ => Json.nat 0),
   ("header", headerJson m.header),
   ("account_keys", addressListJson m.staticKeys),
   ("recent_blockhash", blockhashJson m.recentBlockhash),
   ("instructions", .arr (m.instructions.map compiledInstructionJson)),
   ("address_table_lookups", .arr (m.lookups.map tableLookupJson)),
   ("hex", hexJson m.encode)]

def messageJson (m : VersionedMessage) : Json := obj (messageFields m)

/-- A message with its account queries. -/
def messageQueryJson (m : VersionedMessage) (extra : List (String × Json)) : Json :=
  let idx := List.range (m.numKeys + 2)
  let common := [("signer_keys", addressListJson m.signerKeys),
    ("is_signer", .arr (idx.map fun i => .bool (m.isSigner i))),
    ("is_writable", .arr (idx.map fun i => .bool (m.isWritable i)))]
  let specific := match m with
    | .legacy lm => [("program_ids", addressListJson lm.programIds),
        ("non_program_ids", addressListJson lm.nonProgramIds),
        ("is_program_id", .arr (idx.map fun i => .bool (lm.isProgramId i)))]
    | .v0 vm => [("num_loaded", Json.nat vm.numLoaded)]
  obj (messageFields m ++ common ++ specific ++ extra)

/-- The object of account keys. -/
def accountKeysFields (k : AccountKeys) : List (String × Json) :=
  [("len", Json.nat k.size), ("static", addressListJson k.static),
   ("loaded", Json.opt loadedJson k.loaded), ("segments", Json.nat k.segments.length),
   ("all", addressListJson k.all), ("get_past_end", Json.opt addressJson (k.get? k.size))]

/-! ## Operations -/

def messageCompile (req : Json) : Handler Json := do
  pure (messageQueryJson (← compileRequest req) [])

def messageDecode (req : Json) : Handler Json := do
  pure (messageQueryJson (← decodeRequest req) [])

/-- A message written in its JSON form, `json_legacy` or `json_v0`, taken without checks. -/
def jsonMessage? (req : Json) : Option (Handler VersionedMessage) :=
  match optField req "json_legacy", optField req "json_v0" with
  | some j, _ => some (.legacy <$> decodeWith Forms.legacyMessage j)
  | none, some j => some (.v0 <$> decodeWith Forms.v0Message j)
  | none, none => none

/-- A message given as its JSON form, as wire bytes, or as what to compile, in that order of
preference. -/
def messageOf (req : Json) : Handler VersionedMessage := do
  match jsonMessage? req with
  | some h => h
  | none =>
    match optField req "hex", optField req "compile" with
    | none, some c => compileRequest c
    | _, _ => decodeRequest req

def messageJsonOp (req : Json) : Handler Json := do
  match ← compileRequest req with
  | .legacy m => pure (Forms.legacyMessageJson m)
  | .v0 m => pure (Forms.v0MessageJson m)

def messageFromJson (req : Json) : Handler Json := do
  let m ← messageOf req
  let extra := match m with
    | .v0 vm => [("v0_is_signer", .arr ((List.range (m.numKeys + 2)).map fun i =>
        .bool (vm.isSigner i)))]
    | .legacy _ => []
  pure (messageQueryJson m extra)

/-- Where loaded keys come from: `loaded` if given, else the tables under `tablesKey`. -/
def keySourceOf (req : Json) (tablesKey : String) : Handler KeySource := do
  let tables ← tablesField req tablesKey
  let loaded ← optWith req "loaded" asLoaded
  pure ⟨loaded, tables⟩

def getAccountKeys (req : Json) : Handler Json := do
  let m ← messageOf req
  let src ← keySourceOf req "tables"
  pure (obj (accountKeysFields (← lift (m.keys src))))

def resolveLookupsOp (req : Json) : Handler Json := do
  match ← messageOf req with
  | .v0 vm => pure (loadedJson (← lift (vm.resolve (← tablesField req "tables"))))
  | .legacy _ => bad "resolve needs a v0 message"

def decompileOp (req : Json) : Handler Json := do
  let m ← messageOf req
  let src ← keySourceOf req "tables"
  let recompileTables ← tablesField req "recompile_tables"
  let tm ← lift (TransactionMessage.decompile m src)
  pure (obj [("payer", addressJson tm.payer), ("recent_blockhash", blockhashJson tm.recentBlockhash),
    ("instructions", .arr (tm.instructions.map instructionJson)),
    ("legacy", solAnswer (messageJson ∘ .legacy) tm.toLegacy),
    ("v0", solAnswer (messageJson ∘ .v0) (tm.toV0 recompileTables))])

def transactionMessageOp (req : Json) : Handler Json := do
  let tm ← asTransactionMessage req
  let tables ← tablesField req "tables"
  pure (obj [("legacy", solAnswer (messageJson ∘ .legacy) tm.toLegacy),
    ("v0", solAnswer (messageJson ∘ .v0) (tm.toV0 tables))])

/-- The extraction of each table in turn, stopping after the first failure; gives the entries and
the table left. -/
def extractionsJson (t : KeyTable) : List LookupTable → List Json × KeyTable
  | [] => ([], t)
  | table :: rest =>
    match t.extract table with
    | (t', .error e) => ([solErrorJson e], t')
    | (t', .ok none) =>
      let (js, t'') := extractionsJson t' rest
      (.null :: js, t'')
    | (t', .ok (some (l, loaded))) =>
      let entry := obj [("account_key", addressJson l.accountKey),
        ("writable_indexes", byteListJson l.writableIndexes),
        ("readonly_indexes", byteListJson l.readonlyIndexes),
        ("loaded", loadedJson loaded), ("len_after", Json.nat t'.size)]
      let (js, t'') := extractionsJson t' rest
      (entry :: js, t'')

def compiledKeysOp (req : Json) : Handler Json := do
  let ixs ← instructionsField req "instructions"
  let payer ← addressField req "payer"
  let tables ← tablesField req "tables"
  let query ← match optField req "query" with
    | some q => mapM' asAddress (← asArray q)
    | none => pure []
  let t := KeyTable.compile ixs payer
  let metas := query.map fun k => Json.opt (fun (m : KeyMeta) =>
    .arr [.bool m.isSigner, .bool m.isWritable, .bool m.isInvoked]) (t.get? k)
  let (extractions, t') := extractionsJson t tables
  let components := solAnswer (fun (hk : MessageHeader × List Address) =>
    obj [("header", headerJson hk.1), ("keys", addressListJson hk.2)]) t'.components
  pure (obj [("len", Json.nat t.size), ("metas", .arr metas), ("extractions", .arr extractions),
    ("components", components), ("payer", addressJson payer)])

def accountKeysOp (req : Json) : Handler Json := do
  let static ← mapM' asAddress (← arrField req "static")
  let loaded ← optWith req "loaded" asLoaded
  let ixs ← instructionsField req "instructions"
  let k : AccountKeys := ⟨static, loaded⟩
  pure (obj (accountKeysFields k ++
    [("compiled", solAnswer (fun cs => .arr (cs.map compiledInstructionJson)) (k.compileInstructions ixs))]))

def emptinessOp (req : Json) : Handler Json := do
  let loaded ← optWith req "loaded" asLoaded
  let ixs ← instructionsField req "instructions"
  let payer ← addressField req "payer"
  let static ← mapM' asAddress (← arrField req "static")
  let k : AccountKeys := ⟨static, loaded⟩
  let t := KeyTable.compile ixs payer
  pure (obj [("account_keys_is_empty", .bool (k.size == 0)),
    ("loaded_is_empty", Json.opt (fun (l : LoadedAddresses) => .bool (l.size == 0)) loaded),
    ("compiled_keys_is_empty", .bool (t.size == 0)), ("compiled_keys_len", Json.nat t.size)])

end ChainTx.Api
