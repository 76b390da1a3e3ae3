import ChainTx.Api.Keys
import ChainTx.Api.Derivation
import ChainTx.Api.Messages
import ChainTx.Api.Client
import ChainTx.Api.Simulation
import ChainTx.Json.Parse
/-!
# The request service

One request, one answer: the operation named by the request's `op` field is looked up and run,
and its value or failure becomes the answer.
-/

namespace ChainTx.Api

/-- The handler of each operation. -/
def handlers : List (String × (Json → Handler Json)) := [
  ("address_parse", addressParse),
  ("validate_address", validateAddress),
  ("address_from_hex", addressFromHex),
  ("address_cmp", addressCmp),
  ("hash_parse", hashParse),
  ("hash_from_hex", hashFromHex),
  ("signature_parse", signatureParse),
  ("signature_from_hex", signatureFromHex),
  ("shortvec_encode", shortvecEncode),
  ("shortvec_encode_bytes", shortvecEncodeBytes),
  ("shortvec_decode", shortvecDecode),
  ("pda_create", pdaCreate),
  ("pda_find", pdaFind),
  ("create_with_seed", createWithSeed),
  ("ata", ata),
  ("keypair_from_seed", keypairFromSeed),
  ("keypair_from_bytes", keypairFromBytes),
  ("keypair_from_base58", keypairFromBase58),
  ("sign_message", signMessage),
  ("verify", verify),
  ("message_compile", messageCompile),
  ("message_decode", messageDecode),
  ("get_account_keys", getAccountKeys),
  ("resolve_lookups", resolveLookupsOp),
  ("decompile", decompileOp),
  ("transaction_message", transactionMessageOp),
  ("compiled_keys", compiledKeysOp),
  ("account_keys", accountKeysOp),
  ("emptiness", emptinessOp),
  ("message_json", messageJsonOp),
  ("message_from_json", messageFromJson),
  ("system_encode", systemEncode),
  ("system_decode", systemDecode),
  ("compute_budget_encode", budgetEncode),
  ("compute_budget_decode", budgetDecode),
  ("memo_decode", memoDecode),
  ("build", build),
  ("registry_parse", registryParse),
  ("lookup_table_decode", lookupTableDecode),
  ("lookup_table_encode", lookupTableEncode),
  ("lookup_table_get", lookupTableGet),
  ("nonce_decode", nonceDecode),
  ("nonce_advance", nonceAdvance),
  ("transaction", transactionOp),
  ("versioned_transaction", versionedTransactionOp),
  ("populate", populateOp),
  ("generate_check", generateCheck),
  ("serde_roundtrip", roundTripAll),
  ("commitment", commitmentOp),
  ("retry_backoff", retryBackoff),
  ("connection_config", connectionConfigOp),
  ("signature_status", signatureStatusOp),
  ("client_error", clientErrorOp),
  ("debug_forms", debugForms),
  ("confirm", confirmOp),
  ("rpc_retry", rpcRetryOp),
  ("blockhash_cache", blockhashCacheOp),
  ("connection", connectionOp)]

/-- The answer to a request. -/
def respond (req : Json) : Json :=
  answerOf do
    let op ← strField req "op"
    match handlers.find? (·.1 == op) with
    | some (_, h) => h req
    | none => bad ("unknown op " ++ op)

/-- The answer to a request line, as one line of JSON text. -/
def respondLine (line : String) : String :=
  match Json.parse line with
  | .ok req => (respond req).render
  | .error e => (errorJson "BadInput" ("invalid JSON: " ++ e.message)).render

end ChainTx.Api
