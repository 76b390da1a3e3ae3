import ChainTx.Api.Answer
import ChainTx.Key.Derive
/-!
# Requests on derived addresses and keypairs
-/

namespace ChainTx.Api

def pdaCreate (req : Json) : Handler Json := do
  let seeds ← mapM' asHex (← arrField req "seeds")
  let program ← addressField req "program_id"
  pure (addressJson (← lift (Address.createProgramAddress seeds program)))

def pdaFind (req : Json) : Handler Json := do
  let seeds ← mapM' asHex (← arrField req "seeds")
  let program ← addressField req "program_id"
  let (a, bump) ← lift (Address.findProgramAddress seeds program)
  pure (obj [("address", addressJson a), ("bump", Json.nat bump)])

def createWithSeed (req : Json) : Handler Json := do
  let base ← addressField req "base"
  let seed ← strField req "seed"
  let owner ← addressField req "owner"
  pure (addressJson (← lift (Address.createWithSeed base seed owner)))

def ata (req : Json) : Handler Json := do
  let wallet ← addressField req "wallet"
  let mint ← addressField req "mint"
  pure (addressJson (← lift (Address.associatedTokenAddress wallet mint)))

/-- The public key and both forms of the secret of a keypair. -/
def keypairJson (k : Keypair) : Json :=
  obj [("pubkey", addressJson k.pubkey), ("secret_hex", hexJson k.toBytes),
    ("secret_base58", .str (Base58.encode k.toBytes))]

def keypairFromSeed (req : Json) : Handler Json := do
  pure (keypairJson (← lift (Keypair.fromSeed (← hexField req "hex"))))

def keypairFromBytes (req : Json) : Handler Json := do
  pure (keypairJson (← lift (Keypair.fromBytes (← hexField req "hex"))))

def keypairFromBase58 (req : Json) : Handler Json := do
  pure (keypairJson (← lift (Keypair.fromBase58 (← strField req "s"))))

def signMessage (req : Json) : Handler Json := do
  let k ← asKeypair (← field req "seed")
  let msg ← hexField req "message"
  let sig := k.sign msg
  pure (obj [("signature", signatureJson sig), ("verifies", .bool (k.pubkey.verifies msg sig.bytes))])

def verify (req : Json) : Handler Json := do
  let a ← addressField req "address"
  let msg ← hexField req "message"
  let sig ← signatureField req "signature"
  pure (.bool (a.verifies msg sig.bytes))

end ChainTx.Api
