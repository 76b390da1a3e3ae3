import ChainTx.Api.Answer
import ChainTx.Wire.ShortVec
/-!
# Requests on keys and compact lengths

Reading, writing and comparing addresses, blockhashes and signatures, and the compact length
codec.
-/

namespace ChainTx.Api

/-- The text of an order. -/
def orderingText : Ordering → String
  | .lt => "less"
  | .eq => "equal"
  | .gt => "greater"

def addressParse (req : Json) : Handler Json := do
  let a ← addressField req "s"
  pure (obj [("address", addressJson a), ("hex", hexJson a.bytes),
    ("on_curve", .bool a.isOnCurve), ("is_default", .bool a.isDefault)])

def validateAddress (req : Json) : Handler Json := do
  let _ ← addressField req "s"
  pure (.bool true)

def addressFromHex (req : Json) : Handler Json := do
  let a ← lift (Address.fromSlice (← hexField req "hex"))
  pure (obj [("address", addressJson a), ("on_curve", .bool a.isOnCurve),
    ("is_default", .bool a.isDefault)])

def addressCmp (req : Json) : Handler Json := do
  let a ← addressField req "a"
  let b ← addressField req "b"
  pure (obj [("base58", .str (orderingText (a.compareText b))),
    ("bytes", .str (orderingText (a.compareRaw b))), ("equal", .bool (a == b))])

def hashParse (req : Json) : Handler Json := do
  let h ← blockhashField req "s"
  pure (obj [("hash", blockhashJson h), ("hex", hexJson h.bytes)])

def hashFromHex (req : Json) : Handler Json := do
  match Blockhash.fromSlice (← hexField req "hex") with
  | .ok h => pure (blockhashJson h)
  | .error _ => bad "hash must be 32 bytes"

def signatureParse (req : Json) : Handler Json := do
  let s ← signatureField req "s"
  pure (obj [("signature", signatureJson s), ("hex", hexJson s.bytes),
    ("is_empty", .bool s.isEmpty)])

def signatureFromHex (req : Json) : Handler Json := do
  let s ← lift (Signature.fromSlice (← hexField req "hex"))
  pure (obj [("signature", signatureJson s), ("is_empty", .bool s.isEmpty)])

def shortvecEncode (req : Json) : Handler Json := do
  pure (hexJson (ShortVec.encode (← u64Field req "len")))

def shortvecEncodeBytes (req : Json) : Handler Json := do
  pure (hexJson (ShortVec.encodeBytes (← hexField req "hex")))

def shortvecDecode (req : Json) : Handler Json := do
  let (v, used) ← lift (ShortVec.decode (← hexField req "hex"))
  pure (obj [("value", Json.nat v), ("consumed", Json.nat used)])

end ChainTx.Api
