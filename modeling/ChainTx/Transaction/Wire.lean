import ChainTx.Key.Text
import ChainTx.Wire.Reader
/-!
# Transaction framing

A transaction on the wire is its signatures, prefixed with their compact count, followed by the
message bytes. At most 255 signatures fit the one-byte signer count of a message header, and the
whole frame must fit one packet: the IPv6 minimum MTU of 1280 bytes less 48 bytes of headers.
-/

namespace ChainTx.TransactionWire

/-- The largest transaction the network accepts. -/
def packetDataSize : Nat := 1280 - 40 - 8

/-- Frames signatures and message bytes, within the packet limit. -/
def encode (sigs : List Signature) (message : List UInt8) : Except SolError (List UInt8) :=
  if sigs.length > 255 then .error (.tooManySignatures sigs.length)
  else
    let bytes := ShortVec.encode sigs.length ++ sigs.flatMap (·.bytes) ++ message
    if bytes.length > packetDataSize then .error (.transactionTooLarge bytes.length packetDataSize)
    else .ok bytes

/-- One 64-byte signature. -/
def readSignature : Reader Signature := do
  let bytes ← Reader.readBytes 64 "signature"
  match Signature.ofBytes? bytes with
  | some s => pure s
  | none => throw (.unexpectedEof "signature")

/-- The signatures of a frame. -/
def readSignatures : Reader (List Signature) := do
  let n ← Reader.readLength "signatures"
  Reader.readMany readSignature n

end ChainTx.TransactionWire
