import ChainTx.Text.Base58
/-!
# Blockhashes

A blockhash is the 32-byte hash that a message names as its recent block; its text is base58.
-/

namespace ChainTx

/-- A 32-byte blockhash. -/
structure Blockhash where
  bytes : List UInt8
  size_eq : bytes.length = 32

namespace Blockhash

/-- Blockhashes are equal exactly when their bytes are: the length proof carries nothing. -/
theorem bytes_inj {a b : Blockhash} : a.bytes = b.bytes ↔ a = b := by
  cases a with
  | mk x hx =>
    cases b with
    | mk y hy =>
      constructor
      · intro h
        cases h
        rfl
      · intro h
        cases h
        rfl

instance : DecidableEq Blockhash := fun _ _ => decidable_of_iff _ bytes_inj

theorem zero_bytes_length : (List.replicate 32 (0 : UInt8)).length = 32 := List.length_replicate

/-- The blockhash of 32 bytes. -/
def ofBytes? (b : List UInt8) : Option Blockhash :=
  if h : b.length = 32 then some ⟨b, h⟩ else none

/-- The all-zero blockhash. -/
def zero : Blockhash := ⟨List.replicate 32 0, zero_bytes_length⟩

instance : Inhabited Blockhash := ⟨zero⟩

/-- The base58 text. -/
def toBase58 (h : Blockhash) : String := Base58.encode h.bytes

/-- The diagnostic form `Hash(<base58>)`. -/
def debugText (h : Blockhash) : String := "Hash(" ++ h.toBase58 ++ ")"

end Blockhash

end ChainTx
