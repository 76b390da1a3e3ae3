import ChainTx.Message.V0
/-!
# Transaction messages

A transaction message is what a message is compiled from: a fee payer, instructions with full
account roles, and a recent blockhash. Decompiling a message gives it back: each index becomes its
key, with the roles the header and the lookups assign to that index. The header must leave at
least one writable signer and must not claim more unsigned readonly keys than there are.
-/

namespace ChainTx

/-- A fee payer, instructions and a recent blockhash, not yet compiled. -/
structure TransactionMessage where
  payer : Address
  instructions : List Instruction
  recentBlockhash : Blockhash
  deriving DecidableEq

namespace TransactionMessage

/-- Compiles into a legacy message. -/
def toLegacy (tm : TransactionMessage) : Except SolError LegacyMessage :=
  LegacyMessage.compile tm.payer tm.instructions tm.recentBlockhash

/-- Compiles into a version-0 message, loading what it can from tables. -/
def toV0 (tm : TransactionMessage) (tables : List LookupTable) : Except SolError V0Message :=
  V0Message.compile tm.payer tm.instructions tm.recentBlockhash tables

/-- The roles of the key at an index, from the header counts and the loaded writable count. -/
def roleAt (nrs nws numStatic nwu nwl : Nat) (i : Nat) : Bool × Bool :=
  if i < nrs then (true, i < nws)
  else if i < numStatic then (false, i - nrs < nwu)
  else (false, i - numStatic < nwl)

/-- Decompiles a message, its loaded keys taken from `src`. -/
def decompile (m : VersionedMessage) (src : KeySource) : Except SolError TransactionMessage := do
  let h := m.header
  let nrs := h.numRequiredSignatures.toNat
  let ros := h.numReadonlySigned.toNat
  let rou := h.numReadonlyUnsigned.toNat
  let numStatic := m.staticKeys.length
  if ros ≥ nrs then throw (.invalidMessage .invalidHeader)
  let nws := nrs - ros
  if numStatic < nrs + rou then throw (.invalidMessage .invalidHeader)
  let nwu := numStatic - nrs - rou
  let keys ← m.keys src
  let payer ← match keys.get? 0 with
    | some p => pure p
    | none => throw (.invalidMessage .noAccountKeys)
  let nwl := match keys.loaded with
    | some l => l.writable.length
    | none => 0
  let ixs ← m.instructions.mapM fun cix => do
    let accounts ← cix.accounts.mapM fun i => do
      match keys.get? i.toNat with
      | some k =>
        let (s, w) := roleAt nrs nws numStatic nwu nwl i.toNat
        pure (⟨k, s, w⟩ : AccountMeta)
      | none => throw (.invalidMessage (.missingAccountKey i.toNat))
    match keys.get? cix.programIdIndex.toNat with
    | some p => pure (⟨p, accounts, cix.data⟩ : Instruction)
    | none => throw (.invalidMessage (.missingProgramId cix.programIdIndex.toNat))
  pure ⟨payer, ixs, m.recentBlockhash⟩

end TransactionMessage

end ChainTx
