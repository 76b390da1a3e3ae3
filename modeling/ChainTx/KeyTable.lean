import ChainTx.Message.Lookup
/-!
# The account table of a message

Compiling instructions gathers every account they name, once, with its roles: signer, writable,
invoked as a program. The fee payer is a writable signer. The keys are then ordered, fee payer
first and the rest by their base58 text, and split into the four runs of a message header. Keys
that are neither signers nor programs may instead be drained into a lookup table's indexes, first
the writable ones, then the readonly ones; an index past 255 fails, and the keys drained before
it stay drained.
-/

namespace ChainTx

/-- The roles of a key in a message. -/
structure KeyMeta where
  isSigner : Bool
  isWritable : Bool
  isInvoked : Bool
  deriving DecidableEq, Inhabited

/-- The most account keys a message may carry. -/
def maxAccountKeys : Nat := 256

/-- The keys of a message being compiled, each once, with their roles. -/
structure KeyTable where
  payer : Address
  entries : List (Address × KeyMeta)

namespace KeyTable

/-- No roles. -/
def KeyMeta.none : KeyMeta := ⟨false, false, false⟩

/-- Changes the roles of a key, adding it with no roles first if it is new. -/
def upsert (k : Address) (f : KeyMeta → KeyMeta) : List (Address × KeyMeta) → List (Address × KeyMeta)
  | [] => [(k, f KeyMeta.none)]
  | (k', m) :: rest => if k' = k then (k', f m) :: rest else (k', m) :: upsert k f rest

/-- Adds the accounts of one instruction. -/
def addInstruction (entries : List (Address × KeyMeta)) (ix : Instruction) :
    List (Address × KeyMeta) :=
  let entries := upsert ix.programId (fun m => { m with isInvoked := true }) entries
  ix.accounts.foldl (fun es a =>
    upsert a.pubkey (fun m => ⟨m.isSigner || a.isSigner, m.isWritable || a.isWritable, m.isInvoked⟩) es)
    entries

/-- The table of a fee payer and instructions. -/
def compile (ixs : List Instruction) (payer : Address) : KeyTable :=
  ⟨payer, ixs.foldl addInstruction (upsert payer (fun m => { m with isSigner := true, isWritable := true }) [])⟩

/-- The roles of a key. -/
def get? (t : KeyTable) (k : Address) : Option KeyMeta := (t.entries.find? (·.1 == k)).map (·.2)

/-- The number of keys. -/
def size (t : KeyTable) : Nat := t.entries.length

/-- The sort key of an entry: not the payer, then the base58 text. -/
def rank (payer : Address) (k : Address) : Bool × String := (k != payer, k.toBase58)

/-- Whether one rank comes before or equals another. -/
def rankLe (a b : Bool × String) : Bool :=
  match a.1, b.1 with
  | false, true => true
  | true, false => false
  | _, _ => decide (a.2 ≤ b.2)

/-- The keys in message order: the fee payer first, then by base58 text. -/
def ordered (t : KeyTable) : List (Address × KeyMeta) :=
  let ranked := t.entries.map fun (k, m) => (rank t.payer k, k, m)
  (ranked.mergeSort (fun a b => rankLe a.1 b.1)).map (·.2)

/-- A count as a header byte. -/
def countByte (n : Nat) : Except SolError UInt8 :=
  if n < 256 then .ok n.toUInt8 else .error (.tooManyAccountKeys n)

/-- The header and keys of the message: writable signers, readonly signers, writable
non-signers, readonly non-signers, each run in key order. -/
def components (t : KeyTable) : Except SolError (MessageHeader × List Address) := do
  if t.size > maxAccountKeys then throw (.tooManyAccountKeys t.size)
  let keys := t.ordered
  let ws := keys.filter (fun e => e.2.isSigner && e.2.isWritable)
  let rs := keys.filter (fun e => e.2.isSigner && !e.2.isWritable)
  let wn := keys.filter (fun e => !e.2.isSigner && e.2.isWritable)
  let rn := keys.filter (fun e => !e.2.isSigner && !e.2.isWritable)
  match ws.head? with
  | none => throw .noWritableSigner
  | some (first, _) => if first ≠ t.payer then throw .payerNotFirst
  let nrs ← countByte (ws.length + rs.length)
  let ros ← countByte rs.length
  let rou ← countByte rn.length
  pure (⟨nrs, ros, rou⟩, (ws ++ rs ++ wn ++ rn).map (·.1))

/-- Drains, in the given order, the keys whose roles pass `keep` and that the table lists,
giving the entries left and the indexes and keys drained, or the overflow of an index past 255
with the entries left at that point. -/
def drain (addresses : List Address) (keep : KeyMeta → Bool) :
    List (Address × KeyMeta) → List (Address × KeyMeta) →
      List (Address × KeyMeta) × Except SolError (List UInt8 × List Address)
  | [], entries => (entries, .ok ([], []))
  | (k, m) :: rest, entries =>
    if !keep m then drain addresses keep rest entries
    else match addresses.idxOf? k with
      | none => drain addresses keep rest entries
      | some i =>
        if i > 255 then (entries, .error (.lookupTableIndexOverflow i))
        else
          let (left, r) := drain addresses keep rest (entries.filter (·.1 != k))
          (left, r.map fun (is, ks) => (i.toUInt8 :: is, k :: ks))

/-- Moves the writable, then the readonly, non-signer non-program keys that a table lists into
a lookup of that table. Gives the table left and the lookup with its loaded keys, or nothing
when no key is found, or an index overflow. -/
def extract (t : KeyTable) (table : LookupTable) :
    KeyTable × Except SolError (Option (TableLookup × LoadedAddresses)) :=
  let (left, rw) := drain table.addresses (fun m => !m.isSigner && !m.isInvoked && m.isWritable)
    t.ordered t.entries
  let t1 : KeyTable := ⟨t.payer, left⟩
  match rw with
  | .error e => (t1, .error e)
  | .ok (wi, wk) =>
    let (left2, rr) := drain table.addresses (fun m => !m.isSigner && !m.isInvoked && !m.isWritable)
      t1.ordered t1.entries
    let t2 : KeyTable := ⟨t.payer, left2⟩
    match rr with
    | .error e => (t2, .error e)
    | .ok (ri, rk) =>
      if wi.isEmpty && ri.isEmpty then (t2, .ok none)
      else (t2, .ok (some (⟨table.key, wi, ri⟩, ⟨wk, rk⟩)))

end KeyTable

end ChainTx
