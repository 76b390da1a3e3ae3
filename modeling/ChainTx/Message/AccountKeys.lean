import ChainTx.KeyTable
/-!
# The account keys of a message

A message's keys are its static keys, followed, for a versioned message whose lookups were
resolved, by the loaded writable keys and then the loaded readonly keys. An index into the keys
runs through these segments in that order. Compiling instructions against the keys replaces every
address by the index of its first occurrence; there can be at most 256 keys.
-/

namespace ChainTx

/-- The static keys of a message and the keys loaded from lookup tables, if resolved. -/
structure AccountKeys where
  static : List Address
  loaded : Option LoadedAddresses

namespace AccountKeys

/-- The segments of keys: the static keys, then, if any were loaded, the writable and the
readonly loaded keys. -/
def segments (k : AccountKeys) : List (List Address) :=
  match k.loaded with
  | some l => [k.static, l.writable, l.readonly]
  | none => [k.static]

/-- All keys in index order. -/
def all (k : AccountKeys) : List Address := k.segments.flatten

/-- The number of keys. -/
def size (k : AccountKeys) : Nat := k.all.length

/-- The key at an index of the segments, walked in order: an index past a segment goes on into
the next, less that segment's length. -/
def getIn : List (List Address) → Nat → Option Address
  | [], _ => none
  | seg :: rest, i => if i < seg.length then seg[i]? else getIn rest (i - seg.length)

/-- The key at an index. -/
def get? (k : AccountKeys) (i : Nat) : Option Address := getIn k.segments i

/-- The index of the first occurrence of a key. -/
def indexOf (k : AccountKeys) (a : Address) : Except SolError UInt8 :=
  match k.all.idxOf? a with
  | some i => .ok i.toUInt8
  | none => .error (.unknownInstructionKey a)

/-- One instruction with its program and accounts replaced by indexes. -/
def compileInstruction (k : AccountKeys) (ix : Instruction) : Except SolError CompiledInstruction := do
  let p ← k.indexOf ix.programId
  let accounts ← ix.accounts.mapM (fun a => k.indexOf a.pubkey)
  pure ⟨p, accounts, ix.data⟩

/-- Instructions compiled against the keys; fails past 256 keys or on a key not among them. -/
def compileInstructions (k : AccountKeys) (ixs : List Instruction) :
    Except SolError (List CompiledInstruction) :=
  if k.size > maxAccountKeys then .error .accountIndexOverflow
  else ixs.mapM k.compileInstruction

end AccountKeys

end ChainTx
