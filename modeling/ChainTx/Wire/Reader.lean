import ChainTx.Wire.ShortVec
/-!
# Reading wire bytes

A reader takes bytes off the front of a byte string and either gives a value with the bytes left,
or fails. Every read names what it was reading, and running out of bytes fails with that name.
-/

namespace ChainTx

/-- A reader of values from the front of a byte string. -/
abbrev Reader := StateT (List UInt8) (Except SolError)

/-- The value of little-endian bytes. -/
def leValue (bytes : List UInt8) : Nat :=
  bytes.foldr (fun b acc => b.toNat + 256 * acc) 0

namespace Reader

/-- Runs a reader on bytes. -/
def run {α : Type} (r : Reader α) (bytes : List UInt8) : Except SolError (α × List UInt8) :=
  StateT.run r bytes

/-- The next byte, left in place. -/
def peekU8 (what : String) : Reader UInt8 := fun bytes =>
  match bytes with
  | [] => .error (.unexpectedEof what)
  | b :: _ => .ok (b, bytes)

/-- The next byte. -/
def readU8 (what : String) : Reader UInt8 := fun bytes =>
  match bytes with
  | [] => .error (.unexpectedEof what)
  | b :: rest => .ok (b, rest)

/-- The next `n` bytes. -/
def readBytes (n : Nat) (what : String) : Reader (List UInt8) := fun bytes =>
  if bytes.length < n then .error (.unexpectedEof what) else .ok (bytes.take n, bytes.drop n)

/-- A compact length; running out of bytes inside it fails with `what`. -/
def readLength (what : String) : Reader Nat := fun bytes =>
  match ShortVec.decode bytes with
  | .ok (n, used) => .ok (n, bytes.drop used)
  | .error (.unexpectedEof _) => .error (.unexpectedEof what)
  | .error e => .error e

/-- A byte string prefixed with its compact length. -/
def readVec (what : String) : Reader (List UInt8) := do
  let n ← readLength what
  readBytes n what

/-- `n` values read one after another. -/
def readMany {α : Type} (item : Reader α) : Nat → Reader (List α)
  | 0 => pure []
  | n + 1 => do
    let x ← item
    let xs ← readMany item n
    pure (x :: xs)

/-- A little-endian number of `n` bytes. -/
def readLE (n : Nat) (what : String) : Reader Nat := do
  let bytes ← readBytes n what
  pure (leValue bytes)

end Reader

/-- `n` little-endian bytes of a number. -/
def leBytes (n : Nat) (v : Nat) : List UInt8 :=
  (List.range n).map fun i => (v / Nat.pow 256 i % 256).toUInt8

end ChainTx
