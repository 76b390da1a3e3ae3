/-!
# SHA-256

The hash of FIPS 180-4: the message is padded with one set bit, zeros and its bit length as a
64-bit big-endian number to a whole number of 64-byte blocks; each block is expanded to 64
schedule words and folded into eight 32-bit state words by 64 rounds. The digest is the final
state, big-endian.
-/

namespace ChainTx.Sha256

/-- The round constants. -/
def roundConstants : List UInt32 := [
  0x428a2f98, 0x71374491, 0xb5c0fbcf, 0xe9b5dba5, 0x3956c25b, 0x59f111f1, 0x923f82a4, 0xab1c5ed5,
  0xd807aa98, 0x12835b01, 0x243185be, 0x550c7dc3, 0x72be5d74, 0x80deb1fe, 0x9bdc06a7, 0xc19bf174,
  0xe49b69c1, 0xefbe4786, 0x0fc19dc6, 0x240ca1cc, 0x2de92c6f, 0x4a7484aa, 0x5cb0a9dc, 0x76f988da,
  0x983e5152, 0xa831c66d, 0xb00327c8, 0xbf597fc7, 0xc6e00bf3, 0xd5a79147, 0x06ca6351, 0x14292967,
  0x27b70a85, 0x2e1b2138, 0x4d2c6dfc, 0x53380d13, 0x650a7354, 0x766a0abb, 0x81c2c92e, 0x92722c85,
  0xa2bfe8a1, 0xa81a664b, 0xc24b8b70, 0xc76c51a3, 0xd192e819, 0xd6990624, 0xf40e3585, 0x106aa070,
  0x19a4c116, 0x1e376c08, 0x2748774c, 0x34b0bcb5, 0x391c0cb3, 0x4ed8aa4a, 0x5b9cca4f, 0x682e6ff3,
  0x748f82ee, 0x78a5636f, 0x84c87814, 0x8cc70208, 0x90befffa, 0xa4506ceb, 0xbef9a3f7, 0xc67178f2]

/-- The initial state. -/
def initialState : List UInt32 :=
  [0x6a09e667, 0xbb67ae85, 0x3c6ef372, 0xa54ff53a, 0x510e527f, 0x9b05688c, 0x1f83d9ab, 0x5be0cd19]

/-- Rotation to the right. -/
def rotr (x : UInt32) (n : UInt32) : UInt32 := (x >>> n) ||| (x <<< (32 - n))

def bigSigma0 (x : UInt32) : UInt32 := rotr x 2 ^^^ rotr x 13 ^^^ rotr x 22
def bigSigma1 (x : UInt32) : UInt32 := rotr x 6 ^^^ rotr x 11 ^^^ rotr x 25
def smallSigma0 (x : UInt32) : UInt32 := rotr x 7 ^^^ rotr x 18 ^^^ (x >>> 3)
def smallSigma1 (x : UInt32) : UInt32 := rotr x 17 ^^^ rotr x 19 ^^^ (x >>> 10)

/-- A big-endian word from four bytes. -/
def wordOf (b : List UInt8) : UInt32 :=
  b.foldl (fun acc x => (acc <<< 8) ||| x.toUInt32) 0

/-- The sixteen words of a 64-byte block. -/
def blockWords (block : List UInt8) : List UInt32 :=
  (List.range 16).map fun i => wordOf ((block.drop (4 * i)).take 4)

/-- The 64 schedule words of a block. -/
def schedule (block : List UInt8) : Array UInt32 :=
  (List.range 48).foldl
    (fun w _ =>
      let t := w.size
      w.push (smallSigma1 (w.getD (t - 2) 0) + w.getD (t - 7) 0 +
        smallSigma0 (w.getD (t - 15) 0) + w.getD (t - 16) 0))
    (blockWords block).toArray

/-- The eight working words of the rounds. -/
structure Working where
  a : UInt32
  b : UInt32
  c : UInt32
  d : UInt32
  e : UInt32
  f : UInt32
  g : UInt32
  h : UInt32

/-- One round with constant `k` and schedule word `w`. -/
def round (s : Working) (k w : UInt32) : Working :=
  let t1 := s.h + bigSigma1 s.e + ((s.e &&& s.f) ^^^ ((~~~ s.e) &&& s.g)) + k + w
  let t2 := bigSigma0 s.a + ((s.a &&& s.b) ^^^ (s.a &&& s.c) ^^^ (s.b &&& s.c))
  ⟨t1 + t2, s.a, s.b, s.c, s.d + t1, s.e, s.f, s.g⟩

/-- Folds one block into the state. -/
def compress (state : List UInt32) (block : List UInt8) : List UInt32 :=
  let w := schedule block
  let v : Working := ⟨state.getD 0 0, state.getD 1 0, state.getD 2 0, state.getD 3 0,
    state.getD 4 0, state.getD 5 0, state.getD 6 0, state.getD 7 0⟩
  let r := (List.range 64).foldl (fun s i => round s (roundConstants.getD i 0) (w.getD i 0)) v
  List.zipWith (· + ·) state [r.a, r.b, r.c, r.d, r.e, r.f, r.g, r.h]

/-- Big-endian bytes of a number, `n` of them. -/
def bigEndian (n : Nat) (v : Nat) : List UInt8 :=
  (List.range n).reverse.map fun i => (v / Nat.pow 256 i % 256).toUInt8

/-- The message followed by its padding. -/
def pad (msg : List UInt8) : List UInt8 :=
  let len := msg.length
  let zeros := (119 - len % 64) % 64
  msg ++ [0x80] ++ List.replicate zeros 0 ++ bigEndian 8 (8 * len)

/-- Folds the blocks of a padded message into the state. -/
def compressAll (state : List UInt32) (bytes : List UInt8) : List UInt32 :=
  if bytes.length < 64 then state
  else compressAll (compress state (bytes.take 64)) (bytes.drop 64)
termination_by bytes.length
decreasing_by simp; omega

/-- The SHA-256 digest of a byte string, 32 bytes. -/
def hash (msg : List UInt8) : List UInt8 :=
  (compressAll initialState (pad msg)).flatMap fun w => bigEndian 4 w.toNat

end ChainTx.Sha256
