import ChainTx.Crypto.Field
/-!
# The Edwards form of Curve25519

Points of `-x^2 + y^2 = 1 + d x^2 y^2` over the field of `Fp`, held in extended coordinates
`(X : Y : Z : T)` with `x = X/Z`, `y = Y/Z`, `x y = T/Z`. The addition law is complete, so the
same formula doubles. A point is written as 32 bytes: `y` little-endian with the parity of `x` in
the top bit. Reading such bytes takes the low 255 bits as `y` reduced modulo `p` and accepts
exactly the `y` for which `x^2 = (y^2 - 1) / (d y^2 + 1)` has a root; the root taken is the
non-negative one, negated when the top bit is set.
-/

namespace ChainTx.Edwards

open Fp

/-- The curve constant `d = -121665 / 121666`. -/
def d : Nat := mul (neg 121665) (inv 121666)

/-- `2 d`. -/
def d2 : Nat := Fp.add d d

/-- A point in extended coordinates. -/
structure Point where
  x : Nat
  y : Nat
  z : Nat
  t : Nat

/-- The neutral element. -/
def identity : Point := ⟨0, 1, 1, 0⟩

/-- The sum of two points. -/
def Point.add (P Q : Point) : Point :=
  let a := mul (sub P.y P.x) (sub Q.y Q.x)
  let b := mul (Fp.add P.y P.x) (Fp.add Q.y Q.x)
  let c := mul (mul P.t d2) Q.t
  let dd := mul (mul P.z 2) Q.z
  let e := sub b a
  let f := sub dd c
  let g := Fp.add dd c
  let h := Fp.add b a
  ⟨mul e f, mul g h, mul f g, mul e h⟩

/-- The opposite point. -/
def Point.neg (P : Point) : Point := ⟨Fp.neg P.x, P.y, P.z, Fp.neg P.t⟩

/-- `n` times a point, by doubling and adding. -/
def Point.smul (n : Nat) (P : Point) : Point :=
  if n = 0 then identity
  else
    let half := Point.smul (n / 2) P
    let twice := half.add half
    if n % 2 = 1 then twice.add P else twice
termination_by n
decreasing_by omega

/-- The value of little-endian bytes. -/
def leValue (bytes : List UInt8) : Nat :=
  bytes.foldr (fun b acc => b.toNat + 256 * acc) 0

/-- `n` little-endian bytes of a number. -/
def leBytes (n : Nat) (v : Nat) : List UInt8 :=
  (List.range n).map fun i => (v / Nat.pow 256 i % 256).toUInt8

/-- The 32-byte encoding of a point. -/
def Point.compress (P : Point) : List UInt8 :=
  let zi := inv P.z
  let x := mul P.x zi
  let y := mul P.y zi
  leBytes 32 (y + (x % 2) * Nat.pow 2 255)

/-- The point with coordinate `y` whose `x` has the given sign, if there is one. -/
def pointOfY? (y : Nat) (negative : Bool) : Option Point :=
  let yy := square y
  let u := sub yy 1
  let v := Fp.add (mul yy d) 1
  (sqrtRatio? u v).map fun x =>
    let x := if negative then Fp.neg x else x
    ⟨x, y % p, 1, mul x y⟩

/-- Reads a point from 32 bytes. -/
def decompress? (bytes : List UInt8) : Option Point :=
  let raw := leValue bytes
  pointOfY? (raw % Nat.pow 2 255 % p) (raw / Nat.pow 2 255 % 2 = 1)

/-- The base point, `y = 4/5` with non-negative `x`. -/
def basepoint : Point :=
  (pointOfY? (mul 4 (inv 5)) false).getD identity

end ChainTx.Edwards
