/-!
# The field of Curve25519

Arithmetic modulo the prime `p = 2^255 - 19` on natural numbers, every result reduced below `p`.
Besides the ring operations it holds inversion by Fermat's little theorem and the square root of
a ratio used to recover a point from its `y` coordinate.
-/

namespace ChainTx.Fp

/-- The field prime `2^255 - 19`. -/
def p : Nat := Nat.pow 2 255 - 19

/-- `b ^ e` modulo `m`, by squaring. -/
def powMod (b e m : Nat) : Nat :=
  if e = 0 then 1 % m
  else
    let h := powMod b (e / 2) m
    let h2 := h * h % m
    if e % 2 = 1 then h2 * b % m else h2
termination_by e
decreasing_by omega

def add (a b : Nat) : Nat := (a + b) % p
def sub (a b : Nat) : Nat := (a % p + p - b % p) % p
def mul (a b : Nat) : Nat := a * b % p
def neg (a : Nat) : Nat := (p - a % p) % p
def square (a : Nat) : Nat := a * a % p

/-- The inverse of a non-zero element (zero goes to zero). -/
def inv (a : Nat) : Nat := powMod a (p - 2) p

/-- A square root of `-1`. -/
def sqrtMinusOne : Nat := powMod 2 ((p - 1) / 4) p

/-- Whether an element is negative, that is, odd once reduced. -/
def isNegative (a : Nat) : Bool := a % p % 2 = 1

/-- The non-negative one of `a` and `-a`. -/
def abs (a : Nat) : Nat := if isNegative a then neg a else a % p

/-- The non-negative square root of `u / v`, when `u / v` is a square (`v ≠ 0`); `u = 0` gives 0. -/
def sqrtRatio? (u v : Nat) : Option Nat :=
  let v3 := mul (square v) v
  let v7 := mul (square v3) v
  let r := mul (mul u v3) (powMod (mul u v7) ((p - 5) / 8) p)
  let check := mul v (square r)
  if check = u % p then some (abs r)
  else if check = neg u then some (abs (mul r sqrtMinusOne))
  else none

end ChainTx.Fp
