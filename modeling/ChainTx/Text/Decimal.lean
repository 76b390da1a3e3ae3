/-!
# Shortest decimals of binary64 values

A decimal written in a text stands for the binary64 value nearest to it (ties to the even
significand). That value is written back with the fewest significant digits that still read back
as it: the reals that round to a value form an interval around it, from halfway to the value below
to halfway to the value above, the ends included exactly when the significand is even. The search
tries grids of one, two, … significant digits; on each it tests the value's two neighbours, the
first grid with a hit wins, the nearer of two hits, and an exact tie goes to the even digit.

Values are laid out positionally when the exponent of the leading digit lies in `-5 … 15` (an
integral value keeps `.0`), and otherwise as `d.ddde±X`, the exponent with its sign and no
padding.

A signed value is a `Binary64`: zero of either sign, or a finite magnitude. Its arithmetic rounds
the exact result to the nearest value, a tie to the even significand, as binary64 hardware does.
-/

namespace ChainTx.Decimal

/-- A finite non-negative binary64 value `m * 2^q`. -/
structure Binary where
  m : Nat
  q : Int
  /-- The gap to the value below is half the gap to the value above. -/
  narrowBelow : Bool
  deriving Repr, DecidableEq

/-- `digits * 10^exp`. -/
structure Dec where
  digits : Nat
  exp : Int
  deriving Repr, DecidableEq

/-- Compares `a * 10^i` with `n * 2^j`, exactly. -/
def cmpScaled (a : Nat) (i : Int) (n : Nat) (j : Int) : Ordering :=
  compare (a * Nat.pow 10 i.toNat * Nat.pow 2 (-j).toNat)
    (n * Nat.pow 2 j.toNat * Nat.pow 10 (-i).toNat)

/-- Whether a decimal lies among the reals that round to `x`. -/
def Binary.readsBack (x : Binary) (d : Dec) : Bool :=
  let lo := if x.narrowBelow then 4 * x.m - 1 else 4 * x.m - 2
  let hi := 4 * x.m + 2
  let incl := x.m % 2 == 0
  let cl := cmpScaled d.digits d.exp lo (x.q - 2)
  let ch := cmpScaled d.digits d.exp hi (x.q - 2)
  (cl == .gt || (incl && cl == .eq)) && (ch == .lt || (incl && ch == .eq))

/-- `num / den` rounded to the nearest natural number, a tie to the even one. -/
def roundDiv (num den : Nat) : Nat :=
  let q := num / den
  let r := num % den
  if 2 * r > den then q + 1
  else if 2 * r < den then q
  else if q % 2 = 0 then q else q + 1

/-- Whether `a ≥ b * 2^k`. -/
def geScaledPow2 (a b : Nat) (k : Int) : Bool :=
  a * Nat.pow 2 (-k).toNat ≥ b * Nat.pow 2 k.toNat

/-- The binary64 value nearest to the positive rational `a / b`, or `none` past the largest
finite value. -/
def Binary.ofRatio (a b : Nat) : Option Binary :=
  let k0 : Int := (Nat.log2 a : Int) - (Nat.log2 b : Int)
  let k := if geScaledPow2 a b k0 then k0 else k0 - 1
  let q := max (k - 52) (-1074)
  let m := if q ≥ 0 then roundDiv a (b * Nat.pow 2 q.toNat)
    else roundDiv (a * Nat.pow 2 (-q).toNat) b
  let (m, q) := if m = Nat.pow 2 53 then (Nat.pow 2 52, q + 1) else (m, q)
  if q > 971 then none else some ⟨m, q, m == Nat.pow 2 52 && q > -1074⟩

/-- The binary64 value nearest to `mantissa * 10^exponent`. -/
def Binary.ofDecimal (mantissa : Nat) (exponent : Int) : Option Binary :=
  Binary.ofRatio (mantissa * Nat.pow 10 exponent.toNat) (Nat.pow 10 (-exponent).toNat)

/-- The least `k` with `m * 2^q < 10^k`, searched upward from an estimate. -/
def scale (x : Binary) : Int :=
  let est : Int := ((Nat.log2 x.m : Int) + x.q) * 3 / 10 - 1
  let rec up (k : Int) : Nat → Int
    | 0 => k
    | fuel + 1 => if cmpScaled 1 k x.m x.q == .gt then k else up (k + 1) fuel
  up est 40

/-- Drops trailing zero digits into the exponent. -/
def Dec.strip (d : Dec) : Dec :=
  if d.digits = 0 then d
  else
    let rec go (n : Nat) (e : Int) : Nat → Dec
      | 0 => ⟨n, e⟩
      | fuel + 1 => if n % 10 = 0 ∧ n ≠ 0 then go (n / 10) (e + 1) fuel else ⟨n, e⟩
    go d.digits d.exp 400

/-- On the grid `10^g`, the hit among the two neighbours of `x`, if any. -/
def gridHit (x : Binary) (g : Int) : Option Dec :=
  -- ⌊x / 10^g⌋ by exact integers
  let num := x.m * Nat.pow 2 x.q.toNat * Nat.pow 10 (-g).toNat
  let den := Nat.pow 2 (-x.q).toNat * Nat.pow 10 g.toNat
  let lo := num / den
  let a : Dec := ⟨lo, g⟩
  let b : Dec := ⟨lo + 1, g⟩
  match x.readsBack a, x.readsBack b with
  | true, true =>
    -- twice the value against the sum of the two neighbours
    match compare (2 * num) ((2 * lo + 1) * den) with
    | .lt => some a
    | .gt => some b
    | .eq => if lo % 2 = 0 then some a else some b
  | true, false => some a
  | false, true => some b
  | false, false => none

/-- The shortest decimal that reads back as a positive value. -/
def shortest (x : Binary) : Dec :=
  let k := scale x
  let found := (List.range 17).findSome? fun n => gridHit x (k - (n + 1 : Nat))
  match found with
  | some d => d.strip
  | none => (Dec.strip ⟨x.m * Nat.pow 5 (-x.q).toNat * Nat.pow 2 x.q.toNat, min x.q 0⟩)

/-- Decimal digits of a natural number. -/
def digitsText (n : Nat) : String := toString n

/-- The layout of a non-negative decimal (digits without trailing zeros). -/
def layout (d : Dec) : String :=
  let ds := digitsText d.digits
  let nd := ds.length
  let lead : Int := d.exp + nd - 1
  if -5 ≤ lead ∧ lead < 16 then
    if d.exp ≥ 0 then ds ++ String.ofList (List.replicate d.exp.toNat '0') ++ ".0"
    else if lead ≥ 0 then
      let cut := (lead + 1).toNat
      String.ofList (ds.toList.take cut) ++ "." ++ String.ofList (ds.toList.drop cut)
    else "0." ++ String.ofList (List.replicate (-lead - 1).toNat '0') ++ ds
  else
    let mant := match ds.toList with
      | [c] => String.singleton c
      | c :: rest => String.singleton c ++ "." ++ String.ofList rest
      | [] => "0"
    mant ++ "e" ++ (if lead < 0 then "-" else "+") ++ toString lead.natAbs

/-! ## Signed values and their arithmetic -/

/-- A finite binary64 value `±m · 2^q`: `m < 2^53`, below `2^52` only at the least exponent
`-1074`, and `m = 0` for a zero of either sign. -/
structure Binary64 where
  negative : Bool
  m : Nat
  q : Int
  deriving Repr, DecidableEq, Inhabited

namespace Binary64

/-- Positive zero. -/
def zero : Binary64 := ⟨false, 0, 0⟩

/-- The value nearest to `±a / b`, or `none` past the largest finite value. -/
def ofRatio (negative : Bool) (a b : Nat) : Option Binary64 :=
  if a = 0 then some ⟨negative, 0, 0⟩
  else (Binary.ofRatio a b).map fun x => ⟨negative, x.m, if x.m = 0 then 0 else x.q⟩

/-- The value nearest to a natural number. -/
def ofNat (n : Nat) : Option Binary64 := ofRatio false n 1

/-- The value nearest to `10^k`. -/
def pow10 (k : Nat) : Option Binary64 := ofRatio false (Nat.pow 10 k) 1

/-- The exact magnitude `m · 2^q` as a numerator and a denominator. -/
def ratio (x : Binary64) : Nat × Nat :=
  if x.q ≥ 0 then (x.m * Nat.pow 2 x.q.toNat, 1) else (x.m, Nat.pow 2 (-x.q).toNat)

/-- The rounded product; `none` when it overflows. -/
def mul (x y : Binary64) : Option Binary64 :=
  let (a, b) := x.ratio
  let (c, d) := y.ratio
  ofRatio (x.negative != y.negative) (a * c) (b * d)

/-- The rounded quotient by a non-zero divisor; `none` when it overflows. -/
def div (x y : Binary64) : Option Binary64 :=
  let (a, b) := x.ratio
  let (c, d) := y.ratio
  ofRatio (x.negative != y.negative) (a * d) (b * c)

def neg (x : Binary64) : Binary64 := { x with negative := !x.negative }

def isZero (x : Binary64) : Bool := x.m == 0

/-- The shortest text that reads back as the value: `0.0` for zero, with its sign. -/
def text (x : Binary64) : String :=
  let sign := if x.negative then "-" else ""
  if x.m = 0 then sign ++ "0.0"
  else sign ++ layout (shortest ⟨x.m, x.q, x.m == Nat.pow 2 52 && x.q > -1074⟩)

end Binary64

end ChainTx.Decimal
