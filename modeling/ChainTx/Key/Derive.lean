import ChainTx.Key.Text
import ChainTx.Key.WellKnown
import ChainTx.Crypto.Sha256
/-!
# Derived addresses

A program-derived address is the SHA-256 hash of the seeds, the program id and the marker
`ProgramDerivedAddress`, accepted only when it is no point of the curve, so that no key can sign
for it. At most 16 seeds of at most 32 bytes each are allowed. Finding one appends a bump byte,
trying 255 down to 1, and takes the first that lands off the curve. An address with a seed is
the hash of a base, a text seed and an owner, with no curve check. An associated token account
is the program-derived address of `[wallet, token program, mint]` under the associated token
account program.
-/

namespace ChainTx.Address

/-- The most seeds of a program-derived address. -/
def maxSeeds : Nat := 16

/-- The longest seed. -/
def maxSeedLength : Nat := 32

/-- The marker hashed after the program id. -/
def derivationMarker : List UInt8 := "ProgramDerivedAddress".toUTF8.toList

/-- The first seed longer than allowed, if any. -/
def firstLongSeed? (seeds : List (List UInt8)) : Option Nat :=
  (seeds.find? (·.length > maxSeedLength)).map List.length

/-- The program-derived address of seeds under a program. -/
def createProgramAddress (seeds : List (List UInt8)) (program : Address) :
    Except SolError Address :=
  if seeds.length > maxSeeds then .error (.maxSeedsExceeded seeds.length maxSeeds)
  else match firstLongSeed? seeds with
    | some n => .error (.maxSeedLengthExceeded n maxSeedLength)
    | none =>
      let hash := Sha256.hash (seeds.flatten ++ program.bytes ++ derivationMarker)
      match Address.ofBytes? hash with
      | none => .error .invalidSeeds
      | some a => if a.isOnCurve then .error .invalidSeeds else .ok a

/-- Tries the bumps `bump`, `bump - 1`, …, `1`. -/
def findWithBump (seeds : List (List UInt8)) (program : Address) :
    Nat → Except SolError (Address × Nat)
  | 0 => .error .noViableBump
  | bump + 1 =>
    match createProgramAddress (seeds ++ [[(bump + 1).toUInt8]]) program with
    | .ok a => .ok (a, bump + 1)
    | .error .invalidSeeds => findWithBump seeds program bump
    | .error e => .error e

/-- The program-derived address with the highest bump that lands off the curve. -/
def findProgramAddress (seeds : List (List UInt8)) (program : Address) :
    Except SolError (Address × Nat) :=
  findWithBump seeds program 255

/-- The address derived from a base, a text seed and an owner. -/
def createWithSeed (base : Address) (seed : String) (owner : Address) : Except SolError Address :=
  let s := seed.toUTF8.toList
  if s.length > maxSeedLength then .error (.maxSeedLengthExceeded s.length maxSeedLength)
  else match Address.ofBytes? (Sha256.hash (base.bytes ++ s ++ owner.bytes)) with
    | some a => .ok a
    | none => .error .invalidSeeds

/-- The associated token account of a wallet for a mint. -/
def associatedTokenAddress (wallet mint : Address) : Except SolError Address :=
  (findProgramAddress [wallet.bytes, tokenProgram.bytes, mint.bytes] associatedTokenProgram).map
    (·.1)

end ChainTx.Address
