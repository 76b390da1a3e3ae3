import ChainTx.Program.System
/-!
# Durable nonces

A nonce account holds a blockhash that stays valid until it is advanced, so a transaction built
on it does not expire. Its data is 80 bytes: version and state (4 bytes each), the authority, the
stored nonce and the fee per signature (8 bytes); bytes past these are ignored. A transaction that
uses a nonce carries it in place of a recent blockhash and must advance it first.
-/

namespace ChainTx

/-- The size of a nonce account. -/
def nonceAccountLength : Nat := 80

/-- The contents of a nonce account. -/
structure NonceAccount where
  version : Nat
  /-- 0 for uninitialized, 1 for initialized. -/
  state : Nat
  authorizedPubkey : Address
  nonce : Blockhash
  lamportsPerSignature : Nat
  deriving DecidableEq

namespace NonceAccount

/-- Reads the data of a nonce account. -/
def decode (data : List UInt8) : Except SolError NonceAccount :=
  if data.length < nonceAccountLength then .error (.invalidNonceAccount data.length)
  else
    let authority := (data.drop 8).take 32
    let nonce := (data.drop 40).take 32
    match Address.ofBytes? authority, Blockhash.ofBytes? nonce with
    | some a, some h =>
      .ok ⟨leValue (data.take 4), leValue ((data.drop 4).take 4), a, h,
        leValue ((data.drop 72).take 8)⟩
    | _, _ => .error (.invalidNonceAccount data.length)

/-- Whether the account holds a nonce. -/
def isInitialized (n : NonceAccount) : Bool := n.state = 1

end NonceAccount

/-- What a transaction needs to use a durable nonce instead of a recent blockhash. -/
structure NonceInfo where
  /-- The nonce stored in the account when the transaction was built. -/
  nonce : Blockhash
  /-- The instruction that must run first; compiling puts it first if it is not. -/
  instruction : Instruction
  deriving DecidableEq

/-- Nonce information whose instruction advances `account` under `authority`. -/
def NonceInfo.advance (nonce : Blockhash) (account authority : Address) : NonceInfo :=
  ⟨nonce, SystemProgram.advanceNonceAccount account authority⟩

end ChainTx
