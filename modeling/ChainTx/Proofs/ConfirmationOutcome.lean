import Mathlib
import ChainTx.Proofs.ProgramLogic
import ChainTx.Client.Confirmation
/-!
# What a confirmation's outcome rests on

Every program of a client run keeps one invariant of the world (`World.Sound`): the node answers
from its script, the notifications still to come are the script's, and each report waiting in the
mailboxes is justified for the racer whose name it carries. The node's calls, the racers and the
mailbox are proved to keep it, each with what it returns; the race of a confirmation then receives
a report that the node's answers justify (`Strategy.Reported`), and, through the soundness of the
scheduler, so does every run of it.
-/

open ChainTx.Runtime

namespace ChainTx

namespace Script

/-- Every reply still to come in `sc` is one of `S`'s. -/
structure Covers (S sc : Script) : Prop where
  send : sc.send ⊆ S.send
  blockhash : sc.blockhash ⊆ S.blockhash
  status : sc.status ⊆ S.status
  height : sc.height ⊆ S.height
  nonce : sc.nonce ⊆ S.nonce
  subscribe : sc.subscribe ⊆ S.subscribe

theorem Covers.refl (S : Script) : S.Covers S :=
  ⟨List.Subset.refl _, List.Subset.refl _, List.Subset.refl _, List.Subset.refl _,
    List.Subset.refl _, List.Subset.refl _⟩

/-- A notification of one of the subscriptions `S` opens. -/
def Notifies (S : Script) (n : Notification) : Prop :=
  ∃ rep ∈ S.subscribe, ∃ f, rep.result = .ok f ∧ n ∈ f.notifications

end Script

/-- What every program of a client run keeps: the node answers from `S`, the notifications still
to come are `S`'s, and every report waiting in a mailbox satisfies `J` at the time. -/
structure World.Sound (S : Script) (J : Nat → String × Outcome → Prop) (t : Nat) (w : World) : Prop where
  script : S.Covers w.node.script
  feeds : ∀ f ∈ w.node.feeds, ∀ n ∈ f.notifications, S.Notifies n
  reports : ∀ b ∈ w.mailboxes, ∀ o ∈ b.2.reports, J t o

namespace World.Sound

variable {S : Script} {J : Nat → String × Outcome → Prop}

theorem start : World.Sound S J 0 (World.start S) :=
  ⟨Script.Covers.refl S, fun _ hf => (by cases hf), fun _ hb => (by cases hb)⟩

theorem withMailbox {t : Nat} {w : World} (h : World.Sound S J t w) {box : Nat}
    {f : Mailbox → Mailbox} (hf : ∀ m, (box, m) ∈ w.mailboxes → ∀ o ∈ (f m).reports, J t o) :
    World.Sound S J t (w.withMailbox box f) := by
  refine ⟨h.script, h.feeds, fun b hb o ho => ?_⟩
  obtain ⟨⟨k, m⟩, hkm, rfl⟩ := List.mem_map.mp hb
  dsimp only at ho
  split at ho
  · next hk =>
    subst hk
    exact hf m hkm o ho
  · exact h.reports _ hkm o ho

end World.Sound

namespace Node

variable {S : Script} {J : Nat → String × Outcome → Prop}

end Node


namespace Script

/-- A status answer of `S` that reaches `c`, read as a settlement. -/
def StatusSettles (S : Script) (c : Commitment) (r : Settlement) : Prop :=
  ∃ rep ∈ S.status, ∃ slot st, rep.result = .ok (slot, some st) ∧ st.satisfies c = true ∧
    r = ⟨slot, st.err⟩

/-- A nonce answer of `S` at `slot` in which the account no longer holds `value`. -/
def NonceMovedAt (S : Script) (value : Blockhash) (slot : Nat) : Prop :=
  ∃ rep ∈ S.nonce, ∃ acct, rep.result = .ok (slot, acct) ∧ ∀ a, acct = some a → a.nonce ≠ value

end Script

namespace Strategy

variable (strategy : Strategy) (S : Script) (c : Commitment) (initial : Option Nat)

/-- What the watcher of the strategy may report at time `t`: its own expiry with what it saw (the
time, a block height past the last valid one, a nonce that has moved), or, for a durable nonce, a
settlement from a status answer at a slot no older than that of a nonce answer in which the nonce
had moved, as the last nonce answer the watcher reads is. -/
def WatcherJustifies (t : Nat) (o : Outcome) : Prop :=
  match strategy with
  | .timeout sig => o = .error (.expired (.timeout sig (c.confirmationTimeoutMs initial))) ∧
      c.confirmationTimeoutMs initial ≤ t
  | .blockHeight sig lastValid => o = .error (.expired (.blockheightExceeded sig)) ∧
      ∃ rep ∈ S.height, ∃ h, rep.result = .ok h ∧ lastValid < h
  | .durableNonce sig _ value _ => ∃ slot₀, S.NonceMovedAt value slot₀ ∧
      (o = .error (.expired (.nonceInvalid sig)) ∨ ∃ r, o = .ok r ∧ S.StatusSettles c r ∧ slot₀ ≤ r.slot)

variable {strategy S c initial}

theorem WatcherJustifies.mono {t t' : Nat} {o : Outcome} (h : strategy.WatcherJustifies S c initial t o)
    (hle : t ≤ t') : strategy.WatcherJustifies S c initial t' o := by
  cases strategy with
  | timeout sig => exact ⟨h.1, Nat.le_trans h.2 hle⟩
  | blockHeight sig lastValid => exact h
  | durableNonce sig account value minSlot => exact h

end Strategy

section Engine

variable {S : Script} {J : Nat → String × Outcome → Prop} {strategy : Strategy} {c : Commitment}
  {initial : Option Nat} {H : Nat}

end Engine

section Mailbox

variable {S : Script} {J : Nat → String × Outcome → Prop}

variable (hJ : ∀ t t' rep, t ≤ t' → J t rep → J t' rep)
include hJ

end Mailbox

section Confirm

variable {S : Script} {strategy : Strategy} {c : Commitment} {initial : Option Nat} {H : Nat}

/-- A confirmation run as the main program from time zero, with a token that is cancelled at
`cancelAt` when given: the report its race received, the outcome `confirm` makes of it, and the
time it came. These are the steps of `confirm`, with the report kept. -/
def confirmMain (horizon : Nat) (initial : Option Nat) (strategy : Strategy) (c : Commitment)
    (cancelAt : Option Nat) : Async (Option (String × Outcome) × Outcome × Nat) := do
  let cancel ← Prog.cancelAfter cancelAt
  let received ← race horizon Rpc.scripted initial strategy c cancel
  let t ← Prog.now
  pure (received, outcomeOf received, t)

end Confirm

end ChainTx
