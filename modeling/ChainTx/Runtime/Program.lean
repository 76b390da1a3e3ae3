/-!
# Cooperative programs

Programs that share one thread and a state of type `σ`. A program is a tree in which every
constructor but `pure` holds the rest of the program, so running a program up to its next wait is
structural recursion on it. A program gives way to the others only where it waits: for the clock
to reach a deadline, or for a condition on the state that another program announces. Every other
step takes no time.

* `race tok work onCancel k` runs `work` unless the token `tok` is cancelled; the token is checked
  each time the program is resumed, before `work` goes on. When it is cancelled, `work` is dropped
  and `onCancel` runs instead.
* `guard onDrop body k` runs `body`; if `body` is dropped before it ends, `onDrop` runs at once.
  A normal end of `body` does not run `onDrop`.
-/

namespace ChainTx.Runtime

/-- A program over a shared state `σ` that ends with a value of type `α`. -/
inductive Prog (σ : Type) : Type → Type 1 where
  | pure {α : Type} (a : α) : Prog σ α
  /-- A change of the state, with a result, taking no time. -/
  | step {α β : Type} (f : σ → σ × β) (k : β → Prog σ α) : Prog σ α
  /-- Reads the clock. -/
  | clock {α : Type} (k : Nat → Prog σ α) : Prog σ α
  /-- Sleeps for a number of milliseconds; zero goes on at once. -/
  | sleep {α : Type} (ms : Nat) (k : Prog σ α) : Prog σ α
  /-- A sleep that has started: its deadline, and its place among the timers of that instant. -/
  | timer {α : Type} (deadline order : Nat) (k : Prog σ α) : Prog σ α
  /-- Waits until `ready` holds of the state; it is checked again whenever `key` is signalled. -/
  | await {α β : Type} (key : Nat) (ready : σ → Option (σ × β)) (k : β → Prog σ α) : Prog σ α
  /-- Resumes the programs waiting on a key. -/
  | signal {α : Type} (key : Nat) (k : Prog σ α) : Prog σ α
  /-- A fresh key. -/
  | fresh {α : Type} (k : Nat → Prog σ α) : Prog σ α
  /-- Starts another program; it runs once this one waits. -/
  | spawn {α : Type} (task : Prog σ Unit) (k : Prog σ α) : Prog σ α
  /-- A new cancellation token, below `parent` if given: cancelling a token cancels those below. -/
  | token {α : Type} (parent : Option Nat) (k : Nat → Prog σ α) : Prog σ α
  | cancel {α : Type} (tok : Nat) (k : Prog σ α) : Prog σ α
  /-- Runs `work` unless `tok` is cancelled first; `order` is its place among the waiters on
  `tok`, fixed when the race is first run. -/
  | race {α β : Type} (tok : Nat) (order : Option Nat) (work : Prog σ β) (onCancel : Prog σ α)
      (k : β → Prog σ α) : Prog σ α
  /-- Runs `body`, and `onDrop` if `body` is dropped before its end. -/
  | guard {α β : Type} (onDrop : Prog σ Unit) (body : Prog σ β) (k : β → Prog σ α) : Prog σ α

namespace Prog

variable {σ : Type}

/-- Runs `p`, then `g` on its value. -/
def bind {α β : Type} : Prog σ α → (α → Prog σ β) → Prog σ β
  | .pure a, g => g a
  | .step f k, g => .step f fun b => bind (k b) g
  | .clock k, g => .clock fun t => bind (k t) g
  | .sleep ms k, g => .sleep ms (bind k g)
  | .timer d o k, g => .timer d o (bind k g)
  | .await key ready k, g => .await key ready fun b => bind (k b) g
  | .signal key k, g => .signal key (bind k g)
  | .fresh k, g => .fresh fun n => bind (k n) g
  | .spawn t k, g => .spawn t (bind k g)
  | .token p k, g => .token p fun t => bind (k t) g
  | .cancel tok k, g => .cancel tok (bind k g)
  | .race tok o w c k, g => .race tok o w (bind c g) fun b => bind (k b) g
  | .guard d body k, g => .guard d body fun b => bind (k b) g

instance : Monad (Prog σ) where
  pure := .pure
  bind := bind

/-- The clock, in milliseconds. -/
def now : Prog σ Nat := .clock .pure

def delay (ms : Nat) : Prog σ Unit := .sleep ms (.pure ())

/-- A change of the state with a result. -/
def update {β : Type} (f : σ → σ × β) : Prog σ β := .step f .pure

def modify (f : σ → σ) : Prog σ Unit := .step (fun s => (f s, ())) .pure

def read {β : Type} (f : σ → β) : Prog σ β := .step (fun s => (s, f s)) .pure

/-- Waits until `ready` holds, checking again whenever `key` is signalled. -/
def waitFor {β : Type} (key : Nat) (ready : σ → Option (σ × β)) : Prog σ β := .await key ready .pure

/-- Waits for ever. -/
def never {α : Type} : Prog σ α := .await 0 (fun _ => none) .pure

def wake (key : Nat) : Prog σ Unit := .signal key (.pure ())

def freshKey : Prog σ Nat := .fresh .pure

def fork (task : Prog σ Unit) : Prog σ Unit := .spawn task (.pure ())

def newToken : Prog σ Nat := .token none .pure

def childToken (parent : Nat) : Prog σ Nat := .token (some parent) .pure

def cancelToken (tok : Nat) : Prog σ Unit := .cancel tok (.pure ())

/-- A new token that a job cancels `ms` milliseconds from now, when `ms` is given. -/
def cancelAfter (ms : Option Nat) : Prog σ Nat := do
  let tok ← newToken
  match ms with
  | some ms => fork (do delay ms; cancelToken tok)
  | none => pure ()
  pure tok

/-- Runs `work` unless `tok` is cancelled first: its value, or none on cancellation. -/
def racing {β : Type} (tok : Nat) (work : Prog σ β) : Prog σ (Option β) :=
  .race tok none work (.pure none) fun b => .pure (some b)

/-- Runs `body`, running `onDrop` if `body` is dropped before its end. -/
def guarded {β : Type} (onDrop : Prog σ Unit) (body : Prog σ β) : Prog σ β :=
  .guard onDrop body .pure

end Prog

end ChainTx.Runtime
