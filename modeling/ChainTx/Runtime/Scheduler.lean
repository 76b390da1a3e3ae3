import ChainTx.Runtime.Program
/-!
# Running cooperative programs

One main program and the jobs it spawns run on one thread against a virtual clock that starts at
zero.

* Jobs run in the order they are queued: when spawned, and when something they wait for happens.
  A run lasts until the job waits again or ends.
* The main program is resumed only when the queue is empty, or after every `batchSize` jobs.
* The clock moves only when nothing can run: it jumps to the earliest deadline, and the timers of
  that instant fire in the order they were started.
* Cancelling a token cancels the tokens below it first, the most recent first, and resumes the
  programs racing on each token in the order their races started.
* A program that has not ended is cut off when the clock would reach the horizon the run is given:
  nothing happens at the horizon itself.

What a waiting program waits for is read off its tree (`interest`), so a program that is dropped
leaves no timer or waiter behind. A program that is running cannot be resumed by its own steps.
-/

namespace ChainTx.Runtime

/-- The horizon the driver gives its runs: one hour of virtual time, in milliseconds. -/
def horizonMs : Nat := 3600000

/-- The number of jobs run between two resumptions of a main program that is ready. -/
def batchSize : Nat := 61

/-- A cancellation token. -/
structure TokenState where
  cancelled : Bool
  parent : Option Nat
  children : List Nat

/-- What a waiting program waits for: its timer as deadline and order, the tokens it races on
with the order of each race, and the keys it waits on. -/
structure Interest where
  timer : Option (Nat × Nat)
  races : List (Nat × Nat)
  keys : List Nat

/-- Waiting for nothing: a program that is ready or running. -/
def Interest.idle : Interest := ⟨none, [], []⟩

/-- The outcome of running a program up to its next wait. -/
inductive Poll (σ α : Type) : Type 1 where
  | done (a : α)
  | blocked (p : Prog σ α)

/-- A spawned program, with what it waits for. -/
structure Job (σ : Type) where
  id : Nat
  prog : Prog σ Unit
  interest : Interest

/-- The state of a run. The main program is number 0; jobs are numbered from 1. -/
structure Sched (σ : Type) where
  now : Nat
  world : σ
  /-- The next place among timers and racers. -/
  order : Nat
  nextJob : Nat
  nextKey : Nat
  tokens : List TokenState
  jobs : List (Job σ)
  queue : List Nat
  mainInterest : Interest
  mainWoken : Bool

namespace Sched

variable {σ : Type}

/-- A run about to start `main` on `world`. -/
def start (world : σ) : Sched σ := ⟨0, world, 0, 1, 1, [], [], [], .idle, true⟩

/-- Makes a program ready: the main program is marked, a job joins the end of the queue unless it
is already in it. -/
def wake (s : Sched σ) (id : Nat) : Sched σ :=
  if id = 0 then { s with mainWoken := true }
  else if s.queue.contains id || !(s.jobs.any (·.id == id)) then s
  else { s with queue := s.queue ++ [id] }

/-- Every program with its number and what it waits for. -/
def interests (s : Sched σ) : List (Nat × Interest) :=
  (0, s.mainInterest) :: s.jobs.map fun j => (j.id, j.interest)

/-- Resumes the programs waiting on a key. -/
def signal (s : Sched σ) (key : Nat) : Sched σ :=
  (s.interests.filter fun (_, i) => i.keys.contains key).foldl (fun s (id, _) => s.wake id) s

def spawn (s : Sched σ) (p : Prog σ Unit) : Sched σ :=
  let job : Job σ := ⟨s.nextJob, p, .idle⟩
  { s with jobs := s.jobs ++ [job], queue := s.queue ++ [s.nextJob], nextJob := s.nextJob + 1 }

def isCancelled (s : Sched σ) (tok : Nat) : Bool :=
  match s.tokens[tok]? with
  | some t => t.cancelled
  | none => false

/-- A new token below `parent`; below a cancelled token it starts cancelled. -/
def newToken (s : Sched σ) (parent : Option Nat) : Sched σ × Nat :=
  let id := s.tokens.length
  let above : Option (Nat × TokenState) :=
    parent.bind fun p => (s.tokens[p]?).map fun t => (p, t)
  match above with
  | some (p, t) =>
    if t.cancelled then ({ s with tokens := s.tokens ++ [⟨true, some p, []⟩] }, id)
    else
      let tokens := s.tokens.set p { t with children := t.children ++ [id] }
      ({ s with tokens := tokens ++ [⟨false, some p, []⟩] }, id)
  | none => ({ s with tokens := s.tokens ++ [⟨false, none, []⟩] }, id)

/-- Cancels a token and the tokens below it, those below first and the most recent first: the
tokens newly cancelled, in that order. -/
def cancelTree : Nat → List TokenState → Nat → List TokenState × List Nat
  | 0, tokens, _ => (tokens, [])
  | fuel + 1, tokens, tok =>
    match tokens[tok]? with
    | none => (tokens, [])
    | some t =>
      if t.cancelled then (tokens, [])
      else
        let (tokens, below) := t.children.reverse.foldl
          (fun (acc : List TokenState × List Nat) c =>
            let (ts, more) := cancelTree fuel acc.1 c
            (ts, acc.2 ++ more)) (tokens, [])
        (tokens.set tok { t with cancelled := true, children := [] }, below ++ [tok])

/-- The programs racing on a token, in the order their races started. -/
def racers (s : Sched σ) (tok : Nat) : List Nat :=
  let entries := s.interests.flatMap fun (id, i) =>
    (i.races.filter (·.1 == tok)).map fun (_, o) => (o, id)
  (entries.mergeSort fun a b => a.1 ≤ b.1).map (·.2)

/-- Cancels a token and resumes the programs racing on it and on the tokens below it. -/
def cancel (s : Sched σ) (tok : Nat) : Sched σ :=
  let (tokens, order) := cancelTree (s.tokens.length + 1) s.tokens tok
  let s := { s with tokens := tokens }
  order.foldl (fun s t => (s.racers t).foldl Sched.wake s) s

/-- The timers of the waiting programs: deadline, order and program. -/
def timers (s : Sched σ) : List (Nat × Nat × Nat) :=
  s.interests.filterMap fun (id, i) => i.timer.map fun (d, o) => (d, o, id)

/-- Moves the clock to the earliest deadline and fires the timers of that instant in the order
they were started; none when no timer is left strictly before the horizon. -/
def advance (horizon : Nat) (s : Sched σ) : Option (Sched σ) :=
  let ts := s.timers
  match ts.map (·.1) |>.min? with
  | none => none
  | some d =>
    if d ≥ horizon then none
    else
      let due := (ts.filter (·.1 == d)).mergeSort fun a b => a.2.1 ≤ b.2.1
      some (due.foldl (fun s (_, _, id) => s.wake id) { s with now := max s.now d })

end Sched

namespace Prog

variable {σ : Type}

/-- What a waiting program waits for. -/
def interest {α : Type} : Prog σ α → Interest
  | .timer d o _ => ⟨some (d, o), [], []⟩
  | .await key _ _ => ⟨none, [], [key]⟩
  | .race tok (some o) w _ _ =>
    let i := interest w
    { i with races := (tok, o) :: i.races }
  | .guard _ body _ => interest body
  | _ => .idle

mutual

/-- Runs a program until it waits or ends. -/
def poll {α : Type} : Prog σ α → Sched σ → Sched σ × Poll σ α
  | .pure a, s => (s, .done a)
  | .step f k, s =>
    let (w, b) := f s.world
    poll (k b) { s with world := w }
  | .clock k, s => poll (k s.now) s
  | .sleep ms k, s =>
    if ms = 0 then poll k s
    else ({ s with order := s.order + 1 }, .blocked (.timer (s.now + ms) s.order k))
  | .timer d o k, s => if d ≤ s.now then poll k s else (s, .blocked (.timer d o k))
  | .await key ready k, s =>
    match ready s.world with
    | some (w, b) => poll (k b) { s with world := w }
    | none => (s, .blocked (.await key ready k))
  | .signal key k, s => poll k (s.signal key)
  | .fresh k, s => poll (k s.nextKey) { s with nextKey := s.nextKey + 1 }
  | .spawn t k, s => poll k (s.spawn t)
  | .token parent k, s =>
    let (s, t) := s.newToken parent
    poll (k t) s
  | .cancel tok k, s => poll k (s.cancel tok)
  | .race tok o w c k, s =>
    if s.isCancelled tok then poll c (drop w s)
    else
      let (s, o) := match o with
        | some o => (s, o)
        | none => ({ s with order := s.order + 1 }, s.order)
      match poll w s with
      | (s, .done b) => poll (k b) s
      | (s, .blocked w) => (s, .blocked (.race tok (some o) w c k))
  | .guard d body k, s =>
    match poll body s with
    | (s, .done b) => poll (k b) s
    | (s, .blocked body) => (s, .blocked (.guard d body k))

/-- Drops a waiting program: the drop actions of the guards it is inside of run, the innermost
first. -/
def drop {α : Type} : Prog σ α → Sched σ → Sched σ
  | .race _ _ w _ _, s => drop w s
  | .guard d body _, s => (poll d (drop body s)).1
  | _, s => s

end

end Prog

namespace Sched

variable {σ : Type}

/-- Runs a queued job until it waits or ends. -/
def runJob (s : Sched σ) (id : Nat) : Sched σ :=
  match s.jobs.find? (·.id == id) with
  | none => s
  | some j =>
    let others := fun (s : Sched σ) (f : Job σ → Option (Job σ)) =>
      { s with jobs := s.jobs.filterMap fun x => if x.id == id then f x else some x }
    let s := others s fun x => some { x with interest := .idle }
    match j.prog.poll s with
    | (s, .done _) => others s fun _ => none
    | (s, .blocked p) => others s fun _ => some ⟨id, p, p.interest⟩

/-- Resumes the main program. -/
def runMain {α : Type} (s : Sched σ) (main : Prog σ α) : Sched σ × Poll σ α :=
  match main.poll { s with mainWoken := false, mainInterest := .idle } with
  | (s, .done a) => (s, .done a)
  | (s, .blocked p) => ({ s with mainInterest := p.interest }, .blocked p)

end Sched

/-- Where the loop stands: about to resume the main program if it is ready, or with room for `n`
more jobs before it looks at the main program again. -/
inductive Phase where
  | resume
  | batch (n : Nat)

/-- Runs `main` until it ends, at most `fuel` rounds; none when it does not end before the
horizon. -/
def drive {σ α : Type} (horizon : Nat) : Nat → Prog σ α → Sched σ → Phase → Option (α × Sched σ)
  | 0, _, _, _ => none
  | fuel + 1, main, s, .resume =>
    if s.mainWoken then
      match s.runMain main with
      | (s, .done a) => some (a, s)
      | (s, .blocked main) => drive horizon fuel main s (.batch batchSize)
    else drive horizon fuel main s (.batch batchSize)
  | fuel + 1, main, s, .batch 0 => drive horizon fuel main s .resume
  | fuel + 1, main, s, .batch (n + 1) =>
    match s.queue with
    | id :: rest => drive horizon fuel main ({ s with queue := rest }.runJob id) (.batch n)
    | [] =>
      if s.mainWoken then drive horizon fuel main s .resume
      else
        match s.advance horizon with
        | some s => drive horizon fuel main s .resume
        | none => none

/-- Runs the queued jobs until none is left, without moving the clock. -/
def settle {σ : Type} : Nat → Sched σ → Sched σ
  | 0, s => s
  | fuel + 1, s =>
    match s.queue with
    | [] => s
    | id :: rest => settle fuel ({ s with queue := rest }.runJob id)

/-- The rounds a run up to `horizon` may take: two for every millisecond and a fixed reserve, ten
million for the driver's horizon. -/
def runFuel (horizon : Nat) : Nat := 2800000 + 2 * horizon

/-- Runs `main` on `world` to its end, then lets the jobs that are ready run: its value and the
final state, or none when it does not end before `horizon`. -/
def run {σ α : Type} (horizon : Nat) (main : Prog σ α) (world : σ) : Option (α × Sched σ) :=
  match drive horizon (runFuel horizon) main (Sched.start world) .resume with
  | some (a, s) => some (a, settle (runFuel horizon) s)
  | none => none

end ChainTx.Runtime
