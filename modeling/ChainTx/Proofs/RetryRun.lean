import Mathlib
import ChainTx.Proofs.RetrySchedule
import ChainTx.Proofs.ProgramLogic
/-!
# A run of a retried call follows its rules

A run opens a cancellation token that a job cancels at a given time, waits until a start time,
then makes a retried call on a method of the scripted node (`retriedRun`). The scheduler runs the
main program and the job round by round; this module follows those rounds and shows that the run
does what the rules of `Attempts` say: the calls the node records, the result and the time it
comes (`retriedRun_follows`, `retried_call_follows_schedule`).
-/

namespace ChainTx

open ChainTx.Runtime

variable {α γ : Type} {H : Nat}

/-! ### Retried methods of the scripted node -/

theorem Runtime.Prog.bind_pure {σ β : Type} (p : Prog σ β) : p.bind Prog.pure = p := by
  induction p with
  | pure a => rfl
  | step f k ih | await key ready k ih => simp only [Prog.bind, ih]
  | clock k ih | fresh k ih | token parent k ih => simp only [Prog.bind, ih]
  | sleep ms k ih | timer d o k ih | signal key k ih | spawn task k _ ih | cancel tok k ih =>
    simp only [Prog.bind, ih]
  | race tok o w c k _ ihc ihk => simp only [Prog.bind, ihc, ihk]
  | guard d body k _ _ ih => simp only [Prog.bind, ih]

/-- A node method whose calls are retried: its name and arguments as the node records them, where
its replies sit in the script, and what the client makes of an answer. -/
structure RetriedMethod (α : Type) where
  β : Type
  name : String
  detail : Json
  replies : Script → List (Reply β)
  keep : Script → List (Reply β) → Script
  replies_keep : ∀ sc l, replies (keep sc l) = l
  post : Except RpcError β → Except RpcError α

namespace RetriedMethod

variable (m : RetriedMethod α)

/-- One call of the method on the scripted node. -/
def call : Async (Except RpcError α) :=
  (Node.answer m.name m.detail m.replies m.keep).bind fun r => .pure (m.post r)

/-- What the client makes of the node's next reply: its delay and its result. With no reply left
the call fails at once. -/
def answer : Option (Reply m.β) → Nat × Except RpcError α
  | some r => (r.delayMs, m.post r.result)
  | none => (0, m.post (.error (.transport ("unscripted " ++ m.name))))

/-- The answer to the `j`-th call (from 0) on a script whose replies are `l`: its `j`-th reply,
the last one repeating. -/
def answerAt (l : List (Reply m.β)) (j : Nat) : Nat × Except RpcError α :=
  m.answer l[min j (l.length - 1)]?

/-- The node's record of a call at `t`. -/
def record (t : Nat) : CallRecord := ⟨t, m.name, m.detail⟩

/-- The node taking a call at `t`: the world with the reply taken and the call recorded, and the
reply. -/
def consume (t : Nat) (w : World) : World × Option (Reply m.β) :=
  let taken := takeReply (m.replies w.node.script)
  let node := { w.node with script := m.keep w.node.script taken.2 }
  ({ w with node := node.record t m.name m.detail }, taken.1)

/-- The call once the node has taken it. -/
def answering (r : Option (Reply m.β)) : Async (Except RpcError α) :=
  Prog.bind (match r with
    | none => Prog.pure (.error (.transport ("unscripted " ++ m.name)))
    | some r => Prog.sleep r.delayMs (Prog.pure r.result)) fun r => Prog.pure (m.post r)

theorem call_eq : m.call = .clock fun t => .step (m.consume t) m.answering := by
  simp only [call, Node.answer, Prog.now, Prog.update, Prog.delay, bind, Prog.bind, pure]
  congr 1
  funext t
  congr 1
  funext b
  cases b <;> rfl

theorem poll_call (s : Sched World) :
    m.call.poll s =
      if (m.answer (m.consume s.now s.world).2).1 = 0 then
        ({ s with world := (m.consume s.now s.world).1 }, .done (m.answer (m.consume s.now s.world).2).2)
      else
        ({ s with world := (m.consume s.now s.world).1, order := s.order + 1 },
          .blocked (.timer (s.now + (m.answer (m.consume s.now s.world).2).1) s.order
            (.pure (m.answer (m.consume s.now s.world).2).2))) := by
  rw [call_eq, Prog.poll, Prog.poll]
  generalize m.consume s.now s.world = p
  obtain ⟨w, r⟩ := p
  cases r with
  | none => simp [answering, Prog.poll, answer, Prog.bind]
  | some r =>
    by_cases h0 : r.delayMs = 0
    · simp [answering, Prog.poll, answer, h0, Prog.bind]
    · simp [answering, Prog.poll, answer, h0, Prog.bind]

/-- A read of the scripted node taken as it answers, as the node's reads of a blockhash, a
signature status, the block height and a nonce account are. -/
def ofNode {β : Type} (name : String) (detail : Json) (replies : Script → List (Reply β))
    (keep : Script → List (Reply β) → Script) (h : ∀ sc l, replies (keep sc l) = l) :
    RetriedMethod β :=
  ⟨β, name, detail, replies, keep, h, id⟩

theorem call_ofNode {β : Type} (name : String) (detail : Json) (replies : Script → List (Reply β))
    (keep : Script → List (Reply β) → Script) (h : ∀ sc l, replies (keep sc l) = l) :
    (ofNode name detail replies keep h).call = Node.answer name detail replies keep :=
  Prog.bind_pure _

/-! The calls that the retrying node retries, each a retried method. -/

def blockhash (c : Commitment) : RetriedMethod LatestBlockhash :=
  ofNode "blockhash" (.str c.name) (·.blockhash) (fun s l => { s with blockhash := l }) fun _ _ => rfl

def status (sig : Signature) : RetriedMethod StatusReply :=
  ofNode "status" (.str sig.toBase58) (·.status) (fun s l => { s with status := l }) fun _ _ => rfl

def height (c : Commitment) : RetriedMethod Nat :=
  ofNode "height" (.str c.name) (·.height) (fun s l => { s with height := l }) fun _ _ => rfl

def nonce (address : Address) (c : Commitment) (minContextSlot : Option Nat) :
    RetriedMethod NonceReply :=
  ofNode "nonce" (Json.mkObj [("address", .str address.toBase58), ("commitment", .str c.name),
      ("min_context_slot", Json.opt Json.nat minContextSlot)])
    (·.nonce) (fun s l => { s with nonce := l }) fun _ _ => rfl

/-- A submission: the client reads the signature off the transaction it sent once the node takes
it. -/
def send (wire : List UInt8) (options : SendOptions) : RetriedMethod Signature :=
  ⟨Unit, "send", Json.mkObj [("wire", .str (Hex.encode wire)),
      ("options", ClientForms.sendOptionsJson options)],
    (·.send), (fun s l => { s with send := l }), fun _ _ => rfl, fun r => r.bind fun _ => Node.accept wire⟩

theorem scripted_calls :
    (∀ c, Rpc.scripted.latestBlockhash c = (blockhash c).call) ∧
    (∀ sig, Rpc.scripted.signatureStatus sig = (status sig).call) ∧
    (∀ c, Rpc.scripted.blockHeight c = (height c).call) ∧
    (∀ a c minSlot, Rpc.scripted.nonceAccount a c minSlot = (nonce a c minSlot).call) ∧
    (∀ wire options, Rpc.scripted.sendRaw wire options = (send wire options).call) := by
  refine ⟨fun c => ?_, fun sig => ?_, fun c => ?_, fun a c minSlot => ?_, fun _ _ => rfl⟩
  · rw [blockhash, call_ofNode]
    rfl
  · rw [status, call_ofNode]
    rfl
  · rw [height, call_ofNode]
    rfl
  · rw [nonce, call_ofNode]
    rfl

end RetriedMethod

/-- The replies left after `j` calls on a script whose replies were `l`: the last one stays. -/
def repliesAfter {β : Type} (l : List β) (j : Nat) : List β := l.drop (min j (l.length - 1))

theorem takeReply_repliesAfter {β : Type} (l : List β) (j : Nat) :
    takeReply (repliesAfter l j) = (l[min j (l.length - 1)]?, repliesAfter l (j + 1)) := by
  unfold repliesAfter
  by_cases hj : j + 1 < l.length
  · have h1 : min j (l.length - 1) = j := by omega
    have h2 : min (j + 1) (l.length - 1) = j + 1 := by omega
    rw [h1, h2, List.drop_eq_getElem_cons (by omega), List.drop_eq_getElem_cons hj]
    simp [takeReply, List.getElem?_eq_getElem (by omega : j < l.length)]
  · cases l with
    | nil => simp [takeReply]
    | cons x xs =>
      simp only [List.length_cons] at hj
      have h1 : min j ((x :: xs).length - 1) = xs.length := by simp; omega
      have h2 : min (j + 1) ((x :: xs).length - 1) = xs.length := by simp; omega
      rw [h1, h2]
      have hd : (x :: xs).drop xs.length = [(x :: xs)[xs.length]] := by
        rw [List.drop_eq_getElem_cons (by simp)]
        simp
      rw [hd]
      simp [takeReply]

namespace RetriedMethod

variable (m : RetriedMethod α)

theorem consume_of_repliesAfter {l : List (Reply m.β)} {j t : Nat} {w : World}
    (h : m.replies w.node.script = repliesAfter l j) :
    m.answer (m.consume t w).2 = m.answerAt l j ∧
      m.replies (m.consume t w).1.node.script = repliesAfter l (j + 1) ∧
      (m.consume t w).1.node.calls = w.node.calls.push (m.record t) := by
  simp [consume, h, takeReply_repliesAfter, answerAt, Node.record, m.replies_keep, record]

end RetriedMethod

/-! ### Rounds of the scheduler -/

section Loop

variable {σ : Type} {p p' : Prog σ γ} {s s' : Sched σ} {F n : Nat}

/-- The rest of a run from a state where the main program `p` is polled: its value if the poll
ends it, or else the rounds from the next batch of jobs. -/
def resumeFrom (H F : Nat) (p : Prog σ γ) (s : Sched σ) : Option (γ × Sched σ) :=
  match p.poll s with
  | (s', .done a) => some (a, s')
  | (s', .blocked p') => drive H F p' { s' with mainInterest := p'.interest } (.batch batchSize)

theorem resumeFrom_congr (h : p.poll s = p'.poll s') : resumeFrom H F p s = resumeFrom H F p' s' := by
  unfold resumeFrom
  rw [h]

theorem resumeFrom_done {a : γ} (h : p.poll s = (s', .done a)) : resumeFrom H F p s = some (a, s') := by
  unfold resumeFrom
  rw [h]

theorem resumeFrom_blocked (h : p.poll s = (s', .blocked p')) :
    resumeFrom H F p s = drive H F p' { s' with mainInterest := p'.interest } (.batch batchSize) := by
  unfold resumeFrom
  rw [h]

theorem drive_resume (h : s.mainWoken = true) :
    drive H (F + 1) p s .resume = resumeFrom H F p { s with mainWoken := false, mainInterest := .idle } := by
  unfold drive Sched.runMain resumeFrom
  rw [if_pos h]
  rcases p.poll { s with mainWoken := false, mainInterest := .idle } with ⟨s', a | p'⟩ <;> rfl

theorem drive_idle (h : s.mainWoken = false) :
    drive H (F + 1) p s .resume = drive H F p s (.batch batchSize) := by
  simp [drive, h]

theorem drive_job {id : Nat} {rest : List Nat} (h : s.queue = id :: rest) :
    drive H (F + 1) p s (.batch (n + 1)) = drive H F p ({ s with queue := rest }.runJob id) (.batch n) := by
  simp [drive, h]

theorem drive_woken (hq : s.queue = []) (h : s.mainWoken = true) :
    drive H (F + 1) p s (.batch n) = drive H F p s .resume := by
  cases n <;> simp [drive, hq, h]

theorem drive_advance (hq : s.queue = []) (h : s.mainWoken = false) :
    drive H (F + 1) p s (.batch (n + 1)) = (s.advance H).bind fun s' => drive H F p s' .resume := by
  simp only [drive, hq, h, Bool.false_eq_true, if_false]
  cases s.advance H <;> rfl

end Loop

/-! ### The job that cancels the token -/

/-- The token of the run, live. -/
def liveToken : TokenState := ⟨false, none, []⟩

/-- The token of the run, cancelled. -/
def cancelledToken : TokenState := ⟨true, none, []⟩

/-- The job that cancels the token, asleep until `T`, in place `o` among the timers. -/
def cancelJob (T o : Nat) : Job World := ⟨1, .timer T o (Prog.cancelToken 0), ⟨some (T, o), [], []⟩⟩

/-- The job as spawned: it sleeps `T` ms, then cancels the token. -/
def freshJob (T : Nat) : Job World := ⟨1, .sleep T (Prog.cancelToken 0), .idle⟩

/-- What the main program waits for: a timer, and the races it is in. -/
def waitInterest (d o : Nat) (races : List (Nat × Nat)) : Interest := ⟨some (d, o), races, []⟩

section Rounds

variable {s : Sched World} {d o o' T : Nat} {races : List (Nat × Nat)}

theorem advance_alone (hj : s.jobs = []) (hi : s.mainInterest = waitInterest d o races)
    (hle : s.now ≤ d) :
    s.advance H = if d < H then some { s with now := d, mainWoken := true } else none := by
  have hmax : max s.now d = d := by omega
  by_cases hH : d < H
  · simp [Sched.advance, Sched.timers, Sched.interests, hj, hi, waitInterest, hH,
      Nat.not_le.mpr hH, Sched.wake, hmax]
  · simp [Sched.advance, Sched.timers, Sched.interests, hj, hi, waitInterest, hH,
      Nat.le_of_not_lt hH]

theorem advance_before_job (hj : s.jobs = [cancelJob T o']) (hi : s.mainInterest = waitInterest d o races)
    (hle : s.now ≤ d) (hdT : d < T) :
    s.advance H = if d < H then some { s with now := d, mainWoken := true } else none := by
  have hmax : max s.now d = d := by omega
  have hmin : min d T = d := by omega
  have hne : (T == d) = false := by simp; omega
  by_cases hH : d < H
  · simp [Sched.advance, Sched.timers, Sched.interests, hj, hi, waitInterest, cancelJob, hH,
      Nat.not_le.mpr hH, Sched.wake, hmax, hmin, hne]
  · simp [Sched.advance, Sched.timers, Sched.interests, hj, hi, waitInterest, cancelJob, hH,
      Nat.le_of_not_lt hH, hmin]

theorem advance_with_job (hj : s.jobs = [cancelJob d o']) (hi : s.mainInterest = waitInterest d o races)
    (hq : s.queue = []) (hle : s.now ≤ d) :
    s.advance H = if d < H then some { s with now := d, mainWoken := true, queue := [1] }
      else none := by
  have hmax : max s.now d = d := by omega
  by_cases hH : d < H
  · simp [Sched.advance, Sched.timers, Sched.interests, hj, hi, waitInterest, cancelJob, hH,
      Nat.not_le.mpr hH, Sched.wake, hmax, hq, List.mergeSort, List.merge]
    split <;> rfl
  · simp [Sched.advance, Sched.timers, Sched.interests, hj, hi, waitInterest, cancelJob, hH,
      Nat.le_of_not_lt hH]

theorem advance_job_first (hj : s.jobs = [cancelJob T o']) (hi : s.mainInterest = waitInterest d o races)
    (hq : s.queue = []) (hle : s.now ≤ T) (hTd : T < d) :
    s.advance H = if T < H then some { s with now := T, queue := [1] } else none := by
  have hmax : max s.now T = T := by omega
  have hmin : min d T = T := by omega
  have hne : (d == T) = false := by simp; omega
  by_cases hH : T < H
  · simp [Sched.advance, Sched.timers, Sched.interests, hj, hi, waitInterest, cancelJob, hH,
      Nat.not_le.mpr hH, Sched.wake, hmax, hmin, hne, hq]
  · simp [Sched.advance, Sched.timers, Sched.interests, hj, hi, waitInterest, cancelJob, hH,
      Nat.le_of_not_lt hH, hmin]

/-- A job whose next poll cancels the token at once. -/
def CancelsNow (p : Prog World Unit) (s : Sched World) : Prop :=
  ∀ s' : Sched World, s'.now = s.now → p.poll s' = (Prog.cancelToken 0).poll s'

theorem cancelJob_cancelsNow (h : T ≤ s.now) : CancelsNow (cancelJob T o).prog s := by
  intro s' hs'
  simp [cancelJob, Prog.poll, hs', h]

theorem freshJob_cancelsNow : CancelsNow (freshJob 0).prog s := by
  intro s' _
  simp [freshJob, Prog.poll]

theorem runJob_cancel_racing {j : Job World} (hj : s.jobs = [j]) (hid : j.id = 1)
    (hp : CancelsNow j.prog s) (ht : s.tokens = [liveToken])
    (hi : s.mainInterest = waitInterest d o' [(0, o)]) :
    s.runJob 1 = { s with tokens := [cancelledToken], jobs := [], mainWoken := true } := by
  obtain ⟨id, p, i⟩ := j
  subst hid
  simp only [Sched.runJob, hj, List.find?_cons, beq_self_eq_true, List.filterMap_cons, if_true,
    List.filterMap_nil]
  rw [show p.poll { s with jobs := [⟨1, p, .idle⟩] } = _ from hp _ rfl]
  simp [Prog.cancelToken, Prog.poll, Sched.cancel, Sched.cancelTree, ht, liveToken,
    Sched.racers, Sched.interests, hi, waitInterest, Sched.wake, cancelledToken, Interest.idle]

theorem runJob_cancel_sleeping {j : Job World} (hj : s.jobs = [j]) (hid : j.id = 1)
    (hp : CancelsNow j.prog s) (ht : s.tokens = [liveToken]) (hi : s.mainInterest.races = []) :
    s.runJob 1 = { s with tokens := [cancelledToken], jobs := [] } := by
  obtain ⟨id, p, i⟩ := j
  subst hid
  simp only [Sched.runJob, hj, List.find?_cons, beq_self_eq_true, List.filterMap_cons, if_true,
    List.filterMap_nil]
  rw [show p.poll { s with jobs := [⟨1, p, .idle⟩] } = _ from hp _ rfl]
  simp [Prog.cancelToken, Prog.poll, Sched.cancel, Sched.cancelTree, ht, liveToken,
    Sched.racers, Sched.interests, hi, cancelledToken, Interest.idle]

theorem runJob_fresh_sleeps (hj : s.jobs = [freshJob T]) (hT : 0 < T) :
    s.runJob 1 = { s with jobs := [cancelJob (s.now + T) s.order], order := s.order + 1 } := by
  simp [Sched.runJob, hj, freshJob, Prog.poll, Nat.pos_iff_ne_zero.mp hT, cancelJob, Prog.interest]

end Rounds

/-- Where the job that cancels the token stands. -/
inductive Canceller where
  /-- No job: the token is never cancelled. -/
  | absent
  /-- Spawned at the start and not yet run. -/
  | fresh
  /-- Asleep until the cancellation time. -/
  | sleeping
  /-- Its timer has fired and it waits in the queue. -/
  | due
  /-- It cancelled the token before now and ended. -/
  | fired

/-- The job stands as `e` in state `s` of a run whose token is cancelled at `cancelAt`. -/
def Canceller.Fits : Canceller → Option Nat → Sched World → Prop
  | .absent, cancelAt, s => cancelAt = none ∧ s.tokens = [liveToken] ∧ s.jobs = [] ∧ s.queue = []
  | .fresh, cancelAt, s => ∃ T, cancelAt = some T ∧ s.now = 0 ∧ s.tokens = [liveToken] ∧
      s.jobs = [freshJob T] ∧ s.queue = [1]
  | .sleeping, cancelAt, s => ∃ T o, cancelAt = some T ∧ s.now < T ∧ s.tokens = [liveToken] ∧
      s.jobs = [cancelJob T o] ∧ s.queue = []
  | .due, cancelAt, s => ∃ o, cancelAt = some s.now ∧ s.tokens = [liveToken] ∧
      s.jobs = [cancelJob s.now o] ∧ s.queue = [1]
  | .fired, cancelAt, s => ∃ T, cancelAt = some T ∧ T < s.now ∧ s.tokens = [cancelledToken] ∧
      s.jobs = [] ∧ s.queue = []

namespace Canceller

variable {e : Canceller} {cancelAt : Option Nat} {s s' : Sched World}

theorem Fits.frame (h : e.Fits cancelAt s) (hn : s'.now = s.now) (ht : s'.tokens = s.tokens)
    (hj : s'.jobs = s.jobs) (hq : s'.queue = s.queue) : e.Fits cancelAt s' := by
  cases e <;> simp only [Fits, hn, ht, hj, hq] at h ⊢ <;> exact h

theorem Fits.isCancelled (h : e.Fits cancelAt s) : s.isCancelled 0 = firedBefore cancelAt s.now := by
  cases e with
  | absent =>
    obtain ⟨rfl, ht, -⟩ := h
    simp [Sched.isCancelled, ht, liveToken]
  | fresh =>
    obtain ⟨T, rfl, hn, ht, -⟩ := h
    simp [Sched.isCancelled, ht, liveToken, hn]
  | sleeping =>
    obtain ⟨T, o, rfl, hn, ht, -⟩ := h
    simp [Sched.isCancelled, ht, liveToken, Nat.not_lt.mpr hn.le]
  | due =>
    obtain ⟨o, hc, ht, -⟩ := h
    simp [Sched.isCancelled, ht, liveToken, hc]
  | fired =>
    obtain ⟨T, rfl, hn, ht, -⟩ := h
    simp [Sched.isCancelled, ht, cancelledToken, hn]

end Canceller

/-- The main program is about to be polled at `t` on world `w`, the job standing somewhere. -/
structure Ready (cancelAt : Option Nat) (t : Nat) (w : World) (s : Sched World) : Prop where
  now : s.now = t
  world : s.world = w
  woken : s.mainWoken = false
  idle : s.mainInterest = .idle
  fits : ∃ e : Canceller, e.Fits cancelAt s

/-! ### The jobs left at the end -/

section Settle

variable {cancelAt : Option Nat} {s : Sched World} {id : Nat} {rest : List Nat}

theorem settle_queue_nil (hq : s.queue = []) (F : Nat) : settle F s = s := by
  cases F <;> simp [settle, hq]

theorem settle_job (hq : s.queue = id :: rest) (F : Nat) :
    settle (F + 1) s = settle F ({ s with queue := rest }.runJob id) := by
  simp [settle, hq]

theorem settle_world {e : Canceller} (he : e.Fits cancelAt s) (hi : s.mainInterest = .idle)
    (F : Nat) : (settle F s).world = s.world := by
  have hr : ({ s with queue := [] } : Sched World).mainInterest.races = [] := by
    simp [hi, Interest.idle]
  cases F with
  | zero => rfl
  | succ F =>
    cases e with
    | absent => rw [settle_queue_nil he.2.2.2]
    | sleeping =>
      obtain ⟨T, o, -, -, -, -, hq⟩ := he
      rw [settle_queue_nil hq]
    | fired =>
      obtain ⟨T, -, -, -, -, hq⟩ := he
      rw [settle_queue_nil hq]
    | due =>
      obtain ⟨o, -, ht, hj, hq⟩ := he
      rw [settle_job hq, runJob_cancel_sleeping (s := { s with queue := [] }) hj rfl
        (cancelJob_cancelsNow (Nat.le_refl _)) ht hr, settle_queue_nil rfl]
    | fresh =>
      obtain ⟨T, -, -, ht, hj, hq⟩ := he
      rw [settle_job hq]
      rcases Nat.eq_zero_or_pos T with rfl | hT
      · rw [runJob_cancel_sleeping (s := { s with queue := [] }) hj rfl freshJob_cancelsNow ht hr,
          settle_queue_nil rfl]
      · rw [runJob_fresh_sleeps (s := { s with queue := [] }) hj hT, settle_queue_nil rfl]

end Settle

/-- The rounds of the scheduler a run may spend waiting until `t`: two for each millisecond
waited, and one more for the first run of the job. -/
def budget (t : Nat) : Nat := 2 * t + min t 1

theorem budget_mono {t t' : Nat} (h : t ≤ t') : budget t ≤ budget t' := by
  unfold budget
  omega

/-! ### Waiting for the clock or the token -/

section Wait

variable {B : Prog World γ} {cancelAt : Option Nat} {s : Sched World} {d o o' T k : Nat}
  {races : List (Nat × Nat)}

theorem drive_resumed_by_advance {s₂ : Sched World} (hq : s.queue = []) (hw : s.mainWoken = false)
    (ha : s.advance H = if d < H then some s₂ else none) (hw₂ : s₂.mainWoken = true) (F : Nat) :
    drive H (F + 1 + 1) B s (.batch (k + 1)) =
      if d < H then resumeFrom H F B { s₂ with mainWoken := false, mainInterest := .idle }
      else none := by
  rw [drive_advance hq hw, ha]
  split
  · exact drive_resume hw₂
  · rfl

theorem wait_resumed_absent (he : Canceller.absent.Fits cancelAt s)
    (hi : s.mainInterest = waitInterest d o races) (hw : s.mainWoken = false) (hd : s.now < d) :
    ∃ s', Ready cancelAt d s.world s' ∧
      ∀ F, drive H (F + 1 + 1) B s (.batch (k + 1)) =
        if d < H then resumeFrom H F B s' else none := by
  obtain ⟨hc, ht, hj, hq⟩ := he
  refine ⟨_, ?_, drive_resumed_by_advance hq hw (advance_alone hj hi hd.le) rfl⟩
  exact ⟨rfl, rfl, rfl, rfl, .absent, hc, ht, hj, hq⟩

theorem wait_resumed_sleeping (hj : s.jobs = [cancelJob T o']) (ht : s.tokens = [liveToken])
    (hq : s.queue = []) (hc : cancelAt = some T) (hi : s.mainInterest = waitInterest d o races)
    (hw : s.mainWoken = false) (hd : s.now < d) (hdT : d ≤ T) :
    ∃ s', Ready cancelAt d s.world s' ∧
      ∀ F, drive H (F + 1 + 1) B s (.batch (k + 1)) =
        if d < H then resumeFrom H F B s' else none := by
  rcases Nat.lt_or_eq_of_le hdT with hlt | rfl
  · refine ⟨_, ?_, drive_resumed_by_advance hq hw (advance_before_job hj hi hd.le hlt) rfl⟩
    exact ⟨rfl, rfl, rfl, rfl, .sleeping, T, o', hc, hlt, ht, hj, hq⟩
  · refine ⟨_, ?_, drive_resumed_by_advance hq hw (advance_with_job hj hi hq hd.le) rfl⟩
    exact ⟨rfl, rfl, rfl, rfl, .due, o', hc, ht, hj, rfl⟩

theorem wait_resumed {e : Canceller} (he : e.Fits cancelAt s)
    (hi : s.mainInterest = waitInterest d o races) (hw : s.mainWoken = false) (hd : s.now < d)
    (hnf : firedBefore cancelAt d = false) :
    ∃ n ≤ 3, n + budget s.now ≤ budget d ∧ ∃ s', Ready cancelAt d s.world s' ∧
      ∀ F, drive H (F + n) B s (.batch batchSize) =
        if d < H then resumeFrom H F B s' else none := by
  rw [show batchSize = 60 + 1 from rfl]
  cases e with
  | absent =>
    obtain ⟨s', hr, hdrive⟩ := wait_resumed_absent he hi hw hd
    exact ⟨2, by omega, by unfold budget; omega, s', hr, hdrive⟩
  | sleeping =>
    obtain ⟨T, o', hc, -, ht, hj, hq⟩ := he
    subst hc
    have hdT : d ≤ T := by simpa using hnf
    obtain ⟨s', hr, hdrive⟩ := wait_resumed_sleeping hj ht hq rfl hi hw hd hdT
    exact ⟨2, by omega, by unfold budget; omega, s', hr, hdrive⟩
  | fresh =>
    obtain ⟨T, hc, hn, ht, hj, hq⟩ := he
    subst hc
    have hdT : d ≤ T := by simpa using hnf
    have hT : some T = some (s.now + T) := by rw [hn, Nat.zero_add]
    obtain ⟨s', hr, hdrive⟩ := wait_resumed_sleeping (B := B) (k := 59)
      (s := { s with queue := [], jobs := [cancelJob (s.now + T) s.order], order := s.order + 1 })
      rfl ht rfl hT hi hw hd (by omega)
    refine ⟨3, by omega, by unfold budget; omega, s', hr, fun F => ?_⟩
    rw [drive_job hq, runJob_fresh_sleeps (s := { s with queue := [] }) hj (by omega)]
    exact hdrive F
  | due =>
    obtain ⟨o', hc, -⟩ := he
    subst hc
    simp at hnf
    omega
  | fired =>
    obtain ⟨T, hc, hT, -⟩ := he
    subst hc
    simp at hnf
    omega

/-- The state in which the main program resumes once the job has cancelled the token at `T`. -/
def cancelledAt (s : Sched World) (T : Nat) : Sched World :=
  { s with now := T, queue := [], tokens := [cancelledToken], jobs := [],
           mainWoken := false, mainInterest := .idle }

theorem wait_cancelled_queued {j : Job World} (hq : s.queue = [1]) (hj : s.jobs = [j])
    (hid : j.id = 1) (hp : CancelsNow j.prog s) (ht : s.tokens = [liveToken])
    (hi : s.mainInterest = waitInterest d o' [(0, o)]) (F : Nat) :
    drive H (F + 1 + 1 + 1) B s (.batch (k + 1)) = resumeFrom H F B (cancelledAt s s.now) := by
  rw [drive_job hq, runJob_cancel_racing (s := { s with queue := [] }) hj hid hp ht hi,
    drive_woken rfl rfl, drive_resume rfl]
  rfl

theorem wait_cancelled_sleeping (hj : s.jobs = [cancelJob T o'']) (ht : s.tokens = [liveToken])
    (hq : s.queue = []) (hi : s.mainInterest = waitInterest d o' [(0, o)])
    (hw : s.mainWoken = false) (hle : s.now ≤ T) (hTd : T < d) (F : Nat) :
    drive H (F + 1 + 1 + 1 + 1 + 1) B s (.batch (k + 1)) =
      if T < H then resumeFrom H F B (cancelledAt s T) else none := by
  rw [drive_advance hq hw, advance_job_first hj hi hq hle hTd]
  split
  · rw [Option.bind_some, drive_idle (s := { s with now := T, queue := [1] }) hw,
      show batchSize = 60 + 1 from rfl]
    exact wait_cancelled_queued (s := { s with now := T, queue := [1] }) rfl hj rfl
      (cancelJob_cancelsNow (Nat.le_refl T)) ht hi F
  · rfl

theorem wait_cancelled {e : Canceller} (he : e.Fits cancelAt s)
    (hi : s.mainInterest = waitInterest d o' [(0, o)]) (hw : s.mainWoken = false)
    (hnf : firedBefore cancelAt s.now = false) (hc : cancelAt = some T) (hTd : T < d)
    (hH : s.now < H) :
    ∃ n ≤ 6, ∃ s', s'.now = T ∧ s'.world = s.world ∧ s'.queue = [] ∧
      s'.tokens = [cancelledToken] ∧
      ∀ F, drive H (F + n) B s (.batch batchSize) =
        if T < H then resumeFrom H F B s' else none := by
  rw [show batchSize = 60 + 1 from rfl]
  subst hc
  have hle : s.now ≤ T := by simpa using hnf
  cases e with
  | absent => exact absurd he.1 (by simp)
  | sleeping =>
    obtain ⟨T', o'', hc, -, ht, hj, hq⟩ := he
    cases hc
    exact ⟨5, by omega, cancelledAt s T, rfl, rfl, rfl, rfl,
      wait_cancelled_sleeping hj ht hq hi hw hle hTd⟩
  | due =>
    obtain ⟨o'', hc, ht, hj, hq⟩ := he
    cases hc
    refine ⟨3, by omega, cancelledAt s s.now, rfl, rfl, rfl, rfl, fun F => ?_⟩
    rw [if_pos hH]
    exact wait_cancelled_queued hq hj rfl (cancelJob_cancelsNow (Nat.le_refl _)) ht hi F
  | fresh =>
    obtain ⟨T', hc, hn, ht, hj, hq⟩ := he
    cases hc
    rcases Nat.eq_zero_or_pos T with rfl | hT
    · -- the job cancels at its first run
      refine ⟨3, by omega, cancelledAt s s.now, hn, rfl, rfl, rfl, fun F => ?_⟩
      rw [if_pos (by omega)]
      exact wait_cancelled_queued hq hj rfl freshJob_cancelsNow ht hi F
    · -- the job first sets its timer for `T`
      have hT' : s.now + T = T := by omega
      refine ⟨6, by omega,
        cancelledAt { s with queue := [], jobs := [cancelJob T s.order], order := s.order + 1 } T,
        rfl, rfl, rfl, rfl, fun F => ?_⟩
      rw [drive_job hq, runJob_fresh_sleeps (s := { s with queue := [] }) hj hT]
      simp only [hT']
      exact wait_cancelled_sleeping (k := 59)
        (s := { s with queue := [], jobs := [cancelJob T s.order], order := s.order + 1 })
        rfl ht rfl hi hw hle hTd F
  | fired =>
    obtain ⟨T', hc, hT, -⟩ := he
    cases hc
    omega

theorem wait_after_cancel (ht : s.tokens = [cancelledToken]) (hj : s.jobs = []) (hq : s.queue = [])
    (hc : cancelAt = some T) (hTd : T < d) (hi : s.mainInterest = waitInterest d o races)
    (hw : s.mainWoken = false) (hd : s.now ≤ d) :
    ∃ s', Ready cancelAt d s.world s' ∧
      ∀ F, drive H (F + 1 + 1) B s (.batch (k + 1)) =
        if d < H then resumeFrom H F B s' else none := by
  refine ⟨_, ?_, drive_resumed_by_advance hq hw (advance_alone hj hi hd) rfl⟩
  exact ⟨rfl, rfl, rfl, rfl, .fired, T, hc, hTd, ht, hj, hq⟩

theorem plain_wait_sleeping_cancels (hj : s.jobs = [cancelJob T o]) (ht : s.tokens = [liveToken])
    (hq : s.queue = []) (hc : cancelAt = some T) (hi : s.mainInterest = waitInterest d o' [])
    (hw : s.mainWoken = false) (hle : s.now ≤ T) (hTd : T < d) :
    ∃ s', Ready cancelAt d s.world s' ∧
      ∀ F, drive H (F + 1 + 1 + 1 + 1 + 1) B s (.batch (k + 1)) =
        if d < H then resumeFrom H F B s' else none := by
  have hr : ({ s with now := T, queue := [] } : Sched World).mainInterest.races = [] := by
    simp [hi, waitInterest]
  obtain ⟨s', hr', hdrive⟩ := wait_after_cancel (B := B) (k := 59)
    (s := { s with now := T, queue := [], tokens := [cancelledToken], jobs := [] }) rfl rfl rfl hc
    hTd hi hw hTd.le
  refine ⟨s', hr', fun F => ?_⟩
  rw [drive_advance hq hw, advance_job_first hj hi hq hle hTd]
  split
  · rw [Option.bind_some, drive_idle (s := { s with now := T, queue := [1] }) hw,
      show batchSize = 60 + 1 from rfl, drive_job rfl,
      runJob_cancel_sleeping (s := { s with now := T, queue := [] }) hj rfl
        (cancelJob_cancelsNow (Nat.le_refl _)) ht hr]
    exact hdrive F
  · rw [if_neg (by omega)]
    rfl

theorem plain_wait_fresh_cancels (he : Canceller.fresh.Fits cancelAt s) (hc : cancelAt = some T)
    (hTd : T < d) (hi : s.mainInterest = waitInterest d o []) (hw : s.mainWoken = false) :
    ∃ n ≤ 6, ∃ s', Ready cancelAt d s.world s' ∧
      ∀ F, drive H (F + n) B s (.batch batchSize) =
        if d < H then resumeFrom H F B s' else none := by
  obtain ⟨T', hc', hn, ht, hj, hq⟩ := he
  rw [hc, Option.some_inj] at hc'
  subst hc'
  rw [show batchSize = 60 + 1 from rfl]
  rcases Nat.eq_zero_or_pos T with rfl | hT
  · -- the job cancels at its first run
    have hr : ({ s with queue := [] } : Sched World).mainInterest.races = [] := by
      simp [hi, waitInterest]
    obtain ⟨s', hr', hdrive⟩ := wait_after_cancel (B := B) (k := 59)
      (s := { s with queue := [], tokens := [cancelledToken], jobs := [] }) rfl rfl rfl hc hTd hi hw
      (by simp only [hn]; omega)
    refine ⟨3, by omega, s', hr', fun F => ?_⟩
    rw [drive_job hq, runJob_cancel_sleeping (s := { s with queue := [] }) hj rfl freshJob_cancelsNow
      ht hr]
    exact hdrive F
  · -- the job first sets its timer for `T`
    have hnT : s.now + T = T := by omega
    obtain ⟨s', hr', hdrive⟩ := plain_wait_sleeping_cancels (B := B) (k := 59)
      (s := { s with queue := [], jobs := [cancelJob T s.order], order := s.order + 1 }) rfl ht rfl
      hc hi hw (by simp only [hn]; omega) hTd
    refine ⟨6, by omega, s', hr', fun F => ?_⟩
    rw [drive_job hq, runJob_fresh_sleeps (s := { s with queue := [] }) hj hT]
    simp only [hnT]
    exact hdrive F

end Wait

/-! ### The loop, attempt by attempt -/

/-- The rest of the run once the retried call returns: its result with the time. -/
def finish (r : Except RpcError α) : Async (Except RpcError α × Nat) := .clock fun t => .pure (r, t)

/-- The retry loop on token 0 from attempt `a` with `left` attempts after it, then the rest of
the run. -/
def loopFrom (config : RetryConfig) (m : RetriedMethod α) (a left : Nat) :
    Async (Except RpcError α × Nat) :=
  (retryFrom config 0 m.call a left).bind finish

/-- What the loop does with the answer of attempt `a`: it stops, or waits and tries again. -/
def afterAnswer (config : RetryConfig) (m : RetriedMethod α) (a : Nat) :
    Nat → Except RpcError α → Async (Except RpcError α × Nat)
  | 0, r => finish r
  | _ + 1, .ok v => finish (.ok v)
  | left + 1, .error e =>
    if e.isRetryable then
      .race 0 none (.sleep (retryDelay e config a) (.pure ())) (finish (.error .cancelled))
        fun _ => loopFrom config m (a + 1) left
    else finish (.error e)

theorem loopFrom_eq (config : RetryConfig) (m : RetriedMethod α) (a left : Nat) :
    loopFrom config m a left =
      .race 0 none m.call (finish (.error .cancelled)) (afterAnswer config m a left) := by
  cases left with
  | zero => rfl
  | succ left =>
    unfold loopFrom
    rw [retryFrom]
    simp only [bind, Prog.bind, Prog.racing]
    congr 1
    funext r
    cases r with
    | ok v => rfl
    | error e =>
      simp only [afterAnswer]
      split
      · simp only [Prog.bind, Prog.delay]
        congr 1
      · rfl

section Races

variable {β : Type} {tok : Nat} {w : Prog World β} {c : Prog World γ} {k : β → Prog World γ}
  {s s' : Sched World}

theorem poll_race_start (hc : s.isCancelled tok = false) :
    (Prog.race tok none w c k).poll s =
      match w.poll { s with order := s.order + 1 } with
      | (s', .done b) => (k b).poll s'
      | (s', .blocked w') => (s', .blocked (.race tok (some s.order) w' c k)) := by
  rw [Prog.poll, if_neg (by simp [hc])]
  rcases w.poll { s with order := s.order + 1 } with ⟨s', b | w'⟩ <;> rfl

theorem poll_race_due {x : β} {o d o' : Nat} (hc : s.isCancelled tok = false) (hd : d ≤ s.now) :
    (Prog.race tok (some o) (.timer d o' (.pure x)) c k).poll s = (k x).poll s := by
  rw [Prog.poll, if_neg (by simp [hc])]
  simp [Prog.poll, hd]

theorem poll_race_timer_cancelled {x : β} {o : Option Nat} {d o' : Nat}
    (hc : s.isCancelled tok = true) :
    (Prog.race tok o (.timer d o' (.pure x)) c k).poll s = c.poll s := by
  rw [Prog.poll_race_cancelled hc]
  rfl

theorem poll_race_sleep_zero {x : β} (hc : s.isCancelled tok = false) :
    (Prog.race tok none (.sleep 0 (.pure x)) c k).poll s = (k x).poll { s with order := s.order + 1 } := by
  rw [poll_race_start hc]
  simp [Prog.poll]

theorem poll_race_sleep {x : β} {d : Nat} (hc : s.isCancelled tok = false) (hd : d ≠ 0) :
    (Prog.race tok none (.sleep d (.pure x)) c k).poll s =
      ({ s with order := s.order + 1 + 1 },
        .blocked (.race tok (some s.order) (.timer (s.now + d) (s.order + 1) (.pure x)) c k)) := by
  rw [poll_race_start hc]
  simp [Prog.poll, hd]

end Races

section LoopPoll

variable {config : RetryConfig} {m : RetriedMethod α} {a left : Nat} {s : Sched World}

theorem poll_finish (r : Except RpcError α) (s : Sched World) :
    (finish r).poll s = (s, .done (r, s.now)) := by
  simp [finish, Prog.poll]

theorem poll_loopFrom_cancelled (hc : s.isCancelled 0 = true) :
    (loopFrom config m a left).poll s = (s, .done (.error .cancelled, s.now)) := by
  rw [loopFrom_eq, Prog.poll_race_cancelled hc, RetriedMethod.call_eq, poll_finish]
  rfl

theorem poll_loopFrom_answered (hc : s.isCancelled 0 = false)
    (h0 : (m.answer (m.consume s.now s.world).2).1 = 0) :
    (loopFrom config m a left).poll s =
      (afterAnswer config m a left (m.answer (m.consume s.now s.world).2).2).poll
        { s with order := s.order + 1, world := (m.consume s.now s.world).1 } := by
  rw [loopFrom_eq, poll_race_start hc, RetriedMethod.poll_call]
  simp only [h0, if_true]

theorem poll_loopFrom_waits (hc : s.isCancelled 0 = false)
    (h0 : (m.answer (m.consume s.now s.world).2).1 ≠ 0) :
    (loopFrom config m a left).poll s =
      ({ s with order := s.order + 1 + 1, world := (m.consume s.now s.world).1 },
        .blocked (.race 0 (some s.order)
          (.timer (s.now + (m.answer (m.consume s.now s.world).2).1) (s.order + 1)
            (.pure (m.answer (m.consume s.now s.world).2).2))
          (finish (.error .cancelled)) (afterAnswer config m a left))) := by
  rw [loopFrom_eq, poll_race_start hc, RetriedMethod.poll_call]
  simp only [h0, if_false]

theorem afterAnswer_stop {ρ : Except RpcError α}
    (hstop : ∀ e, ρ = .error e → e.isRetryable = true → left = 0) :
    afterAnswer config m a left ρ = finish ρ := by
  cases left with
  | zero => rfl
  | succ left =>
    cases ρ with
    | ok v => rfl
    | error e =>
      have hr : e.isRetryable = false := by
        cases h : e.isRetryable
        · rfl
        · exact absurd (hstop e rfl h) (Nat.succ_ne_zero left)
      simp [afterAnswer, hr]

theorem afterAnswer_retry {e : RpcError} (hr : e.isRetryable = true) :
    afterAnswer config m a (left + 1) (.error e) =
      .race 0 none (.sleep (retryDelay e config a) (.pure ())) (finish (.error .cancelled))
        fun _ => loopFrom config m (a + 1) left := by
  simp [afterAnswer, hr]

end LoopPoll

/-! ### Racing on the token while waiting -/

section RaceWait

variable {β : Type} {p c : Prog World γ} {k : β → Prog World γ} {x : β} {cancelAt : Option Nat}
  {s s₂ : Sched World} {e : Canceller} {d o o' T : Nat}

theorem interest_race_timer :
    (Prog.race 0 (some o) (.timer d o' (.pure x)) c k).interest = waitInterest d o' [(0, o)] := rfl

/-- A poll that leaves the main program racing on the token while it waits until `d`, when the
token does not fire before `d`: the run goes on at `d` with the race's continuation. -/
theorem resumeFrom_race_resumed
    (hp : p.poll s = (s₂, .blocked (.race 0 (some o) (.timer d o' (.pure x)) c k)))
    (he : e.Fits cancelAt s₂) (hw : s₂.mainWoken = false) (hd : s₂.now < d)
    (hnf : firedBefore cancelAt d = false) :
    ∃ n ≤ 3, n + budget s₂.now ≤ budget d ∧ ∃ s', Ready cancelAt d s₂.world s' ∧
      ∀ F, resumeFrom H (F + n) p s = if d < H then resumeFrom H F (k x) s' else none := by
  obtain ⟨n, hn, hb, s', hr, hdrive⟩ :=
    wait_resumed (B := .race 0 (some o) (.timer d o' (.pure x)) c k)
      (s := { s₂ with mainInterest := waitInterest d o' [(0, o)] }) (he.frame rfl rfl rfl rfl) rfl hw
      hd hnf
  refine ⟨n, hn, hb, s', hr, fun F => ?_⟩
  rw [resumeFrom_blocked hp, interest_race_timer, hdrive F]
  split
  · apply resumeFrom_congr
    obtain ⟨e', he'⟩ := hr.fits
    have hc : s'.isCancelled 0 = false := by rw [he'.isCancelled, hr.now, hnf]
    exact poll_race_due hc (by rw [hr.now])
  · rfl

/-- A poll that leaves the loop racing on the token while it waits until `d`, when the token fires
at `T < d`: the loop returns cancelled at `T`, on the same world, with no job left to run. -/
theorem resumeFrom_race_cancelled {p : Async (Except RpcError α × Nat)}
    {k : β → Async (Except RpcError α × Nat)}
    (hp : p.poll s = (s₂, .blocked (.race 0 (some o) (.timer d o' (.pure x))
      (finish (.error .cancelled)) k)))
    (he : e.Fits cancelAt s₂) (hw : s₂.mainWoken = false)
    (hnf : firedBefore cancelAt s₂.now = false) (hc : cancelAt = some T) (hTd : T < d)
    (hH : s₂.now < H) :
    ∃ n ≤ 6, ∃ s', s'.world = s₂.world ∧ s'.queue = [] ∧
      ∀ F, resumeFrom H (F + n) p s =
        if T < H then some ((.error .cancelled, T), s') else none := by
  obtain ⟨n, hn, s', hT, hw', hq, ht, hdrive⟩ :=
    wait_cancelled (B := .race 0 (some o) (.timer d o' (.pure x)) (finish (.error .cancelled)) k)
      (s := { s₂ with mainInterest := waitInterest d o' [(0, o)] }) (he.frame rfl rfl rfl rfl) rfl
      hw hnf hc hTd hH
  refine ⟨n, hn, s', hw', hq, fun F => ?_⟩
  rw [resumeFrom_blocked hp, interest_race_timer, hdrive F]
  split
  · rw [resumeFrom_congr (poll_race_timer_cancelled
      (by simp [Sched.isCancelled, ht, cancelledToken])), resumeFrom_done (poll_finish _ s'), hT]
  · rfl

end RaceWait

/-! ### Following the rules, attempt by attempt -/

/-- From state `s`, the rest `p` of a run follows the rules from attempt `a` due at `t`, after the
node has recorded `calls`. For some course of the rules, ending at `te`: if `te` is before the
horizon, the run ends with the course's result at `te`, the node having recorded one call for each
attempt; otherwise the run is cut off. Either way within the budget of the time it runs, and seven
rounds more. -/
def Follows (H : Nat) (config : RetryConfig) (cancelAt : Option Nat) (m : RetriedMethod α)
    (l : List (Reply m.β)) (a t : Nat) (calls : List CallRecord)
    (p : Async (Except RpcError α × Nat)) (s : Sched World) : Prop :=
  ∃ cs r te, Attempts config cancelAt (m.answerAt l) a t cs r te ∧ s.now ≤ te ∧
    (te < H → ∃ n s', n + budget s.now ≤ budget te + 7 ∧
      s'.world.node.calls.toList = calls ++ cs.map m.record ∧
      (settle (runFuel H) s').world = s'.world ∧ ∀ F, resumeFrom H (F + n) p s = some ((r, te), s')) ∧
    (H ≤ te → ∃ n, n + budget s.now ≤ budget H + 7 ∧
      ∀ F, resumeFrom H (F + n) p s = none)

namespace Follows

variable {config : RetryConfig} {cancelAt : Option Nat} {m : RetriedMethod α}
  {l : List (Reply m.β)} {a t te i : Nat} {calls : List CallRecord}
  {p p' : Async (Except RpcError α × Nat)} {s s' : Sched World}

theorem of_resumeFrom (h : Follows H config cancelAt m l a t calls p' s')
    (hp : ∀ F, resumeFrom H (F + i) p s = resumeFrom H F p' s') (hi : i + budget s.now ≤ budget s'.now)
    (hle : s.now ≤ s'.now) : Follows H config cancelAt m l a t calls p s := by
  obtain ⟨cs, r, te, hA, hte, hok, hcut⟩ := h
  refine ⟨cs, r, te, hA, by omega, fun h => ?_, fun h => ?_⟩
  · obtain ⟨n, s'', hn, hcalls, hsettle, hrun⟩ := hok h
    exact ⟨n + i, s'', by omega, hcalls, hsettle, fun F => by rw [← Nat.add_assoc, hp, hrun]⟩
  · obtain ⟨n, hn, hrun⟩ := hcut h
    exact ⟨n + i, by omega, fun F => by rw [← Nat.add_assoc, hp, hrun]⟩

theorem retried {e : RpcError} {w : Nat} (he : (m.answerAt l (a - 1)).2 = .error e)
    (hr : e.isRetryable = true) (hmore : a < max config.maxAttempts 1) (hw : RetryWait config a e w)
    (hf : firedBefore cancelAt (t + (m.answerAt l (a - 1)).1 + w) = false)
    (h : Follows H config cancelAt m l (a + 1) (t + (m.answerAt l (a - 1)).1 + w)
      (calls ++ [m.record t]) p s) :
    Follows H config cancelAt m l a t calls p s := by
  obtain ⟨cs, r, te, hA, hte, hok, hcut⟩ := h
  refine ⟨t :: cs, r, te, .retried he hr hmore hw hf hA, hte, fun h => ?_, hcut⟩
  obtain ⟨n, s'', hn, hcalls, hsettle, hrun⟩ := hok h
  exact ⟨n, s'', hn, by simp [hcalls], hsettle, hrun⟩

theorem single {r : Except RpcError α} (hA : Attempts config cancelAt (m.answerAt l) a t [t] r te)
    (hte : s.now ≤ te) (hH : s.now ≤ H)
    (hcalls : s'.world.node.calls.toList = calls ++ [m.record t])
    (hsettle : (settle (runFuel H) s').world = s'.world)
    (hrun : ∀ F, resumeFrom H (F + i) p s = if te < H then some ((r, te), s') else none)
    (hi : i ≤ 6) : Follows H config cancelAt m l a t calls p s := by
  have h₁ := budget_mono hte
  have h₂ := budget_mono hH
  refine ⟨[t], r, te, hA, hte, fun h => ⟨i, s', by omega, hcalls, hsettle, fun F => ?_⟩,
    fun h => ⟨i, by omega, fun F => ?_⟩⟩
  · rw [hrun F, if_pos h]
  · rw [hrun F, if_neg (by omega)]

theorem cutOff {cs : List Nat} {r : Except RpcError α}
    (hA : Attempts config cancelAt (m.answerAt l) a t cs r te) (hte : H ≤ te)
    (hH : s.now ≤ H) (hnone : ∀ F, resumeFrom H (F + i) p s = none) (hi : i ≤ 3) :
    Follows H config cancelAt m l a t calls p s := by
  have := budget_mono hH
  exact ⟨cs, r, te, hA, by omega, fun h => absurd hte (by omega), fun _ => ⟨i, by omega, hnone⟩⟩

/-- A wait of the loop, racing on the token, that the token does not interrupt: the run follows
the rules if it does from the end of the wait on, given that the rules end no earlier than a wait
that ends past the horizon. -/
theorem of_race_resumed {β : Type} {k : β → Async (Except RpcError α × Nat)} {x : β}
    {s₂ : Sched World} {e : Canceller} {d o o' : Nat}
    (hp : p.poll s = (s₂, .blocked (.race 0 (some o) (.timer d o' (.pure x))
      (finish (.error .cancelled)) k)))
    (he : e.Fits cancelAt s₂) (hw : s₂.mainWoken = false) (hn : s₂.now = s.now) (hd : s.now < d)
    (hH : s.now < H) (hnf : firedBefore cancelAt d = false)
    (hnext : d < H → ∀ s', Ready cancelAt d s₂.world s' →
      Follows H config cancelAt m l a t calls (k x) s')
    (hcut : H ≤ d →
      ∃ cs r te, Attempts config cancelAt (m.answerAt l) a t cs r te ∧ d ≤ te) :
    Follows H config cancelAt m l a t calls p s := by
  obtain ⟨n, hn₃, hb, s', hr, hrun⟩ := resumeFrom_race_resumed hp he hw (by omega) hnf
  by_cases hdH : d < H
  · refine of_resumeFrom (hnext hdH s' hr) (fun F => by rw [hrun F, if_pos hdH]) ?_ ?_
    · rw [← hn, hr.now]
      exact hb
    · rw [hr.now]
      omega
  · obtain ⟨cs, r, te, hA, hte⟩ := hcut (by omega)
    exact cutOff hA (by omega) hH.le (fun F => by rw [hrun F, if_neg hdH]) hn₃

theorem of_race_cancelled {β : Type} {k : β → Async (Except RpcError α × Nat)} {x : β}
    {s₂ : Sched World} {e : Canceller} {d o o' T : Nat}
    (hp : p.poll s = (s₂, .blocked (.race 0 (some o) (.timer d o' (.pure x))
      (finish (.error .cancelled)) k)))
    (he : e.Fits cancelAt s₂) (hw : s₂.mainWoken = false) (hn : s₂.now = s.now)
    (hnf : firedBefore cancelAt s.now = false) (hc : cancelAt = some T) (hTd : T < d)
    (hH : s.now < H) (hA : Attempts config cancelAt (m.answerAt l) a t [t] (.error .cancelled) T)
    (hcalls : s₂.world.node.calls.toList = calls ++ [m.record t]) :
    Follows H config cancelAt m l a t calls p s := by
  obtain ⟨n, hn₆, s', hsw, hsq, hrun⟩ :=
    resumeFrom_race_cancelled hp he hw (by rw [hn]; exact hnf) hc hTd (hn ▸ hH)
  have hle : s.now ≤ T := by
    subst hc
    simpa using hnf
  exact single hA hle hH.le (by rw [hsw]; exact hcalls) (by rw [settle_queue_nil hsq]) hrun hn₆

end Follows

section Follow

variable {config : RetryConfig} {cancelAt : Option Nat} {m : RetriedMethod α}
  {l : List (Reply m.β)} {a t left : Nat} {calls : List CallRecord} {w : World} {s : Sched World}

theorem follows_afterAnswer (hN : a + left = max config.maxAttempts 1)
    (hr : Ready cancelAt (t + (m.answerAt l (a - 1)).1) w s)
    (hnf : firedBefore cancelAt (t + (m.answerAt l (a - 1)).1) = false)
    (hH : t + (m.answerAt l (a - 1)).1 < H)
    (hcalls : w.node.calls.toList = calls ++ [m.record t])
    (hnext : ∀ left', left = left' + 1 → ∀ t' s', Ready cancelAt t' w s' → t' < H →
      Follows H config cancelAt m l (a + 1) t' (calls ++ [m.record t])
        (loopFrom config m (a + 1) left') s') :
    Follows H config cancelAt m l a t calls (afterAnswer config m a left (m.answerAt l (a - 1)).2)
      s := by
  obtain ⟨E, hE⟩ := hr.fits
  have hc : s.isCancelled 0 = false := by rw [hE.isCancelled, hr.now, hnf]
  by_cases hstop : ∀ e, (m.answerAt l (a - 1)).2 = .error e → e.isRetryable = true → left = 0
  · -- the answer stands
    have hA : Attempts config cancelAt (m.answerAt l) a t [t] _ _ :=
      .answered hnf fun e h1 h2 => by have := hstop e h1 h2; omega
    refine Follows.single (i := 0) hA hr.now.le (by rw [hr.now]; omega) (by rw [hr.world, hcalls])
      (settle_world hE hr.idle _) (fun F => ?_) (by omega)
    rw [afterAnswer_stop hstop, Nat.add_zero, resumeFrom_done (poll_finish _ s), hr.now, if_pos hH]
  · -- a retryable failure with attempts left: the wait, racing on the token
    push Not at hstop
    obtain ⟨e, he, hre, hleft⟩ := hstop
    obtain ⟨left', rfl⟩ := Nat.exists_eq_succ_of_ne_zero hleft
    have hmore : a < max config.maxAttempts 1 := by omega
    have hw := retryWait_retryDelay config a e
    rw [he, afterAnswer_retry hre]
    rcases Nat.eq_zero_or_pos (retryDelay e config a) with hw0 | hwpos
    · -- no wait: the next attempt at once
      have hf : firedBefore cancelAt (t + (m.answerAt l (a - 1)).1 + retryDelay e config a) = false := by
        rw [hw0, Nat.add_zero]
        exact hnf
      have hr₁ : Ready cancelAt (t + (m.answerAt l (a - 1)).1 + retryDelay e config a) w
          { s with order := s.order + 1 } :=
        ⟨by rw [hw0, Nat.add_zero]; exact hr.now, hr.world, hr.woken, hr.idle, E,
          hE.frame rfl rfl rfl rfl⟩
      refine Follows.of_resumeFrom (i := 0)
        (Follows.retried he hre hmore hw hf (hnext left' rfl _ _ hr₁ (by omega))) (fun F => ?_)
        (Nat.zero_add _).le le_rfl
      rw [hw0, Nat.add_zero]
      exact resumeFrom_congr (poll_race_sleep_zero hc)
    · have hp := poll_race_sleep (c := finish (.error .cancelled))
        (k := fun _ => loopFrom config m (a + 1) left') (x := ()) hc hwpos.ne'
      cases hf : firedBefore cancelAt (t + (m.answerAt l (a - 1)).1 + retryDelay e config a)
      · -- the wait ends, and the next attempt is due
        refine Follows.of_race_resumed hp (hE.frame rfl rfl rfl rfl) hr.woken rfl (by omega)
          (by rw [hr.now]; exact hH) (by rw [hr.now]; exact hf) (fun hdH s' hr' => ?_) fun _ => ?_
        · refine Follows.retried he hre hmore hw hf (hnext left' rfl _ s' ?_ (by rwa [hr.now] at hdH))
          rw [← hr.now, ← hr.world]
          exact hr'
        · obtain ⟨cs, r, te, hA, hte⟩ := Attempts.exists_retried he hre hmore hw hf
          exact ⟨cs, r, te, hA, by rw [hr.now]; exact hte⟩
      · -- the token fires during the wait
        obtain ⟨T, hT, -, hlt⟩ := firedBefore_between hf hnf
        exact Follows.of_race_cancelled hp (hE.frame rfl rfl rfl rfl) hr.woken rfl
          (by rw [hr.now]; exact hnf) hT (by rw [hr.now]; exact hlt) (by rw [hr.now]; exact hH)
          (.cancelledInWait hnf he hre hmore hw hT hlt) (by rw [hr.world, hcalls])

theorem follows_loopFrom_of_next (hN : a + left = max config.maxAttempts 1) (ha : 1 ≤ a)
    (hr : Ready cancelAt t w s) (hH : t < H)
    (hscript : m.replies w.node.script = repliesAfter l (a - 1))
    (hnext : ∀ left', left = left' + 1 → ∀ w', m.replies w'.node.script = repliesAfter l a →
      w'.node.calls.toList = w.node.calls.toList ++ [m.record t] → ∀ t' s', Ready cancelAt t' w' s' →
      t' < H → Follows H config cancelAt m l (a + 1) t' (w.node.calls.toList ++ [m.record t])
        (loopFrom config m (a + 1) left') s') :
    Follows H config cancelAt m l a t w.node.calls.toList (loopFrom config m a left) s := by
  obtain ⟨E, hE⟩ := hr.fits
  have ht := hr.now
  have hw := hr.world
  subst ht hw
  cases hf : firedBefore cancelAt s.now
  · -- the token is live: the node takes the call
    have hc : s.isCancelled 0 = false := by rw [hE.isCancelled, hf]
    obtain ⟨hans, hscript', hcalls⟩ := m.consume_of_repliesAfter (t := s.now) hscript
    rw [Nat.sub_add_cancel ha] at hscript'
    have hcalls' : (m.consume s.now s.world).1.node.calls.toList =
        s.world.node.calls.toList ++ [m.record s.now] := by
      rw [hcalls, Array.toList_push]
    have hnext' := fun left' hl => hnext left' hl _ hscript' hcalls'
    rcases Nat.eq_zero_or_pos (m.answerAt l (a - 1)).1 with h0 | hpos
    · -- the node answers at once
      have hp : (loopFrom config m a left).poll s = _ := poll_loopFrom_answered hc (by rw [hans, h0])
      rw [hans] at hp
      have hr₁ : Ready cancelAt (s.now + (m.answerAt l (a - 1)).1) (m.consume s.now s.world).1
          { s with order := s.order + 1, world := (m.consume s.now s.world).1 } :=
        ⟨by rw [h0]; rfl, rfl, hr.woken, hr.idle, E, hE.frame rfl rfl rfl rfl⟩
      exact Follows.of_resumeFrom (i := 0)
        (follows_afterAnswer hN hr₁ (by rw [h0, Nat.add_zero]; exact hf) (by omega) hcalls' hnext')
        (fun F => resumeFrom_congr hp) (Nat.zero_add _).le le_rfl
    · -- the node takes time: the call waits, racing on the token
      have hp : (loopFrom config m a left).poll s = _ := poll_loopFrom_waits hc (by rw [hans]; omega)
      rw [hans] at hp
      cases hf₂ : firedBefore cancelAt (s.now + (m.answerAt l (a - 1)).1)
      · -- the answer comes
        refine Follows.of_race_resumed hp (hE.frame rfl rfl rfl rfl) hr.woken rfl (by omega) hH hf₂
          (fun hdH s' hr' => follows_afterAnswer hN hr' hf₂ hdH hcalls' hnext') fun _ => ?_
        obtain ⟨cs, r, te, hA⟩ : ∃ cs r te, Attempts config cancelAt (m.answerAt l) a s.now cs r te :=
          Attempts.exists_course _ _
        exact ⟨cs, r, te, hA, hA.answer_le_end hf₂⟩
      · -- the token fires during the call
        obtain ⟨T, hT, -, hlt⟩ := firedBefore_between hf₂ hf
        exact Follows.of_race_cancelled hp (hE.frame rfl rfl rfl rfl) hr.woken rfl hf hT hlt hH
          (.cancelledInCall hf hT hlt) hcalls'
  · -- the token fired before the attempt was due
    have hc : s.isCancelled 0 = true := by rw [hE.isCancelled, hf]
    exact ⟨[], _, s.now, .cancelledBefore hf, le_rfl,
      fun _ => ⟨0, s, by omega, by simp, settle_world hE hr.idle _,
        fun F => resumeFrom_done (poll_loopFrom_cancelled hc)⟩,
      fun h => absurd hH (by omega)⟩

theorem follows_loopFrom (left : Nat) :
    ∀ {a t w s}, a + left = max config.maxAttempts 1 → 1 ≤ a → Ready cancelAt t w s →
      t < H → m.replies w.node.script = repliesAfter l (a - 1) →
      Follows H config cancelAt m l a t w.node.calls.toList (loopFrom config m a left) s := by
  -- the attempts left shrink by one from each attempt to the next
  induction left with
  | zero =>
    intro a t w s hN ha hr hH hscript
    exact follows_loopFrom_of_next hN ha hr hH hscript fun left' h => absurd h (by omega)
  | succ left ih =>
    intro a t w s hN ha hr hH hscript
    refine follows_loopFrom_of_next hN ha hr hH hscript
      fun left' hl w' hscript' hcalls' t' s' hr' hH' => ?_
    obtain rfl : left' = left := by omega
    rw [← hcalls']
    exact ih (by omega) (by omega) hr' hH' (by rw [hscript', Nat.add_sub_cancel])

end Follow

/-! ### The whole run -/

/-- A run that opens a token the job cancels at `cancelAt`, waits until `start`, and makes the
retried call: its result with the time it returns. -/
def retriedRun (config : RetryConfig) (cancelAt : Option Nat) (start : Nat)
    (call : Async (Except RpcError α)) : Async (Except RpcError α × Nat) := do
  let tok ← Prog.cancelAfter cancelAt
  Prog.delay start
  let r ← withRetry config tok call
  let t ← Prog.now
  pure (r, t)

/-- The run once its token is open and the job that cancels it spawned. -/
def opened (cancelAt : Option Nat) (w : World) : Sched World :=
  let s : Sched World := { Sched.start w with mainWoken := false, tokens := [liveToken] }
  match cancelAt with
  | none => s
  | some T => { s with jobs := [freshJob T], queue := [1], nextJob := 2 }

section Opening

variable {config : RetryConfig} {cancelAt : Option Nat} {start d : Nat} {m : RetriedMethod α}
  {w : World}

theorem retriedRun_none :
    retriedRun config none start m.call =
      .token none fun tok => .sleep start ((withRetry config tok m.call).bind finish) := rfl

theorem retriedRun_some {T : Nat} :
    retriedRun config (some T) start m.call =
      .token none fun tok => .spawn (.sleep T (.cancel tok (.pure ())))
        (.sleep start ((withRetry config tok m.call).bind finish)) := rfl

theorem poll_retriedRun :
    (retriedRun config cancelAt start m.call).poll
        { Sched.start w with mainWoken := false, mainInterest := .idle } =
      (Prog.sleep start (loopFrom config m 1 (max config.maxAttempts 1 - 1))).poll
        (opened cancelAt w) := by
  cases cancelAt with
  | none =>
    rw [retriedRun_none]
    simp [Prog.poll, Sched.newToken, Sched.start, opened, liveToken]
    rfl
  | some T =>
    rw [retriedRun_some]
    simp [Prog.poll, Sched.newToken, Sched.spawn, Sched.start, opened, liveToken]
    rfl

theorem opened_ready : Ready cancelAt 0 w (opened cancelAt w) := by
  cases cancelAt with
  | none => exact ⟨rfl, rfl, rfl, rfl, .absent, rfl, rfl, rfl, rfl⟩
  | some T => exact ⟨rfl, rfl, rfl, rfl, .fresh, T, rfl, rfl, rfl, rfl, rfl⟩

theorem wait_opened (cancelAt : Option Nat) (w : World) {B : Prog World γ} (hd : 0 < d) :
    ∃ n ≤ 6, ∃ s', Ready cancelAt d w s' ∧
      ∀ F, drive H (F + n) B { opened cancelAt w with order := 1, mainInterest := waitInterest d 0 [] }
        (.batch batchSize) = if d < H then resumeFrom H F B s' else none := by
  cases cancelAt with
  | none =>
    have he : Canceller.absent.Fits none
        { opened none w with order := 1, mainInterest := waitInterest d 0 [] } :=
      ⟨rfl, rfl, rfl, rfl⟩
    obtain ⟨n, hn, -, s', hr, hdrive⟩ := wait_resumed (B := B) he rfl rfl hd rfl
    exact ⟨n, by omega, s', hr, hdrive⟩
  | some T =>
    have he : Canceller.fresh.Fits (some T)
        { opened (some T) w with order := 1, mainInterest := waitInterest d 0 [] } :=
      ⟨T, rfl, rfl, rfl, rfl, rfl⟩
    by_cases hTd : T < d
    · exact plain_wait_fresh_cancels he rfl hTd rfl rfl
    · obtain ⟨n, hn, -, s', hr, hdrive⟩ := wait_resumed (B := B) he rfl rfl hd
        (by simp only [firedBefore_some, decide_eq_false_iff_not]; exact hTd)
      exact ⟨n, by omega, s', hr, hdrive⟩

theorem drive_retriedRun (config : RetryConfig) (cancelAt : Option Nat) (start : Nat)
    (m : RetriedMethod α) (w : World) (hH : 0 < H) :
    ∃ n ≤ 7, ∃ s, Ready cancelAt start w s ∧
      ∀ F, drive H (F + n) (retriedRun config cancelAt start m.call) (Sched.start w) .resume =
        if start < H then resumeFrom H F (loopFrom config m 1 (max config.maxAttempts 1 - 1)) s
        else none := by
  have hopen : ∀ F, drive H (F + 1) (retriedRun config cancelAt start m.call) (Sched.start w) .resume =
      resumeFrom H F (Prog.sleep start (loopFrom config m 1 (max config.maxAttempts 1 - 1)))
        (opened cancelAt w) := fun F => by
    rw [drive_resume rfl]
    exact resumeFrom_congr poll_retriedRun
  rcases Nat.eq_zero_or_pos start with rfl | hs
  · -- the first attempt at once
    refine ⟨1, by omega, opened cancelAt w, opened_ready, fun F => ?_⟩
    rw [hopen, if_pos hH]
    exact resumeFrom_congr (by simp [Prog.poll])
  · -- the wait until `start`
    have hn : (opened cancelAt w).now = 0 := by cases cancelAt <;> rfl
    have ho : (opened cancelAt w).order = 0 := by cases cancelAt <;> rfl
    have hp : (Prog.sleep start (loopFrom config m 1 (max config.maxAttempts 1 - 1))).poll
        (opened cancelAt w) = ({ opened cancelAt w with order := 1 },
          .blocked (.timer start 0 (loopFrom config m 1 (max config.maxAttempts 1 - 1)))) := by
      simp [Prog.poll, Nat.pos_iff_ne_zero.mp hs, hn, ho]
    obtain ⟨n, hn', s', hr, hdrive⟩ := wait_opened cancelAt w
      (B := Prog.timer start 0 (loopFrom config m 1 (max config.maxAttempts 1 - 1))) hs
    refine ⟨n + 1, by omega, s', hr, fun F => ?_⟩
    rw [← Nat.add_assoc, hopen, resumeFrom_blocked hp]
    refine (hdrive F).trans ?_
    split
    · exact resumeFrom_congr (by simp [Prog.poll, hr.now])
    · rfl

end Opening

theorem budget_horizon_lt_runFuel (H : Nat) : budget H + 7 + 7 < runFuel H := by
  unfold budget runFuel
  omega

/-- A run of a retried call follows the rules: for the course of the rules from the first attempt
at `start`, the run ends with the course's result at its end, the node having recorded one call
for each attempt at its time, or is cut off when the course ends past the horizon. -/
theorem retriedRun_follows (config : RetryConfig) (cancelAt : Option Nat) (start : Nat)
    (m : RetriedMethod α) (w : World) (H : Nat) (hH : 0 < H) :
    ∃ cs r te, Attempts config cancelAt (m.answerAt (m.replies w.node.script)) 1 start cs r te ∧
      (te < H → ∃ s, run H (retriedRun config cancelAt start m.call) w = some ((r, te), s) ∧
        s.world.node.calls.toList = w.node.calls.toList ++ cs.map m.record) ∧
      (H ≤ te → run H (retriedRun config cancelAt start m.call) w = none) := by
  obtain ⟨n₀, hn₀, s₀, hr₀, hdrive⟩ := drive_retriedRun config cancelAt start m w hH
  have hfuel := budget_horizon_lt_runFuel H
  by_cases hs : start < H
  · have hf : Follows H config cancelAt m (m.replies w.node.script) 1 start w.node.calls.toList
        (loopFrom config m 1 (max config.maxAttempts 1 - 1)) s₀ :=
      follows_loopFrom _ (by omega) le_rfl hr₀ hs (by simp [repliesAfter])
    obtain ⟨cs, r, te, hA, -, hok, hcut⟩ := hf
    refine ⟨cs, r, te, hA, fun h => ?_, fun h => ?_⟩
    · -- the course ends before the horizon: so does the run, within its fuel
      obtain ⟨n, s', hn, hcalls, hsettle, hrun⟩ := hok h
      have := budget_mono h.le
      have hd : drive H (runFuel H) (retriedRun config cancelAt start m.call) (Sched.start w) .resume =
          some ((r, te), s') := by
        rw [show runFuel H = runFuel H - (n + n₀) + n + n₀ by omega, hdrive, if_pos hs, hrun]
      exact ⟨_, Sched.run_eq_some_iff.mpr ⟨s', hd, rfl⟩, by rw [hsettle, hcalls]⟩
    · obtain ⟨n, hn, hrun⟩ := hcut h
      apply Sched.run_eq_none_iff.mpr
      rw [show runFuel H = runFuel H - (n + n₀) + n + n₀ by omega, hdrive, if_pos hs, hrun]
  · -- the first attempt is due past the horizon
    obtain ⟨cs, r, te, hA⟩ : ∃ cs r te,
        Attempts config cancelAt (m.answerAt (m.replies w.node.script)) 1 start cs r te :=
      Attempts.exists_course _ _
    have hte := hA.le_end
    refine ⟨cs, r, te, hA, fun h => absurd h (by omega), fun _ => Sched.run_eq_none_iff.mpr ?_⟩
    rw [show runFuel H = runFuel H - n₀ + n₀ by omega, hdrive, if_neg hs]

/-- A retried call at every configuration, script and cancellation time follows one course of the
rules and no other. It makes one call per attempt, at least one unless the token had fired when
the call began, at most `max maxAttempts 1`, none after the token fired. Its run up to any
horizon `H` returns the course's result at the course's end, or is cut off when that end is not
before `H`. The backoff never shrinks
from one attempt to the next and never leaves 64 bits. -/
theorem retried_call_follows_schedule (config : RetryConfig) (cancelAt : Option Nat) (start : Nat)
    (m : RetriedMethod α) (w : World) (H : Nat) (hH : 0 < H) :
    ∃ cs r te, Attempts config cancelAt (m.answerAt (m.replies w.node.script)) 1 start cs r te ∧
      (∀ cs' r' te', Attempts config cancelAt (m.answerAt (m.replies w.node.script)) 1 start cs' r' te' →
        cs = cs' ∧ r = r' ∧ te = te') ∧
      cs.length ≤ max config.maxAttempts 1 ∧
      (cs = [] ↔ firedBefore cancelAt start = true) ∧
      (∀ c ∈ cs, firedBefore cancelAt c = false) ∧
      (te < H → ∃ s, run H (retriedRun config cancelAt start m.call) w = some ((r, te), s) ∧
        s.world.node.calls.toList = w.node.calls.toList ++ cs.map m.record) ∧
      (H ≤ te → run H (retriedRun config cancelAt start m.call) w = none) ∧
      ∀ a b, a ≤ b → config.backoffMs a ≤ config.backoffMs b ∧ config.backoffMs b ≤ u64Max := by
  obtain ⟨cs, r, te, hA, hok, hcut⟩ := retriedRun_follows config cancelAt start m w H hH
  have hlen := hA.add_length_le (by omega)
  exact ⟨cs, r, te, hA, fun _ _ _ h => hA.unique h, by omega, hA.eq_nil_iff,
    hA.not_firedBefore_of_mem, hok, hcut,
    fun a b hab => ⟨config.backoffMs_mono hab, config.backoffMs_le_u64Max b⟩⟩

/-- A node that asks to wait 100 ms, after 10 ms, and then answers after 5 ms. -/
private def rateLimitedOnce : World :=
  World.start { Script.empty with
    status := [⟨10, .error (.rateLimited (some 100))⟩, ⟨5, .ok (7, none)⟩] }

/-- Retrying the status read on it with the default configuration calls at 0 and at 110, after
the wait the node asked for, and returns the answer at 115. -/
theorem retried_call_follows_schedule_rateLimited :
    ∃ s, run horizonMs (retriedRun .default none 0 (Rpc.scripted.signatureStatus Signature.zero))
        rateLimitedOnce = some ((.ok (7, none), 115), s) ∧
      s.world.node.calls.toList.map (·.atMs) = [0, 110] := by
  rw [RetriedMethod.scripted_calls.2.1]
  obtain ⟨cs, r, te, -, huniq, -, -, -, hok, -, -⟩ :=
    retried_call_follows_schedule .default none 0 (RetriedMethod.status Signature.zero) rateLimitedOnce
      horizonMs (by decide)
  have hA : Attempts .default none ((RetriedMethod.status Signature.zero).answerAt
      ((RetriedMethod.status Signature.zero).replies rateLimitedOnce.node.script)) 1 0 [0, 110]
      (.ok (7, none)) 115 :=
    .retried rfl rfl (by decide) (.rateLimited 100) rfl
      (.answered rfl fun _ h => by cases h)
  obtain ⟨rfl, rfl, rfl⟩ := huniq _ _ _ hA
  obtain ⟨s, hrun, hcalls⟩ := hok (by decide)
  refine ⟨s, hrun, ?_⟩
  rw [hcalls]
  rfl

end ChainTx
