import Mathlib
import ChainTx.Runtime.Scheduler
/-!
# A program logic for cooperative programs

`Safe I Q lo p` says that `p`, started at any time from `lo` on, keeps the world invariant `I` at
each of its steps and ends, if it ends, with a value that satisfies `Q` at the time it ends. The
rules follow the constructors of `Prog`: a spawned job must be safe on its own, a race's
cancellation branch and a guard's drop action must be safe from where they may start, and the
clock only moves forward between steps.
-/

namespace ChainTx.Runtime

variable {σ : Type}

/-- A program that keeps the world invariant `I` and ends with a value satisfying `Q`, when it is
started at a time no earlier than `lo`. Both `I` and `Q` read the clock. -/
inductive Safe (I : Nat → σ → Prop) : {α : Type} → (Nat → α → Prop) → Nat → Prog σ α → Prop where
  | pure {α : Type} {Q : Nat → α → Prop} {lo : Nat} {a : α} (h : ∀ t, lo ≤ t → Q t a) :
      Safe I Q lo (.pure a)
  | step {α β : Type} {Q : Nat → α → Prop} {lo : Nat} {f : σ → σ × β} {k : β → Prog σ α}
      (hi : ∀ t w, lo ≤ t → I t w → I t (f w).1)
      (hk : ∀ t w, lo ≤ t → I t w → Safe I Q t (k (f w).2)) : Safe I Q lo (.step f k)
  | clock {α : Type} {Q : Nat → α → Prop} {lo : Nat} {k : Nat → Prog σ α}
      (hk : ∀ t, lo ≤ t → Safe I Q t (k t)) : Safe I Q lo (.clock k)
  | sleep {α : Type} {Q : Nat → α → Prop} {lo ms : Nat} {k : Prog σ α}
      (hk : Safe I Q (lo + ms) k) : Safe I Q lo (.sleep ms k)
  | timer {α : Type} {Q : Nat → α → Prop} {lo d o : Nat} {k : Prog σ α}
      (hk : Safe I Q (max lo d) k) : Safe I Q lo (.timer d o k)
  | await {α β : Type} {Q : Nat → α → Prop} {lo key : Nat} {ready : σ → Option (σ × β)}
      {k : β → Prog σ α}
      (hi : ∀ t w w' b, lo ≤ t → I t w → ready w = some (w', b) → I t w')
      (hk : ∀ t w w' b, lo ≤ t → I t w → ready w = some (w', b) → Safe I Q t (k b)) :
      Safe I Q lo (.await key ready k)
  | signal {α : Type} {Q : Nat → α → Prop} {lo key : Nat} {k : Prog σ α} (hk : Safe I Q lo k) :
      Safe I Q lo (.signal key k)
  | fresh {α : Type} {Q : Nat → α → Prop} {lo : Nat} {k : Nat → Prog σ α}
      (hk : ∀ n, Safe I Q lo (k n)) : Safe I Q lo (.fresh k)
  | spawn {α : Type} {Q : Nat → α → Prop} {lo : Nat} {task : Prog σ Unit} {k : Prog σ α}
      (ht : Safe I (fun _ _ => True) lo task) (hk : Safe I Q lo k) : Safe I Q lo (.spawn task k)
  | token {α : Type} {Q : Nat → α → Prop} {lo : Nat} {parent : Option Nat} {k : Nat → Prog σ α}
      (hk : ∀ n, Safe I Q lo (k n)) : Safe I Q lo (.token parent k)
  | cancel {α : Type} {Q : Nat → α → Prop} {lo tok : Nat} {k : Prog σ α} (hk : Safe I Q lo k) :
      Safe I Q lo (.cancel tok k)
  | race {α β : Type} {Q : Nat → α → Prop} {R : Nat → β → Prop} {lo tok : Nat}
      {o : Option Nat} {work : Prog σ β} {onCancel : Prog σ α} {k : β → Prog σ α}
      (hw : Safe I R lo work) (hc : Safe I Q lo onCancel)
      (hk : ∀ t b, lo ≤ t → R t b → Safe I Q t (k b)) : Safe I Q lo (.race tok o work onCancel k)
  | guard {α β : Type} {Q : Nat → α → Prop} {R : Nat → β → Prop} {lo : Nat}
      {onDrop : Prog σ Unit} {body : Prog σ β} {k : β → Prog σ α}
      (hd : Safe I (fun _ _ => True) lo onDrop) (hb : Safe I R lo body)
      (hk : ∀ t b, lo ≤ t → R t b → Safe I Q t (k b)) : Safe I Q lo (.guard onDrop body k)

namespace Safe

variable {I : Nat → σ → Prop}

theorem mono {α : Type} {Q : Nat → α → Prop} {lo lo' : Nat} {p : Prog σ α} (h : Safe I Q lo p)
    (hle : lo ≤ lo') : Safe I Q lo' p := by
  induction h generalizing lo' with
  | pure h => exact .pure fun t ht => h t (Nat.le_trans hle ht)
  | step hi hk =>
    exact .step (fun t w ht => hi t w (Nat.le_trans hle ht))
      (fun t w ht => hk t w (Nat.le_trans hle ht))
  | clock hk => exact .clock fun t ht => hk t (Nat.le_trans hle ht)
  | sleep _ ih => exact .sleep (ih (Nat.add_le_add_right hle _))
  | timer _ ih => exact .timer (ih (by omega))
  | await hi hk =>
    exact .await (fun t w w' b ht => hi t w w' b (Nat.le_trans hle ht))
      (fun t w w' b ht => hk t w w' b (Nat.le_trans hle ht))
  | signal _ ih => exact .signal (ih hle)
  | fresh _ ih => exact .fresh fun n => ih n hle
  | spawn _ _ iht ihk => exact .spawn (iht hle) (ihk hle)
  | token _ ih => exact .token fun n => ih n hle
  | cancel _ ih => exact .cancel (ih hle)
  | race _ _ hk ihw ihc =>
    exact .race (ihw hle) (ihc hle) fun t b ht hr => hk t b (Nat.le_trans hle ht) hr
  | guard _ _ hk ihd ihb =>
    exact .guard (ihd hle) (ihb hle) fun t b ht hr => hk t b (Nat.le_trans hle ht) hr

theorem weaken {α : Type} {Q Q' : Nat → α → Prop} {lo : Nat} {p : Prog σ α} (h : Safe I Q lo p)
    (hq : ∀ t a, lo ≤ t → Q t a → Q' t a) : Safe I Q' lo p := by
  induction h with
  | pure h => exact .pure fun t ht => hq t _ ht (h t ht)
  | step hi _ ih => exact .step hi fun t w ht hw => ih t w ht hw fun t' a ht' => hq t' a (by omega)
  | clock _ ih => exact .clock fun t ht => ih t ht fun t' a ht' => hq t' a (by omega)
  | sleep _ ih => exact .sleep (ih fun t a ht => hq t a (by omega))
  | timer _ ih => exact .timer (ih fun t a ht => hq t a (by omega))
  | await hi _ ih =>
    exact .await hi fun t w w' b ht hw hr => ih t w w' b ht hw hr fun t' a ht' => hq t' a (by omega)
  | signal _ ih => exact .signal (ih hq)
  | fresh _ ih => exact .fresh fun n => ih n hq
  | spawn ht _ _ ihk => exact .spawn ht (ihk hq)
  | token _ ih => exact .token fun n => ih n hq
  | cancel _ ih => exact .cancel (ih hq)
  | race hw _ _ _ ihc ihk =>
    exact .race hw (ihc hq) fun t b ht hr => ihk t b ht hr fun t' a ht' => hq t' a (by omega)
  | guard hd hb _ _ _ ihk =>
    exact .guard hd hb fun t b ht hr => ihk t b ht hr fun t' a ht' => hq t' a (by omega)

theorem bind {α β : Type} {Q : Nat → β → Prop} {R : Nat → α → Prop} {lo : Nat} {p : Prog σ α}
    {g : α → Prog σ β} (hp : Safe I R lo p) (hg : ∀ t a, lo ≤ t → R t a → Safe I Q t (g a)) :
    Safe I Q lo (p.bind g) := by
  induction hp generalizing Q with
  | pure h => exact hg _ _ (Nat.le_refl _) (h _ (Nat.le_refl _))
  | step hi _ ih =>
    exact .step hi fun t w ht hw => ih t w ht hw fun t' a ht' => hg t' a (by omega)
  | clock _ ih => exact .clock fun t ht => ih t ht fun t' a ht' => hg t' a (by omega)
  | sleep _ ih => exact .sleep (ih fun t a ht => hg t a (by omega))
  | timer _ ih => exact .timer (ih fun t a ht => hg t a (by omega))
  | await hi _ ih =>
    exact .await hi fun t w w' b ht hw hr => ih t w w' b ht hw hr fun t' a ht' => hg t' a (by omega)
  | signal _ ih => exact .signal (ih hg)
  | fresh _ ih => exact .fresh fun n => ih n hg
  | spawn ht _ _ ihk => exact .spawn ht (ihk hg)
  | token _ ih => exact .token fun n => ih n hg
  | cancel _ ih => exact .cancel (ih hg)
  | race hw _ _ _ ihc ihk =>
    exact .race hw (ihc hg) fun t b ht hr => ihk t b ht hr fun t' a ht' => hg t' a (by omega)
  | guard hd hb _ _ _ ihk =>
    exact .guard hd hb fun t b ht hr => ihk t b ht hr fun t' a ht' => hg t' a (by omega)

/-! ### The primitive programs, each followed by the rest of the program -/

section Primitives

open Prog

variable {α : Type} {Q : Nat → α → Prop} {lo : Nat}

theorem now_bind {g : Nat → Prog σ α} (hk : ∀ t, lo ≤ t → Safe I Q t (g t)) :
    Safe I Q lo (now >>= g) := .clock hk

theorem delay_bind {ms : Nat} {g : Unit → Prog σ α} (hk : Safe I Q (lo + ms) (g ())) :
    Safe I Q lo (delay ms >>= g) := .sleep hk

theorem update_bind {β : Type} {f : σ → σ × β} {g : β → Prog σ α}
    (hi : ∀ t w, lo ≤ t → I t w → I t (f w).1)
    (hk : ∀ t w, lo ≤ t → I t w → Safe I Q t (g (f w).2)) : Safe I Q lo (update f >>= g) :=
  .step hi hk

theorem modify_bind {f : σ → σ} {g : Unit → Prog σ α} (hi : ∀ t w, lo ≤ t → I t w → I t (f w))
    (hk : Safe I Q lo (g ())) : Safe I Q lo (modify f >>= g) :=
  .step hi fun _ _ ht _ => hk.mono ht

theorem waitFor_bind {β : Type} {key : Nat} {ready : σ → Option (σ × β)} {g : β → Prog σ α}
    (hi : ∀ t w w' b, lo ≤ t → I t w → ready w = some (w', b) → I t w')
    (hk : ∀ t w w' b, lo ≤ t → I t w → ready w = some (w', b) → Safe I Q t (g b)) :
    Safe I Q lo (waitFor key ready >>= g) := .await hi hk

theorem wake_bind {key : Nat} {g : Unit → Prog σ α} (hk : Safe I Q lo (g ())) :
    Safe I Q lo (wake key >>= g) := .signal hk

theorem freshKey_bind {g : Nat → Prog σ α} (hk : ∀ n, Safe I Q lo (g n)) :
    Safe I Q lo (freshKey >>= g) := .fresh hk

theorem fork_bind {task : Prog σ Unit} {g : Unit → Prog σ α}
    (ht : Safe I (fun _ _ => True) lo task) (hk : Safe I Q lo (g ())) :
    Safe I Q lo (fork task >>= g) := .spawn ht hk

theorem newToken_bind {g : Nat → Prog σ α} (hk : ∀ n, Safe I Q lo (g n)) :
    Safe I Q lo (newToken >>= g) := .token hk

theorem cancelToken_bind {tok : Nat} {g : Unit → Prog σ α} (hk : Safe I Q lo (g ())) :
    Safe I Q lo (cancelToken tok >>= g) := .cancel hk

theorem racing_bind {β : Type} {R : Nat → β → Prop} {tok : Nat} {work : Prog σ β}
    {g : Option β → Prog σ α} (hw : Safe I R lo work) (hc : Safe I Q lo (g none))
    (hk : ∀ t b, lo ≤ t → R t b → Safe I Q t (g (some b))) :
    Safe I Q lo (racing tok work >>= g) := .race hw hc hk

theorem guarded_bind {β : Type} {R : Nat → β → Prop} {onDrop : Prog σ Unit} {body : Prog σ β}
    {g : β → Prog σ α} (hd : Safe I (fun _ _ => True) lo onDrop) (hb : Safe I R lo body)
    (hk : ∀ t b, lo ≤ t → R t b → Safe I Q t (g b)) :
    Safe I Q lo (guarded onDrop body >>= g) := .guard hd hb hk

end Primitives

end Safe

namespace Sched

/-- A change of the scheduler's bookkeeping alone: the clock, the world and the jobs are kept. -/
def Frame (s s' : Sched σ) : Prop := s'.now = s.now ∧ s'.world = s.world ∧ s'.jobs = s.jobs

theorem Frame.refl (s : Sched σ) : Frame s s := ⟨rfl, rfl, rfl⟩

theorem Frame.trans {s₁ s₂ s₃ : Sched σ} (h₁ : Frame s₁ s₂) (h₂ : Frame s₂ s₃) : Frame s₁ s₃ :=
  ⟨h₂.1.trans h₁.1, h₂.2.1.trans h₁.2.1, h₂.2.2.trans h₁.2.2⟩

theorem spawn_jobs (s : Sched σ) (p : Prog σ Unit) :
    (s.spawn p).jobs = s.jobs ++ [⟨s.nextJob, p, .idle⟩] := rfl

variable (I : Nat → σ → Prop)

/-- A state whose world holds the invariant at its time and whose jobs are all safe from now. -/
structure Good (s : Sched σ) : Prop where
  world : I s.now s.world
  jobs : ∀ j ∈ s.jobs, Safe I (fun _ _ => True) s.now j.prog

variable {I}

theorem Good.frame {s s' : Sched σ} (h : s.Good I) (hf : Frame s s') : s'.Good I := by
  obtain ⟨hn, hw, hj⟩ := hf
  exact ⟨hn ▸ hw ▸ h.world, fun j hj' => hn ▸ h.jobs j (hj ▸ hj')⟩

theorem Good.spawn {s : Sched σ} (h : s.Good I) {p : Prog σ Unit} {lo : Nat}
    (hp : Safe I (fun _ _ => True) lo p) (hlo : lo ≤ s.now) : (s.spawn p).Good I := by
  refine ⟨h.world, fun j hj => ?_⟩
  rw [spawn_jobs, List.mem_append, List.mem_singleton] at hj
  rcases hj with hj | rfl
  · exact h.jobs j hj
  · exact hp.mono hlo

end Sched

namespace Prog

variable {I : Nat → σ → Prop}

/-- What a poll leaves: a value that satisfies the postcondition now, or a remainder safe from
now. -/
def PollOK (I : Nat → σ → Prop) {α : Type} (Q : Nat → α → Prop) (t : Nat) : Poll σ α → Prop
  | .done a => Q t a
  | .blocked p => Safe I Q t p

theorem poll_race_cancelled {α β : Type} {tok : Nat} {o : Option Nat} {w : Prog σ β}
    {c : Prog σ α} {k : β → Prog σ α} {s : Sched σ} (h : s.isCancelled tok = true) :
    (Prog.race tok o w c k).poll s = c.poll (w.drop s) := by
  cases o <;> rw [poll, if_pos h]

/-- Polling `p` from a good state, late enough for it, keeps the state good and the clock still,
and leaves what `p` promised. -/
def PollKeeps (I : Nat → σ → Prop) {α : Type} (p : Prog σ α) : Prop :=
  ∀ {Q : Nat → α → Prop} {lo : Nat} {s : Sched σ}, Safe I Q lo p → s.Good I → lo ≤ s.now →
    (p.poll s).1.Good I ∧ (p.poll s).1.now = s.now ∧ PollOK I Q s.now (p.poll s).2

theorem PollKeeps.at {α : Type} {p : Prog σ α} (hp : PollKeeps I p) {Q : Nat → α → Prop}
    {t : Nat} {s : Sched σ} (hg : s.Good I) (hn : s.now = t) (hs : Safe I Q t p) :
    (p.poll s).1.Good I ∧ (p.poll s).1.now = t ∧ PollOK I Q t (p.poll s).2 := by
  subst hn
  exact hp hs hg (Nat.le_refl _)

end Prog

namespace Sched

variable {I : Nat → σ → Prop}

theorem Good.filterMap {s : Sched σ} (h : s.Good I) (f : Job σ → Option (Job σ))
    (hf : ∀ x ∈ s.jobs, ∀ y, f x = some y → Safe I (fun _ _ => True) s.now y.prog) :
    Sched.Good I { s with jobs := s.jobs.filterMap f } := by
  refine ⟨h.world, fun y hy => ?_⟩
  obtain ⟨x, hx, hxy⟩ := List.mem_filterMap.mp hy
  exact hf x hx y hxy

/-- A run ends with a value exactly when the scheduler loop does within its fuel; the state it
ends in is that of the loop once the ready jobs have run. -/
theorem run_eq_some_iff {α : Type} {H : Nat} {main : Prog σ α} {w : σ} {a : α} {s : Sched σ} :
    run H main w = some (a, s) ↔
      ∃ s₀, drive H (runFuel H) main (start w) .resume = some (a, s₀) ∧
        s = settle (runFuel H) s₀ := by
  unfold run
  rcases hd : drive H (runFuel H) main (start w) .resume with _ | ⟨a₀, s₀⟩
  · simp
  · constructor
    · rintro ⟨⟩
      exact ⟨s₀, rfl, rfl⟩
    · rintro ⟨_, ⟨⟩, rfl⟩
      rfl

theorem run_eq_none_iff {α : Type} {H : Nat} {main : Prog σ α} {w : σ} :
    run H main w = none ↔ drive H (runFuel H) main (start w) .resume = none := by
  unfold run
  rcases drive H (runFuel H) main (start w) .resume with _ | ⟨a₀, s₀⟩ <;> simp

end Sched

end ChainTx.Runtime
