import Mathlib
import ChainTx.Runtime.Scheduler
/-!
# Accounting for what programs hold

`Safe` keeps an invariant of the world; this file counts. A measure `m` of the world (open
subscriptions, a flag that is set) is shared out as units among the programs of a run, and
`Holds m L r b Q d O p` says that `p`, holding `d` units, keeps the world's measure equal to what
all programs hold: each step that changes the measure changes the units of the program that takes
it by as much. What a program holds when it is dropped goes to the drop actions of the guards it is
inside of, so a guard's drop action takes over a fixed number of units and must give them all
back; a spawned job takes a share of its parent's units and must give them back before it ends.
-/

namespace ChainTx.Runtime

variable {σ : Type}

/-- What a program may do with units and obligations: the scopes in which it may hold units
across a wait (`none` is the top of the program, `some t` the work of a race on `t`), and whether
it may take obligations to cancel. -/
structure Licence where
  holds : Option Nat → Prop
  owes : Prop

/-- The licence of a drop action: it holds nothing across a wait and owes nothing. -/
def Licence.empty : Licence := ⟨fun _ => False, False⟩

/-- The licence of a main program that owes cancellations but holds nothing across a wait. -/
def Licence.main : Licence := ⟨fun _ => False, True⟩

/-- The licence of a job that may hold units only inside a race on `tok`. -/
def Licence.racingOn (tok : Nat) : Licence := ⟨fun r => r = some tok, False⟩

namespace Prog

/-- A race or a guard: the programs that `drop` looks into. -/
def Compound {α : Type} : Prog σ α → Prop
  | .race .. => True
  | .guard .. => True
  | _ => False

/-- The forms a poll leaves a program in when it waits. -/
inductive Blocked : {α : Type} → Prog σ α → Prop where
  | timer {α : Type} {d o : Nat} {k : Prog σ α} : Blocked (.timer d o k)
  | await {α β : Type} {key : Nat} {ready : σ → Option (σ × β)} {k : β → Prog σ α} :
      Blocked (.await key ready k)
  | race {α β : Type} {tok o : Nat} {w : Prog σ β} {c : Prog σ α} {k : β → Prog σ α}
      (hw : Blocked w) : Blocked (.race tok (some o) w c k)
  | guard {α β : Type} {onDrop : Prog σ Unit} {body : Prog σ β} {k : β → Prog σ α}
      (hb : Blocked body) : Blocked (.guard onDrop body k)

end Prog

/-- How a job must end: holding nothing and owing nothing. -/
def Finished {α : Type} (e : ℤ) (O : List Nat) (_ : α) : Prop := e = 0 ∧ O = []

/-- How a program ends that gives back the units and obligations it was given. -/
abbrev Kept {α : Type} (d : ℤ) (O : List Nat) (e : ℤ) (O' : List Nat) (_ : α) : Prop :=
  e = d ∧ O' = O

variable (m : σ → ℤ)

/-- `Holds m L r b Q d O p`: the program `p`, holding `d` units of the measure `m` and owing the
cancellation of the tokens `O`, keeps the measure shared out, waits holding its budget `b`, and
ends with units and obligations that satisfy `Q`. -/
inductive Holds : {α : Type} → Licence → Option Nat → ℤ → (ℤ → List Nat → α → Prop) → ℤ →
    List Nat → Prog σ α → Prop where
  | pure {α : Type} {L : Licence} {r : Option Nat} {b d : ℤ} {Q : ℤ → List Nat → α → Prop}
      {O : List Nat} {a : α} (h : Q d O a) : Holds L r b Q d O (.pure a)
  /-- A step moves the measure; the program's units move with it. The other programs hold what
  is left, so the measure is never below the program's own units. -/
  | step {α β : Type} {L : Licence} {r : Option Nat} {b d : ℤ} {Q : ℤ → List Nat → α → Prop}
      {O : List Nat} {f : σ → σ × β} {k : β → Prog σ α}
      (hn : ∀ w, d ≤ m w → 0 ≤ d + (m (f w).1 - m w))
      (hk : ∀ w, d ≤ m w → Holds L r b Q (d + (m (f w).1 - m w)) O (k (f w).2)) :
      Holds L r b Q d O (.step f k)
  | clock {α : Type} {L : Licence} {r : Option Nat} {b d : ℤ} {Q : ℤ → List Nat → α → Prop}
      {O : List Nat} {k : Nat → Prog σ α} (hk : ∀ t, Holds L r b Q d O (k t)) :
      Holds L r b Q d O (.clock k)
  | sleep {α : Type} {L : Licence} {r : Option Nat} {b d : ℤ} {Q : ℤ → List Nat → α → Prop}
      {O : List Nat} {ms : Nat} {k : Prog σ α} (hd : d = b) (hk : Holds L r b Q d O k) :
      Holds L r b Q d O (.sleep ms k)
  | timer {α : Type} {L : Licence} {r : Option Nat} {b d : ℤ} {Q : ℤ → List Nat → α → Prop}
      {O : List Nat} {dl o : Nat} {k : Prog σ α} (hd : d = b) (hk : Holds L r b Q d O k) :
      Holds L r b Q d O (.timer dl o k)
  | await {α β : Type} {L : Licence} {r : Option Nat} {b d : ℤ} {Q : ℤ → List Nat → α → Prop}
      {O : List Nat} {key : Nat} {ready : σ → Option (σ × β)} {k : β → Prog σ α} (hd : d = b)
      (hn : ∀ w w' x, d ≤ m w → ready w = some (w', x) → 0 ≤ d + (m w' - m w))
      (hk : ∀ w w' x, d ≤ m w → ready w = some (w', x) →
        Holds L r b Q (d + (m w' - m w)) O (k x)) :
      Holds L r b Q d O (.await key ready k)
  | signal {α : Type} {L : Licence} {r : Option Nat} {b d : ℤ} {Q : ℤ → List Nat → α → Prop}
      {O : List Nat} {key : Nat} {k : Prog σ α} (hk : Holds L r b Q d O k) :
      Holds L r b Q d O (.signal key k)
  | fresh {α : Type} {L : Licence} {r : Option Nat} {b d : ℤ} {Q : ℤ → List Nat → α → Prop}
      {O : List Nat} {k : Nat → Prog σ α} (hk : ∀ n, Holds L r b Q d O (k n)) :
      Holds L r b Q d O (.fresh k)
  | token {α : Type} {L : Licence} {r : Option Nat} {b d : ℤ} {Q : ℤ → List Nat → α → Prop}
      {O : List Nat} {parent : Option Nat} {k : Nat → Prog σ α}
      (hk : ∀ n, Holds L r b Q d O (k n)) : Holds L r b Q d O (.token parent k)
  /-- A new token that the program promises to cancel: only a licence that may owe, outside any
  race. -/
  | owe {α : Type} {L : Licence} {r : Option Nat} {b d : ℤ} {Q : ℤ → List Nat → α → Prop}
      {O : List Nat} {parent : Option Nat} {k : Nat → Prog σ α} (ho : L.owes) (hr : r = none)
      (hk : ∀ n, Holds L r b Q d (n :: O) (k n)) : Holds L r b Q d O (.token parent k)
  | cancel {α : Type} {L : Licence} {r : Option Nat} {b d : ℤ} {Q : ℤ → List Nat → α → Prop}
      {O : List Nat} {tok : Nat} {k : Prog σ α} (hr : r = none)
      (hk : Holds L r b Q d (O.erase tok) k) : Holds L r b Q d O (.cancel tok k)
  /-- A spawned job takes `d₁` of the units and a licence within its parent's: it may hold
  across a wait only where the parent may, or in a race on a token the parent owes. -/
  | spawn {α : Type} {L L' : Licence} {r : Option Nat} {b d₁ d₂ : ℤ}
      {Q : ℤ → List Nat → α → Prop} {O : List Nat} {task : Prog σ Unit} {k : Prog σ α}
      (h₁ : 0 ≤ d₁) (h₂ : 0 ≤ d₂) (ho : ¬ L'.owes) (hn : L'.holds none → L.holds none)
      (hs : ∀ t, L'.holds (some t) → L.holds (some t) ∨ t ∈ O)
      (ht : Holds L' none 0 Finished d₁ [] task) (hk : Holds L r b Q d₂ O k) :
      Holds L r b Q (d₁ + d₂) O (.spawn task k)
  /-- A race keeps its budget in reserve for the cancellation branch and gives the rest to its
  work; a work that is not a race or a guard starts with nothing, so a race cancelled before its
  work ran gives nothing back. -/
  | race {α β : Type} {L : Licence} {r : Option Nat} {b d : ℤ} {Q : ℤ → List Nat → α → Prop}
      {R : ℤ → List Nat → β → Prop} {O : List Nat} {tok : Nat} {o : Option Nat} {w : Prog σ β}
      {c : Prog σ α} {k : β → Prog σ α} (hb : 0 ≤ b) (hd : b ≤ d) (he : ¬ w.Compound → d = b)
      (hw : Holds L (some tok) 0 R (d - b) [] w) (hc : Holds L r b Q b O c)
      (hk : ∀ e x, R e [] x → Holds L r b Q (b + e) O (k x)) :
      Holds L r b Q d O (.race tok o w c k)
  /-- A guard's drop action takes over `g` units, which its body holds on top of the budget. -/
  | guard {α β : Type} {L : Licence} {r : Option Nat} {b d g : ℤ} {Q : ℤ → List Nat → α → Prop}
      {R : ℤ → List Nat → β → Prop} {O : List Nat} {onDrop : Prog σ Unit} {body : Prog σ β}
      {k : β → Prog σ α} (hg : 0 ≤ g) (hh : g ≠ 0 → L.holds r) (he : ¬ body.Compound → d = b + g)
      (hd : Holds Licence.empty r 0 (fun e _ _ => e = 0) g [] onDrop)
      (hb : Holds L r (b + g) R d O body) (hk : ∀ e O' x, R e O' x → Holds L r b Q e O' (k x)) :
      Holds L r b Q d O (.guard onDrop body k)

namespace Holds

variable {m}

theorem bind {α β : Type} {L : Licence} {r : Option Nat} {b d : ℤ} {Q : ℤ → List Nat → β → Prop}
    {R : ℤ → List Nat → α → Prop} {O : List Nat} {p : Prog σ α} {g : α → Prog σ β}
    (hp : Holds m L r b R d O p) (hg : ∀ e O' a, R e O' a → Holds m L r b Q e O' (g a)) :
    Holds m L r b Q d O (p.bind g) := by
  induction hp generalizing Q with
  | pure h => exact hg _ _ _ h
  | step hn _ ih => exact .step hn fun w hw => ih w hw hg
  | clock _ ih => exact .clock fun t => ih t hg
  | sleep hd _ ih => exact .sleep hd (ih hg)
  | timer hd _ ih => exact .timer hd (ih hg)
  | await hd hn _ ih => exact .await hd hn fun w w' x hw hr => ih w w' x hw hr hg
  | signal _ ih => exact .signal (ih hg)
  | fresh _ ih => exact .fresh fun n => ih n hg
  | token _ ih => exact .token fun n => ih n hg
  | owe ho hr _ ih => exact .owe ho hr fun n => ih n hg
  | cancel hr _ ih => exact .cancel hr (ih hg)
  | spawn h₁ h₂ ho hn hs ht _ _ ihk => exact .spawn h₁ h₂ ho hn hs ht (ihk hg)
  | race hb hd he hw _ _ _ ihc ihk =>
    exact .race hb hd he hw (ihc hg) fun e x hr => ihk e x hr hg
  | guard hg' hh he hd hb _ _ _ ihk =>
    exact .guard hg' hh he hd hb fun e O' x hr => ihk e O' x hr hg

theorem bind_kept {α β : Type} {L : Licence} {r : Option Nat} {b d : ℤ}
    {Q : ℤ → List Nat → β → Prop} {O : List Nat} {p : Prog σ α} {g : α → Prog σ β}
    (hp : Holds m L r b (Kept d O) d O p) (hg : ∀ a, Holds m L r b Q d O (g a)) :
    Holds m L r b Q d O (p.bind g) :=
  hp.bind fun _ _ a h => by
    obtain ⟨rfl, rfl⟩ := h
    exact hg a

/-! ### The primitive programs, each followed by the rest of the program -/

section Primitives

open Prog

variable {α : Type} {L : Licence} {r : Option Nat} {b d : ℤ} {Q : ℤ → List Nat → α → Prop}
  {O : List Nat}

theorem now_bind {g : Nat → Prog σ α} (hk : ∀ t, Holds m L r b Q d O (g t)) :
    Holds m L r b Q d O (now >>= g) := .clock hk

theorem delay_bind {ms : Nat} {g : Unit → Prog σ α} (hd : d = b)
    (hk : Holds m L r b Q d O (g ())) : Holds m L r b Q d O (delay ms >>= g) := .sleep hd hk

theorem update_bind {β : Type} {f : σ → σ × β} {g : β → Prog σ α} (hf : ∀ w, m (f w).1 = m w)
    (hd : 0 ≤ d) (hk : ∀ w, Holds m L r b Q d O (g (f w).2)) :
    Holds m L r b Q d O (update f >>= g) :=
  .step (fun w _ => by rw [hf w]; omega) fun w _ => by
    have h := hk w
    rwa [hf w, sub_self, add_zero]

theorem modify_bind {f : σ → σ} {g : Unit → Prog σ α} (hf : ∀ w, m (f w) = m w) (hd : 0 ≤ d)
    (hk : Holds m L r b Q d O (g ())) : Holds m L r b Q d O (modify f >>= g) :=
  update_bind (f := fun w => (f w, ())) hf hd fun _ => hk

theorem waitFor_bind {β : Type} {key : Nat} {ready : σ → Option (σ × β)} {g : β → Prog σ α}
    (hd : d = b) (hf : ∀ w w' x, ready w = some (w', x) → m w' = m w) (h0 : 0 ≤ d)
    (hk : ∀ w w' x, ready w = some (w', x) → Holds m L r b Q d O (g x)) :
    Holds m L r b Q d O (waitFor key ready >>= g) :=
  .await hd (fun w w' x _ hr => by rw [hf w w' x hr]; omega) fun w w' x _ hr => by
    have h := hk w w' x hr
    rwa [hf w w' x hr, sub_self, add_zero]

theorem never_holds : Holds m L r b Q b O (never : Prog σ α) :=
  .await rfl (fun _ _ _ _ h => by cases h) fun _ _ _ _ h => by cases h

theorem wake_bind {key : Nat} {g : Unit → Prog σ α} (hk : Holds m L r b Q d O (g ())) :
    Holds m L r b Q d O (wake key >>= g) := .signal hk

theorem freshKey_bind {g : Nat → Prog σ α} (hk : ∀ n, Holds m L r b Q d O (g n)) :
    Holds m L r b Q d O (freshKey >>= g) := .fresh hk

theorem newToken_bind {g : Nat → Prog σ α} (hk : ∀ n, Holds m L r b Q d O (g n)) :
    Holds m L r b Q d O (newToken >>= g) := .token hk

theorem childToken_owe_bind {parent : Nat} {g : Nat → Prog σ α} (ho : L.owes) (hr : r = none)
    (hk : ∀ n, Holds m L r b Q d (n :: O) (g n)) :
    Holds m L r b Q d O (childToken parent >>= g) := .owe ho hr hk

theorem cancelToken_bind {tok : Nat} {g : Unit → Prog σ α} (hr : r = none)
    (hk : Holds m L r b Q d (O.erase tok) (g ())) :
    Holds m L r b Q d O (cancelToken tok >>= g) := .cancel hr hk

theorem fork_licensed_bind {L' : Licence} {task : Prog σ Unit} {g : Unit → Prog σ α}
    (hd : 0 ≤ d) (ho : ¬ L'.owes) (hn : L'.holds none → L.holds none)
    (hs : ∀ t, L'.holds (some t) → L.holds (some t) ∨ t ∈ O)
    (ht : Holds m L' none 0 Finished 0 [] task) (hk : Holds m L r b Q d O (g ())) :
    Holds m L r b Q d O (fork task >>= g) := by
  have h := Holds.spawn le_rfl hd ho hn hs ht hk
  rwa [zero_add] at h

theorem fork_bind {task : Prog σ Unit} {g : Unit → Prog σ α} (hd : 0 ≤ d)
    (ht : Holds m Licence.empty none 0 Finished 0 [] task) (hk : Holds m L r b Q d O (g ())) :
    Holds m L r b Q d O (fork task >>= g) :=
  fork_licensed_bind hd (fun h => h : ¬ Licence.empty.owes) (fun h => h.elim) (fun _ h => h.elim)
    ht hk

theorem racing_bind {β : Type} {R : ℤ → List Nat → β → Prop} {tok : Nat} {work : Prog σ β}
    {g : Option β → Prog σ α} (hb : 0 ≤ b) (hw : Holds m L (some tok) 0 R 0 [] work)
    (hc : Holds m L r b Q b O (g none))
    (hk : ∀ e x, R e [] x → Holds m L r b Q (b + e) O (g (some x))) :
    Holds m L r b Q b O (racing tok work >>= g) :=
  .race hb le_rfl (fun _ => rfl) (by rwa [sub_self]) hc hk

theorem guarded_bind {β : Type} {R : ℤ → List Nat → β → Prop} {g' : ℤ} {onDrop : Prog σ Unit}
    {body : Prog σ β} {g : β → Prog σ α} (hg : 0 ≤ g') (hh : g' ≠ 0 → L.holds r)
    (he : ¬ body.Compound → d = b + g')
    (hd : Holds m Licence.empty r 0 (fun e _ _ => e = 0) g' [] onDrop)
    (hb : Holds m L r (b + g') R d O body) (hk : ∀ e O' x, R e O' x → Holds m L r b Q e O' (g x)) :
    Holds m L r b Q d O (guarded onDrop body >>= g) := .guard hg hh he hd hb hk

/-- The job that `cancelAfter` leaves behind holds nothing and cancels a token nobody owes. -/
theorem cancelAfter_holds (ms : Option Nat) (hd : 0 ≤ d) :
    Holds m L r b (Kept d O) d O (cancelAfter ms : Prog σ Nat) := by
  unfold cancelAfter
  refine newToken_bind fun tok => ?_
  cases ms with
  | none => exact .pure ⟨rfl, rfl⟩
  | some ms =>
    exact fork_bind hd (delay_bind rfl (.cancel rfl (.pure ⟨rfl, rfl⟩))) (.pure ⟨rfl, rfl⟩)

end Primitives

/-! ### What a waiting program holds -/

section Waiting

variable {α : Type} {L : Licence} {r : Option Nat} {b d : ℤ} {Q : ℤ → List Nat → α → Prop}
  {O : List Nat} {p : Prog σ α}

theorem eq_budget_of_blocked (h : Holds m L r b Q d O p) (hp : p.Blocked) (hc : ¬ p.Compound) :
    d = b := by
  cases hp with
  | timer => cases h with | timer hd _ => exact hd
  | await => cases h with | await hd _ _ => exact hd
  | race _ => exact (hc trivial).elim
  | guard _ => exact (hc trivial).elim

/-- A waiting program holds more than its budget only where its licence lets it: at its own scope,
or in one of the races it waits in. -/
theorem licensed_of_blocked (h : Holds m L r b Q d O p) (hp : p.Blocked) (hd : d ≠ b) :
    L.holds r ∨ ∃ x ∈ p.interest.races, L.holds (some x.1) := by
  induction hp generalizing r b d O with
  | timer => exact (hd (eq_budget_of_blocked h .timer id)).elim
  | await => exact (hd (eq_budget_of_blocked h .await id)).elim
  | @race _ _ tok o w c k _ ih =>
    cases h with
    | race _ _ _ hw _ _ =>
      -- the units above the budget are the work's, which holds them in the race on `tok`
      have hx : ∀ x, x = (tok, o) ∨ x ∈ w.interest.races →
          x ∈ (Prog.race tok (some o) w c k).interest.races := by
        intro x hx
        simpa [Prog.interest] using hx
      rcases ih hw (sub_ne_zero.mpr hd) with ht | ⟨x, hx', hl⟩
      · exact .inr ⟨(tok, o), hx _ (.inl rfl), ht⟩
      · exact .inr ⟨x, hx _ (.inr hx'), hl⟩
  | guard _ ih =>
    cases h with
    | @guard _ _ _ _ _ _ g _ _ _ _ _ _ _ hh _ _ hb _ =>
      by_cases hg : d = b + g
      · exact .inl (hh (by omega))
      · simpa [Prog.interest] using ih hb hg

end Waiting

end Holds

end ChainTx.Runtime
