import ChainTx.Proofs.Ledger
import ChainTx.Proofs.Cancellation
import ChainTx.Proofs.ProgramLogic
/-!
# The books of a run

The scheduler keeps the books that `Holds` describes (`Sched.Books`): the world's measure is what
the main program holds plus what each job holds, every job holds its units as its derivation says,
and a job that waits in a race on a token it may hold under is queued once that token is
cancelled. A poll keeps the books (`Prog.poll_drop_books`), and so does every round of a run.
-/

namespace ChainTx.Runtime

variable {σ : Type} (m : σ → ℤ)

/-- A licence fits a state when it holds at the top only where the main program may (`Ln`), and
every token it may hold in a race on is cancelled or owed (`Oc`). -/
def Licence.Fits (L : Licence) (Ln : Prop) (s : Sched σ) (Oc : List Nat) : Prop :=
  (L.holds none → Ln) ∧ ∀ t, L.holds (some t) → s.isCancelled t = true ∨ t ∈ Oc

theorem Licence.Fits.mono {L : Licence} {Ln : Prop} {s s' : Sched σ} {Oc Oc' : List Nat}
    (h : L.Fits Ln s Oc) (hc : ∀ t, s.isCancelled t = true → s'.isCancelled t = true)
    (ho : ∀ t ∈ Oc, t ∈ Oc' ∨ s'.isCancelled t = true) : L.Fits Ln s' Oc' := by
  refine ⟨h.1, fun t ht => ?_⟩
  rcases h.2 t ht with hc' | ho'
  · exact .inl (hc t hc')
  · rcases ho t ho' with h' | h'
    · exact .inr h'
    · exact .inl h'

theorem Licence.empty_fits (Ln : Prop) (s : Sched σ) (Oc : List Nat) :
    Licence.empty.Fits Ln s Oc :=
  ⟨False.elim, fun _ h => h.elim⟩

namespace Sched

/-- The books of a run while program `me` runs (the main program is `0`). The world's measure is
`held`, what the running program and the main program hold, plus the units `u` of the jobs; every
other job holds its units under its licence `lic`, which fits the state; a job that is not queued
waits, and every race it waits in under its licence is on a live token; the tokens owed (`Oc`)
exist. -/
structure Books (Ln : Prop) (me : Nat) (s : Sched σ) (held : ℤ) (Oc : List Nat) (u : Nat → ℤ)
    (lic : Nat → Licence) : Prop where
  measure : m s.world = held + (s.jobs.map fun j => u j.id).sum
  idle : ∀ j ∈ s.jobs, j.id = me → u j.id = 0
  jobs : ∀ j ∈ s.jobs, j.id ≠ me → 0 ≤ u j.id ∧ ¬ (lic j.id).owes ∧
    Holds m (lic j.id) none 0 Finished (u j.id) [] j.prog ∧ (lic j.id).Fits Ln s Oc
  waiting : ∀ j ∈ s.jobs, j.id ≠ me → j.id ∉ s.queue →
    j.prog.Blocked ∧ j.interest = j.prog.interest ∧
    ∀ x ∈ j.interest.races, (lic j.id).holds (some x.1) → s.isCancelled x.1 = false
  ids : (s.jobs.map (·.id)).Nodup
  numbered : ∀ j ∈ s.jobs, 0 < j.id ∧ j.id < s.nextJob
  running : me < s.nextJob
  owed : ∀ t ∈ Oc, t < s.tokens.length
  present : me = 0 ∨ me ∈ s.jobs.map (·.id)

variable {m} {Ln : Prop} {me : Nat}

namespace Books

variable {s : Sched σ} {held : ℤ} {Oc : List Nat} {u : Nat → ℤ} {lic : Nat → Licence}

theorem sum_nonneg (h : Books m Ln me s held Oc u lic) : 0 ≤ (s.jobs.map fun j => u j.id).sum := by
  refine List.sum_nonneg fun x hx => ?_
  obtain ⟨j, hj, rfl⟩ := List.mem_map.mp hx
  by_cases hme : j.id = me
  · rw [h.idle j hj hme]
  · exact (h.jobs j hj hme).1

theorem le_measure (h : Books m Ln me s held Oc u lic) : held ≤ m s.world := by
  have := h.sum_nonneg
  rw [h.measure]
  omega

theorem congr {held' : ℤ} {Oc' : List Nat} (h : Books m Ln me s held Oc u lic) (hh : held = held')
    (ho : Oc = Oc') : Books m Ln me s held' Oc' u lic := hh ▸ ho ▸ h

/-- The books carry over to a state with the same jobs and tokens and a longer queue; what the
running program holds moves with the world's measure. -/
theorem shift (s' : Sched σ) (h : Books m Ln me s held Oc u lic) (hj : s'.jobs = s.jobs)
    (ht : s'.tokens = s.tokens) (hn : s'.nextJob = s.nextJob) (hq : s.queue ⊆ s'.queue) :
    Books m Ln me s' (held + (m s'.world - m s.world)) Oc u lic := by
  have hc : ∀ t, s'.isCancelled t = s.isCancelled t := fun t => by
    unfold isCancelled
    rw [ht]
  refine ⟨?_, fun j hj' hme => h.idle j (hj ▸ hj') hme, fun j hj' hme => ?_,
    fun j hj' hme hq' => ?_, hj ▸ h.ids, fun j hj' => hn ▸ h.numbered j (hj ▸ hj'),
    hn ▸ h.running, fun t ht' => ht ▸ h.owed t ht', hj ▸ h.present⟩
  · rw [hj, h.measure]
    ring
  · obtain ⟨h₁, h₂, h₃, h₄⟩ := h.jobs j (hj ▸ hj') hme
    exact ⟨h₁, h₂, h₃, h₄.mono (fun t ht' => by rwa [hc]) fun t ht' => .inl ht'⟩
  · obtain ⟨h₁, h₂, h₃⟩ := h.waiting j (hj ▸ hj') hme fun hq'' => hq' (hq hq'')
    exact ⟨h₁, h₂, fun x hx hl => by rw [hc]; exact h₃ x hx hl⟩

theorem grows {s' : Sched σ} (h : Books m Ln me s held Oc u lic) (hg : Grows s s') :
    Books m Ln me s' held Oc u lic :=
  (h.shift _ hg.jobs hg.tokens hg.nextJob hg.queue).congr (by rw [hg.world]; ring) rfl

theorem owe {Oc' : List Nat} (h : Books m Ln me s held Oc u lic) (hs : Oc ⊆ Oc')
    (hx : ∀ t ∈ Oc', t < s.tokens.length) : Books m Ln me s held Oc' u lic := by
  refine { h with jobs := fun j hj hme => ?_, owed := hx }
  obtain ⟨h₁, h₂, h₃, h₄⟩ := h.jobs j hj hme
  exact ⟨h₁, h₂, h₃, h₄.mono (fun _ ht => ht) fun t ht => .inl (hs ht)⟩

theorem spawn {d₁ : ℤ} {L' : Licence} {task : Prog σ Unit}
    (h : Books m Ln me s (d₁ + held) Oc u lic) (h₁ : 0 ≤ d₁) (ho : ¬ L'.owes)
    (ht : Holds m L' none 0 Finished d₁ [] task) (hf : L'.Fits Ln s Oc) :
    Books m Ln me (s.spawn task) held Oc (Function.update u s.nextJob d₁)
      (Function.update lic s.nextJob L') := by
  have hold : ∀ j ∈ s.jobs, j.id ≠ s.nextJob := fun j hj => (Nat.ne_of_lt (h.numbered j hj).2)
  have hsum : (s.jobs.map fun j => Function.update u s.nextJob d₁ j.id) =
      s.jobs.map fun j => u j.id :=
    List.map_congr_left fun j hj => Function.update_of_ne (hold j hj) _ _
  have hme : me ≠ s.nextJob := Nat.ne_of_lt h.running
  refine ⟨?_, fun j hj hj' => ?_, fun j hj hj' => ?_, fun j hj hj' hq => ?_, ?_, fun j hj => ?_,
    ?_, h.owed, ?_⟩
  · simp only [spawn_jobs, List.map_append, List.map_cons, List.map_nil, List.sum_append,
      List.sum_cons, List.sum_nil, Function.update_self, hsum]
    rw [show (s.spawn task).world = s.world from rfl, h.measure]
    ring
  · rw [spawn_jobs, List.mem_append, List.mem_singleton] at hj
    rcases hj with hj | rfl
    · rw [Function.update_of_ne (hold j hj)]
      exact h.idle j hj hj'
    · exact (hme hj'.symm).elim
  · rw [spawn_jobs, List.mem_append, List.mem_singleton] at hj
    rcases hj with hj | rfl
    · have hne := hold j hj
      rw [Function.update_of_ne hne, Function.update_of_ne hne]
      obtain ⟨h₁', h₂', h₃', h₄'⟩ := h.jobs j hj hj'
      exact ⟨h₁', h₂', h₃', h₄'.mono (fun _ ht => ht) fun t ht => .inl ht⟩
    · simp only [Function.update_self]
      exact ⟨h₁, ho, ht, hf.mono (fun _ ht => ht) fun t ht => .inl ht⟩
  · rw [spawn_jobs, List.mem_append, List.mem_singleton] at hj
    rcases hj with hj | rfl
    · have hne := hold j hj
      rw [Function.update_of_ne hne]
      exact h.waiting j hj hj' fun hq' => hq (List.mem_append_left _ hq')
    · exact (hq (List.mem_append_right _ (List.mem_singleton_self _))).elim
  · rw [spawn_jobs, List.map_append, List.nodup_append]
    refine ⟨h.ids, List.nodup_singleton _, fun a ha b hb => ?_⟩
    obtain ⟨j, hj, rfl⟩ := List.mem_map.mp ha
    rw [List.map_singleton, List.mem_singleton] at hb
    rw [hb]
    exact hold j hj
  · rw [spawn_jobs, List.mem_append, List.mem_singleton] at hj
    rcases hj with hj | rfl
    · have := h.numbered j hj
      exact ⟨this.1, Nat.lt_succ_of_lt this.2⟩
    · exact ⟨Nat.lt_of_le_of_lt (Nat.zero_le _) h.running, Nat.lt_succ_self _⟩
  · exact Nat.lt_succ_of_lt h.running
  · refine h.present.imp_right fun h' => ?_
    rw [spawn_jobs, List.map_append]
    exact List.mem_append_left _ h'

theorem newToken (h : Books m Ln me s held Oc u lic) (parent : Option Nat) :
    Books m Ln me (s.newToken parent).1 held Oc u lic := by
  obtain ⟨_, hlen, hsame, hw, hj, hn, hq⟩ := s.newToken_spec parent
  have hc : ∀ t, s.isCancelled t = true → (s.newToken parent).1.isCancelled t = true :=
    fun t ht => by rw [hsame t (lt_of_isCancelled ht)]; exact ht
  refine ⟨by rw [hw, hj]; exact h.measure, fun j hj' hme => h.idle j (hj ▸ hj') hme,
    fun j hj' hme => ?_, fun j hj' hme hq' => ?_, hj ▸ h.ids,
    fun j hj' => hn ▸ h.numbered j (hj ▸ hj'), hn ▸ h.running,
    fun t ht => by rw [hlen]; exact Nat.lt_succ_of_lt (h.owed t ht), hj ▸ h.present⟩
  · obtain ⟨h₁, h₂, h₃, h₄⟩ := h.jobs j (hj ▸ hj') hme
    exact ⟨h₁, h₂, h₃, h₄.mono hc fun t ht => .inl ht⟩
  · obtain ⟨h₁, h₂, h₃⟩ := h.waiting j (hj ▸ hj') hme (hq ▸ hq')
    refine ⟨h₁, h₂, fun x hx hl => ?_⟩
    rcases (h.jobs j (hj ▸ hj') hme).2.2.2.2 x.1 hl with hc' | ho
    · rw [h₃ x hx hl] at hc'
      cases hc'
    · rw [hsame x.1 (h.owed x.1 ho)]
      exact h₃ x hx hl

theorem cancel_covers {tok : Nat} {Oc' : List Nat} (h : Books m Ln me s held Oc u lic)
    (ho : ∀ t ∈ Oc, t ∈ Oc' ∨ t = tok) :
    ∀ t ∈ Oc, t ∈ Oc' ∨ (s.cancel tok).isCancelled t = true := by
  intro t ht
  rcases ho t ht with h' | rfl
  · exact .inl h'
  · exact .inr ((s.cancel_spec t).2.2.2.2.2.2.1 (h.owed t ht))

theorem cancel {tok : Nat} {Oc' : List Nat} (h : Books m Ln me s held Oc u lic)
    (ho : ∀ t ∈ Oc, t ∈ Oc' ∨ t = tok) (hs : Oc' ⊆ Oc) :
    Books m Ln me (s.cancel tok) held Oc' u lic := by
  obtain ⟨hw, hj, hn, hq, hlen, hmono, -, hwake⟩ := s.cancel_spec tok
  have hcov := h.cancel_covers ho
  refine ⟨by rw [hw, hj]; exact h.measure, fun j hj' hme' => h.idle j (hj ▸ hj') hme',
    fun j hj' hme' => ?_, fun j hj' hme' hq' => ?_, hj ▸ h.ids,
    fun j hj' => hn ▸ h.numbered j (hj ▸ hj'), hn ▸ h.running,
    fun t ht => by rw [hlen]; exact h.owed t (hs ht), hj ▸ h.present⟩
  · obtain ⟨h₁, h₂, h₃, h₄⟩ := h.jobs j (hj ▸ hj') hme'
    exact ⟨h₁, h₂, h₃, h₄.mono hmono hcov⟩
  · have hj'' : j ∈ s.jobs := hj ▸ hj'
    obtain ⟨h₁, h₂, h₃⟩ := h.waiting j hj'' hme' fun hq'' => hq' (hq hq'')
    refine ⟨h₁, h₂, fun x hx hl => ?_⟩
    cases hx' : (s.cancel tok).isCancelled x.1
    · rfl
    · exact (hq' (hwake j hj'' (Nat.ne_of_gt (h.numbered j hj'').1) x hx hx'
        (h₃ x hx hl))).elim

end Books

/-- What a poll does to the tokens: it may add tokens and cancel some, never uncancels one, and
when it is `quiet` (inside a race's work) it cancels none of those that exist. -/
def Trace (s s' : Sched σ) (quiet : Prop) : Prop :=
  s.tokens.length ≤ s'.tokens.length ∧ (∀ x, s.isCancelled x = true → s'.isCancelled x = true) ∧
    (quiet → ∀ x < s.tokens.length, s'.isCancelled x = s.isCancelled x)

namespace Trace

variable {s s₁ s₂ : Sched σ} {q q' : Prop}

theorem of_tokens (h : s'.tokens = s.tokens) : Trace s s' q := by
  have hc : ∀ x, s'.isCancelled x = s.isCancelled x := fun x => by
    unfold isCancelled
    rw [h]
  exact ⟨by rw [h], fun x hx => by rwa [hc], fun _ x _ => hc x⟩

theorem trans (h₁ : Trace s s₁ q) (h₂ : Trace s₁ s₂ q) : Trace s s₂ q :=
  ⟨Nat.le_trans h₁.1 h₂.1, fun x hx => h₂.2.1 x (h₁.2.1 x hx),
    fun hq x hx => (h₂.2.2 hq x (Nat.lt_of_lt_of_le hx h₁.1)).trans (h₁.2.2 hq x hx)⟩

theorem weaken (h : Trace s s₁ q) (hq : q' → q) : Trace s s₁ q' :=
  ⟨h.1, h.2.1, fun hq' => h.2.2 (hq hq')⟩

theorem fits {L : Licence} {Oc : List Nat} (h : Trace s s₁ q) (hf : L.Fits Ln s Oc) :
    L.Fits Ln s₁ Oc :=
  hf.mono h.2.1 fun _ ht => .inl ht

end Trace

theorem trace_newToken (s : Sched σ) (parent : Option Nat) (q : Prop) :
    Trace s (s.newToken parent).1 q := by
  obtain ⟨_, hlen, hsame, -⟩ := s.newToken_spec parent
  exact ⟨by omega, fun x hx => by rw [hsame x (lt_of_isCancelled hx)]; exact hx,
    fun _ x hx => hsame x hx⟩

theorem trace_cancel (s : Sched σ) (tok : Nat) : Trace s (s.cancel tok) False := by
  obtain ⟨-, -, -, -, hlen, hmono, -⟩ := s.cancel_spec tok
  exact ⟨by omega, hmono, False.elim⟩

end Sched

theorem Licence.Fits.of_tokens {L : Licence} {Ln : Prop} {s s' : Sched σ} {Oc : List Nat}
    (h : L.Fits Ln s Oc) (ht : s'.tokens = s.tokens) : L.Fits Ln s' Oc :=
  (Sched.Trace.of_tokens (q := True) ht).fits h

namespace Prog

variable (Ln : Prop) (me : Nat)

/-- What a poll from `s` to `s'` leaves when the books were kept before it: the books kept again
with the program holding `e` units and owing `O'` (no more than before unless it may owe), and a
value that satisfies the postcondition, or a remainder that waits, holds its units as `Holds`
says, and races under its licence only on live tokens. -/
def PollBooks {α : Type} (L : Licence) (r : Option Nat) (b : ℤ) (Q : ℤ → List Nat → α → Prop)
    (O : List Nat) (X : ℤ) (Om : List Nat) (s s' : Sched σ) (res : Poll σ α) : Prop :=
  Sched.Trace s s' (r ≠ none) ∧ ∃ e O' u lic, 0 ≤ e ∧
    Sched.Books m Ln me s' (e + X) (Om ++ O') u lic ∧
    L.Fits Ln s' (Om ++ O') ∧ ((¬ L.owes ∨ r ≠ none) → O' ⊆ O) ∧
    match res with
    | .done a => Q e O' a
    | .blocked p => Holds m L r b Q e O' p ∧ p.Blocked ∧
        ∀ x ∈ p.interest.races, L.holds (some x.1) → s'.isCancelled x.1 = false

variable {m Ln me}

theorem PollBooks.pre {α : Type} {L : Licence} {r : Option Nat} {b : ℤ}
    {Q : ℤ → List Nat → α → Prop} {O : List Nat} {X : ℤ} {Om : List Nat} {s s₁ s' : Sched σ}
    {res : Poll σ α} (ht : Sched.Trace s s₁ (r ≠ none))
    (h : PollBooks m Ln me L r b Q O X Om s₁ s' res) : PollBooks m Ln me L r b Q O X Om s s' res :=
  ⟨ht.trans h.1, h.2⟩

theorem PollBooks.seq {α : Type} {L : Licence} {r : Option Nat} {b : ℤ}
    {Q : ℤ → List Nat → α → Prop} {O O₁ : List Nat} {X : ℤ} {Om : List Nat} {s s₁ s' : Sched σ}
    {res : Poll σ α} (ht : Sched.Trace s s₁ (r ≠ none)) (hO : (¬ L.owes ∨ r ≠ none) → O₁ ⊆ O)
    (h : PollBooks m Ln me L r b Q O₁ X Om s₁ s' res) :
    PollBooks m Ln me L r b Q O X Om s s' res := by
  obtain ⟨htr, e, O', u, lic, he, hB, hF, hO', hres⟩ := h
  exact ⟨ht.trans htr, e, O', u, lic, he, hB, hF, fun hc => List.Subset.trans (hO' hc) (hO hc),
    hres⟩

/-- A live race polls its work from the same state, or from one that only drew an order number. -/
theorem poll_race_open {α β : Type} {tok : Nat} {o : Option Nat} {w : Prog σ β} {c : Prog σ α}
    {k : β → Prog σ α} {s : Sched σ} (h : s.isCancelled tok = false) :
    ∃ s₁ o₁, Sched.Grows s s₁ ∧
      ((∃ s₂ x, w.poll s₁ = (s₂, .done x) ∧ (Prog.race tok o w c k).poll s = (k x).poll s₂) ∨
       (∃ s₂ w', w.poll s₁ = (s₂, .blocked w') ∧
          (Prog.race tok o w c k).poll s = (s₂, .blocked (.race tok (some o₁) w' c k)))) := by
  cases o with
  | none =>
    rw [poll, if_neg (by simp [h])]
    refine ⟨{ s with order := s.order + 1 }, s.order, ⟨rfl, rfl, rfl, rfl, rfl,
      List.Subset.refl _⟩, ?_⟩
    rcases w.poll { s with order := s.order + 1 } with ⟨s₂, x | w'⟩
    · exact .inl ⟨s₂, x, rfl, rfl⟩
    · exact .inr ⟨s₂, w', rfl, rfl⟩
  | some o =>
    rw [poll, if_neg (by simp [h])]
    refine ⟨s, o, Sched.Grows.refl s, ?_⟩
    rcases w.poll s with ⟨s₂, x | w'⟩
    · exact .inl ⟨s₂, x, rfl, rfl⟩
    · exact .inr ⟨s₂, w', rfl, rfl⟩

variable (m Ln me) in
/-- Polling a program that holds its units as `Holds` says keeps the books. -/
def PollKeepsBooks {α : Type} (p : Prog σ α) : Prop :=
  ∀ {L : Licence} {r : Option Nat} {b d : ℤ} {Q : ℤ → List Nat → α → Prop} {O : List Nat}
    {s : Sched σ} {X : ℤ} {Om : List Nat} {u : Nat → ℤ} {lic : Nat → Licence},
    Holds m L r b Q d O p → 0 ≤ d → 0 ≤ X → Sched.Books m Ln me s (d + X) (Om ++ O) u lic →
    L.Fits Ln s (Om ++ O) → PollBooks m Ln me L r b Q O X Om s (p.poll s).1 (p.poll s).2

variable (m Ln me) in
/-- Dropping a program that waits, or that has not started, gives back all it holds above its
budget, and cancels no token in a race's work. -/
def DropKeepsBooks {α : Type} (p : Prog σ α) : Prop :=
  ∀ {L : Licence} {r : Option Nat} {b d : ℤ} {Q : ℤ → List Nat → α → Prop} {O : List Nat}
    {s : Sched σ} {X : ℤ} {Om : List Nat} {u : Nat → ℤ} {lic : Nat → Licence},
    Holds m L r b Q d O p → (¬ p.Compound → d = b) → 0 ≤ b → 0 ≤ X →
    Sched.Books m Ln me s (d + X) (Om ++ O) u lic → L.Fits Ln s (Om ++ O) →
    Sched.Trace s (p.drop s) (r ≠ none) ∧
      ∃ u lic, Sched.Books m Ln me (p.drop s) (b + X) (Om ++ O) u lic

/-- A program that is neither a race nor a guard leaves the state alone when dropped, and holds
just its budget then. -/
theorem DropKeepsBooks.of_plain {α : Type} {p : Prog σ α} (hp : ∀ s, p.drop s = s)
    (hc : ¬ p.Compound) : DropKeepsBooks m Ln me p := by
  intro L r b d Q O s X Om u lic _ hd _ _ hB _
  rw [hp]
  exact ⟨Sched.Trace.of_tokens rfl, u, lic, hB.congr (by rw [hd hc]) rfl⟩

theorem poll_drop_books {α : Type} (p : Prog σ α) :
    PollKeepsBooks m Ln me p ∧ DropKeepsBooks m Ln me p := by
  induction p with
  | pure a =>
    refine ⟨fun {L r b d Q O s X Om u lic} hH hd hX hB hF => ?_,
      DropKeepsBooks.of_plain (by intro; rfl) (by rintro ⟨⟩)⟩
    cases hH with
    | pure h =>
      exact ⟨Sched.Trace.of_tokens rfl, d, O, u, lic, hd, hB, hF, fun _ => List.Subset.refl _, h⟩
  | step f k ih =>
    refine ⟨fun {L r b d Q O s X Om u lic} hH hd hX hB hF => ?_,
      DropKeepsBooks.of_plain (by intro; rfl) (by rintro ⟨⟩)⟩
    cases hH with
    | step hn hk =>
      rw [poll]
      have hle : d ≤ m s.world := by have := hB.le_measure; omega
      have hB₁ := hB.shift { s with world := (f s.world).1 } rfl rfl rfl
        (List.Subset.refl _)
      exact PollBooks.pre (Sched.Trace.of_tokens rfl)
        ((ih (f s.world).2).1 (hk s.world hle) (hn s.world hle) hX
          (hB₁.congr (by dsimp only; ring) rfl) (hF.of_tokens rfl))
  | clock k ih =>
    refine ⟨fun {L r b d Q O s X Om u lic} hH hd hX hB hF => ?_,
      DropKeepsBooks.of_plain (by intro; rfl) (by rintro ⟨⟩)⟩
    cases hH with
    | clock hk =>
      rw [poll]
      exact (ih s.now).1 (hk s.now) hd hX hB hF
  | sleep ms k ih =>
    refine ⟨fun {L r b d Q O s X Om u lic} hH hd hX hB hF => ?_,
      DropKeepsBooks.of_plain (by intro; rfl) (by rintro ⟨⟩)⟩
    cases hH with
    | sleep hd' hk =>
      rw [poll]
      split
      · next h0 =>
        subst h0
        exact ih.1 hk hd hX hB hF
      · exact ⟨Sched.Trace.of_tokens rfl, d, O, u, lic, hd,
          hB.grows ⟨rfl, rfl, rfl, rfl, rfl, List.Subset.refl _⟩,
          hF.of_tokens rfl, fun _ => List.Subset.refl _, .timer hd' hk, .timer,
          fun x hx => by simp [interest] at hx⟩
  | timer dl o k ih =>
    refine ⟨fun {L r b d Q O s X Om u lic} hH hd hX hB hF => ?_,
      DropKeepsBooks.of_plain (by intro; rfl) (by rintro ⟨⟩)⟩
    cases hH with
    | timer hd' hk =>
      rw [poll]
      split
      · exact ih.1 hk hd hX hB hF
      · exact ⟨Sched.Trace.of_tokens rfl, d, O, u, lic, hd, hB, hF, fun _ => List.Subset.refl _,
          .timer hd' hk, .timer, fun x hx => by simp [interest] at hx⟩
  | await key ready k ih =>
    refine ⟨fun {L r b d Q O s X Om u lic} hH hd hX hB hF => ?_,
      DropKeepsBooks.of_plain (by intro; rfl) (by rintro ⟨⟩)⟩
    rw [poll]
    split
    · next w x hr =>
      cases hH with
      | await hd' hn hk =>
        have hle : d ≤ m s.world := by have := hB.le_measure; omega
        have hB₁ := hB.shift { s with world := w } rfl rfl rfl (List.Subset.refl _)
        exact PollBooks.pre (Sched.Trace.of_tokens rfl)
          ((ih x).1 (hk s.world w x hle hr) (hn s.world w x hle hr) hX
            (hB₁.congr (by dsimp only; ring) rfl) (hF.of_tokens rfl))
    · exact ⟨Sched.Trace.of_tokens rfl, d, O, u, lic, hd, hB, hF, fun _ => List.Subset.refl _,
        hH, .await, fun x hx => by simp [interest] at hx⟩
  | signal key k ih =>
    refine ⟨fun {L r b d Q O s X Om u lic} hH hd hX hB hF => ?_,
      DropKeepsBooks.of_plain (by intro; rfl) (by rintro ⟨⟩)⟩
    cases hH with
    | signal hk =>
      rw [poll]
      have hg := Sched.grows_signal s key
      exact PollBooks.pre (Sched.Trace.of_tokens hg.tokens)
        (ih.1 hk hd hX (hB.grows hg) (hF.of_tokens hg.tokens))
  | fresh k ih =>
    refine ⟨fun {L r b d Q O s X Om u lic} hH hd hX hB hF => ?_,
      DropKeepsBooks.of_plain (by intro; rfl) (by rintro ⟨⟩)⟩
    cases hH with
    | fresh hk =>
      rw [poll]
      exact PollBooks.pre (Sched.Trace.of_tokens rfl)
        ((ih s.nextKey).1 (hk s.nextKey) hd hX
          (hB.grows (⟨rfl, rfl, rfl, rfl, rfl, List.Subset.refl _⟩ :
            Sched.Grows s { s with nextKey := s.nextKey + 1 }))
          (hF.of_tokens rfl))
  | spawn task k _ ihk =>
    refine ⟨fun {L r b d Q O s X Om u lic} hH hd hX hB hF => ?_,
      DropKeepsBooks.of_plain (by intro; rfl) (by rintro ⟨⟩)⟩
    cases hH with
    | @spawn _ _ L' _ _ d₁ d₂ _ _ _ _ h₁ h₂ ho hn hs ht hk =>
      rw [poll]
      -- the job's licence fits: it holds where its parent may, or under a token its parent owes
      have hF' : L'.Fits Ln s (Om ++ O) := by
        refine ⟨fun h => hF.1 (hn h), fun t ht' => ?_⟩
        rcases hs t ht' with h | h
        · exact hF.2 t h
        · exact .inr (List.mem_append_right _ h)
      have hB₁ := (hB.congr (show d₁ + d₂ + X = d₁ + (d₂ + X) by ring) rfl).spawn h₁ ho ht hF'
      exact PollBooks.pre (Sched.Trace.of_tokens rfl)
        (ihk.1 hk h₂ hX hB₁ (hF.of_tokens rfl))
  | token parent k ih =>
    refine ⟨fun {L r b d Q O s X Om u lic} hH hd hX hB hF => ?_,
      DropKeepsBooks.of_plain (by intro; rfl) (by rintro ⟨⟩)⟩
    have htr := Sched.trace_newToken s parent (r ≠ none)
    obtain ⟨hid, hlen, -⟩ := s.newToken_spec parent
    rcases hnt : s.newToken parent with ⟨s₁, n⟩
    rw [hnt] at htr hid hlen
    simp only at hid hlen
    rw [poll, hnt]
    have hB₁ : Sched.Books m Ln me s₁ (d + X) (Om ++ O) u lic := by
      have := hB.newToken parent
      rwa [hnt] at this
    cases hH with
    | token hk => exact PollBooks.pre htr ((ih n).1 (hk n) hd hX hB₁ (htr.fits hF))
    | owe ho hr hk =>
      have hsub : Om ++ O ⊆ Om ++ n :: O := fun t ht => by
        rcases List.mem_append.mp ht with h | h
        · exact List.mem_append_left _ h
        · exact List.mem_append_right _ (List.mem_cons_of_mem _ h)
      have hex : ∀ t ∈ Om ++ n :: O, t < s₁.tokens.length := by
        intro t ht
        rcases List.mem_append.mp ht with h | h
        · exact Nat.lt_of_lt_of_le (hB.owed t (List.mem_append_left _ h)) (by omega)
        · rcases List.mem_cons.mp h with rfl | h
          · omega
          · exact Nat.lt_of_lt_of_le (hB.owed t (List.mem_append_right _ h)) (by omega)
      obtain ⟨htr', e, O', u', lic', he, hB', hF', -, hres⟩ :=
        (ih n).1 (hk n) hd hX (hB₁.owe hsub hex) ((htr.fits hF).mono (fun _ h => h)
          fun t ht => .inl (hsub ht))
      exact ⟨htr.trans htr', e, O', u', lic', he, hB', hF',
        fun h => by rcases h with h | h <;> simp_all, hres⟩
  | cancel tok k ih =>
    refine ⟨fun {L r b d Q O s X Om u lic} hH hd hX hB hF => ?_,
      DropKeepsBooks.of_plain (by intro; rfl) (by rintro ⟨⟩)⟩
    cases hH with
    | cancel hr hk =>
      rw [poll]
      have hcov : ∀ t ∈ Om ++ O, t ∈ Om ++ O.erase tok ∨ t = tok := by
        intro t ht
        rcases List.mem_append.mp ht with h | h
        · exact .inl (List.mem_append_left _ h)
        · by_cases htok : t = tok
          · exact .inr htok
          · exact .inl (List.mem_append_right _ ((List.mem_erase_of_ne htok).mpr h))
      have hsub : Om ++ O.erase tok ⊆ Om ++ O := fun t ht => by
        rcases List.mem_append.mp ht with h | h
        · exact List.mem_append_left _ h
        · exact List.mem_append_right _ (List.erase_subset h)
      have htr : Sched.Trace s (s.cancel tok) (r ≠ none) :=
        (Sched.trace_cancel s tok).weaken fun h => h hr
      obtain ⟨htr', e, O', u', lic', he, hB', hF', hO', hres⟩ :=
        ih.1 hk hd hX (hB.cancel hcov hsub)
          (hF.mono (s.cancel_spec tok).2.2.2.2.2.1 (hB.cancel_covers hcov))
      exact ⟨htr.trans htr', e, O', u', lic', he, hB', hF',
        fun h => List.Subset.trans (hO' h) List.erase_subset, hres⟩
  | race tok o w c k ihw ihc ihk =>
    -- the work holds what the race holds above its budget; the budget stays in reserve
    have hwork : ∀ {L : Licence} {b d X : ℤ} {Oc : List Nat} {s : Sched σ} {u : Nat → ℤ}
        {lic : Nat → Licence}, 0 ≤ b → 0 ≤ X → Sched.Books m Ln me s (d + X) Oc u lic →
        L.Fits Ln s Oc → 0 ≤ X + b ∧ Sched.Books m Ln me s ((d - b) + (X + b)) (Oc ++ []) u lic ∧
          L.Fits Ln s (Oc ++ []) := fun hb hX hB hF =>
      ⟨by omega, hB.congr (by ring) (List.append_nil _).symm, by rwa [List.append_nil]⟩
    refine ⟨fun {L r b d Q O s X Om u lic} hH hd hX hB hF => ?_,
      fun {L r b d Q O s X Om u lic} hH _ _ hX hB hF => ?_⟩
    · cases hH with
      | race hb hbd he hw hc hk =>
      obtain ⟨hX', hBw, hFw⟩ := hwork hb hX hB hF
      cases hcan : s.isCancelled tok
      · -- a live race polls its work, which cancels no token that exists
        obtain ⟨s₁, o₁, hg, ⟨s₂, x, hp, hr⟩ | ⟨s₂, w', hp, hr⟩⟩ :=
          poll_race_open (o := o) (w := w) (c := c) (k := k) hcan
        all_goals
          have hw' := ihw.1 hw (by omega) hX' (hBw.grows hg) (hFw.of_tokens hg.tokens)
          rw [hp] at hw'
          obtain ⟨htr, e, O', u', lic', he', hB', hF', hO', hres⟩ := hw'
          obtain rfl : O' = [] := List.subset_nil.mp (hO' (.inr (Option.some_ne_none tok)))
          have htr' : Sched.Trace s s₂ (r ≠ none) :=
            ((Sched.Trace.of_tokens hg.tokens).trans htr).weaken fun _ => Option.some_ne_none tok
          have hB'' : Sched.Books m Ln me s₂ ((b + e) + X) (Om ++ O) u' lic' :=
            hB'.congr (by ring) (List.append_nil _)
          have hF'' : L.Fits Ln s₂ (Om ++ O) := by rwa [List.append_nil] at hF'
          rw [hr]
        · -- the work ended: the race goes on with its value and the work's units
          exact PollBooks.pre htr' ((ihk x).1 (hk e x hres) (by omega) hX hB'' hF'')
        · -- the work waits: so does the race, on a token that is still live
          obtain ⟨hw'', hbl, hraces⟩ := hres
          refine ⟨htr', b + e, O, u', lic', by omega, hB'', hF'', fun _ => List.Subset.refl _,
            .race hb (by omega) (fun hnc => ?_) (by rwa [add_sub_cancel_left]) hc hk, .race hbl,
            fun x hx hl => ?_⟩
          · have := Holds.eq_budget_of_blocked hw'' hbl hnc
            omega
          · simp only [interest, List.mem_cons] at hx
            rcases hx with rfl | hx
            · have htok : tok < s.tokens.length := by
                rcases hF.2 _ hl with h | h
                · rw [hcan] at h
                  cases h
                · exact hB.owed _ h
              rw [htr.2.2 (Option.some_ne_none tok) _ (by rw [hg.tokens]; exact htok),
                hg.isCancelled]
              exact hcan
            · exact hraces x hx hl
      · -- a cancelled race drops its work, which gives back all it holds, and runs its
        rw [poll_race_cancelled hcan]
        obtain ⟨htr, u₁, lic₁, hB₁⟩ :=
          ihw.2 hw (fun hnc => by have := he hnc; omega) le_rfl hX' hBw hFw
        exact PollBooks.pre (htr.weaken fun _ => Option.some_ne_none tok)
          (ihc.1 hc hb hX (hB₁.congr (by ring) (List.append_nil _)) (htr.fits hF))
    · cases hH with
      | race hb _ he hw _ _ =>
      obtain ⟨hX', hBw, hFw⟩ := hwork hb hX hB hF
      obtain ⟨htr, u₁, lic₁, hB₁⟩ :=
        ihw.2 hw (fun hnc => by have := he hnc; omega) le_rfl hX' hBw hFw
      exact ⟨htr.weaken fun _ => Option.some_ne_none tok, u₁, lic₁,
        hB₁.congr (by ring) (List.append_nil _)⟩
  | guard onDrop body k ihd ihb ihk =>
    refine ⟨fun {L r b d Q O s X Om u lic} hH hd hX hB hF => ?_,
      fun {L r b d Q O s X Om u lic} hH _ hb hX hB hF => ?_⟩
    · cases hH with
      | guard hg hh he hdrop hbody hk =>
        rw [poll]
        have hp := ihb.1 hbody hd hX hB hF
        rcases hq : body.poll s with ⟨s₂, x | body'⟩ <;> rw [hq] at hp
        · obtain ⟨htr, e, O', u', lic', he', hB', hF', hO', hres⟩ := hp
          exact PollBooks.seq htr hO' ((ihk x).1 (hk e O' x hres) he' hX hB' hF')
        · obtain ⟨htr, e, O', u', lic', he', hB', hF', hO', hb', hbl, hraces⟩ := hp
          exact ⟨htr, e, O', u', lic', he', hB', hF', hO',
            .guard hg hh (fun hnc => Holds.eq_budget_of_blocked hb' hbl hnc) hdrop hb' hk,
            .guard hbl, hraces⟩
    · cases hH with
      | guard hg _ he hdrop hbody _ =>
        -- the body's drop actions run first, then the guard's own, which takes over `g` units
        obtain ⟨htr₁, u₁, lic₁, hB₁⟩ := ihb.2 hbody he (by omega) hX hB hF
        have hp := ihd.1 hdrop hg (by omega : 0 ≤ X + b)
          (hB₁.congr (by ring) (List.append_nil _).symm) (Licence.empty_fits Ln _ _)
        rcases hq : onDrop.poll (body.drop s) with ⟨s₂, x | p'⟩ <;> rw [hq] at hp <;>
          obtain ⟨htr₂, e, O', u₂, lic₂, he', hB₂, -, hO', hres⟩ := hp <;>
          obtain rfl : O' = [] := List.subset_nil.mp (hO' (.inl id))
        all_goals
          refine ⟨htr₁.trans (by rw [drop, hq]; exact htr₂), u₂, lic₂, ?_⟩
          rw [drop, hq]
        · -- the drop action ended holding nothing
          exact hB₂.congr (by rw [hres]; ring) (by simp)
        · -- the drop action waits, and a licence that holds nowhere waits holding nothing
          have he0 : e = 0 := by
            by_contra hne
            rcases Holds.licensed_of_blocked hres.1 hres.2.1 hne with h | ⟨_, -, h⟩ <;> exact h
          exact hB₂.congr (by rw [he0]; ring) (by simp)

end Prog

end ChainTx.Runtime
