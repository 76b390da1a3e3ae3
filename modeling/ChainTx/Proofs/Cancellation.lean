import Mathlib
import ChainTx.Runtime.Scheduler
/-!
# What cancelling a token does

Cancelling a token cancels the tokens below it and wakes every program racing on a token that it
cancels (`Sched.cancel_spec`): a program that waits in a race on a live token is not left waiting
once that token goes. Nothing is ever uncancelled, the list of tokens keeps its length, and a new
token leaves the others as they were. Waking programs only adds to the queue (`Sched.Grows`).
-/

namespace ChainTx.Runtime

variable {σ : Type}

namespace Sched

/-- The token `x` of the list is cancelled. -/
def Flagged (ts : List TokenState) (x : Nat) : Prop := ∃ t, ts[x]? = some t ∧ t.cancelled = true

theorem isCancelled_iff {s : Sched σ} {x : Nat} : s.isCancelled x = true ↔ Flagged s.tokens x := by
  unfold isCancelled Flagged
  split <;> simp_all

theorem Flagged.lt {ts : List TokenState} {x : Nat} (h : Flagged ts x) : x < ts.length := by
  obtain ⟨t, ht, _⟩ := h
  exact (List.getElem?_eq_some_iff.mp ht).1

theorem lt_of_isCancelled {s : Sched σ} {x : Nat} (h : s.isCancelled x = true) :
    x < s.tokens.length :=
  (isCancelled_iff.mp h).lt

/-! ### Cancelling a tree of tokens -/

/-- What cancelling does to a list of tokens: the length stays, a cancelled token stays cancelled,
and every token newly cancelled is listed in `l`. -/
def CancelSpec (ts ts' : List TokenState) (l : List Nat) : Prop :=
  ts'.length = ts.length ∧ (∀ x, Flagged ts x → Flagged ts' x) ∧
    ∀ x, Flagged ts' x → Flagged ts x ∨ x ∈ l

namespace CancelSpec

variable {ts ts₁ ts₂ : List TokenState} {l₁ l₂ : List Nat}

theorem refl (ts : List TokenState) : CancelSpec ts ts [] :=
  ⟨rfl, fun _ h => h, fun _ h => .inl h⟩

theorem trans (h₁ : CancelSpec ts ts₁ l₁) (h₂ : CancelSpec ts₁ ts₂ l₂) :
    CancelSpec ts ts₂ (l₁ ++ l₂) := by
  refine ⟨h₂.1.trans h₁.1, fun x hx => h₂.2.1 x (h₁.2.1 x hx), fun x hx => ?_⟩
  rcases h₂.2.2 x hx with hx | hx
  · rcases h₁.2.2 x hx with hx | hx
    · exact .inl hx
    · exact .inr (List.mem_append_left _ hx)
  · exact .inr (List.mem_append_right _ hx)

theorem set_flag (h : CancelSpec ts ts₁ l₁) {tok : Nat} (htok : tok < ts₁.length)
    {t : TokenState} (ht : t.cancelled = true) : CancelSpec ts (ts₁.set tok t) (l₁ ++ [tok]) := by
  have hflag : ∀ x, Flagged (ts₁.set tok t) x ↔ x = tok ∨ (x ≠ tok ∧ Flagged ts₁ x) := by
    intro x
    by_cases hx : x = tok
    · subst hx
      simp [Flagged, List.getElem?_set_self htok, ht]
    · simp [Flagged, List.getElem?_set_ne (Ne.symm hx), hx]
  refine ⟨by rw [List.length_set, h.1], fun x hx => ?_, fun x hx => ?_⟩
  · by_cases hxt : x = tok
    · exact (hflag x).mpr (.inl hxt)
    · exact (hflag x).mpr (.inr ⟨hxt, h.2.1 x hx⟩)
  · rcases (hflag x).mp hx with rfl | ⟨_, hx⟩
    · exact .inr (List.mem_append_right _ (List.mem_singleton_self _))
    · rcases h.2.2 x hx with hx | hx
      · exact .inl hx
      · exact .inr (List.mem_append_left _ hx)

end CancelSpec

theorem cancelTree_spec (fuel : Nat) :
    ∀ (ts : List TokenState) (tok : Nat),
      CancelSpec ts (cancelTree fuel ts tok).1 (cancelTree fuel ts tok).2 := by
  induction fuel with
  | zero => exact fun ts _ => CancelSpec.refl ts
  | succ fuel ih =>
    intro ts tok
    rw [cancelTree]
    split
    · exact CancelSpec.refl ts
    · next t ht =>
      split
      · exact CancelSpec.refl ts
      · dsimp only
        -- the tokens below go first, one subtree after another, each listing what it cancels
        have hfold : ∀ (cs : List Nat) (acc : List TokenState × List Nat),
            CancelSpec ts acc.1 acc.2 →
            CancelSpec ts (cs.foldl (fun acc c => ((cancelTree fuel acc.1 c).1,
              acc.2 ++ (cancelTree fuel acc.1 c).2)) acc).1
              (cs.foldl (fun acc c => ((cancelTree fuel acc.1 c).1,
                acc.2 ++ (cancelTree fuel acc.1 c).2)) acc).2 := by
          intro cs
          induction cs with
          | nil => exact fun _ h => h
          | cons c cs ihc => exact fun acc h => ihc _ (h.trans (ih acc.1 c))
        have h := hfold t.children.reverse (ts, []) (CancelSpec.refl ts)
        exact h.set_flag (by rw [h.1]; exact (List.getElem?_eq_some_iff.mp ht).1) rfl

theorem cancelTree_flagged (fuel : Nat) (ts : List TokenState) {tok : Nat}
    (htok : tok < ts.length) : Flagged (cancelTree (fuel + 1) ts tok).1 tok := by
  obtain ⟨t, ht⟩ : ∃ t, ts[tok]? = some t := ⟨ts[tok], List.getElem?_eq_getElem htok⟩
  have hlen := (cancelTree_spec (fuel + 1) ts tok).1
  rw [cancelTree, ht] at hlen ⊢
  dsimp only at hlen ⊢
  by_cases hc : t.cancelled = true
  · rw [if_pos hc]
    exact ⟨t, ht, hc⟩
  · rw [if_neg hc] at hlen ⊢
    rw [List.length_set] at hlen
    exact ⟨_, List.getElem?_set_self (hlen ▸ htok), rfl⟩

/-! ### Waking programs -/

/-- `s'` differs from `s` in its clock, its queue, which only grows, and bookkeeping that no
program's books read. -/
structure Grows (s s' : Sched σ) : Prop where
  world : s'.world = s.world
  jobs : s'.jobs = s.jobs
  tokens : s'.tokens = s.tokens
  nextJob : s'.nextJob = s.nextJob
  mainInterest : s'.mainInterest = s.mainInterest
  queue : s.queue ⊆ s'.queue

namespace Grows

theorem refl (s : Sched σ) : Grows s s := ⟨rfl, rfl, rfl, rfl, rfl, List.Subset.refl _⟩

theorem trans {s₁ s₂ s₃ : Sched σ} (h₁ : Grows s₁ s₂) (h₂ : Grows s₂ s₃) : Grows s₁ s₃ :=
  ⟨h₂.world.trans h₁.world, h₂.jobs.trans h₁.jobs, h₂.tokens.trans h₁.tokens,
    h₂.nextJob.trans h₁.nextJob, h₂.mainInterest.trans h₁.mainInterest,
    List.Subset.trans h₁.queue h₂.queue⟩

theorem interests {s s' : Sched σ} (h : Grows s s') : s'.interests = s.interests := by
  unfold Sched.interests
  rw [h.mainInterest, h.jobs]

theorem isCancelled {s s' : Sched σ} (h : Grows s s') (x : Nat) :
    s'.isCancelled x = s.isCancelled x := by
  unfold Sched.isCancelled
  rw [h.tokens]

end Grows

theorem grows_foldl {α : Type} (g : Sched σ → α → Sched σ) (hg : ∀ s x, Grows s (g s x))
    (l : List α) (s : Sched σ) : Grows s (l.foldl g s) := by
  induction l generalizing s with
  | nil => exact Grows.refl s
  | cons x xs ih => exact (hg s x).trans (ih (g s x))

theorem grows_wake (s : Sched σ) (id : Nat) : Grows s (s.wake id) := by
  unfold wake
  split
  · exact ⟨rfl, rfl, rfl, rfl, rfl, List.Subset.refl _⟩
  · split
    · exact Grows.refl s
    · exact ⟨rfl, rfl, rfl, rfl, rfl, List.subset_append_left _ _⟩

theorem mem_queue_wake {s : Sched σ} {id : Nat} (h0 : id ≠ 0) (hj : ∃ j ∈ s.jobs, j.id = id) :
    id ∈ (s.wake id).queue := by
  unfold wake
  rw [if_neg h0]
  split
  · next hq =>
    simp only [Bool.or_eq_true, List.contains_iff_mem, Bool.not_eq_eq_eq_not, Bool.not_true,
      List.any_eq_false, beq_iff_eq] at hq
    rcases hq with hq | hq
    · exact hq
    · obtain ⟨j, hj, rfl⟩ := hj
      exact (hq j hj rfl).elim
  · exact List.mem_append_right _ (List.mem_singleton_self _)

theorem mem_queue_foldl_wake {ids : List Nat} {s : Sched σ} {id : Nat} (hid : id ∈ ids)
    (h0 : id ≠ 0) (hj : ∃ j ∈ s.jobs, j.id = id) : id ∈ (ids.foldl Sched.wake s).queue := by
  induction ids generalizing s with
  | nil => cases hid
  | cons x xs ih =>
    rw [List.foldl_cons]
    rcases List.mem_cons.mp hid with rfl | hid
    · exact (grows_foldl _ grows_wake xs _).queue (mem_queue_wake h0 hj)
    · exact ih hid (by rw [(grows_wake s x).jobs]; exact hj)

theorem grows_signal (s : Sched σ) (key : Nat) : Grows s (s.signal key) := by
  unfold signal
  refine grows_foldl _ (fun s x => ?_) _ s
  obtain ⟨id, i⟩ := x
  exact grows_wake s id

theorem grows_advance {H : Nat} {s s' : Sched σ} (h : s.advance H = some s') : Grows s s' := by
  unfold advance at h
  dsimp only at h
  split at h
  · cases h
  · split at h
    · cases h
    · cases h
      refine (show Grows s { s with now := max s.now _ } from
        ⟨rfl, rfl, rfl, rfl, rfl, List.Subset.refl _⟩).trans (grows_foldl _ (fun s x => ?_) _ _)
      obtain ⟨_, _, id⟩ := x
      exact grows_wake s id

theorem mem_racers {s : Sched σ} {j : Job σ} (hj : j ∈ s.jobs) {x : Nat × Nat}
    (hx : x ∈ j.interest.races) : j.id ∈ s.racers x.1 := by
  unfold racers
  refine List.mem_map.mpr ⟨(x.2, j.id), ?_, rfl⟩
  rw [List.mem_mergeSort]
  refine List.mem_flatMap.mpr ⟨(j.id, j.interest), ?_, ?_⟩
  · exact List.mem_cons_of_mem _ (List.mem_map.mpr ⟨j, hj, rfl⟩)
  · exact List.mem_map.mpr ⟨x, List.mem_filter.mpr ⟨hx, by simp⟩, rfl⟩

/-! ### Cancelling and new tokens, on a run's state -/

/-- Waking the racers of each token of `order`, one token after another, queues every job that
races on one of them. -/
theorem mem_queue_wake_racers {order : List Nat} {s : Sched σ} {j : Job σ} (hj : j ∈ s.jobs)
    (h0 : j.id ≠ 0) {x : Nat × Nat} (hx : x ∈ j.interest.races) (hxo : x.1 ∈ order) :
    j.id ∈ (order.foldl (fun s t => (s.racers t).foldl Sched.wake s) s).queue := by
  induction order generalizing s with
  | nil => cases hxo
  | cons t ts ih =>
    rw [List.foldl_cons]
    have hg := grows_foldl _ grows_wake (s.racers t) s
    rcases List.mem_cons.mp hxo with rfl | hxo
    · exact (grows_foldl _ (fun s t => grows_foldl _ grows_wake (s.racers t) s) ts _).queue
        (mem_queue_foldl_wake (mem_racers hj hx) h0 ⟨j, hj, rfl⟩)
    · exact ih (by rw [hg.jobs]; exact hj) hxo

theorem cancel_spec (s : Sched σ) (tok : Nat) :
    (s.cancel tok).world = s.world ∧ (s.cancel tok).jobs = s.jobs ∧
    (s.cancel tok).nextJob = s.nextJob ∧ s.queue ⊆ (s.cancel tok).queue ∧
    (s.cancel tok).tokens.length = s.tokens.length ∧
    (∀ x, s.isCancelled x = true → (s.cancel tok).isCancelled x = true) ∧
    (tok < s.tokens.length → (s.cancel tok).isCancelled tok = true) ∧
    (∀ j ∈ s.jobs, j.id ≠ 0 → ∀ x ∈ j.interest.races, (s.cancel tok).isCancelled x.1 = true →
      s.isCancelled x.1 = false → j.id ∈ (s.cancel tok).queue) := by
  have hspec := cancelTree_spec (s.tokens.length + 1) s.tokens tok
  set s₁ : Sched σ := { s with tokens := (cancelTree (s.tokens.length + 1) s.tokens tok).1 }
  have hg : Grows s₁ (s.cancel tok) :=
    grows_foldl _ (fun s t => grows_foldl _ grows_wake (s.racers t) s) _ s₁
  have hc : ∀ x, (s.cancel tok).isCancelled x = true ↔ Flagged s₁.tokens x := by
    intro x
    rw [hg.isCancelled, isCancelled_iff]
  refine ⟨hg.world, hg.jobs, hg.nextJob, hg.queue, by rw [hg.tokens]; exact hspec.1,
    fun x hx => ?_, fun htok => ?_, fun j hj h0 x hx hnew hold => ?_⟩
  · exact (hc x).mpr (hspec.2.1 x (isCancelled_iff.mp hx))
  · exact (hc tok).mpr (cancelTree_flagged _ _ htok)
  · -- a token newly cancelled is in the order the racers are woken in
    rcases hspec.2.2 x.1 ((hc x.1).mp hnew) with hx' | hx'
    · rw [← isCancelled_iff] at hx'
      rw [hx'] at hold
      cases hold
    · exact mem_queue_wake_racers hj h0 hx hx'

/-- What a new token does to a run's state: the others stay as they were. -/
theorem newToken_spec (s : Sched σ) (parent : Option Nat) :
    (s.newToken parent).2 = s.tokens.length ∧
    (s.newToken parent).1.tokens.length = s.tokens.length + 1 ∧
    (∀ x < s.tokens.length, (s.newToken parent).1.isCancelled x = s.isCancelled x) ∧
    (s.newToken parent).1.world = s.world ∧ (s.newToken parent).1.jobs = s.jobs ∧
    (s.newToken parent).1.nextJob = s.nextJob ∧ (s.newToken parent).1.queue = s.queue := by
  unfold newToken
  dsimp only
  split
  · next p t hpt =>
    have hp : s.tokens[p]? = some t := by
      simp only [Option.bind_eq_some_iff, Option.map_eq_some_iff, Prod.mk.injEq] at hpt
      obtain ⟨a, -, t', ht', rfl, rfl⟩ := hpt
      exact ht'
    split
    · refine ⟨rfl, by simp, fun x hx => ?_, rfl, rfl, rfl, rfl⟩
      simp only [isCancelled]
      rw [List.getElem?_append_left hx]
    · refine ⟨rfl, by simp, fun x hx => ?_, rfl, rfl, rfl, rfl⟩
      have hx' :
          x < (s.tokens.set p { t with children := t.children ++ [s.tokens.length] }).length := by
        rw [List.length_set]; exact hx
      simp only [isCancelled]
      rw [List.getElem?_append_left hx']
      by_cases hxp : x = p
      · subst hxp
        rw [List.getElem?_set_self hx, hp]
      · rw [List.getElem?_set_ne (Ne.symm hxp)]
  · refine ⟨rfl, by simp, fun x hx => ?_, rfl, rfl, rfl, rfl⟩
    simp only [isCancelled]
    rw [List.getElem?_append_left hx]

end Sched

end ChainTx.Runtime
