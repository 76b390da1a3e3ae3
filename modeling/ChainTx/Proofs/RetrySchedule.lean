import Mathlib
import ChainTx.Client.Retry
/-!
# The schedule of a retried call

A retried call tries the node at most `max maxAttempts 1` times. It returns the first success,
the first failure that is not worth retrying, or the failure of the last attempt. After a
retryable failure it waits exactly what a rate limit asks for, or else the backoff of the attempt.
A cancellation token that fires during a call or a wait stops it at once, with no call after.
-/

namespace ChainTx

/-! ### Backoff -/

namespace RetryConfig

theorem backoffMs_le_u64Max (c : RetryConfig) (a : Nat) : c.backoffMs a ≤ u64Max := by
  unfold backoffMs
  dsimp only
  omega

theorem backoffMs_mono (c : RetryConfig) {a b : Nat} (h : a ≤ b) : c.backoffMs a ≤ c.backoffMs b := by
  unfold backoffMs
  dsimp only
  have hpow : Nat.pow 2 (min (a - 1) 32) ≤ Nat.pow 2 (min (b - 1) 32) :=
    Nat.pow_le_pow_right (by decide) (by omega)
  have hmul := Nat.mul_le_mul_left c.initialBackoffMs hpow
  omega

end RetryConfig

/-! ### The rules of a retried call -/

/-- Whether the token, cancelled at `cancelAt` if at all, has fired strictly before `t`. At the
instant of the cancellation itself a program that is due runs first. -/
def firedBefore (cancelAt : Option Nat) (t : Nat) : Bool := cancelAt.any (· < t)

@[simp] theorem firedBefore_none (t : Nat) : firedBefore none t = false := rfl

@[simp] theorem firedBefore_some (T t : Nat) : firedBefore (some T) t = decide (T < t) := rfl

theorem firedBefore_mono {cancelAt : Option Nat} {t t' : Nat} (h : firedBefore cancelAt t = true)
    (ht : t ≤ t') : firedBefore cancelAt t' = true := by
  cases cancelAt with
  | none => simp at h
  | some T =>
    simp only [firedBefore_some, decide_eq_true_eq] at h ⊢
    omega

theorem not_firedBefore_of_le {cancelAt : Option Nat} {t t' : Nat}
    (h : firedBefore cancelAt t' = false) (ht : t ≤ t') : firedBefore cancelAt t = false := by
  cases hf : firedBefore cancelAt t
  · rfl
  · rw [firedBefore_mono hf ht] at h
    exact h

theorem firedBefore_between {cancelAt : Option Nat} {t t' : Nat}
    (h : firedBefore cancelAt t = true) (h' : firedBefore cancelAt t' = false) :
    ∃ T, cancelAt = some T ∧ t' ≤ T ∧ T < t := by
  cases cancelAt with
  | none => simp at h
  | some T =>
    simp only [firedBefore_some, decide_eq_true_eq, decide_eq_false_iff_not, Nat.not_lt] at h h'
    exact ⟨T, rfl, h', h⟩

/-- The wait after a retryable failure `e` of attempt `a`: what a rate limit asks for, or else the
backoff of the attempt. -/
inductive RetryWait (config : RetryConfig) (a : Nat) : RpcError → Nat → Prop
  | rateLimited (d : Nat) : RetryWait config a (.rateLimited (some d)) d
  | backoff {e : RpcError} (h : ∀ d, e ≠ .rateLimited (some d)) :
      RetryWait config a e (config.backoffMs a)

theorem retryWait_retryDelay (config : RetryConfig) (a : Nat) (e : RpcError) :
    RetryWait config a e (retryDelay e config a) := by
  cases e with
  | rateLimited d =>
    cases d with
    | some d => exact .rateLimited d
    | none => exact .backoff (by simp)
  | _ => exact .backoff (by simp)

theorem RetryWait.eq_retryDelay {config : RetryConfig} {a w : Nat} {e : RpcError}
    (h : RetryWait config a e w) : w = retryDelay e config a := by
  cases h with
  | rateLimited d => rfl
  | backoff hne =>
    cases e with
    | rateLimited d =>
      cases d with
      | some d => exact absurd rfl (hne d)
      | none => rfl
    | _ => rfl

variable {α : Type}

/-- The course of a retried call from attempt `a` (counted from 1), due at `t`, when the node
answers its `j`-th call (counted from 0) after `(answers j).1` ms with `(answers j).2`, and the
token fires at `cancelAt` if at all: the times of the calls it makes, its result, and the time it
returns. -/
inductive Attempts (config : RetryConfig) (cancelAt : Option Nat)
    (answers : Nat → Nat × Except RpcError α) :
    Nat → Nat → List Nat → Except RpcError α → Nat → Prop
  /-- The token fired before the attempt was due: no call. -/
  | cancelledBefore {a t : Nat} (hf : firedBefore cancelAt t = true) :
      Attempts config cancelAt answers a t [] (.error .cancelled) t
  /-- The token fires while the node answers. -/
  | cancelledInCall {a t T : Nat} (hf : firedBefore cancelAt t = false) (hT : cancelAt = some T)
      (hlt : T < t + (answers (a - 1)).1) :
      Attempts config cancelAt answers a t [t] (.error .cancelled) T
  /-- The answer stands: a success, a failure not worth retrying, or that of the last attempt. -/
  | answered {a t : Nat} (hf : firedBefore cancelAt (t + (answers (a - 1)).1) = false)
      (hstop : ∀ e, (answers (a - 1)).2 = .error e → e.isRetryable = true →
        max config.maxAttempts 1 ≤ a) :
      Attempts config cancelAt answers a t [t] (answers (a - 1)).2 (t + (answers (a - 1)).1)
  /-- The token fires during the wait after a retryable failure. -/
  | cancelledInWait {a t w T : Nat} {e : RpcError}
      (hf : firedBefore cancelAt (t + (answers (a - 1)).1) = false)
      (he : (answers (a - 1)).2 = .error e) (hr : e.isRetryable = true)
      (hmore : a < max config.maxAttempts 1) (hw : RetryWait config a e w) (hT : cancelAt = some T)
      (hlt : T < t + (answers (a - 1)).1 + w) :
      Attempts config cancelAt answers a t [t] (.error .cancelled) T
  /-- A retryable failure with attempts left: the wait, then the next attempt. -/
  | retried {a t w : Nat} {e : RpcError} {cs : List Nat} {r : Except RpcError α} {te : Nat}
      (he : (answers (a - 1)).2 = .error e) (hr : e.isRetryable = true)
      (hmore : a < max config.maxAttempts 1) (hw : RetryWait config a e w)
      (hf : firedBefore cancelAt (t + (answers (a - 1)).1 + w) = false)
      (next : Attempts config cancelAt answers (a + 1) (t + (answers (a - 1)).1 + w) cs r te) :
      Attempts config cancelAt answers a t (t :: cs) r te

namespace Attempts

variable {config : RetryConfig} {cancelAt : Option Nat} {answers : Nat → Nat × Except RpcError α}
  {a t te : Nat} {cs : List Nat} {r : Except RpcError α}

theorem add_length_le (h : Attempts config cancelAt answers a t cs r te)
    (ha : a ≤ max config.maxAttempts 1) : a + cs.length ≤ max config.maxAttempts 1 + 1 := by
  induction h with
  | cancelledBefore => simp only [List.length_nil]; omega
  | cancelledInCall | answered | cancelledInWait => simp only [List.length_singleton]; omega
  | retried _ _ hmore _ _ _ ih =>
    have := ih (by omega)
    simp only [List.length_cons]
    omega

theorem eq_nil_iff (h : Attempts config cancelAt answers a t cs r te) :
    cs = [] ↔ firedBefore cancelAt t = true := by
  cases h with
  | cancelledBefore hf => simp [hf]
  | cancelledInCall hf => simp [hf]
  | answered hf | cancelledInWait hf => simp [not_firedBefore_of_le hf (Nat.le_add_right _ _)]
  | @retried _ t w _ _ _ _ _ _ _ _ hf => simp [not_firedBefore_of_le hf (by omega : t ≤ _ + w)]

theorem not_firedBefore_of_mem (h : Attempts config cancelAt answers a t cs r te) :
    ∀ c ∈ cs, firedBefore cancelAt c = false := by
  induction h with
  | cancelledBefore => simp
  | cancelledInCall hf => simpa using hf
  | answered hf | cancelledInWait hf => simpa using not_firedBefore_of_le hf (Nat.le_add_right _ _)
  | retried _ _ _ _ hf _ ih =>
    intro c hc
    rcases List.mem_cons.1 hc with rfl | hc
    · exact not_firedBefore_of_le hf (by omega)
    · exact ih c hc

theorem le_end (h : Attempts config cancelAt answers a t cs r te) : t ≤ te := by
  induction h with
  | cancelledBefore => exact Nat.le_refl _
  | cancelledInCall hf hT =>
    subst hT
    simp only [firedBefore_some, decide_eq_false_iff_not, Nat.not_lt] at hf
    exact hf
  | answered => exact Nat.le_add_right _ _
  | cancelledInWait hf _ _ _ _ hT =>
    subst hT
    simp only [firedBefore_some, decide_eq_false_iff_not, Nat.not_lt] at hf
    omega
  | retried _ _ _ _ _ _ ih => omega

theorem answer_le_end (h : Attempts config cancelAt answers a t cs r te)
    (hf : firedBefore cancelAt (t + (answers (a - 1)).1) = false) :
    t + (answers (a - 1)).1 ≤ te := by
  cases h with
  | cancelledBefore hf' =>
    rw [firedBefore_mono hf' (Nat.le_add_right _ _)] at hf
    cases hf
  | cancelledInCall _ hT hlt =>
    subst hT
    simp at hf
    omega
  | answered => exact Nat.le_refl _
  | cancelledInWait _ _ _ _ _ hT _ =>
    subst hT
    simp at hf
    omega
  | retried _ _ _ _ _ next =>
    have := next.le_end
    omega

theorem unique {cs' : List Nat} {r' : Except RpcError α} {te' : Nat}
    (h : Attempts config cancelAt answers a t cs r te)
    (h' : Attempts config cancelAt answers a t cs' r' te') : cs = cs' ∧ r = r' ∧ te = te' := by
  induction h generalizing cs' r' te' with
  | cancelledBefore hf =>
    obtain rfl := h'.eq_nil_iff.2 hf
    cases h' with
    | cancelledBefore => exact ⟨rfl, rfl, rfl⟩
  | cancelledInCall hf hT hlt =>
    subst hT
    cases h' with
    | cancelledBefore hf' => rw [hf] at hf'; cases hf'
    | cancelledInCall _ hT' => cases hT'; exact ⟨rfl, rfl, rfl⟩
    | answered hf' | cancelledInWait hf' => simp at hf'; omega
    | retried _ _ _ _ hf' => simp at hf'; omega
  | answered hf hstop =>
    cases h' with
    | cancelledBefore hf' => rw [firedBefore_mono hf' (Nat.le_add_right _ _)] at hf; cases hf
    | cancelledInCall _ hT' hlt' => subst hT'; simp at hf; omega
    | answered => exact ⟨rfl, rfl, rfl⟩
    | cancelledInWait _ he hr hmore => have := hstop _ he hr; omega
    | retried he hr hmore => have := hstop _ he hr; omega
  | cancelledInWait hf he hr hmore hw hT hlt =>
    subst hT
    cases h' with
    | cancelledBefore hf' => rw [firedBefore_mono hf' (Nat.le_add_right _ _)] at hf; cases hf
    | cancelledInCall _ hT' hlt' => cases hT'; simp at hf; omega
    | answered _ hstop => have := hstop _ he hr; omega
    | cancelledInWait _ _ _ _ _ hT' => cases hT'; exact ⟨rfl, rfl, rfl⟩
    | retried he' _ _ hw' hf' =>
      rw [he] at he'
      cases he'
      rw [hw.eq_retryDelay, ← hw'.eq_retryDelay] at hlt
      simp at hf'
      omega
  | @retried _ t w _ _ _ _ he hr hmore hw hf next ih =>
    cases h' with
    | cancelledBefore hf' =>
      rw [firedBefore_mono hf' (by omega : t ≤ _ + w)] at hf
      cases hf
    | cancelledInCall hf' hT' hlt' =>
      subst hT'
      simp at hf
      omega
    | answered _ hstop => have := hstop _ he hr; omega
    | cancelledInWait _ he' _ _ hw' hT' hlt' =>
      rw [he] at he'
      cases he'
      rw [hw'.eq_retryDelay, ← hw.eq_retryDelay] at hlt'
      subst hT'
      simp at hf
      omega
    | retried he' _ _ hw' _ next' =>
      rw [he] at he'
      cases he'
      obtain rfl := hw.eq_retryDelay.trans hw'.eq_retryDelay.symm
      obtain ⟨rfl, rfl, rfl⟩ := ih next'
      exact ⟨rfl, rfl, rfl⟩

/-- One attempt: the rules give a course from attempt `a` once they give one from `a + 1`,
whenever there is an attempt after it. -/
theorem exists_of_next (a t : Nat)
    (hnext : a < max config.maxAttempts 1 →
      ∀ t', ∃ cs r te, Attempts config cancelAt answers (a + 1) t' cs r te) :
    ∃ cs r te, Attempts config cancelAt answers a t cs r te := by
  cases hf : firedBefore cancelAt t
  case true => exact ⟨_, _, _, .cancelledBefore hf⟩
  cases hc : firedBefore cancelAt (t + (answers (a - 1)).1)
  case true =>
    obtain ⟨T, hT, -, hlt⟩ := firedBefore_between hc hf
    exact ⟨_, _, _, .cancelledInCall hf hT hlt⟩
  by_cases hstop : ∀ e, (answers (a - 1)).2 = .error e → e.isRetryable = true →
      max config.maxAttempts 1 ≤ a
  · exact ⟨_, _, _, .answered hc hstop⟩
  push Not at hstop
  obtain ⟨e, he, hr, hmore⟩ := hstop
  have hw := retryWait_retryDelay config a e
  cases hs : firedBefore cancelAt (t + (answers (a - 1)).1 + retryDelay e config a)
  case true =>
    obtain ⟨T, hT, -, hlt⟩ := firedBefore_between hs hc
    exact ⟨_, _, _, .cancelledInWait hc he hr hmore hw hT hlt⟩
  obtain ⟨cs, r, te, hn⟩ := hnext hmore _
  exact ⟨_, _, _, .retried he hr hmore hw hs hn⟩

theorem exists_course (a t : Nat) : ∃ cs r te, Attempts config cancelAt answers a t cs r te := by
  obtain ⟨k, hk⟩ : ∃ k, max config.maxAttempts 1 - a = k := ⟨_, rfl⟩
  induction k generalizing a t with
  | zero => exact exists_of_next a t fun hmore => by omega
  | succ k ih => exact exists_of_next a t fun _ t' => ih (a + 1) t' (by omega)

/-- After a retryable failure and its wait, a course goes on from the next attempt, so it ends no
earlier than that attempt is due. -/
theorem exists_retried {w : Nat} {e : RpcError} (he : (answers (a - 1)).2 = .error e)
    (hr : e.isRetryable = true) (hmore : a < max config.maxAttempts 1) (hw : RetryWait config a e w)
    (hf : firedBefore cancelAt (t + (answers (a - 1)).1 + w) = false) :
    ∃ cs r te, Attempts config cancelAt answers a t cs r te ∧ t + (answers (a - 1)).1 + w ≤ te := by
  obtain ⟨cs, r, te, hA⟩ : ∃ cs r te, Attempts config cancelAt answers (a + 1)
      (t + (answers (a - 1)).1 + w) cs r te :=
    exists_course _ _
  exact ⟨t :: cs, r, te, .retried he hr hmore hw hf hA, hA.le_end⟩

end Attempts

end ChainTx
