import Mathlib
import ChainTx.Proofs.Quiescence
import ChainTx.Proofs.ConfirmationOutcome
/-!
# Every subscription is closed, once

A confirmation opens a signature subscription in one of its two racers and closes it in one of
two ways: in place, once that racer has its outcome, or from the job its guard leaves behind when
the racer is stopped first. For each subscription number, count one if the node has opened it,
less the unsubscribes naming it. The unit an opened subscription adds is held by the racer's
guard and handed, on a drop, to the job that closes it; every other step of the confirmation
leaves the count alone. In the ledger of `Runtime.Holds` this is a derivation for the whole run,
so once the scheduler has nothing left to run every count is back to zero
(`Runtime.Sched.run_measure_eq_zero`): each opened subscription was closed exactly once.
-/

namespace ChainTx

open ChainTx.Runtime

/-- Whether subscription `k` is open: one if the node has opened it, less the unsubscribes naming
it. -/
def World.openSubscription (k : Nat) (w : World) : ℤ :=
  (if k < w.node.feeds.length then 1 else 0) - (w.node.unsubscribed.count k : ℤ)

theorem World.openSubscription_start (k : Nat) (S : Script) :
    (World.start S).openSubscription k = 0 := by
  simp [World.openSubscription, World.start, Node.ofScript]

theorem World.openSubscription_nextOf (k : Nat) (w : World) (sub : Nat) :
    (Node.nextOf w sub).1.openSubscription k = w.openSubscription k := by
  unfold Node.nextOf
  split
  · rfl
  · split <;> simp [World.openSubscription]

/-- The unit a subscription carries for the count of `k`: one for `k` itself. -/
def subscriptionUnit (k sub : Nat) : ℤ := if sub = k then 1 else 0

theorem subscriptionUnit_nonneg (k sub : Nat) : 0 ≤ subscriptionUnit k sub := by
  unfold subscriptionUnit
  split <;> omega

theorem World.openSubscription_addFeed (k : Nat) (w : World) (feed : Feed) :
    World.openSubscription k { w with node := { w.node with feeds := w.node.feeds ++ [feed] } } -
      w.openSubscription k = subscriptionUnit k w.node.feeds.length := by
  simp only [World.openSubscription, subscriptionUnit, List.length_append, List.length_singleton]
  split_ifs <;> omega

theorem World.openSubscription_unsubscribe (k : Nat) (w : World) (t sub : Nat) :
    World.openSubscription k { w with node := { w.node.record t "unsubscribe" .null with
      unsubscribed := w.node.unsubscribed ++ [sub] } } - w.openSubscription k =
      -subscriptionUnit k sub := by
  simp only [World.openSubscription, subscriptionUnit, Node.record, List.count_append,
    List.count_singleton, beq_iff_eq]
  push_cast
  split_ifs <;> omega

namespace Node

variable {k : Nat} {L : Licence} {r : Option Nat} {b d : ℤ} {O : List Nat}

theorem answer_holds {β : Type} {method : String} {detail : Json}
    {replies : Script → List (Reply β)} {keep : Script → List (Reply β) → Script}
    (hd : d = b) (h0 : 0 ≤ d) :
    Holds (World.openSubscription k) L r b (Kept d O) d O (answer method detail replies keep) := by
  unfold answer
  refine Holds.now_bind fun t => Holds.update_bind (fun w => ?_) h0 fun w => ?_
  · rcases takeReply (replies w.node.script) with ⟨_, _⟩
    rfl
  · rcases takeReply (replies w.node.script) with ⟨_ | _, _⟩
    · exact .pure ⟨rfl, rfl⟩
    · exact Holds.delay_bind hd (.pure ⟨rfl, rfl⟩)

theorem signatureStatus_holds {sig : Signature} (hd : d = b) (h0 : 0 ≤ d) :
    Holds (World.openSubscription k) L r b (Kept d O) d O (signatureStatus sig) :=
  answer_holds hd h0

theorem blockHeight_holds {c : Commitment} (hd : d = b) (h0 : 0 ≤ d) :
    Holds (World.openSubscription k) L r b (Kept d O) d O (blockHeight c) :=
  answer_holds hd h0

theorem nonceAccount_holds {address : Address} {c : Commitment} {minSlot : Option Nat}
    (hd : d = b) (h0 : 0 ≤ d) :
    Holds (World.openSubscription k) L r b (Kept d O) d O (nonceAccount address c minSlot) := by
  unfold nonceAccount
  exact answer_holds hd h0

theorem subscribe_holds {sig : Signature} {c : Commitment} (hd : d = b) (h0 : 0 ≤ d) :
    Holds (World.openSubscription k) L r b
      (fun e O' res =>
        O' = O ∧ (∀ err, res = .error err → e = d) ∧
          ∀ sub, res = .ok sub → e = d + subscriptionUnit k sub)
      d O (subscribe sig c) := by
  unfold subscribe
  refine Holds.bind_kept (answer_holds hd h0) fun res => ?_
  cases res with
  | error err => exact .pure ⟨rfl, fun _ _ => rfl, fun _ h => by cases h⟩
  | ok feed =>
    refine .step (fun w _ => ?_) fun w _ => .pure ?_
    · rw [World.openSubscription_addFeed]
      have := subscriptionUnit_nonneg k w.node.feeds.length
      omega
    · refine ⟨rfl, fun _ h => (by cases h), fun sub hsub => ?_⟩
      cases hsub
      rw [World.openSubscription_addFeed]

theorem recv_holds {sub : Nat} (hd : d = b) (h0 : 0 ≤ d) :
    Holds (World.openSubscription k) L r b (Kept d O) d O (recv sub) := by
  unfold recv
  refine Holds.update_bind (fun w => World.openSubscription_nextOf k w sub) h0 fun w => ?_
  rcases (nextOf w sub).2 with _ | _ | _
  · exact Holds.delay_bind hd (.pure ⟨rfl, rfl⟩)
  · exact .pure ⟨rfl, rfl⟩
  · subst hd
    exact Holds.never_holds

theorem unsubscribe_holds {Q : ℤ → List Nat → Unit → Prop} {sub : Nat}
    (h1 : subscriptionUnit k sub ≤ d) (hQ : Q (d - subscriptionUnit k sub) O ()) :
    Holds (World.openSubscription k) L r b Q d O (unsubscribe sub) := by
  refine Holds.now_bind fun t => .step (fun w _ => ?_) fun w _ => .pure ?_
  · rw [World.openSubscription_unsubscribe]
    omega
  · rwa [World.openSubscription_unsubscribe, ← sub_eq_add_neg]

end Node

section Engine

variable {k : Nat} {L : Licence} {r : Option Nat} {b d : ℤ} {O : List Nat} {c : Commitment} {H : Nat}

/-- The racer that waits for the signature, inside a race on `stop` its licence covers: its
guard holds the subscription's unit, which the body gives back by unsubscribing and a drop
hands to the job that unsubscribes in the background. -/
theorem waitForSignature_holds {stop : Nat} (hL : L.holds (some stop)) (sig : Signature) :
    Holds (World.openSubscription k) L (some stop) 0 (Kept 0 []) 0 []
      (waitForSignature Rpc.scripted sig c) := by
  unfold waitForSignature
  refine Holds.bind (Node.subscribe_holds rfl le_rfl) fun e O' res h => ?_
  obtain ⟨rfl, herr, hok⟩ := h
  cases res with
  | error err => exact .pure ⟨herr err rfl, rfl⟩
  | ok sub =>
    obtain rfl := hok sub rfl
    have hu := subscriptionUnit_nonneg k sub
    have hdrop : Holds (World.openSubscription k) Licence.empty (some stop) 0 (fun e _ _ => e = 0)
        (subscriptionUnit k sub + 0) [] (Prog.fork (Node.unsubscribe sub)) :=
      .spawn hu le_rfl (fun h => h : ¬ Licence.empty.owes) (fun h => h.elim)
        (fun _ h => h.elim)
        (Node.unsubscribe_holds le_rfl ⟨sub_self _, rfl⟩) (.pure rfl)
    refine .guard hu (fun _ => hL) (fun _ => rfl) (by simpa using hdrop) ?_
      fun e O' o ho => .pure ho
    -- the body holds the unit through its waits, which is its budget, and ends without it
    refine Holds.bind_kept (Node.signatureStatus_holds rfl (by omega)) fun st => ?_
    have hclose : ∀ o : Outcome, Holds (World.openSubscription k) L (some stop)
        (0 + subscriptionUnit k sub) (Kept 0 []) (0 + subscriptionUnit k sub) []
        (Node.unsubscribe sub >>= fun _ => pure o) := fun o =>
      Holds.bind (Node.unsubscribe_holds (by omega) (Q := Kept 0 []) ⟨by ring, rfl⟩)
        fun _ _ _ h => .pure h
    dsimp only
    split
    · exact hclose _
    · refine Holds.bind_kept (Node.recv_holds rfl (by omega)) fun x => ?_
      cases x <;> exact hclose _

theorem expireAfter_holds {sig : Signature} {ms : Nat} (hd : d = b) :
    Holds (World.openSubscription k) L r b (Kept d O) d O (expireAfter sig ms) :=
  Holds.delay_bind hd (.pure ⟨rfl, rfl⟩)

theorem watchBlockHeight_holds {sig : Signature} {lastValid : Nat} (n : Nat) (hd : d = b)
    (h0 : 0 ≤ d) :
    Holds (World.openSubscription k) L r b (Kept d O) d O
      (watchBlockHeight Rpc.scripted sig lastValid c n) := by
  induction n with
  | zero =>
    subst hd
    exact Holds.never_holds
  | succ n ih =>
    rw [watchBlockHeight]
    refine Holds.bind_kept (Node.blockHeight_holds hd h0) fun res => ?_
    cases res with
    | error _ => exact Holds.delay_bind hd ih
    | ok h =>
      dsimp only
      split
      · exact .pure ⟨rfl, rfl⟩
      · exact Holds.delay_bind hd ih

theorem watchNonceValue_holds {account : Address} {value : Blockhash} {minSlot : Nat} (n : Nat)
    (hd : d = b) (h0 : 0 ≤ d) : ∀ lastChecked,
    Holds (World.openSubscription k) L r b (Kept d O) d O
      (watchNonceValue Rpc.scripted account value minSlot c lastChecked n) := by
  induction n with
  | zero =>
    subst hd
    exact fun _ => Holds.never_holds
  | succ n ih =>
    intro lastChecked
    rw [watchNonceValue]
    refine Holds.bind_kept (Node.nonceAccount_holds hd h0) fun res => ?_
    rcases res with _ | ⟨slot, _ | a⟩
    · exact Holds.delay_bind hd (ih _)
    · exact .pure ⟨rfl, rfl⟩
    · dsimp only
      split
      · exact Holds.delay_bind hd (ih _)
      · exact .pure ⟨rfl, rfl⟩

theorem statusAfterNonce_holds {sig : Signature} {lastChecked : Nat} (n : Nat) (hd : d = b)
    (h0 : 0 ≤ d) :
    Holds (World.openSubscription k) L r b (Kept d O) d O
      (statusAfterNonce Rpc.scripted sig c lastChecked n) := by
  induction n with
  | zero => exact .pure ⟨rfl, rfl⟩
  | succ n ih =>
    rw [statusAfterNonce]
    refine Holds.bind_kept (Node.signatureStatus_holds hd h0) fun res => ?_
    rcases res with _ | ⟨slot, st⟩
    · exact Holds.delay_bind hd ih
    · dsimp only
      split
      · split <;> exact .pure ⟨rfl, rfl⟩
      · exact Holds.delay_bind hd ih

theorem watcher_holds (initial : Option Nat) (strategy : Strategy) (hd : d = b) (h0 : 0 ≤ d) :
    Holds (World.openSubscription k) L r b (Kept d O) d O
      (watcher H Rpc.scripted initial c strategy) := by
  cases strategy with
  | timeout sig => exact expireAfter_holds hd
  | blockHeight sig lastValid => exact watchBlockHeight_holds _ hd h0
  | durableNonce sig account value minSlot =>
    exact Holds.bind_kept (watchNonceValue_holds _ hd h0 minSlot) fun _ =>
      statusAfterNonce_holds _ hd h0

end Engine

section Mailbox

variable {k : Nat} {L : Licence} {r : Option Nat} {b d : ℤ} {O : List Nat}

theorem openMailbox_holds {senders : Nat} (h0 : 0 ≤ d) :
    Holds (World.openSubscription k) L r b (Kept d O) d O (openMailbox senders) :=
  Holds.freshKey_bind fun _ => Holds.modify_bind (fun _ => rfl) h0 (.pure ⟨rfl, rfl⟩)

theorem post_holds {Q : ℤ → List Nat → Unit → Prop} {box : Nat} {o : String × Outcome} (h0 : 0 ≤ d)
    (hQ : Q d O ()) : Holds (World.openSubscription k) L r b Q d O (post box o) :=
  Holds.modify_bind (fun _ => rfl) h0 (.signal (.pure hQ))

theorem leave_holds {Q : ℤ → List Nat → Unit → Prop} {box : Nat} (h0 : 0 ≤ d)
    (hQ : Q d O ()) : Holds (World.openSubscription k) L r b Q d O (leave box) :=
  Holds.modify_bind (fun _ => rfl) h0 (.signal (.pure hQ))

theorem receive_holds {box : Nat} (hd : d = b) (h0 : 0 ≤ d) :
    Holds (World.openSubscription k) L r b (Kept d O) d O (receive box) := by
  unfold receive
  refine .await hd (fun w w' x _ hr => ?_) fun w w' x _ hr => ?_
  all_goals
    have hw : w'.openSubscription k = w.openSubscription k := by
      split at hr <;> cases hr <;> rfl
    rw [hw, sub_self, add_zero]
  · exact h0
  · exact .pure ⟨rfl, rfl⟩

theorem racer_holds {name : String} {stop box : Nat} {work : Async Outcome}
    (hw : Holds (World.openSubscription k) L (some stop) 0 (Kept 0 []) 0 [] work) :
    Holds (World.openSubscription k) L none 0 Finished 0 [] (racer name stop box work) := by
  unfold racer
  refine Holds.racing_bind le_rfl hw (leave_holds le_rfl ⟨rfl, rfl⟩) fun e o h => ?_
  obtain ⟨rfl, -⟩ := h
  rw [add_zero]
  exact Holds.bind_kept (post_holds le_rfl ⟨rfl, rfl⟩) fun _ => leave_holds le_rfl ⟨rfl, rfl⟩

end Mailbox

section Confirm

variable {k : Nat} {strategy : Strategy} {c : Commitment} {initial : Option Nat} {H : Nat}

/-- Both racers run under a licence for their race on `stop`, a token the confirmation owes
until it cancels it; the confirmation itself holds nothing. -/
theorem race_holds (cancel : Nat) :
    Holds (World.openSubscription k) Licence.main none 0 (Kept 0 []) 0 []
      (race H Rpc.scripted initial strategy c cancel) := by
  unfold race
  refine Holds.childToken_owe_bind trivial rfl fun stop => ?_
  refine Holds.bind_kept (openMailbox_holds le_rfl) fun box => ?_
  have hs : ∀ t, (Licence.racingOn stop).holds (some t) →
      Licence.main.holds (some t) ∨ t ∈ [stop] := fun t ht =>
    .inr (List.mem_singleton.mpr (Option.some.inj ht))
  refine Holds.fork_licensed_bind le_rfl id (fun h => by cases h) hs
    (racer_holds (waitForSignature_holds (L := Licence.racingOn stop) rfl _)) ?_
  refine Holds.fork_licensed_bind le_rfl id (fun h => by cases h) hs
    (racer_holds (watcher_holds initial strategy rfl le_rfl)) ?_
  refine Holds.guarded_bind (R := Kept 0 [stop]) le_rfl (fun h => absurd rfl h) (fun _ => rfl)
    (.cancel rfl (.pure rfl))
    (.race le_rfl le_rfl (fun _ => rfl) (receive_holds rfl le_rfl) (.pure ⟨rfl, rfl⟩)
      fun e x h => ?_) fun e O' x h => ?_
  · obtain ⟨rfl, -⟩ := h
    exact .pure ⟨rfl, rfl⟩
  · obtain ⟨rfl, rfl⟩ := h
    refine Holds.cancelToken_bind rfl ?_
    rw [List.erase_cons_head]
    exact .pure ⟨rfl, rfl⟩

theorem confirmMain_holds (cancelAt : Option Nat) :
    Holds (World.openSubscription k) Licence.main none 0 Finished 0 []
      (confirmMain H initial strategy c cancelAt) := by
  unfold confirmMain
  refine Holds.bind_kept (Holds.cancelAfter_holds cancelAt le_rfl) fun cancel => ?_
  exact Holds.bind_kept (race_holds cancel) fun _ => Holds.now_bind fun _ => .pure ⟨rfl, rfl⟩

end Confirm

/-- Once a confirmation has returned and the scheduler has nothing left to run, the node has been
asked to close every subscription it opened exactly once, and no other, whether the racer that
subscribed won, lost, or was stopped by a cancellation. This holds of a run up to any horizon. -/
theorem confirm_closes_subscriptions (S : Script) (H : Nat) (initial : Option Nat)
    (strategy : Strategy) (c : Commitment) (cancelAt : Option Nat)
    {a : Option (String × Outcome) × Outcome × Nat} {s : Sched World}
    (h : run H (confirmMain H initial strategy c cancelAt) (World.start S) = some (a, s))
    (hq : s.queue = []) :
    s.world.node.unsubscribed.Perm (List.range s.world.node.feeds.length) := by
  refine List.perm_iff_count.mpr fun k => ?_
  have h0 := Sched.run_measure_eq_zero (World.openSubscription_start k S)
    (confirmMain_holds (k := k) cancelAt) h hq
  -- the count of `k` is back to zero: closed once if opened, never otherwise
  unfold World.openSubscription at h0
  by_cases hk : k < s.world.node.feeds.length
  · rw [List.count_eq_one_of_mem List.nodup_range (List.mem_range.mpr hk)]
    rw [if_pos hk] at h0
    omega
  · rw [List.count_eq_zero_of_not_mem (mt List.mem_range.mp hk)]
    rw [if_neg hk] at h0
    omega

private def silentSubscription : Script :=
  { Script.empty with
    status := [⟨0, .ok (0, none)⟩]
    subscribe := [⟨0, .ok ⟨[], false⟩⟩] }

/-- A subscription that stays silent loses to the timer: the racer holding it is stopped, and the
job its guard leaves behind closes it. -/
theorem confirm_closes_subscriptions_silent :
    ∃ a s, run horizonMs (confirmMain horizonMs (some 5) (.timeout Signature.zero) .finalized none)
        (World.start silentSubscription) = some (a, s) ∧
      s.queue = [] ∧ s.world.node.feeds.length = 1 ∧ s.world.node.unsubscribed = [0] := by
  have hrun : (run horizonMs (confirmMain horizonMs (some 5) (.timeout Signature.zero) .finalized
      none) (World.start silentSubscription)).map (fun p => (p.2.queue, p.2.world.node.feeds.length)) =
        some ([], 1) := by cbv
  obtain ⟨⟨a, s⟩, h, hs⟩ := Option.map_eq_some_iff.mp hrun
  obtain ⟨hq, hf⟩ := Prod.mk.inj hs
  refine ⟨a, s, h, hq, hf, ?_⟩
  have hp := confirm_closes_subscriptions _ _ _ _ _ _ h hq
  rw [hf] at hp
  exact List.perm_singleton.mp hp

end ChainTx
