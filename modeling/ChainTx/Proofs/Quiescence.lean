import ChainTx.Proofs.LedgerRun
/-!
# The books across a run

Every round of a run keeps the books of `Holds`: a job's run (`Sched.runJob_books`), a resumption
of the main program (`Sched.runMain_books`), the clock moving on, and the jobs run once the main
program has ended. A run whose world starts at measure zero therefore ends with the measure equal
to what the programs still hold. Once no job is queued, a job holding units would be waiting in a
race on a live token that it may hold under only while the main program owes its cancellation,
and the main program owes nothing once it has ended: the measure is back to zero
(`Sched.run_measure_eq_zero`).
-/

namespace ChainTx.Runtime

variable {σ : Type}

namespace Sched

/-! ### Editing one job of the list -/

section Edit

variable (id : Nat) (f : Job σ → Option (Job σ))

theorem mem_edit {l : List (Job σ)} {y : Job σ}
    (hy : y ∈ l.filterMap fun x => if (x.id == id) = true then f x else some x) :
    (∃ x ∈ l, x.id = id ∧ f x = some y) ∨ (y ∈ l ∧ y.id ≠ id) := by
  obtain ⟨x, hx, hxy⟩ := List.mem_filterMap.mp hy
  by_cases h : x.id = id
  · rw [if_pos (by simpa using h)] at hxy
    exact .inl ⟨x, hx, h, hxy⟩
  · rw [if_neg (by simpa using h)] at hxy
    cases hxy
    exact .inr ⟨hx, h⟩

theorem ids_edit (hf : ∀ x, x.id = id → ∃ y, f x = some y ∧ y.id = x.id) (l : List (Job σ)) :
    (l.filterMap fun x => if (x.id == id) = true then f x else some x).map (·.id) =
      l.map (·.id) := by
  induction l with
  | nil => rfl
  | cons x xs ih =>
    by_cases h : x.id = id
    · obtain ⟨y, hy, hyid⟩ := hf x h
      rw [List.filterMap_cons_some (b := y) (by simp [h, hy]), List.map_cons, List.map_cons, ih,
        hyid]
    · rw [List.filterMap_cons_some (b := x) (by simp [h]), List.map_cons, List.map_cons, ih]

theorem ids_remove_sublist (l : List (Job σ)) :
    ((l.filterMap fun x => if (x.id == id) = true then none else some x).map (·.id)).Sublist
      (l.map (·.id)) := by
  induction l with
  | nil => exact List.Sublist.slnil
  | cons x xs ih =>
    by_cases h : x.id = id
    · rw [List.filterMap_cons_none (by simp [h]), List.map_cons]
      exact ih.cons x.id
    · rw [List.filterMap_cons_some (b := x) (by simp [h]), List.map_cons, List.map_cons]
      exact ih.cons_cons x.id

theorem mem_remove {l : List (Job σ)} {y : Job σ}
    (hy : y ∈ l.filterMap fun x => if (x.id == id) = true then none else some x) :
    y ∈ l ∧ y.id ≠ id := by
  rcases mem_edit id _ hy with ⟨_, -, -, h⟩ | h
  · cases h
  · exact h

theorem sum_remove {v : Nat → ℤ} {l : List (Job σ)} (hv : ∀ j ∈ l, j.id = id → v j.id = 0) :
    ((l.filterMap fun x => if (x.id == id) = true then none else some x).map
      fun j => v j.id).sum = (l.map fun j => v j.id).sum := by
  induction l with
  | nil => rfl
  | cons x xs ih =>
    have ih := ih fun j hj => hv j (List.mem_cons_of_mem _ hj)
    by_cases h : x.id = id
    · rw [List.filterMap_cons_none (by simp [h]), ih, List.map_cons, List.sum_cons,
        hv x List.mem_cons_self h, zero_add]
    · rw [List.filterMap_cons_some (b := x) (by simp [h]), List.map_cons, List.map_cons,
        List.sum_cons, List.sum_cons, ih]

end Edit

theorem sum_map_ids {l l' : List (Job σ)} (h : l'.map (·.id) = l.map (·.id)) (v : Nat → ℤ) :
    (l'.map fun j => v j.id).sum = (l.map fun j => v j.id).sum := by
  have h₁ : (l'.map fun j => v j.id) = (l'.map (·.id)).map v := by rw [List.map_map]; rfl
  have h₂ : (l.map fun j => v j.id) = (l.map (·.id)).map v := by rw [List.map_map]; rfl
  rw [h₁, h₂, h]

theorem sum_map_update {ids : List Nat} (hnd : ids.Nodup) {id : Nat} (hid : id ∈ ids)
    (v : Nat → ℤ) (e : ℤ) :
    (ids.map (Function.update v id e)).sum = (ids.map v).sum - v id + e := by
  induction ids with
  | nil => cases hid
  | cons x xs ih =>
    rw [List.nodup_cons] at hnd
    rcases List.mem_cons.mp hid with rfl | hid
    · have hrest : xs.map (Function.update v id e) = xs.map v :=
        List.map_congr_left fun y hy => Function.update_of_ne (by rintro rfl; exact hnd.1 hy) _ _
      simp only [List.map_cons, List.sum_cons, Function.update_self, hrest]
      ring
    · have hne : x ≠ id := by rintro rfl; exact hnd.1 hid
      simp only [List.map_cons, List.sum_cons, Function.update_of_ne hne, ih hnd.2 hid]
      ring

theorem sum_map_jobs (l : List (Job σ)) (v : Nat → ℤ) :
    (l.map fun j => v j.id) = (l.map (·.id)).map v := by
  rw [List.map_map]
  rfl

/-! ### A job's run -/

variable {m : σ → ℤ} {Ln : Prop}

namespace Books

variable {s : Sched σ} {held : ℤ} {Oc : List Nat} {u : Nat → ℤ} {lic : Nat → Licence}
  {id : Nat} {rest : List Nat}

theorem start_job (h : Books m Ln 0 s held Oc u lic) (hq : s.queue = id :: rest) {j : Job σ}
    (hj : j ∈ s.jobs) (hjid : j.id = id) :
    Books m Ln id { s with queue := rest, jobs := s.jobs.filterMap fun x =>
        if (x.id == id) = true then some { x with interest := .idle } else some x }
      (u id + held) (Oc ++ []) (Function.update u id 0) lic := by
  have hids := ids_edit id (fun x => some { x with interest := .idle })
    (fun x _ => ⟨_, rfl, rfl⟩) s.jobs
  have hin : id ∈ s.jobs.map (·.id) := List.mem_map.mpr ⟨j, hj, hjid⟩
  have hold : ∀ y ∈ s.jobs.filterMap (fun x =>
      if (x.id == id) = true then some { x with interest := .idle } else some x),
      y.id ≠ id → y ∈ s.jobs := by
    intro y hy hne
    rcases mem_edit id _ hy with ⟨x, -, hx, hxy⟩ | ⟨hy', -⟩
    · cases hxy
      exact (hne hx).elim
    · exact hy'
  have hnq : ∀ y ∈ s.jobs, y.id ≠ id → y.id ∉ rest → y.id ∉ s.queue := by
    intro y _ hne hr hq'
    rw [hq] at hq'
    rcases List.mem_cons.mp hq' with h' | h'
    · exact hne h'
    · exact hr h'
  refine ⟨?_, fun y _ hy => by rw [hy]; exact Function.update_self .., fun y hy hne => ?_,
    fun y hy hne hr => ?_, hids ▸ h.ids, fun y hy => ?_, hjid ▸ (h.numbered j hj).2,
    fun t ht => h.owed t (by simpa using ht), .inr (hids ▸ hin)⟩
  · rw [sum_map_ids hids, sum_map_jobs, sum_map_update h.ids hin, ← sum_map_jobs]
    change m s.world = _
    rw [h.measure]
    ring
  · have hy' := hold y hy hne
    rw [Function.update_of_ne hne]
    obtain ⟨h₁, h₂, h₃, h₄⟩ := h.jobs y hy' (Nat.ne_of_gt (h.numbered y hy').1)
    exact ⟨h₁, h₂, h₃, h₄.mono (fun _ ht => ht) fun t ht => .inl (by simpa using ht)⟩
  · have hy' := hold y hy hne
    exact h.waiting y hy' (Nat.ne_of_gt (h.numbered y hy').1) (hnq y hy' hne hr)
  · rcases mem_edit id _ hy with ⟨x, hx, -, hxy⟩ | ⟨hy', -⟩
    · cases hxy
      exact h.numbered x hx
    · exact h.numbered y hy'

end Books

theorem runJob_books {s : Sched σ} {held : ℤ} {Oc : List Nat} {u : Nat → ℤ}
    {lic : Nat → Licence} {id : Nat} {rest : List Nat} (h : Books m Ln 0 s held Oc u lic)
    (hq : s.queue = id :: rest) (hheld : 0 ≤ held) :
    (∀ t, s.isCancelled t = true → ({ s with queue := rest }.runJob id).isCancelled t = true) ∧
    ∃ u' lic', Books m Ln 0 ({ s with queue := rest }.runJob id) held Oc u' lic' := by
  unfold runJob
  split
  · -- no job has that number: only the queue changes
    next hnone =>
    refine ⟨fun t ht => ht, u, lic,
      { h with waiting := fun j hj h0 hq' => h.waiting j hj h0 fun hq'' => ?_ }⟩
    rw [hq] at hq''
    rcases List.mem_cons.mp hq'' with h' | h'
    · have := List.find?_eq_none.mp hnone j hj
      simp [h'] at this
    · exact hq' h'
  · next j hj =>
    dsimp only
    have hjmem : j ∈ s.jobs := List.mem_of_find?_eq_some hj
    have hjid : j.id = id := by simpa using List.find?_some hj
    obtain ⟨hu, hown, hH, hF⟩ := h.jobs j hjmem (Nat.ne_of_gt (h.numbered j hjmem).1)
    rw [hjid] at hu hown hH hF
    have hB₁ := h.start_job hq hjmem hjid
    have hp := (Prog.poll_drop_books j.prog).1 hH hu hheld hB₁
      (hF.mono (fun _ ht => ht) fun t ht => .inl (by simpa using ht))
    rcases hpoll : j.prog.poll _ with ⟨s₂, x | p⟩ <;> rw [hpoll] at hp <;>
      obtain ⟨htr, e, O', u₂, lic₂, he, hB₂, hF₂, hO', hres⟩ := hp <;>
      obtain rfl : O' = [] := List.subset_nil.mp (hO' (.inl hown)) <;>
      refine ⟨fun t ht => htr.2.1 t ht, ?_⟩
    · -- the job ended holding nothing: it leaves the list
      obtain ⟨rfl, -⟩ := hres
      dsimp only at hB₂ ⊢
      refine ⟨u₂, lic₂, ?_, fun y hy hy0 => ?_, fun y hy hy0 => ?_, fun y hy hy0 hq' => ?_,
        (ids_remove_sublist id s₂.jobs).nodup hB₂.ids,
        fun y hy => hB₂.numbered y (mem_remove id hy).1,
        Nat.lt_of_le_of_lt (Nat.zero_le _) hB₂.running, fun t ht => hB₂.owed t (by simpa using ht),
        .inl rfl⟩
      · rw [sum_remove id hB₂.idle]
        rw [hB₂.measure]
        ring
      · exact absurd hy0 (Nat.ne_of_gt (hB₂.numbered y (mem_remove id hy).1).1)
      · obtain ⟨hy', hne⟩ := mem_remove id hy
        obtain ⟨h₁, h₂, h₃, h₄⟩ := hB₂.jobs y hy' hne
        exact ⟨h₁, h₂, h₃, h₄.mono (fun _ ht => ht) fun t ht => .inl (by simpa using ht)⟩
      · obtain ⟨hy', hne⟩ := mem_remove id hy
        exact hB₂.waiting y hy' hne hq'
    · -- the job waits: its remainder takes its place, with what it holds
      obtain ⟨hHp, hbl, hraces⟩ := hres
      dsimp only at hB₂ hF₂ hraces ⊢
      have hid0 : 0 < id := hjid ▸ (h.numbered j hjmem).1
      have hin : id ∈ s₂.jobs.map (·.id) := hB₂.present.resolve_left (Nat.ne_of_gt hid0)
      have hids := ids_edit id (fun _ => some ⟨id, p, p.interest⟩)
        (fun x hx => ⟨_, rfl, hx.symm⟩) s₂.jobs
      have hnew : ∀ y ∈ s₂.jobs.filterMap (fun x => if (x.id == id) = true then
          Option.some ⟨id, p, p.interest⟩ else Option.some x),
          y = ⟨id, p, p.interest⟩ ∨ (y ∈ s₂.jobs ∧ y.id ≠ id) := by
        intro y hy
        rcases mem_edit id _ hy with ⟨_, -, -, hxy⟩ | h'
        · cases hxy
          exact .inl rfl
        · exact .inr h'
      have hfits : (lic id).Fits Ln { s₂ with jobs := s₂.jobs.filterMap fun x =>
          if (x.id == id) = true then Option.some ⟨id, p, p.interest⟩ else Option.some x } Oc :=
        hF₂.mono (fun _ ht => ht) fun t ht => .inl (by simpa using ht)
      refine ⟨Function.update u₂ id e, Function.update lic₂ id (lic id), ?_, fun y hy hy0 => ?_,
        fun y hy hy0 => ?_, fun y hy hy0 hq' => ?_, hids ▸ hB₂.ids, fun y hy => ?_,
        Nat.lt_of_le_of_lt (Nat.zero_le _) hB₂.running, fun t ht => hB₂.owed t (by simpa using ht),
        .inl rfl⟩
      · obtain ⟨x, hx, hxid⟩ := List.mem_map.mp hin
        rw [sum_map_ids hids, sum_map_jobs, sum_map_update hB₂.ids hin, ← sum_map_jobs,
          ← hxid, hB₂.idle x hx hxid]
        change m s₂.world = _
        rw [hB₂.measure]
        ring
      · rcases hnew y hy with rfl | ⟨hy', -⟩
        · exact absurd hy0 (Nat.ne_of_gt hid0)
        · exact absurd hy0 (Nat.ne_of_gt (hB₂.numbered y hy').1)
      · rcases hnew y hy with rfl | ⟨hy', hne⟩
        · simp only [Function.update_self]
          exact ⟨he, hown, hHp, hfits⟩
        · rw [Function.update_of_ne hne, Function.update_of_ne hne]
          obtain ⟨h₁, h₂, h₃, h₄⟩ := hB₂.jobs y hy' hne
          exact ⟨h₁, h₂, h₃, h₄.mono (fun _ ht => ht) fun t ht => .inl (by simpa using ht)⟩
      · rcases hnew y hy with rfl | ⟨hy', hne⟩
        · refine ⟨hbl, rfl, fun x hx hl => ?_⟩
          rw [Function.update_self] at hl
          exact hraces x hx hl
        · rw [Function.update_of_ne hne]
          exact hB₂.waiting y hy' hne hq'
      · rcases hnew y hy with rfl | ⟨hy', -⟩
        · exact ⟨hid0, hB₂.running⟩
        · exact hB₂.numbered y hy'

/-! ### The main program's resumption, the clock, and the rounds of a run -/

section Rounds

variable {α : Type} {Lm : Licence} {Qm : ℤ → List Nat → α → Prop}

theorem runMain_books {s : Sched σ} {main : Prog σ α} {um : ℤ} {Om : List Nat} {u : Nat → ℤ}
    {lic : Nat → Licence} (hH : Holds m Lm none 0 Qm um Om main) (hum : 0 ≤ um)
    (h : Books m (Lm.holds none) 0 s um Om u lic) (hF : Lm.Fits (Lm.holds none) s Om) :
    ∃ e O' u' lic', 0 ≤ e ∧ Books m (Lm.holds none) 0 (s.runMain main).1 e O' u' lic' ∧
      Lm.Fits (Lm.holds none) (s.runMain main).1 O' ∧
      match (s.runMain main).2 with
      | .done a => Qm e O' a
      | .blocked p => Holds m Lm none 0 Qm e O' p := by
  unfold runMain
  have hB₀ : Books m (Lm.holds none) 0 { s with mainWoken := false, mainInterest := .idle }
      (um + 0) ([] ++ Om) u lic :=
    (h.shift { s with mainWoken := false, mainInterest := .idle } rfl rfl rfl
      (List.Subset.refl _)).congr (by simp) (List.nil_append _).symm
  have hp := (Prog.poll_drop_books main).1 hH hum le_rfl hB₀
    ((hF.of_tokens rfl).mono (fun _ ht => ht) fun t ht => .inl (by simpa using ht))
  rcases hq : main.poll _ with ⟨s₂, a | p⟩ <;> rw [hq] at hp <;>
    obtain ⟨-, e, O', u', lic', he, hB', hF', -, hres⟩ := hp <;> dsimp only at hB' hF' hres ⊢
  · exact ⟨e, O', u', lic', he, hB'.congr (by ring) (List.nil_append _), by simpa using hF', hres⟩
  · -- the main program waits: what it waits for is recorded
    refine ⟨e, O', u', lic', he, ?_, (by simpa using hF' : Lm.Fits _ s₂ O').of_tokens rfl, hres.1⟩
    exact (hB'.shift { s₂ with mainInterest := p.interest } rfl rfl rfl
      (List.Subset.refl _)).congr (by ring) (List.nil_append _)

/-- The books between two rounds of a run, with the main program's remainder `main`. -/
def Balanced (m : σ → ℤ) (Lm : Licence) (Qm : ℤ → List Nat → α → Prop) (main : Prog σ α)
    (s : Sched σ) : Prop :=
  ∃ um Om u lic, 0 ≤ um ∧ Holds m Lm none 0 Qm um Om main ∧
    Books m (Lm.holds none) 0 s um Om u lic ∧ Lm.Fits (Lm.holds none) s Om

theorem Balanced.runJob {main : Prog σ α} {s : Sched σ} {id : Nat} {rest : List Nat}
    (h : Balanced m Lm Qm main s) (hq : s.queue = id :: rest) :
    Balanced m Lm Qm main ({ s with queue := rest }.runJob id) := by
  obtain ⟨um, Om, u, lic, hum, hH, hB, hF⟩ := h
  obtain ⟨hmono, u', lic', hB'⟩ := runJob_books hB hq hum
  exact ⟨um, Om, u', lic', hum, hH, hB', hF.mono hmono fun t ht => .inl ht⟩

theorem Balanced.grows {main : Prog σ α} {s s' : Sched σ} (h : Balanced m Lm Qm main s)
    (hg : Grows s s') : Balanced m Lm Qm main s' := by
  obtain ⟨um, Om, u, lic, hum, hH, hB, hF⟩ := h
  exact ⟨um, Om, u, lic, hum, hH, hB.grows hg, hF.of_tokens hg.tokens⟩

theorem drive_books (H fuel : Nat) :
    ∀ (main : Prog σ α) (s : Sched σ) (ph : Phase) (a : α) (s' : Sched σ),
      Balanced m Lm Qm main s → drive H fuel main s ph = some (a, s') →
      ∃ e O u lic, Qm e O a ∧ 0 ≤ e ∧ Books m (Lm.holds none) 0 s' e O u lic := by
  induction fuel with
  | zero =>
    intro main s ph a s' _ h
    rw [drive] at h
    cases h
  | succ fuel ih =>
    intro main s ph a s' hb h
    cases ph with
    | resume =>
      rw [drive] at h
      split at h
      · obtain ⟨um, Om, u, lic, hum, hH, hB, hF⟩ := hb
        have hr := runMain_books hH hum hB hF
        rcases hq : s.runMain main with ⟨s₂, b | p⟩ <;> rw [hq] at h hr <;>
          obtain ⟨e, O', u', lic', he, hB', hF', hres⟩ := hr
        · cases h
          exact ⟨e, O', u', lic', hres, he, hB'⟩
        · exact ih p s₂ _ a s' ⟨e, O', u', lic', he, hres, hB', hF'⟩ h
      · exact ih main s _ a s' hb h
    | batch n =>
      cases n with
      | zero =>
        rw [drive] at h
        exact ih main s _ a s' hb h
      | succ n =>
        rw [drive] at h
        split at h
        · -- a queued job runs
          next id rest hq =>
          exact ih main _ _ a s' (hb.runJob hq) h
        · split at h
          · exact ih main s _ a s' hb h
          · -- nothing is ready: the clock moves to the next deadline
            split at h
            · next s₁ hs₁ => exact ih main s₁ _ a s' (hb.grows (grows_advance hs₁)) h
            · cases h

end Rounds

theorem settle_books {Ln : Prop} (fuel : Nat) :
    ∀ {s : Sched σ} {held : ℤ} {Oc : List Nat} {u : Nat → ℤ} {lic : Nat → Licence},
      0 ≤ held → Books m Ln 0 s held Oc u lic →
      ∃ u' lic', Books m Ln 0 (settle fuel s) held Oc u' lic' := by
  induction fuel with
  | zero => exact fun _ h => ⟨_, _, h⟩
  | succ fuel ih =>
    intro s held Oc u lic hheld h
    rw [settle]
    split
    · exact ⟨u, lic, h⟩
    · next id rest hq =>
      obtain ⟨-, u', lic', h'⟩ := runJob_books h hq hheld
      exact ih hheld h'

theorem start_books {w : σ} (h0 : m w = 0) (Ln : Prop) :
    Books m Ln 0 (start w) 0 [] (fun _ => 0) (fun _ => Licence.empty) :=
  ⟨by rw [show (start w).world = w from rfl, h0]; rfl, (fun _ hj => by cases hj),
    (fun _ hj => by cases hj), (fun _ hj => by cases hj), List.nodup_nil,
    (fun _ hj => by cases hj), Nat.zero_lt_one, (fun _ ht => by cases ht), .inl rfl⟩

/-- A run of a main program that holds its units as `Holds` says, from a world at measure zero,
ends with a value the main program ends with, and with the books kept. -/
theorem run_books {α : Type} {Lm : Licence} {Qm : ℤ → List Nat → α → Prop} {H : Nat}
    {main : Prog σ α} {w : σ} {a : α} {s : Sched σ} (hK : ∀ t, ¬ Lm.holds (some t)) (h0 : m w = 0)
    (hm : Holds m Lm none 0 Qm 0 [] main) (h : run H main w = some (a, s)) :
    ∃ e O u lic, Qm e O a ∧ Books m (Lm.holds none) 0 s e O u lic := by
  obtain ⟨s₀, hd, rfl⟩ := run_eq_some_iff.mp h
  have hb : Balanced m Lm Qm main (start w) :=
    ⟨0, [], _, _, le_rfl, hm, start_books h0 _, fun h => h, fun t ht => (hK t ht).elim⟩
  obtain ⟨e, O, u, lic, hq, he, hB⟩ := drive_books H (runFuel H) main (start w) .resume a s₀ hb hd
  obtain ⟨u', lic', hB'⟩ := settle_books (runFuel H) he hB
  exact ⟨e, O, u', lic', hq, hB'⟩

/-- With no job queued, no job holds anything: a job holding units would wait in a race on a token
that it may hold under only while the token is cancelled or owed, and once owed tokens are all
cancelled such a race has been woken. -/
theorem Books.measure_eq_zero {Ln : Prop} {s : Sched σ} {u : Nat → ℤ} {lic : Nat → Licence}
    (h : Books m Ln 0 s 0 [] u lic) (hq : s.queue = []) (hLn : ¬ Ln) : m s.world = 0 := by
  have hzero : ∀ j ∈ s.jobs, u j.id = 0 := by
    intro j hj
    have h0 : j.id ≠ 0 := Nat.ne_of_gt (h.numbered j hj).1
    obtain ⟨-, -, hH, hF⟩ := h.jobs j hj h0
    obtain ⟨hbl, hint, hraces⟩ := h.waiting j hj h0 (by rw [hq]; exact List.not_mem_nil)
    by_contra hne
    rcases Holds.licensed_of_blocked hH hbl hne with hl | ⟨x, hx, hl⟩
    · exact hLn (hF.1 hl)
    · -- the race's token is owed by no one, so it is cancelled; yet the job was not woken
      rcases hF.2 x.1 hl with hc | hc
      · rw [hraces x (hint ▸ hx) hl] at hc
        cases hc
      · cases hc
  rw [h.measure, List.sum_eq_zero fun x hx => ?_, zero_add]
  obtain ⟨j, hj, rfl⟩ := List.mem_map.mp hx
  exact hzero j hj

theorem run_measure_eq_zero {α : Type} {H : Nat} {main : Prog σ α} {w : σ} {a : α}
    {s : Sched σ} (h0 : m w = 0) (hm : Holds m Licence.main none 0 Finished 0 [] main)
    (h : run H main w = some (a, s)) (hq : s.queue = []) : m s.world = 0 := by
  obtain ⟨e, O, u, lic, ⟨rfl, rfl⟩, hB⟩ := run_books (fun _ h => h) h0 hm h
  exact hB.measure_eq_zero hq id

end Sched

end ChainTx.Runtime
