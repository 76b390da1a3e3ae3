import ChainTx.Proofs.LegacyCompile
import ChainTx.Transaction.Legacy
/-!
# The two account-table compilers agree

A transaction compiles its message on its own path: it merges the accounts of its instructions in
first-seen order (each program a read-only non-signer), makes every key with a signature slot a
signer, sorts signers first, then writable accounts, then by base58 text, and moves the fee payer to
the front. `LegacyMessage.compile` instead orders the key table with the payer first and splits it
into runs. Both orders are the same strict order on distinct keys, so both give the same keys, the
same header and the same errors, whenever the slots name only keys that already sign.
-/

namespace ChainTx

namespace Transaction

open KeyTable

/-- Accounts that list each key once, exactly the keys `named` holds, each with the signer and
writable roles `roles` gives it; a key that is not named has neither role. -/
structure MetasHold (metas : List AccountMeta) (named : Address → Bool) (roles : Address → KeyMeta) :
    Prop where
  nodup : (metas.map (·.pubkey)).Nodup
  mem_iff : ∀ k, k ∈ metas.map (·.pubkey) ↔ named k = true
  flags : ∀ m ∈ metas, m.isSigner = (roles m.pubkey).isSigner ∧ m.isWritable = (roles m.pubkey).isWritable
  unnamed : ∀ k, named k = false → (roles k).isSigner = false ∧ (roles k).isWritable = false

section Merge

variable {metas : List AccountMeta} {named : Address → Bool} {roles : Address → KeyMeta}

theorem MetasHold.congr {named' : Address → Bool} {roles' : Address → KeyMeta}
    (h : MetasHold metas named roles) (hn : ∀ k, named k = named' k)
    (hs : ∀ k, (roles k).isSigner = (roles' k).isSigner)
    (hw : ∀ k, (roles k).isWritable = (roles' k).isWritable) : MetasHold metas named' roles' where
  nodup := h.nodup
  mem_iff k := (h.mem_iff k).trans (by rw [hn])
  flags m hm := by rw [← hs, ← hw]; exact h.flags m hm
  unnamed k hk := by rw [← hs, ← hw]; exact h.unnamed k (by rw [hn]; exact hk)

theorem MetasHold.mergeMeta (h : MetasHold metas named roles) (a : AccountMeta) :
    MetasHold (Transaction.mergeMeta metas a) (fun k => named k || a.pubkey == k)
      (fun k => (roles k).join ⟨a.pubkey == k && a.isSigner, a.pubkey == k && a.isWritable, false⟩) := by
  by_cases ha : metas.any (·.pubkey == a.pubkey) = true
  · have hnamed : named a.pubkey = true := (h.mem_iff _).mp (by simpa using ha)
    have hkeys : (metas.map fun x => if x.pubkey = a.pubkey then
        { x with isSigner := x.isSigner || a.isSigner, isWritable := x.isWritable || a.isWritable }
          else x).map (·.pubkey) = metas.map (·.pubkey) := by
      rw [List.map_map]; exact List.map_congr_left fun x _ => by by_cases hx : x.pubkey = a.pubkey <;> simp [hx]
    refine ⟨?_, fun k => ?_, fun m hm => ?_, fun k hk => ?_⟩
    · rw [Transaction.mergeMeta, if_pos ha, hkeys]; exact h.nodup
    · rw [Transaction.mergeMeta, if_pos ha, hkeys, h.mem_iff]
      by_cases hk : a.pubkey = k
      · subst hk; simp [hnamed]
      · simp [hk]
    · rw [Transaction.mergeMeta, if_pos ha, List.mem_map] at hm
      obtain ⟨x, hx, rfl⟩ := hm
      have hf := h.flags x hx
      by_cases hxa : x.pubkey = a.pubkey
      · simp [hxa, hf.1, hf.2]
      · simp [hxa, Ne.symm hxa, hf.1, hf.2]
    · have hk' := Bool.or_eq_false_iff.mp hk
      have hne : a.pubkey ≠ k := by simpa using hk'.2
      simp [h.unnamed k hk'.1, hne]
  · have hnamed : named a.pubkey = false := by
      rw [← Bool.not_eq_true, ← h.mem_iff]; simpa using ha
    have hu := h.unnamed _ hnamed
    refine ⟨?_, fun k => ?_, fun m hm => ?_, fun k hk => ?_⟩
    · simp only [Transaction.mergeMeta, ha, Bool.false_eq_true, if_false, List.map_append,
        List.map_cons, List.map_nil]
      exact List.nodup_append.mpr ⟨h.nodup, by simp, fun x hx y hy hxy => by
        simp only [List.mem_singleton] at hy
        exact absurd ((h.mem_iff x).mp hx) (by rw [hxy, hy, hnamed]; simp)⟩
    · simp only [Transaction.mergeMeta, ha, Bool.false_eq_true, if_false, List.map_append,
        List.mem_append, List.map_cons, List.map_nil, List.mem_singleton, h.mem_iff]
      by_cases hk : a.pubkey = k
      · subst hk; simp
      · simp [hk, Ne.symm hk]
    · simp only [Transaction.mergeMeta, ha, Bool.false_eq_true, if_false, List.mem_append,
        List.mem_singleton] at hm
      rcases hm with hm | rfl
      · have hf := h.flags m hm
        have hne : a.pubkey ≠ m.pubkey := fun he =>
          absurd ((h.mem_iff _).mp (List.mem_map_of_mem hm)) (by rw [← he, hnamed]; simp)
        simp [hf.1, hf.2, hne]
      · simp [hu.1, hu.2]
    · have hk' := Bool.or_eq_false_iff.mp hk
      have hne : a.pubkey ≠ k := by simpa using hk'.2
      simp [h.unnamed k hk'.1, hne]

theorem MetasHold.accounts (h : MetasHold metas named roles) (accs : List AccountMeta) :
    MetasHold (accs.foldl Transaction.mergeMeta metas) (fun k => named k || accs.any (·.pubkey == k))
      (fun k => (roles k).join ⟨accs.any (fun a => a.pubkey == k && a.isSigner),
        accs.any (fun a => a.pubkey == k && a.isWritable), false⟩) := by
  induction accs generalizing metas named roles with
  | nil => exact h.congr (by simp) (by simp) (by simp)
  | cons a accs ih =>
    rw [List.foldl_cons]
    exact (ih (h.mergeMeta a)).congr (by simp [Bool.or_assoc]) (by simp [Bool.or_assoc])
      (by simp [Bool.or_assoc])

theorem MetasHold.instructions (h : MetasHold metas named roles) (ixs : List Instruction) :
    MetasHold (ixs.foldl (fun metas ix =>
        Transaction.mergeMeta (ix.accounts.foldl Transaction.mergeMeta metas) ⟨ix.programId, false, false⟩)
        metas)
      (fun k => named k || namedIn ixs k) (fun k => (roles k).join (rolesIn ixs k)) := by
  induction ixs generalizing metas named roles with
  | nil => exact h.congr (by simp [namedIn]) (by simp [rolesIn]) (by simp [rolesIn])
  | cons ix ixs ih =>
    rw [List.foldl_cons]
    refine (ih ((h.accounts ix.accounts).mergeMeta _)).congr (fun k => ?_) (fun k => ?_) (fun k => ?_)
    · simp only [namedIn, List.any_cons]
      by_cases hk : ix.programId = k <;> simp [hk, Bool.or_assoc, Bool.or_comm, Bool.or_left_comm]
    · simp [rolesIn, Bool.or_assoc]
    · simp [rolesIn, Bool.or_assoc]

theorem metasHold_mergedMetas (p : Address) (ixs : List Instruction) :
    MetasHold (mergedMetas p ixs) (mentioned p ixs) (mergedRoles p ixs) := by
  have h0 : MetasHold [⟨p, true, true⟩] (fun k => p == k)
      (fun k => if k = p then ⟨true, true, false⟩ else KeyMeta.none) := by
    refine ⟨by simp, fun k => ?_, fun m hm => ?_, fun k hk => ?_⟩
    · simp only [List.map_cons, List.map_nil, List.mem_singleton, beq_iff_eq]
      exact eq_comm
    · simp only [List.mem_singleton] at hm; subst hm; simp
    · have hne : k ≠ p := fun he => by simp [he] at hk
      simp [hne]
  refine (h0.instructions ixs).congr (fun k => ?_) (fun k => ?_) (fun k => ?_)
  · simp [mentioned, BEq.comm]
  · by_cases hk : k = p
    · subst hk; simp [mergedRoles]
    · simp [mergedRoles, hk]
  · by_cases hk : k = p
    · subst hk; simp [mergedRoles]
    · simp [mergedRoles, hk]

theorem promoteSigners_of_signers (h : MetasHold metas named roles) (slots : List SignerSlot)
    (hs : ∀ s ∈ slots, (roles s.pubkey).isSigner = true) : promoteSigners metas slots = .ok metas := by
  induction slots with
  | nil => rfl
  | cons s slots ih =>
    have hsig := hs s (by simp)
    have hnamed : named s.pubkey = true := by
      by_contra hn
      have := (h.unnamed _ (by simpa using hn)).1
      rw [hsig] at this; cases this
    have hmem : metas.any (·.pubkey == s.pubkey) = true := by
      simpa using (h.mem_iff _).mpr hnamed
    have hsame : (metas.map fun x => if x.pubkey = s.pubkey then { x with isSigner := true } else x) =
        metas := by
      conv_rhs => rw [← List.map_id metas]
      refine List.map_congr_left fun x hx => ?_
      by_cases hxs : x.pubkey = s.pubkey
      · have hx' : x.isSigner = true := by rw [(h.flags x hx).1, hxs, hsig]
        simp only [hxs, if_true, id]
        cases x; simp_all
      · simp [hxs]
    rw [promoteSigners, if_pos hmem, hsame]
    exact ih fun s' hs' => hs s' (by simp [hs'])

end Merge

theorem map_pubkey_dropKey (ms : List AccountMeta) (k : Address) :
    (dropKey ms k).map (·.pubkey) = (ms.map (·.pubkey)).erase k := by
  induction ms with
  | nil => rfl
  | cons m ms ih =>
    by_cases hm : m.pubkey = k
    · simp [dropKey, hm]
    · simp [dropKey, hm, ih, beq_eq_false_iff_ne.mpr hm]

theorem dropKey_sublist (ms : List AccountMeta) (k : Address) : (dropKey ms k).Sublist ms := by
  induction ms with
  | nil => exact List.Sublist.slnil
  | cons m ms ih =>
    by_cases hm : m.pubkey = k
    · simp only [dropKey, hm, if_true]; exact List.sublist_cons_self m ms
    · simp only [dropKey, hm, if_false]; exact ih.cons_cons m

section Order

/-- The run a signer and a writable role put a key in: writable signers, readonly signers, writable
non-signers, readonly non-signers. -/
def runRank (s w : Bool) : Nat := (if s then 0 else 2) + (if w then 0 else 1)

/-- The order of an account table after the fee payer: by run, then by base58 text. -/
def TableBefore (roles : Address → KeyMeta) (a b : Address) : Prop :=
  runRank (roles a).isSigner (roles a).isWritable < runRank (roles b).isSigner (roles b).isWritable ∨
    runRank (roles a).isSigner (roles a).isWritable = runRank (roles b).isSigner (roles b).isWritable ∧
      a.toBase58 < b.toBase58

theorem TableBefore.asymm {roles : Address → KeyMeta} {a b : Address} (hab : TableBefore roles a b)
    (hba : TableBefore roles b a) : False := by
  rcases hab with h | ⟨h, ht⟩ <;> rcases hba with h' | ⟨h', ht'⟩
  · omega
  · omega
  · omega
  · exact lt_asymm ht ht'

/-- The comparator of the transaction path puts an account no later than another exactly when its
run comes first, or the runs are equal and its text is no greater. -/
theorem metaOrder_ne_gt_iff (a b : AccountMeta) :
    metaOrder a b ≠ .gt ↔ runRank a.isSigner a.isWritable < runRank b.isSigner b.isWritable ∨
      runRank a.isSigner a.isWritable = runRank b.isSigner b.isWritable ∧
        a.pubkey.toBase58 ≤ b.pubkey.toBase58 := by
  have ht : Address.compareText a.pubkey b.pubkey ≠ .gt ↔ a.pubkey.toBase58 ≤ b.pubkey.toBase58 := by
    rw [Ne, Address.compareText_eq_gt_iff, not_lt]
  cases ha : a.isSigner <;> cases hb : b.isSigner <;> cases hwa : a.isWritable <;>
    cases hwb : b.isWritable <;> simp [metaOrder, runRank, ha, hb, hwa, hwb, ht, compare]

private theorem metaOrder_le_trans (a b c : AccountMeta) (hab : (metaOrder a b != .gt) = true)
    (hbc : (metaOrder b c != .gt) = true) : (metaOrder a c != .gt) = true := by
  simp only [bne_iff_ne, metaOrder_ne_gt_iff] at hab hbc ⊢
  rcases hab with h | ⟨h, ht⟩ <;> rcases hbc with h' | ⟨h', ht'⟩
  · exact .inl (by omega)
  · exact .inl (by omega)
  · exact .inl (by omega)
  · exact .inr ⟨by omega, le_trans ht ht'⟩

private theorem metaOrder_le_total (a b : AccountMeta) :
    ((metaOrder a b != .gt) || (metaOrder b a != .gt)) = true := by
  simp only [Bool.or_eq_true, bne_iff_ne, metaOrder_ne_gt_iff]
  rcases lt_trichotomy (runRank a.isSigner a.isWritable) (runRank b.isSigner b.isWritable) with
    h | h | h
  · exact .inl (.inl h)
  · rcases le_total a.pubkey.toBase58 b.pubkey.toBase58 with ht | ht
    · exact .inl (.inr ⟨h, ht⟩)
    · exact .inr (.inr ⟨h.symm, ht⟩)
  · exact .inr (.inl h)

theorem mergeSort_metaOrder_eq {metas sorted : List AccountMeta}
    (hnd : (metas.map (·.pubkey)).Nodup) (hperm : sorted.Perm metas)
    (hs : sorted.Pairwise fun a b => metaOrder a b != .gt) :
    metas.mergeSort (fun a b => metaOrder a b != .gt) = sorted := by
  have hms := List.mergeSort_perm metas fun a b => metaOrder a b != .gt
  refine (hms.trans hperm.symm).eq_of_pairwise (fun a b ha hb hab hba => ?_)
    (List.pairwise_mergeSort metaOrder_le_trans metaOrder_le_total metas) hs
  -- ordered both ways, two accounts share their run and their text, hence their key
  have htext : a.pubkey.toBase58 = b.pubkey.toBase58 := by
    simp only [bne_iff_ne, metaOrder_ne_gt_iff] at hab hba
    rcases hab with h | ⟨h, ht⟩ <;> rcases hba with h' | ⟨h', ht'⟩
    · omega
    · omega
    · omega
    · exact le_antisymm ht ht'
  exact List.inj_on_of_nodup_map hnd (hms.mem_iff.mp ha) (hperm.mem_iff.mp hb)
    (Address.toBase58_inj.mp htext)

variable {named : Address → Bool} {roles : Address → KeyMeta}

theorem MetasHold.pairwise_sorted {metas : List AccountMeta} (h : MetasHold metas named roles)
    (p : Address) :
    ((dropKey (metas.mergeSort fun a b => metaOrder a b != .gt) p).map (·.pubkey)).Pairwise
      (TableBefore roles) := by
  have hperm := List.mergeSort_perm metas fun a b => metaOrder a b != .gt
  have hnd : ((metas.mergeSort fun a b => metaOrder a b != .gt).map (·.pubkey)).Pairwise (· ≠ ·) :=
    (hperm.map _).nodup_iff.mpr h.nodup
  have hle := List.pairwise_mergeSort metaOrder_le_trans metaOrder_le_total metas
  refine List.pairwise_map.mpr (((List.pairwise_map.mp hnd).and hle).sublist
    (dropKey_sublist _ p) |>.imp_of_mem fun {a b} ha hb ⟨hne, hab⟩ => ?_)
  have hfa := h.flags a (hperm.mem_iff.mp ((dropKey_sublist _ p).subset ha))
  have hfb := h.flags b (hperm.mem_iff.mp ((dropKey_sublist _ p).subset hb))
  simp only [bne_iff_ne, metaOrder_ne_gt_iff, hfa.1, hfa.2, hfb.1, hfb.2] at hab
  rcases hab with h | ⟨h, ht⟩
  · exact .inl h
  · exact .inr ⟨h, lt_of_le_of_ne ht (mt Address.toBase58_inj.mp hne)⟩

theorem TableBefore.irrefl {roles : Address → KeyMeta} {a : Address} : ¬ TableBefore roles a a :=
  fun h => h.asymm h

theorem tableBefore_runs {p : Address} {rest : List (Address × KeyMeta)}
    (hr : SortedRest p named roles rest) :
    ((rolesRun true true rest ++ rolesRun true false rest ++ rolesRun false true rest ++
      rolesRun false false rest).map Prod.fst).Pairwise (TableBefore roles) := by
  have hin : ∀ s w, ((rolesRun s w rest).map Prod.fst).Pairwise (TableBefore roles) := fun s w =>
    (hr.sorted_run s w).imp_of_mem fun ha hb ht => .inr ⟨by
      rw [(hr.roles_of_mem_run ha).1, (hr.roles_of_mem_run ha).2, (hr.roles_of_mem_run hb).1,
        (hr.roles_of_mem_run hb).2], ht⟩
  have hacross : ∀ {s w s' w' : Bool}, runRank s w < runRank s' w' →
      ∀ a ∈ (rolesRun s w rest).map Prod.fst, ∀ b ∈ (rolesRun s' w' rest).map Prod.fst,
        TableBefore roles a b := by
    intro s w s' w' hlt a ha b hb
    left
    rw [(hr.roles_of_mem_run ha).1, (hr.roles_of_mem_run ha).2, (hr.roles_of_mem_run hb).1,
      (hr.roles_of_mem_run hb).2]
    exact hlt
  simp only [List.map_append, List.pairwise_append, List.mem_append]
  refine ⟨⟨⟨hin _ _, hin _ _, hacross (by decide)⟩, hin _ _, ?_⟩, hin _ _, ?_⟩
  · rintro a (ha | ha) b hb
    · exact hacross (by decide) a ha b hb
    · exact hacross (by decide) a ha b hb
  · rintro a ((ha | ha) | ha) b hb
    · exact hacross (by decide) a ha b hb
    · exact hacross (by decide) a ha b hb
    · exact hacross (by decide) a ha b hb

theorem MetasHold.sortedKeys_eq {metas : List AccountMeta} {p : Address}
    {rest : List (Address × KeyMeta)} (hm : MetasHold metas named roles)
    (hr : SortedRest p named roles rest) :
    (dropKey (metas.mergeSort fun a b => metaOrder a b != .gt) p).map (·.pubkey) =
      (rolesRun true true rest ++ rolesRun true false rest ++ rolesRun false true rest ++
        rolesRun false false rest).map Prod.fst := by
  have h₁ := hm.pairwise_sorted p
  have h₂ := tableBefore_runs hr
  have hnd : ∀ {l : List Address}, l.Pairwise (TableBefore roles) → l.Nodup := fun h =>
    h.imp fun {a b} hab (he : a = b) => TableBefore.irrefl (he ▸ hab)
  have hperm := (List.mergeSort_perm metas fun a b => metaOrder a b != .gt).map (·.pubkey)
  refine ((List.perm_ext_iff_of_nodup (hnd h₁) (hnd h₂)).mpr fun k => ?_).eq_of_pairwise
    (fun a b _ _ hab hba => (hab.asymm hba).elim) h₁ h₂
  rw [map_pubkey_dropKey, (hperm.nodup_iff.mpr hm.nodup).mem_erase_iff, hperm.mem_iff, hm.mem_iff,
    ((runs_perm rest).map Prod.fst).mem_iff, hr.mem_iff, and_comm]

end Order

section Compile

theorem length_filter_flags {roles : Address → KeyMeta} {ms : List AccountMeta}
    (hf : ∀ m ∈ ms, m.isSigner = (roles m.pubkey).isSigner ∧
      m.isWritable = (roles m.pubkey).isWritable) (q : Bool → Bool → Bool) :
    (ms.filter fun m => q m.isSigner m.isWritable).length =
      ((ms.map (·.pubkey)).filter fun k => q (roles k).isSigner (roles k).isWritable).length := by
  rw [List.filter_map, List.length_map]
  congr 1
  exact List.filter_congr fun m hm => by simp [(hf m hm).1, (hf m hm).2]

theorem headerFor_of_signers {ms : List AccountMeta} (hs : 255 < (ms.filter (·.isSigner)).length) :
    headerFor ms = .error (.tooManyAccountKeys ms.length) := by
  simp [headerFor, hs, bind, Except.bind]

theorem headerFor_of_lt {ms : List AccountMeta} (hs : (ms.filter (·.isSigner)).length < 256)
    (hu : (ms.filter fun m => !m.isSigner && !m.isWritable).length < 256) :
    headerFor ms = .ok ⟨(ms.filter (·.isSigner)).length.toUInt8,
      (ms.filter fun m => m.isSigner && !m.isWritable).length.toUInt8,
      (ms.filter fun m => !m.isSigner && !m.isWritable).length.toUInt8⟩ := by
  have hro : (ms.filter fun m => m.isSigner && !m.isWritable).length ≤ (ms.filter (·.isSigner)).length :=
    (List.monotone_filter_right ms fun m h => by simp_all).length_le
  have h₁ : ¬ 255 < (ms.filter (·.isSigner)).length := by omega
  have h₂ : ¬ 255 < (ms.filter fun m => m.isSigner && !m.isWritable).length := by omega
  have h₃ : ¬ 255 < (ms.filter fun m => !m.isSigner && !m.isWritable).length := by omega
  simp [headerFor, bind, Except.bind, pure, Except.pure, h₁, h₂, h₃]

/-- Accounts that list each key once, laid out behind a fee payer that signs and is written, list
the payer and then the runs of the sorted rest, and count them by those runs. -/
theorem MetasHold.laidOut {metas ms : List AccountMeta} {named : Address → Bool}
    {roles : Address → KeyMeta} {p : Address} {rest : List (Address × KeyMeta)}
    (hm : MetasHold metas named roles) (hr : SortedRest p named roles rest)
    (hps : (roles p).isSigner = true ∧ (roles p).isWritable = true)
    (hms : (⟨p, true, true⟩ :: dropKey (metas.mergeSort fun a b => metaOrder a b != .gt) p :
      List AccountMeta) = ms) :
    ms.map (·.pubkey) = p :: (rolesRun true true rest ++ rolesRun true false rest ++
      rolesRun false true rest ++ rolesRun false false rest).map Prod.fst ∧
    ms.length = rest.length + 1 ∧
    (ms.filter (·.isSigner)).length =
      (rolesRun true true rest).length + 1 + (rolesRun true false rest).length ∧
    (ms.filter fun m => m.isSigner && !m.isWritable).length = (rolesRun true false rest).length ∧
    (ms.filter fun m => !m.isSigner && !m.isWritable).length = (rolesRun false false rest).length := by
  have hkeys : ms.map (·.pubkey) = p :: (rolesRun true true rest ++ rolesRun true false rest ++
      rolesRun false true rest ++ rolesRun false false rest).map Prod.fst := by
    rw [← hms, List.map_cons, hm.sortedKeys_eq hr]
  have hlen : ms.length = rest.length + 1 := by
    rw [← List.length_map (f := (·.pubkey)), hkeys, List.length_cons, List.length_map,
      (runs_perm rest).length_eq]
  have hflags : ∀ x ∈ ms, x.isSigner = (roles x.pubkey).isSigner ∧
      x.isWritable = (roles x.pubkey).isWritable := by
    rw [← hms]
    rintro x (_ | ⟨_, hx⟩)
    · exact ⟨hps.1.symm, hps.2.symm⟩
    · exact hm.flags x ((List.mergeSort_perm _ _).mem_iff.mp ((dropKey_sublist _ p).subset hx))
  have hcount := fun q => (length_filter_flags hflags q).trans (hkeys ▸ hr.length_filter_keys q hps)
  have hns := hcount fun s _ => s
  have hro := hcount fun s w => s && !w
  have hru := hcount fun s w => !s && !w
  simp only [Bool.and_true, Bool.not_true, Bool.not_false, Bool.and_false, if_true, if_false,
    Bool.false_eq_true, Nat.add_zero, Nat.zero_add] at hns hro hru
  exact ⟨hkeys, hlen, hns, hro, hru⟩

/-- When the slots name only keys that already sign, a transaction compiles its payload as the
message compiler does: the same message, or the same error. -/
theorem compileMessage_eq_of_payload {tx : Transaction} {p : Address} {ixs : List Instruction}
    {h : Blockhash} (hpl : tx.payload = (ixs, some h)) (hp : tx.feePayer = some p)
    (hs : ∀ s ∈ tx.signatures, (mergedRoles p ixs s.pubkey).isSigner = true) :
    tx.compileMessage = LegacyMessage.compile p ixs h := by
  have hm := metasHold_mergedMetas p ixs
  obtain ⟨rest, hr, hbig, hsig, hok⟩ := LegacyMessage.compile_cases p ixs h
  generalize hms : (⟨p, true, true⟩ :: dropKey ((mergedMetas p ixs).mergeSort
    fun a b => metaOrder a b != .gt) p : List AccountMeta) = ms
  obtain ⟨hkeys, hlen, hns, hro, hru⟩ := hm.laidOut hr (by simp) hms
  have hsum := (runs_perm rest).length_eq
  simp only [List.length_append] at hsum
  simp only [compileMessage, hpl, hp, promoteSigners_of_signers hm _ hs, bind, Except.bind, pure,
    Except.pure, hms]
  by_cases h₁ : 256 < rest.length + 1
  · rw [if_pos (by rw [hlen]; exact h₁), hbig h₁, hlen]; rfl
  by_cases h₂ : 256 ≤ (rolesRun true true rest).length + 1 + (rolesRun true false rest).length
  · -- both fail on the signer count, which is then all 256 keys
    have hn : ms.length = (rolesRun true true rest).length + 1 + (rolesRun true false rest).length := by
      omega
    rw [if_neg (by rw [hlen]; exact h₁), headerFor_of_signers (by omega), hsig (by omega) h₂, hn]
  · obtain ⟨cs, hci, hcs⟩ := hok (by omega) (by omega)
    rw [if_neg (by rw [hlen]; exact h₁), headerFor_of_lt (by omega) (by omega), hcs, hkeys, hci,
      hns, hro, hru]

theorem mergedRoles_isSigner_of_mem {p k : Address} {ixs : List Instruction}
    (h : ∃ m ∈ mergedMetas p ixs, m.pubkey = k ∧ m.isSigner = true) :
    (mergedRoles p ixs k).isSigner = true := by
  obtain ⟨m, hm, rfl, hs⟩ := h
  rw [← ((metasHold_mergedMetas p ixs).flags m hm).1, hs]

end Compile

/-- A transaction with an explicit fee payer compiles its message exactly as the message compiler
does, to the same message or the same error, as long as its signature slots name only keys that the
merged accounts already make signers: under a blockhash it compiles its own instructions, and under a
durable nonce the instructions led by the nonce instruction, with the nonce for blockhash. -/
theorem compileMessage_eq_compile (tx : Transaction) (p : Address) (hp : tx.explicitPayer = some p) :
    (∀ h, tx.nonceInfo = none → tx.recentBlockhash = some h →
      (∀ s ∈ tx.signatures,
        ∃ m ∈ mergedMetas p tx.instructions, m.pubkey = s.pubkey ∧ m.isSigner = true) →
      tx.compileMessage = LegacyMessage.compile p tx.instructions h) ∧
    (∀ n, tx.nonceInfo = some n →
      (∀ s ∈ tx.signatures, ∃ m ∈ mergedMetas p
          (if tx.instructions.head? = some n.instruction then tx.instructions
            else n.instruction :: tx.instructions), m.pubkey = s.pubkey ∧ m.isSigner = true) →
      tx.compileMessage = LegacyMessage.compile p
        (if tx.instructions.head? = some n.instruction then tx.instructions
          else n.instruction :: tx.instructions) n.nonce) := by
  have hpayer : tx.feePayer = some p := by simp [feePayer, hp]
  refine ⟨fun h hn hh hs => ?_, fun n hn hs => ?_⟩
  · exact compileMessage_eq_of_payload (by simp [payload, hn, hh]) hpayer
      fun s hsm => mergedRoles_isSigner_of_mem (hs s hsm)
  · exact compileMessage_eq_of_payload (by simp [payload, hn]) hpayer
      fun s hsm => mergedRoles_isSigner_of_mem (hs s hsm)

private theorem slotKey_length (b : UInt8) : (List.replicate 31 0 ++ [b]).length = 32 := by simp

/-- The address whose bytes are zero but the last, `b`. -/
private def slotKey (b : UInt8) : Address := ⟨List.replicate 31 0 ++ [b], slotKey_length b⟩

/-- An instruction of program 9 that reads the fee payer 1 as a plain account, on a readonly
signer 2 and a writable account 3. -/
private def payerReadingInstruction : Instruction :=
  ⟨slotKey 9, [⟨slotKey 1, false, false⟩, ⟨slotKey 2, true, false⟩, ⟨slotKey 3, false, true⟩], []⟩

/-- Slots for the payer, which the payer rule promotes from a readonly account, and for the
instruction's signer; once under a blockhash, and once under a nonce whose authority 2 signs, the
advance instruction going first. -/
theorem compileMessage_eq_compile_promotedSigners :
    ({ Transaction.withBlockhash Blockhash.zero 0 with
        explicitPayer := some (slotKey 1), instructions := [payerReadingInstruction],
        signatures := [⟨slotKey 1, none⟩, ⟨slotKey 2, none⟩] }).compileMessage =
      LegacyMessage.compile (slotKey 1) [payerReadingInstruction] Blockhash.zero ∧
    ({ Transaction.withNonce (NonceInfo.advance Blockhash.zero (slotKey 4) (slotKey 2)) 0 with
        explicitPayer := some (slotKey 1), instructions := [payerReadingInstruction],
        signatures := [⟨slotKey 1, none⟩, ⟨slotKey 2, none⟩] }).compileMessage =
      LegacyMessage.compile (slotKey 1)
        [SystemProgram.advanceNonceAccount (slotKey 4) (slotKey 2), payerReadingInstruction]
        Blockhash.zero :=
  ⟨(compileMessage_eq_compile _ _ rfl).1 _ rfl rfl (by decide +kernel),
    (compileMessage_eq_compile { Transaction.withNonce
      (NonceInfo.advance Blockhash.zero (slotKey 4) (slotKey 2)) 0 with
        explicitPayer := some (slotKey 1), instructions := [payerReadingInstruction],
        signatures := [⟨slotKey 1, none⟩, ⟨slotKey 2, none⟩] } (slotKey 1) rfl).2 _ rfl
      (by decide +kernel)⟩

end Transaction

end ChainTx
