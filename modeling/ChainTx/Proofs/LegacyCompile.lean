import Mathlib.Data.List.Dedup
import ChainTx.Proofs.KeyTable
import ChainTx.Message.V0
/-!
# Compiling a legacy message

`LegacyMessage.compile` lays out the key table of a fee payer and instructions and then replaces
every address of the instructions by its index. Its account keys are the named keys, once each,
the payer first and then four runs ascending by base58 text (`RunLayout`); the header counts the
runs, so reading a key's roles back from its index gives the roles merged over every use of the
key. It fails exactly past 256 keys or 255 signers, and then with `tooManyAccountKeys`.
-/

namespace ChainTx

theorem mapM_except_ok {α β ε : Type} (f : α → Except ε β) (xs : List α)
    (h : ∀ x ∈ xs, ∃ y, f x = .ok y) : ∃ ys, xs.mapM f = .ok ys := by
  induction xs with
  | nil => exact ⟨[], rfl⟩
  | cons x xs ih =>
    obtain ⟨y, hy⟩ := h x (by simp)
    obtain ⟨ys, hys⟩ := ih fun x hx => h x (by simp [hx])
    exact ⟨y :: ys, by simp [List.mapM_cons, hy, hys, bind, Except.bind, pure, Except.pure]⟩

namespace AccountKeys

theorem indexOf_ok {k : AccountKeys} {a : Address} (h : a ∈ k.all) : ∃ i, k.indexOf a = .ok i := by
  obtain ⟨i, hi⟩ := Option.isSome_iff_exists.mp (List.isSome_idxOf?.mpr h)
  exact ⟨i.toUInt8, by simp [indexOf, hi]⟩

theorem compileInstructions_ok {k : AccountKeys} {ixs : List Instruction} (hsize : k.size ≤ 256)
    (hkeys : ∀ ix ∈ ixs, ix.programId ∈ k.all ∧ ∀ a ∈ ix.accounts, a.pubkey ∈ k.all) :
    ∃ cs, k.compileInstructions ixs = .ok cs := by
  have hnot : ¬ k.size > maxAccountKeys := by simp [maxAccountKeys]; omega
  simp only [compileInstructions, hnot, if_false]
  refine mapM_except_ok _ _ fun ix hix => ?_
  obtain ⟨i, hi⟩ := indexOf_ok (hkeys ix hix).1
  obtain ⟨is, his⟩ := mapM_except_ok (fun a => k.indexOf a.pubkey) ix.accounts
    fun a ha => indexOf_ok ((hkeys ix hix).2 a ha)
  exact ⟨⟨i, is, ix.data⟩, by simp [compileInstruction, hi, his, bind, Except.bind, pure, Except.pure]⟩

theorem compileInstructions_congr {k k' : AccountKeys} (h : k.all = k'.all) (ixs : List Instruction) :
    k.compileInstructions ixs = k'.compileInstructions ixs := by
  have hidx : k.indexOf = k'.indexOf := by funext a; simp [indexOf, h]
  have hci : k.compileInstruction = k'.compileInstruction := by
    funext ix; simp [compileInstruction, hidx]
  simp [compileInstructions, size, h, hci]

end AccountKeys

/-- A predicate true on one list and false on the next reads, at an index of both, whether the
index falls in the first. -/
theorem getElem_append_of_split {α : Type} {A B : List α} {f : α → Bool} (hA : ∀ x ∈ A, f x = true)
    (hB : ∀ x ∈ B, f x = false) (i : Nat) (hi : i < (A ++ B).length) :
    f (A ++ B)[i] = decide (i < A.length) := by
  by_cases h : i < A.length
  · rw [List.getElem_append_left h]; simp [hA _ (List.getElem_mem h), h]
  · rw [List.getElem_append_right (by omega)]
    simp [hB _ (List.getElem_mem _), h]

/-- Keys laid out as a message header describes them: the fee payer, then the writable signers,
the readonly signers, the writable non-signers and the readonly non-signers, each run ascending by
base58 text, and the header counting the signers, the readonly signers and the readonly
non-signers. -/
def RunLayout (roles : Address → KeyMeta) (p : Address) (h : MessageHeader) (keys : List Address) :
    Prop :=
  ∃ ws rs wn rn : List Address, keys = p :: (ws ++ rs ++ wn ++ rn) ∧
    (∀ k ∈ ws, (roles k).isSigner = true ∧ (roles k).isWritable = true) ∧
    (∀ k ∈ rs, (roles k).isSigner = true ∧ (roles k).isWritable = false) ∧
    (∀ k ∈ wn, (roles k).isSigner = false ∧ (roles k).isWritable = true) ∧
    (∀ k ∈ rn, (roles k).isSigner = false ∧ (roles k).isWritable = false) ∧
    (∀ run ∈ [ws, rs, wn, rn], run.Pairwise fun a b => a.toBase58 < b.toBase58) ∧
    h.numRequiredSignatures.toNat = ws.length + 1 + rs.length ∧
    h.numReadonlySigned.toNat = rs.length ∧ h.numReadonlyUnsigned.toNat = rn.length

namespace RunLayout

variable {roles : Address → KeyMeta} {p : Address} {h : MessageHeader} {keys : List Address}

theorem isSigner_eq (hl : RunLayout roles p h keys) (hp : (roles p).isSigner = true) (i : Nat)
    (hi : i < keys.length) :
    decide (i < h.numRequiredSignatures.toNat) = (roles keys[i]).isSigner := by
  obtain ⟨ws, rs, wn, rn, rfl, hws, hrs, hwn, hrn, -, hn, -, -⟩ := hl
  have hsplit : p :: (ws ++ rs ++ wn ++ rn) = (p :: ws ++ rs) ++ (wn ++ rn) := by simp
  simp only [hsplit] at hi ⊢
  rw [getElem_append_of_split (f := fun k => (roles k).isSigner) _ _ i hi, hn]
  · simp; omega
  · intro k hk
    simp only [List.cons_append, List.mem_cons, List.mem_append] at hk
    rcases hk with rfl | hk | hk
    · exact hp
    · exact (hws k hk).1
    · exact (hrs k hk).1
  · intro k hk
    rcases List.mem_append.mp hk with hk | hk
    · exact (hwn k hk).1
    · exact (hrn k hk).1

theorem isStaticWritable_eq (hl : RunLayout roles p h keys) (hp : (roles p).isWritable = true)
    (i : Nat) (hi : i < keys.length) :
    h.isStaticWritable i keys.length = (roles keys[i]).isWritable := by
  obtain ⟨ws, rs, wn, rn, rfl, hws, hrs, hwn, hrn, -, hn, hro, hru⟩ := hl
  have hsplit : p :: (ws ++ rs ++ wn ++ rn) = (p :: ws ++ rs) ++ (wn ++ rn) := by simp
  have hsig : ∀ k ∈ p :: ws, (roles k).isWritable = true := by
    intro k hk
    rcases List.mem_cons.mp hk with rfl | hk
    · exact hp
    · exact (hws k hk).2
  simp only [hsplit] at hi ⊢
  simp only [MessageHeader.isStaticWritable, hn, hro, hru, List.length_append, List.length_cons]
  by_cases hs : i < ws.length + 1 + rs.length
  · have hi' : i < (p :: ws ++ rs).length := by simp; omega
    rw [if_pos hs, List.getElem_append_left hi',
      getElem_append_of_split (f := fun k => (roles k).isWritable) hsig (fun k hk => (hrs k hk).2) i hi']
    simp
  · have hj : i - (p :: ws ++ rs).length < (wn ++ rn).length := by simp at hi ⊢; omega
    rw [if_neg hs, List.getElem_append_right (by simp; omega),
      getElem_append_of_split (f := fun k => (roles k).isWritable) (fun k hk => (hwn k hk).2)
        (fun k hk => (hrn k hk).2) _ hj]
    simp; omega

end RunLayout

namespace KeyTable

/-- The keys a fee payer and instructions name, each once. -/
def distinctKeys (p : Address) (ixs : List Instruction) : List Address :=
  (p :: ixs.flatMap fun ix => ix.programId :: ix.accounts.map (·.pubkey)).dedup

theorem mentioned_iff {p k : Address} {ixs : List Instruction} :
    mentioned p ixs k = true ↔
      k = p ∨ ∃ ix ∈ ixs, ix.programId = k ∨ ∃ a ∈ ix.accounts, a.pubkey = k := by
  simp [mentioned, namedIn]

theorem mem_distinctKeys {p k : Address} {ixs : List Instruction} :
    k ∈ distinctKeys p ixs ↔ mentioned p ixs k = true := by
  rw [mentioned_iff]
  simp only [distinctKeys, List.mem_dedup, List.mem_cons, List.mem_flatMap, List.mem_map,
    @eq_comm _ k]

private theorem count_filter_of_false {α : Type} [BEq α] [LawfulBEq α] {p : α → Bool} {a : α}
    {l : List α} (h : p a = false) : (l.filter p).count a = 0 :=
  List.count_eq_zero.mpr fun hm => by simp [(List.mem_filter.mp hm).2] at h

theorem runs_perm (es : List (Address × KeyMeta)) :
    (rolesRun true true es ++ rolesRun true false es ++ rolesRun false true es ++
      rolesRun false false es).Perm es := by
  rw [List.perm_iff_count]
  intro a
  simp only [List.count_append, rolesRun]
  cases hs : a.2.isSigner <;> cases hw : a.2.isWritable <;>
    simp [List.count_filter, count_filter_of_false, hs, hw]

variable {p : Address} {named : Address → Bool} {roles : Address → KeyMeta}
  {rest : List (Address × KeyMeta)}

theorem SortedRest.roles_of_mem_run (hr : SortedRest p named roles rest) {s w : Bool} {k : Address}
    (hk : k ∈ (rolesRun s w rest).map Prod.fst) : (roles k).isSigner = s ∧ (roles k).isWritable = w := by
  obtain ⟨e, he, rfl⟩ := List.mem_map.mp hk
  have hmem := List.mem_filter.mp he
  rw [← hr.roles_eq e hmem.1]
  simpa using hmem.2

theorem SortedRest.sorted_run (hr : SortedRest p named roles rest) (s w : Bool) :
    ((rolesRun s w rest).map Prod.fst).Pairwise fun a b => a.toBase58 < b.toBase58 :=
  List.pairwise_map.mpr (hr.sorted.sublist List.filter_sublist)

theorem SortedRest.runLayout (hr : SortedRest p named roles rest)
    (hsig : (rolesRun true true rest).length + 1 + (rolesRun true false rest).length < 256)
    (hsize : rest.length + 1 ≤ 256) :
    RunLayout roles p
      ⟨((rolesRun true true rest).length + 1 + (rolesRun true false rest).length).toUInt8,
        (rolesRun true false rest).length.toUInt8, (rolesRun false false rest).length.toUInt8⟩
      (p :: (rolesRun true true rest ++ rolesRun true false rest ++ rolesRun false true rest ++
        rolesRun false false rest).map Prod.fst) := by
  have hrs : (rolesRun true false rest).length < 256 := by omega
  have hrn : (rolesRun false false rest).length < 256 :=
    lt_of_le_of_lt (List.length_filter_le _ _) (by omega)
  refine ⟨(rolesRun true true rest).map Prod.fst, (rolesRun true false rest).map Prod.fst,
    (rolesRun false true rest).map Prod.fst, (rolesRun false false rest).map Prod.fst,
    by simp, fun k hk => ?_, fun k hk => ?_, fun k hk => ?_, fun k hk => ?_, ?_, ?_, ?_, ?_⟩
  · exact hr.roles_of_mem_run hk
  · exact hr.roles_of_mem_run hk
  · exact hr.roles_of_mem_run hk
  · exact hr.roles_of_mem_run hk
  · simp only [List.mem_cons, List.not_mem_nil, or_false]
    rintro run (rfl | rfl | rfl | rfl) <;> exact hr.sorted_run _ _
  · simp [Nat.mod_eq_of_lt hsig]
  · simp [Nat.mod_eq_of_lt hrs]
  · simp [Nat.mod_eq_of_lt hrn]

/-- The compiled table of a fee payer and instructions starts with the payer, a writable signer, and
goes on with the other named keys ascending by base58 text. -/
theorem compile_ordered (ixs : List Instruction) (p : Address) :
    ∃ rest, (compile ixs p).ordered = (p, mergedRoles p ixs p) :: rest ∧
      SortedRest p (mentioned p ixs) (mergedRoles p ixs) rest :=
  ordered_eq_cons (tabulates_compile ixs p) (by simp [mentioned, compile])

@[simp] theorem mergedRoles_payer_isSigner (p : Address) (ixs : List Instruction) :
    (mergedRoles p ixs p).isSigner = true := by simp [mergedRoles]

@[simp] theorem mergedRoles_payer_isWritable (p : Address) (ixs : List Instruction) :
    (mergedRoles p ixs p).isWritable = true := by simp [mergedRoles]

variable {ixs : List Instruction}

theorem SortedRest.distinctKeys_perm (hr : SortedRest p (mentioned p ixs) (mergedRoles p ixs) rest) :
    (distinctKeys p ixs).Perm (p :: (rolesRun true true rest ++ rolesRun true false rest ++
      rolesRun false true rest ++ rolesRun false false rest).map Prod.fst) := by
  have hnd : (p :: (rest.map Prod.fst)).Nodup :=
    List.nodup_cons.mpr ⟨fun h => ((hr.mem_iff p).mp h).2 rfl, hr.nodup⟩
  refine ((List.perm_ext_iff_of_nodup (List.nodup_dedup _) hnd).mpr fun k => ?_).trans
    (((runs_perm rest).map Prod.fst).cons p).symm
  change k ∈ distinctKeys p ixs ↔ _
  rw [mem_distinctKeys, List.mem_cons, hr.mem_iff]
  by_cases hk : k = p
  · subst hk; simp [mentioned]
  · simp [hk]

theorem SortedRest.length_distinctKeys (hr : SortedRest p (mentioned p ixs) (mergedRoles p ixs) rest) :
    (distinctKeys p ixs).length = rest.length + 1 := by
  rw [hr.distinctKeys_perm.length_eq, List.length_cons, ((runs_perm rest).map Prod.fst).length_eq,
    List.length_map]

theorem SortedRest.length_filter_keys (hr : SortedRest p named roles rest) (q : Bool → Bool → Bool)
    (hp : (roles p).isSigner = true ∧ (roles p).isWritable = true) :
    ((p :: (rolesRun true true rest ++ rolesRun true false rest ++ rolesRun false true rest ++
      rolesRun false false rest).map Prod.fst).filter
        fun k => q (roles k).isSigner (roles k).isWritable).length =
      (if q true true then (rolesRun true true rest).length + 1 else 0) +
        (if q true false then (rolesRun true false rest).length else 0) +
        (if q false true then (rolesRun false true rest).length else 0) +
        (if q false false then (rolesRun false false rest).length else 0) := by
  have hrun : ∀ s w, ((rolesRun s w rest).map Prod.fst).filter
      (fun k => q (roles k).isSigner (roles k).isWritable) =
        if q s w then (rolesRun s w rest).map Prod.fst else [] := by
    intro s w
    split
    · exact List.filter_eq_self.mpr fun k hk => by
        rw [(hr.roles_of_mem_run hk).1, (hr.roles_of_mem_run hk).2]; assumption
    · exact List.filter_eq_nil_iff.mpr fun k hk => by
        rw [(hr.roles_of_mem_run hk).1, (hr.roles_of_mem_run hk).2]; assumption
  simp only [List.map_append, List.filter_cons, List.filter_append, hrun, hp.1, hp.2]
  split_ifs <;> simp <;> omega

theorem SortedRest.length_signers (hr : SortedRest p (mentioned p ixs) (mergedRoles p ixs) rest) :
    ((distinctKeys p ixs).filter fun k => (mergedRoles p ixs k).isSigner).length =
      (rolesRun true true rest).length + 1 + (rolesRun true false rest).length := by
  rw [(hr.distinctKeys_perm.filter _).length_eq]
  simpa using hr.length_filter_keys (fun s _ => s) (by simp)

end KeyTable

namespace LegacyMessage

theorem compile_of_components_error {p : Address} {ixs : List Instruction} {bh : Blockhash}
    {e : SolError} (h : (KeyTable.compile ixs p).components = .error e) :
    compile p ixs bh = .error e := by
  simp [compile, h, bind, Except.bind]

theorem compile_of_components_ok {p : Address} {ixs : List Instruction} {bh : Blockhash}
    {hd : MessageHeader} {keys : List Address} (h : (KeyTable.compile ixs p).components = .ok (hd, keys))
    (hsize : keys.length ≤ 256)
    (hkeys : ∀ ix ∈ ixs, ix.programId ∈ keys ∧ ∀ a ∈ ix.accounts, a.pubkey ∈ keys) :
    ∃ cs, (AccountKeys.mk keys none).compileInstructions ixs = .ok cs ∧
      compile p ixs bh = .ok ⟨hd, keys, bh, cs⟩ := by
  obtain ⟨cs, hcs⟩ := AccountKeys.compileInstructions_ok (k := ⟨keys, none⟩)
    (by simpa [AccountKeys.size, AccountKeys.all, AccountKeys.segments] using hsize)
    (by simpa [AccountKeys.all, AccountKeys.segments] using hkeys)
  exact ⟨cs, hcs, by simp [compile, h, hcs, bind, Except.bind, pure, Except.pure]⟩

open KeyTable in
/-- The three outcomes of compiling: too many keys, too many signers, or the payer and the runs
with their counts in the header. -/
theorem compile_cases (p : Address) (ixs : List Instruction) (bh : Blockhash) :
    ∃ rest, SortedRest p (mentioned p ixs) (mergedRoles p ixs) rest ∧
      (256 < rest.length + 1 → compile p ixs bh = .error (.tooManyAccountKeys (rest.length + 1))) ∧
      (rest.length + 1 ≤ 256 →
        256 ≤ (rolesRun true true rest).length + 1 + (rolesRun true false rest).length →
        compile p ixs bh = .error (.tooManyAccountKeys
          ((rolesRun true true rest).length + 1 + (rolesRun true false rest).length))) ∧
      (rest.length + 1 ≤ 256 →
        (rolesRun true true rest).length + 1 + (rolesRun true false rest).length < 256 →
        ∃ cs, (AccountKeys.mk (p :: (rolesRun true true rest ++ rolesRun true false rest ++
            rolesRun false true rest ++ rolesRun false false rest).map Prod.fst) none).compileInstructions
            ixs = .ok cs ∧
          compile p ixs bh = .ok
          ⟨⟨((rolesRun true true rest).length + 1 + (rolesRun true false rest).length).toUInt8,
            (rolesRun true false rest).length.toUInt8, (rolesRun false false rest).length.toUInt8⟩,
          p :: (rolesRun true true rest ++ rolesRun true false rest ++ rolesRun false true rest ++
            rolesRun false false rest).map Prod.fst, bh, cs⟩) := by
  obtain ⟨rest, hord, hr⟩ := compile_ordered ixs p
  have hc := components_eq (t := KeyTable.compile ixs p) hord ⟨by simp, by simp⟩
  refine ⟨rest, hr, fun hbig => ?_, fun hle hsig => ?_, fun hle hsig => ?_⟩
  · exact compile_of_components_error (by rw [hc, if_pos hbig])
  · exact compile_of_components_error (by rw [hc, if_neg (by omega), if_pos hsig])
  · have hkeys : ∀ k, mentioned p ixs k = true → k ∈ p :: (rolesRun true true rest ++
        rolesRun true false rest ++ rolesRun false true rest ++ rolesRun false false rest).map
          Prod.fst := fun k hk => hr.distinctKeys_perm.mem_iff.mp (mem_distinctKeys.mpr hk)
    exact compile_of_components_ok
      (by rw [hc, if_neg (by omega), if_neg (by omega)]; rfl)
      (by rw [List.length_cons, List.length_map, ((runs_perm rest).length_eq)]; exact hle)
      (fun ix hix => ⟨hkeys _ (mentioned_iff.mpr (.inr ⟨ix, hix, .inl rfl⟩)),
        fun a ha => hkeys _ (mentioned_iff.mpr (.inr ⟨ix, hix, .inr ⟨a, ha, rfl⟩⟩))⟩)

end LegacyMessage

theorem V0Message.compile_nil_tables (p : Address) (ixs : List Instruction) (bh : Blockhash) :
    V0Message.compile p ixs bh [] = (LegacyMessage.compile p ixs bh).map fun m =>
      ⟨m.header, m.accountKeys, m.recentBlockhash, m.instructions, []⟩ := by
  have hk : ∀ keys, (AccountKeys.mk keys (some LoadedAddresses.empty)).compileInstructions ixs =
      (AccountKeys.mk keys none).compileInstructions ixs := fun keys =>
    AccountKeys.compileInstructions_congr
      (by simp [AccountKeys.all, AccountKeys.segments, LoadedAddresses.empty]) ixs
  cases hc : (KeyTable.compile ixs p).components with
  | error e => simp [V0Message.compile, V0Message.extractAll, LegacyMessage.compile, hc, bind,
      Except.bind, Except.map]
  | ok r =>
    obtain ⟨hd, keys⟩ := r
    cases hcs : (AccountKeys.mk keys none).compileInstructions ixs <;>
      simp [V0Message.compile, V0Message.extractAll, LegacyMessage.compile, hc, hk, hcs, bind,
        Except.bind, pure, Except.pure, Except.map]

open KeyTable in
/-- Compiling a legacy message lists every key the fee payer and instructions name exactly once,
the payer first and then the writable signers, readonly signers, writable and readonly non-signers,
each run ascending by base58 text and counted by the header; reading a key's signer and writable
roles back from its index gives the roles merged over all its uses. Compiling fails exactly past
256 keys or 255 signers, always with `tooManyAccountKeys`; with no lookup tables a version-0
message compiles to the same header, keys and instructions. -/
theorem compile_accountKeys (p : Address) (ixs : List Instruction) (bh : Blockhash) :
    (∀ m, LegacyMessage.compile p ixs bh = .ok m →
      m.accountKeys.Nodup ∧
      (∀ k, k ∈ m.accountKeys ↔
        k = p ∨ ∃ ix ∈ ixs, ix.programId = k ∨ ∃ a ∈ ix.accounts, a.pubkey = k) ∧
      m.accountKeys.head? = some p ∧
      (∀ i (hi : i < m.accountKeys.length),
        m.isSigner i = (mergedRoles p ixs m.accountKeys[i]).isSigner ∧
        m.isWritable i = (mergedRoles p ixs m.accountKeys[i]).isWritable) ∧
      RunLayout (mergedRoles p ixs) p m.header m.accountKeys) ∧
    ((∃ m, LegacyMessage.compile p ixs bh = .ok m) ↔
      (distinctKeys p ixs).length ≤ 256 ∧
        ((distinctKeys p ixs).filter fun k => (mergedRoles p ixs k).isSigner).length ≤ 255) ∧
    (∀ e, LegacyMessage.compile p ixs bh = .error e →
      e = .tooManyAccountKeys (if 256 < (distinctKeys p ixs).length then (distinctKeys p ixs).length
        else ((distinctKeys p ixs).filter fun k => (mergedRoles p ixs k).isSigner).length)) ∧
    V0Message.compile p ixs bh [] = (LegacyMessage.compile p ixs bh).map fun m =>
      ⟨m.header, m.accountKeys, m.recentBlockhash, m.instructions, []⟩ := by
  obtain ⟨rest, hr, hbig, hsig, hok⟩ := LegacyMessage.compile_cases p ixs bh
  have hdl := hr.length_distinctKeys
  have hsl := hr.length_signers
  have hbounds : ∀ m, LegacyMessage.compile p ixs bh = .ok m → rest.length + 1 ≤ 256 ∧
      (rolesRun true true rest).length + 1 + (rolesRun true false rest).length < 256 := by
    intro m hm
    have hle : rest.length + 1 ≤ 256 := by
      by_contra h; rw [hbig (by omega)] at hm; cases hm
    refine ⟨hle, ?_⟩
    by_contra h; rw [hsig hle (by omega)] at hm; cases hm
  refine ⟨fun m hm => ?_, ?_, fun e he => ?_, V0Message.compile_nil_tables p ixs bh⟩
  · obtain ⟨hle, hlt⟩ := hbounds m hm
    obtain ⟨cs, -, hcs⟩ := hok hle hlt
    rw [hcs] at hm
    cases hm
    have hlay := hr.runLayout hlt hle
    have hperm := hr.distinctKeys_perm
    refine ⟨hperm.nodup_iff.mp (List.nodup_dedup _), fun k => ?_, rfl, fun i hi => ⟨?_, ?_⟩, hlay⟩
    · rw [← hperm.mem_iff, mem_distinctKeys, mentioned_iff]
    · exact hlay.isSigner_eq (by simp) i hi
    · simp only [LegacyMessage.isWritable, hi, decide_true, Bool.true_and]
      exact hlay.isStaticWritable_eq (by simp) i hi
  · constructor
    · rintro ⟨m, hm⟩
      have := hbounds m hm
      omega
    · rintro ⟨h1, h2⟩
      obtain ⟨cs, -, hcs⟩ := hok (by omega) (by omega)
      exact ⟨_, hcs⟩
  · by_cases h1 : 256 < rest.length + 1
    · rw [hbig h1] at he; cases he; simp [hdl, h1]
    · by_cases h2 : 256 ≤ (rolesRun true true rest).length + 1 + (rolesRun true false rest).length
      · rw [hsig (by omega) h2] at he; cases he; simp [hdl, hsl, h1]
      · obtain ⟨cs, -, hcs⟩ := hok (by omega) (by omega)
        rw [hcs] at he; cases he

private theorem eq_singleton_of_nodup {α : Type} {l : List α} {a : α} (hnd : l.Nodup)
    (ha : a ∈ l) (hall : ∀ x ∈ l, x = a) : l = [a] := by
  have hl : l = List.replicate l.length a := List.eq_replicate_iff.mpr ⟨rfl, hall⟩
  have h1 : l.length ≤ 1 := by
    rw [hl] at hnd
    exact List.nodup_replicate.mp hnd
  have h0 : l.length ≠ 0 := fun h => by simp [List.length_eq_zero_iff.mp h] at ha
  rw [hl, show l.length = 1 by omega, List.replicate_one]

/-- Past the payer, a key of a layout sits in the run its roles name. -/
private theorem mem_run_of_roles {roles : Address → KeyMeta} {ws rs wn rn : List Address}
    (hws : ∀ k ∈ ws, (roles k).isSigner = true ∧ (roles k).isWritable = true)
    (hrs : ∀ k ∈ rs, (roles k).isSigner = true ∧ (roles k).isWritable = false)
    (hwn : ∀ k ∈ wn, (roles k).isSigner = false ∧ (roles k).isWritable = true)
    (hrn : ∀ k ∈ rn, (roles k).isSigner = false ∧ (roles k).isWritable = false)
    {k : Address} (hk : k ∈ ws ++ rs ++ wn ++ rn) :
    k ∈ (if (roles k).isSigner then if (roles k).isWritable then ws else rs
      else if (roles k).isWritable then wn else rn) := by
  simp only [List.mem_append] at hk
  rcases hk with ((h | h) | h) | h
  · simp [hws k h, h]
  · simp [hrs k h, h]
  · simp [hwn k h, h]
  · simp [hrn k h, h]

private theorem lowKey_length (b : UInt8) : (List.replicate 31 0 ++ [b]).length = 32 := by simp

/-- The address whose bytes are zero but the last, `b`. -/
private def keyOf (b : UInt8) : Address := ⟨List.replicate 31 0 ++ [b], lowKey_length b⟩

/-- An instruction of program 9 on a readonly signer 2 and a writable account 3. -/
private def mixedInstruction : Instruction :=
  ⟨keyOf 9, [⟨keyOf 2, true, false⟩, ⟨keyOf 3, false, true⟩], []⟩

open KeyTable in
/-- Paid by 1, it compiles to the keys of the payer, the readonly signer, the writable account and
the program, in that order, with two signers of which one is readonly and one readonly
non-signer: each run holds one key, so the layout alone fixes the order. -/
theorem compile_accountKeys_mixed :
    ∃ m, LegacyMessage.compile (keyOf 1) [mixedInstruction] Blockhash.zero = .ok m ∧
      m.accountKeys = [keyOf 1, keyOf 2, keyOf 3, keyOf 9] ∧ m.header = ⟨2, 1, 1⟩ := by
  have h := compile_accountKeys (keyOf 1) [mixedInstruction] Blockhash.zero
  obtain ⟨m, hm⟩ := h.2.1.mpr (by decide +kernel)
  obtain ⟨hnd, hmem, -, -, ws, rs, wn, rn, hkeys, hws, hrs, hwn, hrn, -, hn, hro, hru⟩ := h.1 m hm
  rw [hkeys, List.nodup_cons] at hnd
  have hnamed : ∀ k, k ∈ ws ++ rs ++ wn ++ rn ↔ k = keyOf 2 ∨ k = keyOf 3 ∨ k = keyOf 9 := by
    intro k
    have hk := hmem k
    rw [hkeys, List.mem_cons] at hk
    have hne : keyOf 1 ∉ ws ++ rs ++ wn ++ rn := hnd.1
    simp only [mixedInstruction, List.mem_cons, List.not_mem_nil,
      exists_eq_left, or_false] at hk
    constructor
    · intro hin
      have : k ≠ keyOf 1 := fun e => hne (e ▸ hin)
      grind
    · intro hk'
      have : k ≠ keyOf 1 := by rcases hk' with rfl | rfl | rfl <;> decide
      grind
  have r2 : mergedRoles (keyOf 1) [mixedInstruction] (keyOf 2) = ⟨true, false, false⟩ := by
    decide +kernel
  have r3 : mergedRoles (keyOf 1) [mixedInstruction] (keyOf 3) = ⟨false, true, false⟩ := by
    decide +kernel
  have r9 : mergedRoles (keyOf 1) [mixedInstruction] (keyOf 9) = ⟨false, false, true⟩ := by
    decide +kernel
  have hnd' := hnd.2
  simp only [List.nodup_append] at hnd'
  -- each named key sits in the run of its roles
  have h2 : keyOf 2 ∈ rs := by
    simpa [r2] using mem_run_of_roles hws hrs hwn hrn ((hnamed _).mpr (.inl rfl))
  have h3 : keyOf 3 ∈ wn := by
    simpa [r3] using mem_run_of_roles hws hrs hwn hrn ((hnamed _).mpr (.inr (.inl rfl)))
  have h9 : keyOf 9 ∈ rn := by
    simpa [r9] using mem_run_of_roles hws hrs hwn hrn ((hnamed _).mpr (.inr (.inr rfl)))
  have hws0 : ws = [] := List.eq_nil_iff_forall_not_mem.mpr fun k hk => by
    have := hws k hk
    rcases (hnamed k).mp (by simp [hk]) with rfl | rfl | rfl <;> simp_all
  have hrs1 : rs = [keyOf 2] := eq_singleton_of_nodup hnd'.1.1.2.1 h2 fun k hk => by
    have := hrs k hk
    rcases (hnamed k).mp (by simp [hk]) with rfl | rfl | rfl <;> simp_all
  have hwn1 : wn = [keyOf 3] := eq_singleton_of_nodup hnd'.1.2.1 h3 fun k hk => by
    have := hwn k hk
    rcases (hnamed k).mp (by simp [hk]) with rfl | rfl | rfl <;> simp_all
  have hrn1 : rn = [keyOf 9] := eq_singleton_of_nodup hnd'.2.1 h9 fun k hk => by
    have := hrn k hk
    rcases (hnamed k).mp (by simp [hk]) with rfl | rfl | rfl <;> simp_all
  subst hws0 hrs1 hwn1 hrn1
  refine ⟨m, hm, by simpa using hkeys, ?_⟩
  cases hh : m.header with
  | mk n r u =>
    simp only [hh, List.length_nil, List.length_singleton] at hn hro hru
    congr <;> apply UInt8.toNat_inj.mp <;> simp [hn, hro, hru]

end ChainTx
