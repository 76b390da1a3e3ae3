import ChainTx.Proofs.LookupExtraction
import ChainTx.Message.Draft
/-!
# Decompiling a compiled message

A compiled instruction keeps of each account only the index of its key, and the header and the
lookups say which indexes sign and which are written. Decompiling maps every index back to its key
and reads the roles off the index, so the accounts it gives back carry the roles merged over all
uses of their key (`TransactionMessage.withMergedRoles`), not the roles each use asked for.
-/

namespace ChainTx

theorem mapM_except_eq_map {α β ε : Type} {f : α → Except ε β} {g : α → β} {xs : List α}
    (h : ∀ x ∈ xs, f x = .ok (g x)) : xs.mapM f = .ok (xs.map g) := by
  induction xs with
  | nil => rfl
  | cons x xs ih =>
    rw [List.mapM_cons, h x List.mem_cons_self, ih fun y hy => h y (List.mem_cons_of_mem _ hy)]
    rfl

theorem mapM_except_inv {α β ε : Type} {f : α → Except ε β} {g : α → β} {P : α → Prop}
    {xs : List α} {ys : List β} (hf : ∀ x y, f x = .ok y → P x ∧ y = g x)
    (h : xs.mapM f = .ok ys) : (∀ x ∈ xs, P x) ∧ ys = xs.map g := by
  induction xs generalizing ys with
  | nil =>
    cases h
    simp
  | cons x xs ih =>
    rw [List.mapM_cons] at h
    cases hx : f x with
    | error e => simp [hx, bind, Except.bind] at h
    | ok y =>
      cases hxs : xs.mapM f with
      | error e => simp [hx, hxs, bind, Except.bind] at h
      | ok ys' =>
        simp only [hx, hxs, bind, Except.bind, pure, Except.pure, Except.ok.injEq] at h
        obtain ⟨hP, rfl⟩ := hf x y hx
        obtain ⟨hPs, rfl⟩ := ih hxs
        subst h
        exact ⟨fun z hz => (List.mem_cons.mp hz).elim (· ▸ hP) (hPs z), rfl⟩

theorem idxOf?_eq_some_idxOf {α : Type} [BEq α] [LawfulBEq α] {l : List α} {a : α} (h : a ∈ l) :
    l.idxOf? a = some (l.idxOf a) := by
  induction l with
  | nil => cases h
  | cons b l ih =>
    by_cases hb : b = a
    · subst hb
      simp [List.idxOf?_cons]
    · have ha : a ∈ l := (List.mem_cons.mp h).resolve_left (Ne.symm hb)
      simp [List.idxOf?_cons, hb, ih ha]

/-- The account with the roles `roles` gives its key. -/
def AccountMeta.withRoles (roles : Address → KeyMeta) (a : AccountMeta) : AccountMeta :=
  ⟨a.pubkey, (roles a.pubkey).isSigner, (roles a.pubkey).isWritable⟩

/-- The instruction with each account given the roles `roles` gives its key. -/
def Instruction.withRoles (roles : Address → KeyMeta) (ix : Instruction) : Instruction :=
  ⟨ix.programId, ix.accounts.map (AccountMeta.withRoles roles), ix.data⟩

@[simp] theorem AccountMeta.withRoles_pubkey (roles : Address → KeyMeta) (a : AccountMeta) :
    (a.withRoles roles).pubkey = a.pubkey := rfl

@[simp] theorem Instruction.withRoles_programId (roles : Address → KeyMeta) (ix : Instruction) :
    (ix.withRoles roles).programId = ix.programId := rfl

@[simp] theorem Instruction.withRoles_accounts (roles : Address → KeyMeta) (ix : Instruction) :
    (ix.withRoles roles).accounts = ix.accounts.map (AccountMeta.withRoles roles) := rfl

@[simp] theorem Instruction.withRoles_data (roles : Address → KeyMeta) (ix : Instruction) :
    (ix.withRoles roles).data = ix.data := rfl

/-- An instruction compiled against keys: its program and each of its accounts by the first index
of the key. -/
def Instruction.compileAt (keys : List Address) (ix : Instruction) : CompiledInstruction :=
  ⟨(keys.idxOf ix.programId).toUInt8, ix.accounts.map fun a => (keys.idxOf a.pubkey).toUInt8, ix.data⟩

namespace AccountKeys

theorem indexOf_eq_ok {k : AccountKeys} {a : Address} (ha : a ∈ k.all) :
    k.indexOf a = .ok (k.all.idxOf a).toUInt8 := by
  simp [indexOf, idxOf?_eq_some_idxOf ha]

theorem indexOf_inv {k : AccountKeys} {a : Address} {i : UInt8} (h : k.indexOf a = .ok i) :
    a ∈ k.all ∧ i = (k.all.idxOf a).toUInt8 := by
  have ha : a ∈ k.all := by
    by_contra ha
    simp [indexOf, List.idxOf?_eq_none_iff.mpr ha] at h
  refine ⟨ha, ?_⟩
  rw [indexOf_eq_ok ha] at h
  exact (Except.ok.inj h).symm

theorem getIn_eq_flatten (segs : List (List Address)) (i : Nat) : getIn segs i = segs.flatten[i]? := by
  induction segs generalizing i with
  | nil => rfl
  | cons seg rest ih =>
    by_cases h : i < seg.length
    · simp [getIn, h, List.getElem?_append_left h]
    · simp [getIn, h, ih, List.getElem?_append_right (Nat.le_of_not_lt h)]

theorem get?_eq_all (k : AccountKeys) (i : Nat) : k.get? i = k.all[i]? := getIn_eq_flatten _ _

theorem get?_idxOf {k : AccountKeys} {a : Address} (hsize : k.size ≤ 256) (ha : a ∈ k.all) :
    k.get? (k.all.idxOf a).toUInt8.toNat = some a := by
  have hlt := List.idxOf_lt_length_of_mem ha
  have hn : (k.all.idxOf a).toUInt8.toNat = k.all.idxOf a := by
    simp only [size] at hsize
    simp; omega
  rw [get?_eq_all, hn, List.getElem?_eq_getElem hlt, List.getElem_idxOf hlt]

theorem compileInstructions_eq {k : AccountKeys} {ixs : List Instruction} (hsize : k.size ≤ 256)
    (hkeys : ∀ ix ∈ ixs, ix.programId ∈ k.all ∧ ∀ a ∈ ix.accounts, a.pubkey ∈ k.all) :
    k.compileInstructions ixs = .ok (ixs.map (Instruction.compileAt k.all)) := by
  have hnot : ¬ k.size > maxAccountKeys := by simp [maxAccountKeys]; omega
  rw [compileInstructions, if_neg hnot]
  refine mapM_except_eq_map fun ix hix => ?_
  have hacc : ix.accounts.mapM (fun a => k.indexOf a.pubkey) =
      .ok (ix.accounts.map fun a => (k.all.idxOf a.pubkey).toUInt8) :=
    mapM_except_eq_map fun a ha => indexOf_eq_ok ((hkeys ix hix).2 a ha)
  simp [compileInstruction, indexOf_eq_ok (hkeys ix hix).1, hacc, Instruction.compileAt, bind,
    Except.bind, pure, Except.pure]

theorem compileInstructions_inv {k : AccountKeys} {ixs : List Instruction}
    {cs : List CompiledInstruction} (h : k.compileInstructions ixs = .ok cs) :
    k.size ≤ 256 ∧ (∀ ix ∈ ixs, ix.programId ∈ k.all ∧ ∀ a ∈ ix.accounts, a.pubkey ∈ k.all) ∧
      cs = ixs.map (Instruction.compileAt k.all) := by
  have hsize : k.size ≤ 256 := by
    by_contra hs
    simp [compileInstructions, maxAccountKeys, show k.size > 256 by omega] at h
  refine ⟨hsize, ?_⟩
  rw [compileInstructions, if_neg (by simp [maxAccountKeys]; omega)] at h
  refine mapM_except_inv (fun ix c hc => ?_) h
  simp only [compileInstruction, bind, Except.bind] at hc
  cases hp : k.indexOf ix.programId with
  | error e => simp [hp] at hc
  | ok i =>
    cases hacc : ix.accounts.mapM fun a => k.indexOf a.pubkey with
    | error e => simp [hp, hacc] at hc
    | ok is =>
      simp only [hp, hacc, pure, Except.pure, Except.ok.injEq] at hc
      obtain ⟨hpm, rfl⟩ := indexOf_inv hp
      obtain ⟨ham, rfl⟩ := mapM_except_inv (fun a j hj => indexOf_inv hj) hacc
      exact ⟨⟨hpm, ham⟩, hc ▸ rfl⟩

theorem compileInstructions_withRoles (k : AccountKeys) (roles : Address → KeyMeta)
    (ixs : List Instruction) :
    k.compileInstructions (ixs.map (Instruction.withRoles roles)) = k.compileInstructions ixs := by
  have hci : k.compileInstruction ∘ Instruction.withRoles roles = k.compileInstruction := by
    funext ix
    simp [compileInstruction, List.mapM_map, Function.comp_def]
  simp only [compileInstructions, List.mapM_map, hci]

end AccountKeys

theorem RunLayout.congr {roles roles' : Address → KeyMeta} {p : Address} {h : MessageHeader}
    {keys : List Address} (hl : RunLayout roles p h keys)
    (he : ∀ k ∈ keys, (roles k).isSigner = (roles' k).isSigner ∧
      (roles k).isWritable = (roles' k).isWritable) :
    RunLayout roles' p h keys := by
  obtain ⟨ws, rs, wn, rn, rfl, hws, hrs, hwn, hrn, hsort, hn, hro, hru⟩ := hl
  have he' := fun k (hk : k ∈ ws ∨ k ∈ rs ∨ k ∈ wn ∨ k ∈ rn) => he k (by simp; tauto)
  refine ⟨ws, rs, wn, rn, rfl, fun k hk => ?_, fun k hk => ?_, fun k hk => ?_, fun k hk => ?_,
    hsort, hn, hro, hru⟩
  · rw [← (he' k (by tauto)).1, ← (he' k (by tauto)).2]; exact hws k hk
  · rw [← (he' k (by tauto)).1, ← (he' k (by tauto)).2]; exact hrs k hk
  · rw [← (he' k (by tauto)).1, ← (he' k (by tauto)).2]; exact hwn k hk
  · rw [← (he' k (by tauto)).1, ← (he' k (by tauto)).2]; exact hrn k hk

theorem RunLayout.signers_le {roles : Address → KeyMeta} {p : Address} {h : MessageHeader}
    {keys : List Address} (hl : RunLayout roles p h keys) :
    h.numRequiredSignatures.toNat + h.numReadonlyUnsigned.toNat ≤ keys.length ∧
      h.numReadonlySigned.toNat < h.numRequiredSignatures.toNat := by
  obtain ⟨ws, rs, wn, rn, rfl, -, -, -, -, -, hn, hro, hru⟩ := hl
  simp [hn, hro, hru]
  omega

/-- Under keys laid out by a header, followed by loaded writable and then loaded readonly
non-signers, decompiling reads off each index the roles of the key there. -/
theorem RunLayout.roleAt_eq {roles : Address → KeyMeta} {p : Address} {h : MessageHeader}
    {static W R : List Address} (hl : RunLayout roles p h static)
    (hp : (roles p).isSigner = true ∧ (roles p).isWritable = true)
    (hW : ∀ k ∈ W, (roles k).isSigner = false ∧ (roles k).isWritable = true)
    (hR : ∀ k ∈ R, (roles k).isSigner = false ∧ (roles k).isWritable = false)
    (i : Nat) (hi : i < (static ++ W ++ R).length) :
    TransactionMessage.roleAt h.numRequiredSignatures.toNat
        (h.numRequiredSignatures.toNat - h.numReadonlySigned.toNat) static.length
        (static.length - h.numRequiredSignatures.toNat - h.numReadonlyUnsigned.toNat) W.length i =
      ((roles (static ++ W ++ R)[i]).isSigner, (roles (static ++ W ++ R)[i]).isWritable) := by
  have hle := hl.signers_le
  by_cases hs : i < static.length
  · -- a static key: the header's counts
    have hsig := hl.isSigner_eq hp.1 i hs
    have hwr := hl.isStaticWritable_eq hp.2 i hs
    simp only [List.append_assoc, List.getElem_append_left hs]
    simp only [MessageHeader.isStaticWritable] at hwr
    by_cases hn : i < h.numRequiredSignatures.toNat
    · simp only [hn, decide_true, if_true] at hsig hwr
      simp [TransactionMessage.roleAt, hn, ← hsig, ← hwr]
    · simp only [hn, decide_false, if_false] at hsig hwr
      simp [TransactionMessage.roleAt, hn, hs, ← hsig, ← hwr]
  · -- a loaded key: writable exactly in the first run
    have hj : i - static.length < (W ++ R).length := by simp at hi ⊢; omega
    have hw := getElem_append_of_split (f := fun k => (roles k).isWritable)
      (fun k hk => (hW k hk).2) (fun k hk => (hR k hk).2) _ hj
    have hsg : (roles (W ++ R)[i - static.length]).isSigner = false := by
      rcases List.mem_append.mp (List.getElem_mem hj) with hk | hk
      · exact (hW _ hk).1
      · exact (hR _ hk).1
    simp only [List.append_assoc, List.getElem_append_right (Nat.le_of_not_lt hs)]
    simp only [TransactionMessage.roleAt, if_neg (show ¬ i < h.numRequiredSignatures.toNat by omega),
      if_neg hs, hsg, hw]

namespace KeyTable

theorem keys_foldl_upsert {β : Type} (key : β → Address) (f g : β → KeyMeta → KeyMeta)
    (bs : List β) {es es' : List (Address × KeyMeta)} (h : es.map Prod.fst = es'.map Prod.fst) :
    (bs.foldl (fun es b => upsert (key b) (f b) es) es).map Prod.fst =
      (bs.foldl (fun es b => upsert (key b) (g b) es) es').map Prod.fst := by
  induction bs generalizing es es' with
  | nil => exact h
  | cons b bs ih =>
    apply ih
    rw [keys_upsert, keys_upsert, h]

theorem keys_foldl_withRoles (roles : Address → KeyMeta) (ixs : List Instruction)
    {es es' : List (Address × KeyMeta)} (h : es.map Prod.fst = es'.map Prod.fst) :
    ((ixs.map (Instruction.withRoles roles)).foldl addInstruction es).map Prod.fst =
      (ixs.foldl addInstruction es').map Prod.fst := by
  induction ixs generalizing es es' with
  | nil => exact h
  | cons ix ixs ih =>
    apply ih
    simp only [addInstruction, Instruction.withRoles_accounts, List.foldl_map,
      AccountMeta.withRoles_pubkey, Instruction.withRoles_programId]
    apply keys_foldl_upsert
    rw [keys_upsert, keys_upsert, h]

/-- Whether instructions name a key as an account. -/
def accountIn (ixs : List Instruction) (k : Address) : Bool :=
  ixs.any (·.accounts.any (·.pubkey == k))

private theorem any_pubkey_and (accs : List AccountMeta) (roles : Address → KeyMeta) (k : Address)
    (q : KeyMeta → Bool) :
    (accs.any fun a => a.pubkey == k && q (roles a.pubkey)) =
      (accs.any (·.pubkey == k) && q (roles k)) := by
  rw [Bool.eq_iff_iff]
  simp only [Bool.and_eq_true, List.any_eq_true, beq_iff_eq]
  constructor
  · rintro ⟨a, ha, rfl, hq⟩
    exact ⟨⟨a, ha, rfl⟩, hq⟩
  · rintro ⟨⟨a, ha, rfl⟩, hq⟩
    exact ⟨a, ha, rfl, hq⟩

/-- Instructions whose accounts carry the roles `roles` gives a key sign and write it as `roles`
says, wherever they name it as an account. -/
theorem rolesIn_withRoles (roles : Address → KeyMeta) (ixs : List Instruction) (k : Address) :
    rolesIn (ixs.map (Instruction.withRoles roles)) k =
      ⟨accountIn ixs k && (roles k).isSigner, accountIn ixs k && (roles k).isWritable,
        (rolesIn ixs k).isInvoked⟩ := by
  have hany : ∀ q : KeyMeta → Bool, (ixs.any fun ix =>
      ix.accounts.any fun a => a.pubkey == k && q (roles a.pubkey)) = (accountIn ixs k && q (roles k)) := by
    intro q
    simp only [any_pubkey_and, accountIn]
    cases q (roles k) <;> simp
  apply KeyMeta.ext_roles
  · simpa [rolesIn, List.any_map, Function.comp_def, AccountMeta.withRoles] using hany (·.isSigner)
  · simpa [rolesIn, List.any_map, Function.comp_def, AccountMeta.withRoles] using hany (·.isWritable)
  · simp [rolesIn, List.any_map, Function.comp_def]

theorem accountIn_of_rolesIn {ixs : List Instruction} {k : Address}
    (h : (rolesIn ixs k).isSigner = true ∨ (rolesIn ixs k).isWritable = true) : accountIn ixs k = true := by
  simp only [rolesIn, accountIn, List.any_eq_true, Bool.and_eq_true, beq_iff_eq] at h ⊢
  rcases h with ⟨ix, hix, a, ha, hk, -⟩ | ⟨ix, hix, a, ha, hk, -⟩ <;> exact ⟨ix, hix, a, ha, hk⟩

theorem mergedRoles_withMergedRoles (p : Address) (ixs : List Instruction) :
    mergedRoles p (ixs.map (Instruction.withRoles (mergedRoles p ixs))) = mergedRoles p ixs := by
  funext k
  have hs : (rolesIn ixs k).isSigner = true → accountIn ixs k = true :=
    fun h => accountIn_of_rolesIn (.inl h)
  have hw : (rolesIn ixs k).isWritable = true → accountIn ixs k = true :=
    fun h => accountIn_of_rolesIn (.inr h)
  apply KeyMeta.ext_roles
  · simp only [mergedRoles, rolesIn_withRoles]
    cases hkp : (k == p) <;> cases h : (rolesIn ixs k).isSigner <;> simp_all
  · simp only [mergedRoles, rolesIn_withRoles]
    cases hkp : (k == p) <;> cases h : (rolesIn ixs k).isWritable <;> simp_all
  · simp [mergedRoles, rolesIn_withRoles]

theorem Tabulates.eq_map {es : List (Address × KeyMeta)} {named : Address → Bool}
    {roles : Address → KeyMeta} (h : Tabulates es named roles) :
    es = (es.map Prod.fst).map fun k => (k, roles k) := by
  rw [List.map_map]
  conv_lhs => rw [← List.map_id es]
  exact List.map_congr_left fun e he => by
    simp [← h.roles_eq e he]

theorem compile_withMergedRoles (p : Address) (ixs : List Instruction) :
    compile (ixs.map (Instruction.withRoles (mergedRoles p ixs))) p = compile ixs p := by
  have hkeys : (compile (ixs.map (Instruction.withRoles (mergedRoles p ixs))) p).entries.map
      Prod.fst = (compile ixs p).entries.map Prod.fst := keys_foldl_withRoles _ ixs rfl
  have he : (compile (ixs.map (Instruction.withRoles (mergedRoles p ixs))) p).entries =
      (compile ixs p).entries := by
    rw [(tabulates_compile _ p).eq_map, (tabulates_compile ixs p).eq_map,
      mergedRoles_withMergedRoles]
    exact congrArg (List.map _) hkeys
  exact congrArg (KeyTable.mk p) he

theorem components_runLayout {t : KeyTable} {roles : Address → KeyMeta} (hk : Keyed roles t.entries)
    (hp : t.payer ∈ t.entries.map Prod.fst)
    (hps : (roles t.payer).isSigner = true ∧ (roles t.payer).isWritable = true)
    {hd : MessageHeader} {keys : List Address} (h : t.components = .ok (hd, keys)) :
    RunLayout roles t.payer hd keys := by
  have htab : Tabulates t.entries (fun k => decide (k ∈ t.entries.map Prod.fst))
      (fun k => if k ∈ t.entries.map Prod.fst then roles k else KeyMeta.none) :=
    ⟨hk.nodup, fun k => by simp, fun e he => by simp [List.mem_map_of_mem he, hk.roles_eq e he],
      fun k hn => by simp only [decide_eq_false_iff_not] at hn; simp [hn]⟩
  obtain ⟨rest, hord, hr⟩ := ordered_eq_cons htab (by simpa using hp)
  rw [if_pos hp] at hord
  rw [components_eq hord hps] at h
  split_ifs at h with h₁ h₂
  cases h
  refine (hr.runLayout (by omega) (by omega)).congr fun k hk => ?_
  have hkt : k ∈ t.entries.map Prod.fst := by
    rcases List.mem_cons.mp hk with rfl | hk
    · exact hp
    · have := ((runs_perm rest).map Prod.fst).mem_iff.mp hk
      simpa using ((hr.mem_iff k).mp this).1
  simp [hkt]

end KeyTable

theorem LegacyMessage.compile_withMergedRoles (p : Address) (ixs : List Instruction) (bh : Blockhash) :
    LegacyMessage.compile p (ixs.map (Instruction.withRoles (KeyTable.mergedRoles p ixs))) bh =
      LegacyMessage.compile p ixs bh := by
  simp only [LegacyMessage.compile, KeyTable.compile_withMergedRoles,
    AccountKeys.compileInstructions_withRoles]

theorem V0Message.compile_withMergedRoles (p : Address) (ixs : List Instruction) (bh : Blockhash)
    (T : List LookupTable) :
    V0Message.compile p (ixs.map (Instruction.withRoles (KeyTable.mergedRoles p ixs))) bh T =
      V0Message.compile p ixs bh T := by
  simp only [V0Message.compile, KeyTable.compile_withMergedRoles,
    AccountKeys.compileInstructions_withRoles]


namespace TransactionMessage

variable {vm : VersionedMessage} {src : KeySource} {K : AccountKeys} {roles : Address → KeyMeta}
  {W R : List Address} {p : Address} {ixs : List Instruction}

/-- Decompiling a message laid out by its header, whose loaded keys are writable and then readonly
non-signers and whose instructions are compiled against its keys, maps every index back to its
key with the roles of that key. -/
theorem decompile_eq (hl : RunLayout roles p vm.header vm.staticKeys)
    (hp : (roles p).isSigner = true ∧ (roles p).isWritable = true)
    (hW : ∀ k ∈ W, (roles k).isSigner = false ∧ (roles k).isWritable = true)
    (hR : ∀ k ∈ R, (roles k).isSigner = false ∧ (roles k).isWritable = false)
    (hk : vm.keys src = .ok K) (hall : K.all = vm.staticKeys ++ W ++ R)
    (hnwl : (K.loaded.map (·.writable.length)).getD 0 = W.length) (hsize : K.size ≤ 256)
    (hkeys : ∀ ix ∈ ixs, ix.programId ∈ K.all ∧ ∀ a ∈ ix.accounts, a.pubkey ∈ K.all)
    (hix : vm.instructions = ixs.map (Instruction.compileAt K.all)) :
    decompile vm src = .ok ⟨p, ixs.map (Instruction.withRoles roles), vm.recentBlockhash⟩ := by
  obtain ⟨hle, hro⟩ := hl.signers_le
  have hp0 : K.get? 0 = some p := by
    obtain ⟨ws, rs, wn, rn, hst, -⟩ := hl
    simp [AccountKeys.get?_eq_all, hall, hst]
  have hat : ∀ a ∈ K.all, (K.all.idxOf a).toUInt8.toNat = K.all.idxOf a ∧
      K.get? (K.all.idxOf a) = some a ∧
      roleAt vm.header.numRequiredSignatures.toNat
        (vm.header.numRequiredSignatures.toNat - vm.header.numReadonlySigned.toNat)
        vm.staticKeys.length
        (vm.staticKeys.length - vm.header.numRequiredSignatures.toNat -
          vm.header.numReadonlyUnsigned.toNat) W.length (K.all.idxOf a) =
        ((roles a).isSigner, (roles a).isWritable) := by
    intro a ha
    have hlt := List.idxOf_lt_length_of_mem ha
    have hn : (K.all.idxOf a).toUInt8.toNat = K.all.idxOf a := by
      simp only [AccountKeys.size] at hsize
      simp; omega
    have hget := AccountKeys.get?_idxOf hsize ha
    rw [hn] at hget
    refine ⟨hn, hget, ?_⟩
    rw [RunLayout.roleAt_eq hl hp hW hR _ (hall ▸ hlt)]
    simp only [← hall, List.getElem_idxOf hlt]
  cases hL : K.loaded <;>
    simp only [hL, Option.map_none, Option.map_some, Option.getD_none, Option.getD_some] at hnwl <;>
    rw [← hnwl] at hat
  all_goals
    simp only [decompile, hk, hp0, hL, bind, Except.bind, pure, Except.pure,
      if_neg (show ¬ vm.header.numReadonlySigned.toNat ≥ vm.header.numRequiredSignatures.toNat by
        omega),
      if_neg (show ¬ vm.staticKeys.length < vm.header.numRequiredSignatures.toNat +
        vm.header.numReadonlyUnsigned.toNat by omega), hix, List.mapM_map]
    rw [mapM_except_eq_map (g := Instruction.withRoles roles) fun ix hix => ?_]
    · -- one instruction: its accounts, then its program
      have hpid := hat _ (hkeys ix hix).1
      simp only [Function.comp_def, Instruction.compileAt, List.mapM_map]
      rw [mapM_except_eq_map (g := AccountMeta.withRoles roles) fun a ha => ?_]
      · simp only [hpid.1, hpid.2.1]
        rfl
      have hacc := hat _ ((hkeys ix hix).2 a ha)
      simp only [hacc.1, hacc.2.1, hacc.2.2]
      rfl

end TransactionMessage

namespace LegacyMessage

theorem compile_inv {p : Address} {ixs : List Instruction} {bh : Blockhash} {m : LegacyMessage}
    (h : compile p ixs bh = .ok m) :
    (KeyTable.compile ixs p).components = .ok (m.header, m.accountKeys) ∧
      (AccountKeys.mk m.accountKeys none).compileInstructions ixs = .ok m.instructions ∧
      m.recentBlockhash = bh := by
  simp only [compile, bind, Except.bind] at h
  cases hc : (KeyTable.compile ixs p).components with
  | error e => simp only [hc] at h; cases h
  | ok r =>
  obtain ⟨hd, keys⟩ := r
  simp only [hc] at h
  cases hci : (AccountKeys.mk keys none).compileInstructions ixs with
  | error e => simp only [hci] at h; cases h
  | ok cs =>
  simp only [hci, pure, Except.pure, Except.ok.injEq] at h
  subst h
  exact ⟨rfl, hci, rfl⟩

end LegacyMessage

theorem V0Message.compile_inv {p : Address} {ixs : List Instruction} {bh : Blockhash}
    {T : List LookupTable} {m : V0Message} (h : V0Message.compile p ixs bh T = .ok m) :
    ∃ t L, V0Message.extractAll (KeyTable.compile ixs p) T = .ok (t, m.lookups, L) ∧
      t.components = .ok (m.header, m.staticKeys) ∧
      (AccountKeys.mk m.staticKeys (some L)).compileInstructions ixs = .ok m.instructions ∧
      m.recentBlockhash = bh := by
  obtain ⟨t, L, hd, hx, hc, hci⟩ := V0Message.compile_ok h
  have hm : V0Message.compile p ixs bh T = .ok ⟨hd, m.staticKeys, bh, m.instructions, m.lookups⟩ := by
    simp [V0Message.compile, hx, hc, hci, bind, Except.bind, pure, Except.pure]
  rw [h, Except.ok.injEq] at hm
  have hhd : m.header = hd := congrArg V0Message.header hm
  rw [hhd]
  exact ⟨t, L, hx, hc, hci, congrArg V0Message.recentBlockhash hm⟩

namespace TransactionMessage

open KeyTable

/-- The message with each account given the roles merged over every use of its key. -/
def withMergedRoles (tm : TransactionMessage) : TransactionMessage :=
  ⟨tm.payer, tm.instructions.map (Instruction.withRoles (mergedRoles tm.payer tm.instructions)),
    tm.recentBlockhash⟩

theorem withMergedRoles_eq_self_iff (tm : TransactionMessage) :
    tm.withMergedRoles = tm ↔ ∀ ix ∈ tm.instructions, ∀ a ∈ ix.accounts,
      a.isSigner = (mergedRoles tm.payer tm.instructions a.pubkey).isSigner ∧
      a.isWritable = (mergedRoles tm.payer tm.instructions a.pubkey).isWritable := by
  have hmap : ∀ {α : Type} (f : α → α) (l : List α), l.map f = l ↔ ∀ x ∈ l, f x = x :=
    fun f l => by
      conv_lhs => rhs; rw [← List.map_id l]
      exact List.map_inj_left
  have hacc : ∀ a : AccountMeta, a.withRoles (mergedRoles tm.payer tm.instructions) = a ↔
      a.isSigner = (mergedRoles tm.payer tm.instructions a.pubkey).isSigner ∧
      a.isWritable = (mergedRoles tm.payer tm.instructions a.pubkey).isWritable := by
    intro a
    cases a
    simp [AccountMeta.withRoles, eq_comm]
  obtain ⟨p, ixs, bh⟩ := tm
  simp only [withMergedRoles, mk.injEq, true_and, and_true, hmap]
  refine forall₂_congr fun ix _ => ?_
  obtain ⟨pid, accs, data⟩ := ix
  simp only [Instruction.withRoles, Instruction.mk.injEq, true_and, and_true, hmap, hacc]

/-- Decompiling a compiled version-0 message, its loaded keys resolved from the tables it was
compiled against, gives back the message with every account carrying its merged roles. -/
theorem decompile_v0_toV0 {tm : TransactionMessage} {T : List LookupTable}
    (hT : (T.map (·.key)).Nodup) {m : V0Message} (hm : tm.toV0 T = .ok m) :
    decompile (.v0 m) ⟨none, T⟩ = .ok tm.withMergedRoles := by
  obtain ⟨p, ixs, bh⟩ := tm
  simp only [toV0] at hm
  simp only [withMergedRoles]
  obtain ⟨t, L, hx, hc, hci, hbh⟩ := V0Message.compile_inv hm
  have htab := tabulates_compile ixs p
  have hk : Keyed (mergedRoles p ixs) (KeyTable.compile ixs p).entries := ⟨htab.nodup, htab.roles_eq⟩
  have hl := V0Message.extractAll_loads hk hx
  have hu := V0Message.extractAll_looksUp hk hx
  -- the payer signs, so it is not loaded and stays in the table the static keys come from
  have hpL : p ∉ L.writable ++ L.readonly := fun hpL => by
    have := (hl.loadable hpL).2.1
    simp at this
  have hpt : t.payer ∈ t.entries.map Prod.fst := by
    rw [hl.payer_eq, hl.mem_keys]
    exact ⟨(htab.mem_iff p).mpr (by simp [mentioned]), hpL⟩
  have hlay := components_runLayout (hl.keyed hk) hpt (by simp [hl.payer_eq, compile]) hc
  rw [hl.payer_eq] at hlay
  obtain ⟨hsize, hkeys, hix⟩ := AccountKeys.compileInstructions_inv hci
  have hW : ∀ k ∈ L.writable, (mergedRoles p ixs k).isSigner = false ∧
      (mergedRoles p ixs k).isWritable = true := fun k hk => by
    obtain ⟨-, hs, -, hw, -⟩ := (hl.writable k).mp hk
    exact ⟨hs, hw⟩
  have hR : ∀ k ∈ L.readonly, (mergedRoles p ixs k).isSigner = false ∧
      (mergedRoles p ixs k).isWritable = false := fun k hk => by
    obtain ⟨-, hs, -, hw, -⟩ := (hl.readonly k).mp hk
    exact ⟨hs, hw⟩
  have hall : (AccountKeys.mk m.staticKeys (some L)).all = m.staticKeys ++ L.writable ++ L.readonly := by
    simp [AccountKeys.all, AccountKeys.segments]
  rw [← hbh]
  cases T with
  | nil =>
    obtain ⟨-, hls, rfl⟩ := V0Message.extractAll_nil hx
    have hkeysEq : VersionedMessage.keys (.v0 m) ⟨none, []⟩ = .ok ⟨m.staticKeys, none⟩ := by
      simp [VersionedMessage.keys, V0Message.keys, hls]
    exact decompile_eq hlay (by simp) hW hR hkeysEq
      (by simp [AccountKeys.all, AccountKeys.segments, LoadedAddresses.empty,
        VersionedMessage.staticKeys])
      (by simp [LoadedAddresses.empty])
      (by simpa [AccountKeys.size, AccountKeys.all, AccountKeys.segments, LoadedAddresses.empty]
        using hsize)
      (by simpa [AccountKeys.all, AccountKeys.segments, LoadedAddresses.empty] using hkeys)
      (by simpa [AccountKeys.all, AccountKeys.segments, LoadedAddresses.empty,
        VersionedMessage.instructions] using hix)
  | cons tbl rest =>
    have hres : m.resolve (tbl :: rest) = .ok L :=
      hu.resolves _ fun u hu' => V0Message.find?_key hT hu'
    have hkeysEq : VersionedMessage.keys (.v0 m) ⟨none, tbl :: rest⟩ = .ok ⟨m.staticKeys, some L⟩ := by
      simp [VersionedMessage.keys, V0Message.keys, hres, Except.map]
    exact decompile_eq hlay (by simp) hW hR hkeysEq hall rfl hsize hkeys hix

theorem decompile_legacy_toLegacy {tm : TransactionMessage} {m : LegacyMessage}
    (hm : tm.toLegacy = .ok m) (src : KeySource) :
    decompile (.legacy m) src = .ok tm.withMergedRoles := by
  obtain ⟨p, ixs, bh⟩ := tm
  simp only [toLegacy] at hm
  simp only [withMergedRoles]
  obtain ⟨hc, hci, hbh⟩ := LegacyMessage.compile_inv hm
  have htab := tabulates_compile ixs p
  have hlay := components_runLayout (t := KeyTable.compile ixs p) ⟨htab.nodup, htab.roles_eq⟩
    ((htab.mem_iff p).mpr (by simp [mentioned])) (by simp [compile]) hc
  obtain ⟨hsize, hkeys, hix⟩ := AccountKeys.compileInstructions_inv hci
  rw [← hbh]
  exact decompile_eq (W := []) (R := []) hlay (by simp) (by simp) (by simp) rfl
    (by simp [AccountKeys.all, AccountKeys.segments, LegacyMessage.keys, VersionedMessage.staticKeys])
    rfl hsize hkeys hix

/-- Decompiling a compiled message and compiling the result again is the identity on compiled
messages. Decompiling a version-0 message against the tables (with distinct keys) it was compiled
against, or a legacy message, gives back the fee payer, the blockhash and every instruction's
program, data and account keys, each account carrying the signer and writable roles merged over all
uses of its key; compiling that again gives the same message. Decompiling gives back the message
it started from exactly when its accounts already carried their merged roles. -/
theorem recompile_decompile (tm : TransactionMessage) (T : List LookupTable)
    (hT : (T.map (·.key)).Nodup) :
    (∀ m, tm.toV0 T = .ok m →
      decompile (.v0 m) ⟨none, T⟩ = .ok tm.withMergedRoles ∧ tm.withMergedRoles.toV0 T = .ok m) ∧
    (∀ m, tm.toLegacy = .ok m →
      decompile (.legacy m) ⟨none, []⟩ = .ok tm.withMergedRoles ∧
        tm.withMergedRoles.toLegacy = .ok m) ∧
    (tm.withMergedRoles = tm ↔ ∀ ix ∈ tm.instructions, ∀ a ∈ ix.accounts,
      a.isSigner = (mergedRoles tm.payer tm.instructions a.pubkey).isSigner ∧
      a.isWritable = (mergedRoles tm.payer tm.instructions a.pubkey).isWritable) := by
  refine ⟨fun m hm => ⟨decompile_v0_toV0 hT hm, ?_⟩, fun m hm => ⟨decompile_legacy_toLegacy hm _, ?_⟩,
    withMergedRoles_eq_self_iff tm⟩
  · rw [← hm]
    exact V0Message.compile_withMergedRoles _ _ _ _
  · rw [← hm]
    exact LegacyMessage.compile_withMergedRoles _ _ _

private theorem lowByte_length (b : UInt8) : (List.replicate 31 0 ++ [b]).length = 32 := by simp

private def loadedTwice : Address := ⟨List.replicate 31 0 ++ [1], lowByte_length 1⟩

private def loadedTwiceTable : LookupTable :=
  LookupTable.ofAddresses ⟨List.replicate 31 0 ++ [2], lowByte_length 2⟩ [loadedTwice]

/-- A payer running the program itself on one account named twice, writable and then readonly. -/
private def namedTwice : TransactionMessage :=
  ⟨Address.zero, [⟨Address.zero, [⟨loadedTwice, false, true⟩, ⟨loadedTwice, false, false⟩], [7]⟩],
    Blockhash.zero⟩

private def namedTwiceV0 : V0Message :=
  ⟨⟨1, 0, 0⟩, [Address.zero], Blockhash.zero, [⟨0, [1, 1], [7]⟩], [⟨loadedTwiceTable.key, [0], []⟩]⟩

/-- An account named twice, writable and readonly, is loaded once as writable; decompiling gives
both uses the writable role and recompiling gives the same message. -/
theorem recompile_decompile_namedTwice :
    ([loadedTwiceTable].map (·.key)).Nodup ∧ namedTwice.toV0 [loadedTwiceTable] = .ok namedTwiceV0 ∧
    decompile (.v0 namedTwiceV0) ⟨none, [loadedTwiceTable]⟩ = .ok namedTwice.withMergedRoles ∧
    namedTwice.withMergedRoles.toV0 [loadedTwiceTable] = .ok namedTwiceV0 := by
  have hT : ([loadedTwiceTable].map (·.key)).Nodup := List.nodup_singleton _
  have hm : namedTwice.toV0 [loadedTwiceTable] = .ok namedTwiceV0 := by cbv
  exact ⟨hT, hm, (recompile_decompile namedTwice [loadedTwiceTable] hT).1 _ hm⟩

end TransactionMessage

end ChainTx
