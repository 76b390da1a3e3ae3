import ChainTx.Proofs.CanonicalWire
/-!
# The roles decompiling and populating give each account

Decompiling reads the roles of an account off its index: the header's counts for a static key,
and for a loaded key whether it falls among the writable loaded keys the key source gave. The
message's own query counts the writable loaded keys of its lookups instead. The two agree on every
index whenever the loaded keys split as the lookups do, which they do when they are resolved from
tables; loaded keys given by the caller are checked only for their total, and a split that differs
gives loaded keys roles the message does not.
-/

namespace ChainTx

theorem mapM_except_forall₂ {α β ε : Type} {f : α → Except ε β} {R : α → β → Prop}
    {xs : List α} {ys : List β} (hf : ∀ x y, f x = .ok y → R x y) (h : xs.mapM f = .ok ys) :
    List.Forall₂ R xs ys := by
  induction xs generalizing ys with
  | nil =>
    cases h
    exact .nil
  | cons x xs ih =>
    rw [List.mapM_cons] at h
    cases hx : f x with
    | error e => simp [hx, bind, Except.bind] at h
    | ok y =>
      cases hxs : xs.mapM f with
      | error e => simp [hx, hxs, bind, Except.bind] at h
      | ok ys' =>
        simp only [hx, hxs, bind, Except.bind, pure, Except.pure, Except.ok.injEq] at h
        subst h
        exact .cons (hf x y hx) (ih hxs)

/-- The number of writable loaded keys, none when no keys were loaded. -/
def AccountKeys.numLoadedWritable (K : AccountKeys) : Nat :=
  (K.loaded.map (·.writable.length)).getD 0

namespace VersionedMessage

/-- The number of writable keys the lookups load; a legacy message loads none. -/
def numLoadedWritable : VersionedMessage → Nat
  | .legacy _ => 0
  | .v0 m => m.numLoadedWritable

theorem isWritable_eq (vm : VersionedMessage) (i : Nat) :
    vm.isWritable i = if i < vm.staticKeys.length then vm.header.isStaticWritable i vm.staticKeys.length
      else decide (i - vm.staticKeys.length < vm.numLoadedWritable) := by
  cases vm with
  | legacy m =>
    show m.isWritable i = if i < m.accountKeys.length then
      m.header.isStaticWritable i m.accountKeys.length else decide (i - m.accountKeys.length < 0)
    by_cases hi : i < m.accountKeys.length
    · simp [LegacyMessage.isWritable, hi]
    · simp [LegacyMessage.isWritable, hi]
  | v0 m =>
    show m.isWritable i = if i < m.staticKeys.length then
      m.header.isStaticWritable i m.staticKeys.length
      else decide (i - m.staticKeys.length < m.numLoadedWritable)
    by_cases hi : i < m.staticKeys.length
    · simp [V0Message.isWritable, hi]
    · simp [V0Message.isWritable, hi, Nat.le_of_not_lt hi]

end VersionedMessage

theorem resolveLookups_counts {tables : List LookupTable} {ls : List TableLookup}
    {l : LoadedAddresses} (h : resolveLookups tables ls = .ok l) :
    l.writable.length = (ls.map (·.writableIndexes.length)).foldr (· + ·) 0 ∧
      l.size = (ls.map TableLookup.size).foldr (· + ·) 0 := by
  induction ls generalizing l with
  | nil =>
    cases h
    exact ⟨rfl, rfl⟩
  | cons lk ls ih =>
    cases hf : tables.find? (·.key == lk.accountKey) with
    | none => simp [resolveLookups, hf, bind, Except.bind, throw, throwThe, MonadExceptOf.throw] at h
    | some t =>
    simp only [resolveLookups, hf, bind, Except.bind, pure, Except.pure] at h
    cases hw : TableLookup.fetch t lk.writableIndexes with
    | error e => simp [hw] at h
    | ok w =>
      cases hr : TableLookup.fetch t lk.readonlyIndexes with
      | error e => simp [hw, hr] at h
      | ok r =>
        cases hm : resolveLookups tables ls with
        | error e => simp [hw, hr, hm] at h
        | ok more =>
          simp only [hw, hr, hm, Except.ok.injEq] at h
          subst h
          obtain ⟨ihw, ihs⟩ := ih hm
          have hlw := TableLookup.length_of_fetch hw
          have hlr := TableLookup.length_of_fetch hr
          simp only [LoadedAddresses.append, LoadedAddresses.size, List.length_append, List.map_cons,
            List.foldr_cons, TableLookup.size] at ihw ihs ⊢
          omega

/-- The three ways a version-0 message gets its keys: loaded keys given, as many as its lookups
load; loaded keys resolved from the tables; or none, for a message without lookups. -/
theorem V0Message.keys_inv {m : V0Message} {src : KeySource} {K : AccountKeys}
    (h : m.keys src = .ok K) :
    K.static = m.staticKeys ∧
      ((∃ l, src.loaded = some l ∧ l.size = m.numLoaded ∧ K.loaded = some l) ∨
        (src.loaded = none ∧ ∃ l, m.resolve src.tables = .ok l ∧ K.loaded = some l) ∨
        (src.loaded = none ∧ m.lookups = [] ∧ K.loaded = none)) := by
  simp only [V0Message.keys] at h
  split at h
  · rename_i l hl
    split_ifs at h with hn
    cases h
    exact ⟨rfl, .inl ⟨l, hl, not_not.mp hn, rfl⟩⟩
  · rename_i hl
    split_ifs at h with ht hlk
    · cases hr : m.resolve src.tables with
      | error e => simp [hr, Except.map] at h
      | ok l =>
        simp only [hr, Except.map, Except.ok.injEq] at h
        subst h
        exact ⟨rfl, .inr (.inl ⟨hl, l, rfl, rfl⟩)⟩
    · cases h
      simp only [Bool.not_eq_true', List.isEmpty_eq_false_iff, ne_eq, Decidable.not_not] at hlk
      exact ⟨rfl, .inr (.inr ⟨hl, hlk, rfl⟩)⟩

theorem AccountKeys.size_eq (K : AccountKeys) :
    K.size = K.static.length + (K.loaded.map LoadedAddresses.size).getD 0 := by
  cases hl : K.loaded <;> simp [size, all, segments, hl, LoadedAddresses.size]

theorem VersionedMessage.keys_inv {vm : VersionedMessage} {src : KeySource} {K : AccountKeys}
    (h : vm.keys src = .ok K) : K.static = vm.staticKeys ∧ K.size = vm.numKeys := by
  cases vm with
  | legacy m =>
    cases h
    simp [LegacyMessage.keys, AccountKeys.size, numKeys, staticKeys]
  | v0 m =>
    obtain ⟨hst, hcase⟩ := V0Message.keys_inv h
    refine ⟨hst, ?_⟩
    rw [AccountKeys.size_eq, hst]
    rcases hcase with ⟨l, -, hn, hl⟩ | ⟨-, l, hr, hl⟩ | ⟨-, hlk, hl⟩
    · simp [hl, hn, numKeys]
    · simp [hl, (resolveLookups_counts hr).2, numKeys, V0Message.numLoaded]
    · simp [hl, hlk, numKeys, V0Message.numLoaded]

theorem VersionedMessage.numLoadedWritable_keys {vm : VersionedMessage} {src : KeySource}
    {K : AccountKeys} (h : vm.keys src = .ok K) (hs : src.loaded = none ∨ vm.lookups = []) :
    K.numLoadedWritable = vm.numLoadedWritable := by
  cases vm with
  | legacy m =>
    cases h
    rfl
  | v0 m =>
    obtain ⟨-, hcase⟩ := V0Message.keys_inv h
    rcases hcase with ⟨l, hsl, hn, hl⟩ | ⟨-, l, hr, hl⟩ | ⟨-, hlk, hl⟩
    · -- keys given for a message without lookups: there are none to give
      have hlk : m.lookups = [] := hs.resolve_left (by rw [hsl]; exact Option.some_ne_none l)
      simp [V0Message.numLoaded, hlk, LoadedAddresses.size] at hn
      simp [AccountKeys.numLoadedWritable, numLoadedWritable, V0Message.numLoadedWritable, hlk,
        hl, hn]
    · simp [AccountKeys.numLoadedWritable, numLoadedWritable, V0Message.numLoadedWritable, hl,
        (resolveLookups_counts hr).1]
    · simp [AccountKeys.numLoadedWritable, numLoadedWritable, V0Message.numLoadedWritable, hl, hlk]

theorem AccountKeys.length_static_le_size (K : AccountKeys) : K.static.length ≤ K.size := by
  rw [K.size_eq]
  exact Nat.le_add_right _ _

/-- The roles of the account at an index when `w` loaded keys are writable: a signer by the header,
a static key writable by the header, a loaded key writable among the first `w`. -/
def VersionedMessage.rolesAt (vm : VersionedMessage) (w i : Nat) : Bool × Bool :=
  (vm.isSigner i, if i < vm.staticKeys.length then vm.header.isStaticWritable i vm.staticKeys.length
    else decide (i - vm.staticKeys.length < w))

theorem VersionedMessage.rolesAt_numLoadedWritable (vm : VersionedMessage) (i : Nat) :
    vm.rolesAt vm.numLoadedWritable i = (vm.isSigner i, vm.isWritable i) := by
  rw [rolesAt, isWritable_eq]

/-- `ix` is `cix` with its program and every account the key at its index, each account with the
roles `roles` gives its index, and its data kept. -/
structure DecompiledBy (key : Nat → Option Address) (roles : Nat → Bool × Bool)
    (cix : CompiledInstruction) (ix : Instruction) : Prop where
  program : key cix.programIdIndex.toNat = some ix.programId
  accounts : List.Forall₂ (fun i a => key i.toNat = some a.pubkey ∧
    (a.isSigner, a.isWritable) = roles i.toNat) cix.accounts ix.accounts
  data : ix.data = cix.data

namespace TransactionMessage

theorem roleAt_eq_rolesAt (vm : VersionedMessage) (w i : Nat)
    (hn : vm.header.numRequiredSignatures.toNat ≤ vm.staticKeys.length) :
    roleAt vm.header.numRequiredSignatures.toNat
        (vm.header.numRequiredSignatures.toNat - vm.header.numReadonlySigned.toNat)
        vm.staticKeys.length
        (vm.staticKeys.length - vm.header.numRequiredSignatures.toNat -
          vm.header.numReadonlyUnsigned.toNat) w i =
      vm.rolesAt w i := by
  unfold roleAt VersionedMessage.rolesAt VersionedMessage.isSigner MessageHeader.isStaticWritable
  by_cases h₁ : i < vm.header.numRequiredSignatures.toNat
  · simp [h₁, show i < vm.staticKeys.length by omega]
  · by_cases h₂ : i < vm.staticKeys.length
    · simp [h₁, h₂]
    · simp [h₁, h₂]

/-- One account index decompiled against keys. -/
def decompileAccount (K : AccountKeys) (roles : Nat → Bool × Bool) (i : UInt8) :
    Except SolError AccountMeta :=
  match K.get? i.toNat with
  | some k => .ok ⟨k, (roles i.toNat).1, (roles i.toNat).2⟩
  | none => .error (.invalidMessage (.missingAccountKey i.toNat))

/-- One compiled instruction decompiled against keys, the roles of each account read off its
index by `roles`. -/
def decompileInstruction (K : AccountKeys) (roles : Nat → Bool × Bool)
    (cix : CompiledInstruction) : Except SolError Instruction := do
  let accounts ← cix.accounts.mapM (decompileAccount K roles)
  match K.get? cix.programIdIndex.toNat with
  | some p => pure ⟨p, accounts, cix.data⟩
  | none => throw (.invalidMessage (.missingProgramId cix.programIdIndex.toNat))

theorem decompileInstruction_inv {K : AccountKeys} {roles : Nat → Bool × Bool}
    {cix : CompiledInstruction} {ix : Instruction} (h : decompileInstruction K roles cix = .ok ix) :
    DecompiledBy K.get? roles cix ix := by
  have hacc : ∀ i a, decompileAccount K roles i = .ok a →
      K.get? i.toNat = some a.pubkey ∧ (a.isSigner, a.isWritable) = roles i.toNat := by
    intro i a ha
    unfold decompileAccount at ha
    cases hk : K.get? i.toNat with
    | none => simp [hk] at ha
    | some k =>
      simp only [hk, Except.ok.injEq] at ha
      subst ha
      exact ⟨rfl, rfl⟩
  simp only [decompileInstruction, bind, Except.bind] at h
  cases hm : cix.accounts.mapM (decompileAccount K roles) with
  | error e => simp [hm] at h
  | ok accounts =>
    cases hp : K.get? cix.programIdIndex.toNat with
    | none => simp [hm, hp, throw, throwThe, MonadExceptOf.throw] at h
    | some p =>
      simp only [hm, hp, pure, Except.pure, Except.ok.injEq] at h
      subst h
      exact ⟨hp, mapM_except_forall₂ hacc hm, rfl⟩

theorem decompileInstruction_ok {K : AccountKeys} (roles : Nat → Bool × Bool)
    {cix : CompiledInstruction} (hp : cix.programIdIndex.toNat < K.size)
    (ha : ∀ i ∈ cix.accounts, i.toNat < K.size) :
    ∃ ix, decompileInstruction K roles cix = .ok ix := by
  have hget : ∀ j, j < K.size → ∃ k, K.get? j = some k :=
    fun j hj => ⟨_, (AccountKeys.get?_eq_all K j).trans (List.getElem?_eq_getElem hj)⟩
  obtain ⟨accounts, hacc⟩ := mapM_except_ok (decompileAccount K roles) cix.accounts fun i hi => by
    obtain ⟨k, hk⟩ := hget _ (ha i hi)
    exact ⟨_, by rw [decompileAccount, hk]⟩
  obtain ⟨p, hpk⟩ := hget _ hp
  refine ⟨⟨p, accounts, cix.data⟩, ?_⟩
  simp only [decompileInstruction, hacc, hpk, bind, Except.bind, pure, Except.pure]

variable {vm : VersionedMessage} {src : KeySource} {K : AccountKeys}

/-- Decompiling refuses a header whose readonly signers are not fewer than its signers, or whose
signers and readonly non-signers are more than the static keys. -/
theorem decompile_invalidHeader
    (hg : ¬ (vm.header.numReadonlySigned.toNat < vm.header.numRequiredSignatures.toNat ∧
      vm.header.numRequiredSignatures.toNat + vm.header.numReadonlyUnsigned.toNat ≤
        vm.staticKeys.length)) :
    decompile vm src = .error (.invalidMessage .invalidHeader) := by
  by_cases g₁ : vm.header.numReadonlySigned.toNat ≥ vm.header.numRequiredSignatures.toNat
  · simp [decompile, g₁, bind, Except.bind, throw, throwThe, MonadExceptOf.throw]
  · have g₂ : vm.staticKeys.length <
        vm.header.numRequiredSignatures.toNat + vm.header.numReadonlyUnsigned.toNat := by omega
    simp [decompile, g₁, g₂, bind, Except.bind, throw, throwThe, MonadExceptOf.throw]

theorem decompile_eq_of_payer (hK : vm.keys src = .ok K)
    (g₁ : vm.header.numReadonlySigned.toNat < vm.header.numRequiredSignatures.toNat)
    (g₂ : vm.header.numRequiredSignatures.toNat + vm.header.numReadonlyUnsigned.toNat ≤
      vm.staticKeys.length) {p : Address} (hp : K.get? 0 = some p) :
    decompile vm src = (vm.instructions.mapM (decompileInstruction K
      (vm.rolesAt K.numLoadedWritable))).map fun ixs => ⟨p, ixs, vm.recentBlockhash⟩ := by
  have hroles : roleAt vm.header.numRequiredSignatures.toNat
      (vm.header.numRequiredSignatures.toNat - vm.header.numReadonlySigned.toNat)
      vm.staticKeys.length
      (vm.staticKeys.length - vm.header.numRequiredSignatures.toNat -
        vm.header.numReadonlyUnsigned.toNat) K.numLoadedWritable = vm.rolesAt K.numLoadedWritable :=
    funext fun i => roleAt_eq_rolesAt vm _ i (by omega)
  rw [← hroles]
  simp only [decompile, hK, hp, bind, Except.bind, pure, Except.pure,
    if_neg (show ¬ vm.header.numReadonlySigned.toNat ≥ vm.header.numRequiredSignatures.toNat by
      omega),
    if_neg (show ¬ vm.staticKeys.length < vm.header.numRequiredSignatures.toNat +
      vm.header.numReadonlyUnsigned.toNat by omega), AccountKeys.numLoadedWritable]
  cases hL : K.loaded <;> rfl

/-- What decompiling gives: the header passed its checks, and every instruction is its compiled
form with the keys at the indexes, and the roles decompiling reads off them. -/
theorem decompile_inv {tm : TransactionMessage} (hK : vm.keys src = .ok K)
    (h : decompile vm src = .ok tm) :
    vm.header.numReadonlySigned.toNat < vm.header.numRequiredSignatures.toNat ∧
      vm.header.numRequiredSignatures.toNat + vm.header.numReadonlyUnsigned.toNat ≤
        vm.staticKeys.length ∧
      List.Forall₂ (DecompiledBy K.get? (vm.rolesAt K.numLoadedWritable)) vm.instructions
        tm.instructions := by
  by_cases hg : vm.header.numReadonlySigned.toNat < vm.header.numRequiredSignatures.toNat ∧
      vm.header.numRequiredSignatures.toNat + vm.header.numReadonlyUnsigned.toNat ≤
        vm.staticKeys.length
  swap
  · rw [decompile_invalidHeader hg] at h
    cases h
  cases hp : K.get? 0 with
  | none =>
    simp [decompile, hK, hp, bind, Except.bind, throw, throwThe, MonadExceptOf.throw,
      Nat.not_le_of_lt hg.1, Nat.not_lt_of_le hg.2] at h
  | some p =>
    rw [decompile_eq_of_payer hK hg.1 hg.2 hp] at h
    cases hm : vm.instructions.mapM (decompileInstruction K (vm.rolesAt K.numLoadedWritable)) with
    | error e =>
      rw [hm] at h
      cases h
    | ok ixs =>
      rw [hm] at h
      cases h
      exact ⟨hg.1, hg.2, mapM_except_forall₂ (fun _ _ => decompileInstruction_inv) hm⟩

theorem decompile_ok (hK : vm.keys src = .ok K)
    (g₁ : vm.header.numReadonlySigned.toNat < vm.header.numRequiredSignatures.toNat)
    (g₂ : vm.header.numRequiredSignatures.toNat + vm.header.numReadonlyUnsigned.toNat ≤
      vm.staticKeys.length) (h0 : 0 < K.size)
    (hix : ∀ cix ∈ vm.instructions, cix.programIdIndex.toNat < K.size ∧
      ∀ i ∈ cix.accounts, i.toNat < K.size) :
    ∃ tm, decompile vm src = .ok tm := by
  obtain ⟨p, hp⟩ : ∃ p, K.get? 0 = some p :=
    ⟨_, (AccountKeys.get?_eq_all K 0).trans (List.getElem?_eq_getElem h0)⟩
  obtain ⟨ixs, hixs⟩ := mapM_except_ok (decompileInstruction K (vm.rolesAt K.numLoadedWritable))
    vm.instructions fun cix hc => decompileInstruction_ok _ (hix cix hc).1 (hix cix hc).2
  rw [decompile_eq_of_payer hK g₁ g₂ hp, hixs]
  exact ⟨_, rfl⟩

end TransactionMessage

theorem map_snd_zip_eq_take {α β : Type} (l₁ : List α) (l₂ : List β) :
    (l₁.zip l₂).map Prod.snd = l₂.take l₁.length := by
  induction l₁ generalizing l₂ with
  | nil => simp
  | cons a l₁ ih => cases l₂ <;> simp [ih]

theorem contains_take_of_nodup {l : List Address} (hnd : l.Nodup) {i n : Nat} {k : Address}
    (hk : l[i]? = some k) : (l.take n).contains k = decide (i < n) := by
  obtain ⟨hi, rfl⟩ := List.getElem?_eq_some_iff.mp hk
  rw [Bool.eq_iff_iff, List.contains_iff_mem, List.mem_take_iff_idxOf_lt (List.getElem_mem hi),
    List.Nodup.idxOf_getElem hnd i hi, decide_eq_true_iff]

namespace Transaction

/-- The key at an index of a legacy message, as populating looks it up. -/
def keyAt (m : LegacyMessage) (i : Nat) : Except SolError Address :=
  match m.accountKeys[i]? with
  | some k => .ok k
  | none => .error (.invalidMessage (.accountIndexOutOfRange i))

/-- One account index populated from a legacy message, `signed` the keys of the signer slots. -/
def populateAccount (m : LegacyMessage) (signed : List Address) (i : UInt8) :
    Except SolError AccountMeta := do
  let k ← keyAt m i.toNat
  pure ⟨k, signed.contains k || m.isSigner i.toNat, m.isWritable i.toNat⟩

/-- One compiled instruction populated from a legacy message. -/
def populateInstruction (m : LegacyMessage) (signed : List Address) (c : CompiledInstruction) :
    Except SolError Instruction := do
  let accounts ← c.accounts.mapM (populateAccount m signed)
  let program ← keyAt m c.programIdIndex.toNat
  pure ⟨program, accounts, c.data⟩

variable {m : LegacyMessage} {sigs : List Signature}

theorem populate_inv {tx : Transaction} (h : populate m sigs = .ok tx) :
    sigs.length = m.header.numRequiredSignatures.toNat ∧
      m.instructions.mapM (populateInstruction m (m.accountKeys.take sigs.length)) =
        .ok tx.instructions := by
  simp only [populate, bind, Except.bind, pure, Except.pure, List.map_map, Function.comp_def,
    map_snd_zip_eq_take] at h
  by_cases hc : sigs.length = m.header.numRequiredSignatures.toNat
  · rw [if_neg (by omega)] at h
    refine ⟨hc, ?_⟩
    split at h
    · cases h
    · rename_i ixs hixs
      cases h
      rw [← hixs]
      rfl
  · rw [if_pos hc] at h
    cases h

theorem populate_ok {ixs : List Instruction} (hc : sigs.length = m.header.numRequiredSignatures.toNat)
    (hix : m.instructions.mapM (populateInstruction m (m.accountKeys.take sigs.length)) = .ok ixs) :
    ∃ tx, populate m sigs = .ok tx := by
  simp only [populate, bind, Except.bind, pure, Except.pure, List.map_map, Function.comp_def,
    map_snd_zip_eq_take]
  rw [if_neg (by omega)]
  split
  · rename_i e he
    exact absurd (he.symm.trans hix) (fun h => by cases h)
  · exact ⟨_, rfl⟩

theorem populateInstruction_ok (signed : List Address) {c : CompiledInstruction}
    (hp : c.programIdIndex.toNat < m.accountKeys.length)
    (ha : ∀ i ∈ c.accounts, i.toNat < m.accountKeys.length) :
    ∃ ix, populateInstruction m signed c = .ok ix := by
  have hkey : ∀ j, j < m.accountKeys.length → ∃ k, keyAt m j = .ok k :=
    fun j hj => ⟨_, by rw [keyAt, List.getElem?_eq_getElem hj]⟩
  obtain ⟨accounts, hacc⟩ := mapM_except_ok (populateAccount m signed) c.accounts fun i hi => by
    obtain ⟨k, hk⟩ := hkey _ (ha i hi)
    exact ⟨_, by rw [populateAccount, hk]; rfl⟩
  obtain ⟨p, hpk⟩ := hkey _ hp
  refine ⟨⟨p, accounts, c.data⟩, ?_⟩
  simp only [populateInstruction, hacc, hpk, bind, Except.bind, pure, Except.pure]

theorem populateInstruction_inv (hnd : m.accountKeys.Nodup)
    (hc : sigs.length = m.header.numRequiredSignatures.toNat) {c : CompiledInstruction}
    {ix : Instruction} (h : populateInstruction m (m.accountKeys.take sigs.length) c = .ok ix) :
    DecompiledBy m.keys.get? (fun i => (m.isSigner i, m.isWritable i)) c ix := by
  have hget : ∀ j, m.keys.get? j = m.accountKeys[j]? := fun j => by
    simp [LegacyMessage.keys, AccountKeys.get?_eq_all, AccountKeys.all, AccountKeys.segments]
  have hkey : ∀ j k, keyAt m j = .ok k → m.accountKeys[j]? = some k := by
    intro j k hk
    unfold keyAt at hk
    cases hj : m.accountKeys[j]? with
    | none => simp [hj] at hk
    | some k' =>
      simp only [hj, Except.ok.injEq] at hk
      rw [hk]
  simp only [populateInstruction, bind, Except.bind] at h
  split at h
  · cases h
  rename_i accounts hacc
  split at h
  · cases h
  rename_i p hp
  cases h
  refine ⟨by rw [hget]; exact hkey _ _ hp, mapM_except_forall₂ (fun i a ha => ?_) hacc, rfl⟩
  simp only [populateAccount, bind, Except.bind] at ha
  split at ha
  · cases ha
  rename_i k hk
  cases ha
  have hki := hkey _ _ hk
  refine ⟨by rw [hget]; exact hki, ?_⟩
  rw [contains_take_of_nodup hnd hki, hc]
  simp [LegacyMessage.isSigner]

end Transaction

/-! ### Roles of decompiled and populated accounts -/

/-- Decompiling gives every account the roles the message gives its index, except that loaded
keys follow the split of the keys the source gave, which tables always make as the lookups do and
keys given for a message with lookups need not. Populating a decoded legacy message succeeds with
one signature per signer, and with distinct keys gives every account the message's roles. -/
theorem decompiled_roles_follow_message :
    (∀ (vm : VersionedMessage) (src : KeySource) (K : AccountKeys) (tm : TransactionMessage),
      vm.keys src = .ok K → TransactionMessage.decompile vm src = .ok tm →
        List.Forall₂ (DecompiledBy K.get? (vm.rolesAt K.numLoadedWritable)) vm.instructions
          tm.instructions ∧
        (K.numLoadedWritable = vm.numLoadedWritable →
          List.Forall₂ (DecompiledBy K.get? fun i => (vm.isSigner i, vm.isWritable i))
            vm.instructions tm.instructions)) ∧
    (∀ (vm : VersionedMessage) (src : KeySource) (K : AccountKeys), vm.keys src = .ok K →
      src.loaded = none ∨ vm.lookups = [] → K.numLoadedWritable = vm.numLoadedWritable) ∧
    (∀ (b : List UInt8) (m : LegacyMessage) (sigs : List Signature),
      LegacyMessage.decode b = .ok m → m.accountKeys.Nodup →
        ((∃ tx, Transaction.populate m sigs = .ok tx) ↔
          sigs.length = m.header.numRequiredSignatures.toNat) ∧
        ∀ tx, Transaction.populate m sigs = .ok tx →
          List.Forall₂ (DecompiledBy m.keys.get? fun i => (m.isSigner i, m.isWritable i))
            m.instructions tx.instructions) := by
  refine ⟨fun vm src K tm hK h => ?_, fun _ _ _ hK hs => VersionedMessage.numLoadedWritable_keys hK hs,
    fun b m sigs hb hnd => ?_⟩
  · obtain ⟨-, -, hix⟩ := TransactionMessage.decompile_inv hK h
    refine ⟨hix, fun hw => ?_⟩
    have hroles : vm.rolesAt K.numLoadedWritable = fun i => (vm.isSigner i, vm.isWritable i) := by
      funext i
      rw [hw, VersionedMessage.rolesAt_numLoadedWritable]
    rwa [hroles] at hix
  · obtain ⟨hs, -⟩ := LegacyMessage.decode_inv hb
    refine ⟨⟨?_, fun hc => ?_⟩, fun tx htx => ?_⟩
    · rintro ⟨tx, htx⟩
      exact (Transaction.populate_inv htx).1
    · -- the sanitizer bounds every index by the keys
      obtain ⟨ixs, hixs⟩ := mapM_except_ok
        (Transaction.populateInstruction m (m.accountKeys.take sigs.length)) m.instructions
        fun c hc' => Transaction.populateInstruction_ok _ (hs.program_lt c hc') (hs.accounts_lt c hc')
      exact Transaction.populate_ok hc hixs
    · obtain ⟨hc, hixs⟩ := Transaction.populate_inv htx
      exact mapM_except_forall₂ (fun _ _ => Transaction.populateInstruction_inv hnd hc) hixs

private theorem byteKey_length (b : UInt8) : (List.replicate 31 0 ++ [b]).length = 32 := by simp

/-- The key whose bytes are zero but for the last, `b`. -/
private def byteKey (b : UInt8) : Address := ⟨List.replicate 31 0 ++ [b], byteKey_length b⟩

/-- A payer and a program, the payer the one account of the one instruction. -/
private def payerProgram : LegacyMessage :=
  ⟨⟨1, 0, 1⟩, [Address.zero, byteKey 1], Blockhash.zero, [⟨1, [0], [7]⟩]⟩

private def payerProgramDecompiled : TransactionMessage :=
  ⟨Address.zero, [⟨byteKey 1, [⟨Address.zero, true, true⟩], [7]⟩], Blockhash.zero⟩

/-- A table holding the keys 2 and 3. -/
private def splitTable : LookupTable := LookupTable.ofAddresses (byteKey 8) [byteKey 2, byteKey 3]

/-- A payer running program 5 on itself and two keys of the table, the first loaded writable and
the second readonly. -/
private def splitLoads : V0Message :=
  ⟨⟨1, 0, 1⟩, [Address.zero, byteKey 5], Blockhash.zero, [⟨1, [0, 2, 3], [7]⟩],
    [⟨splitTable.key, [0], [1]⟩]⟩

private def splitLoadsDecompiled : TransactionMessage :=
  ⟨Address.zero, [⟨byteKey 5, [⟨Address.zero, true, true⟩, ⟨byteKey 2, false, true⟩,
    ⟨byteKey 3, false, false⟩], [7]⟩], Blockhash.zero⟩

/-- On a payer running a program, decompiling and populating both give the payer its roles as
the one signer, writable; with keys resolved from a table, decompiling gives the loaded keys the
message's roles, writable for the first and readonly for the second. -/
theorem decompiled_roles_follow_message_tableLoads :
    TransactionMessage.decompile (.legacy payerProgram) ⟨none, []⟩ = .ok payerProgramDecompiled ∧
    List.Forall₂ (DecompiledBy payerProgram.keys.get? fun i =>
        ((VersionedMessage.legacy payerProgram).isSigner i,
          (VersionedMessage.legacy payerProgram).isWritable i))
      payerProgram.instructions payerProgramDecompiled.instructions ∧
    (∃ tx, Transaction.populate payerProgram [Signature.zero] = .ok tx ∧
      List.Forall₂ (DecompiledBy payerProgram.keys.get? fun i =>
          (payerProgram.isSigner i, payerProgram.isWritable i))
        payerProgram.instructions tx.instructions) ∧
    (VersionedMessage.v0 splitLoads).keys ⟨none, [splitTable]⟩ =
      .ok ⟨splitLoads.staticKeys, some ⟨[byteKey 2], [byteKey 3]⟩⟩ ∧
    TransactionMessage.decompile (.v0 splitLoads) ⟨none, [splitTable]⟩ = .ok splitLoadsDecompiled ∧
    List.Forall₂ (DecompiledBy (AccountKeys.get? ⟨splitLoads.staticKeys,
        some ⟨[byteKey 2], [byteKey 3]⟩⟩) fun i =>
        ((VersionedMessage.v0 splitLoads).isSigner i, (VersionedMessage.v0 splitLoads).isWritable i))
      splitLoads.instructions splitLoadsDecompiled.instructions := by
  have hdec : TransactionMessage.decompile (.legacy payerProgram) ⟨none, []⟩ =
      .ok payerProgramDecompiled := by decide +kernel
  have hb : LegacyMessage.decode payerProgram.encode = .ok payerProgram := by decide +kernel
  have hnd : payerProgram.accountKeys.Nodup := by decide
  have hw := decompiled_roles_follow_message.2.1 (.legacy payerProgram) ⟨none, []⟩ payerProgram.keys
    rfl (.inl rfl)
  obtain ⟨hpop, hroles⟩ := decompiled_roles_follow_message.2.2 _ _ [Signature.zero] hb hnd
  obtain ⟨tx, htx⟩ := hpop.mpr rfl
  have hK : (VersionedMessage.v0 splitLoads).keys ⟨none, [splitTable]⟩ =
      .ok ⟨splitLoads.staticKeys, some ⟨[byteKey 2], [byteKey 3]⟩⟩ := by rfl
  have hdec' : TransactionMessage.decompile (.v0 splitLoads) ⟨none, [splitTable]⟩ =
      .ok splitLoadsDecompiled := by decide +kernel
  have hw' := decompiled_roles_follow_message.2.1 _ _ _ hK (.inl rfl)
  exact ⟨hdec, (decompiled_roles_follow_message.1 _ _ _ _ rfl hdec).2 hw, ⟨tx, htx, hroles tx htx⟩,
    hK, hdec', (decompiled_roles_follow_message.1 _ _ _ _ hK hdec').2 hw'⟩

/-- A message loading two keys readonly from one table, the payer and both loaded keys accounts
of its one instruction. -/
private def readonlyLoads : V0Message :=
  ⟨⟨1, 0, 0⟩, [Address.zero, byteKey 3], Blockhash.zero, [⟨1, [0, 2, 3], [7]⟩],
    [⟨byteKey 9, [], [0, 1]⟩]⟩

/-- The same two loaded keys given by the caller, the first of them as writable. -/
private def writableFirst : KeySource := ⟨some ⟨[byteKey 1], [byteKey 2]⟩, []⟩

/-- The loaded keys given are accepted on their total, and decompiling marks the first of them
writable, where the message reads every loaded key as readonly. -/
theorem decompile_follows_given_split :
    (VersionedMessage.v0 readonlyLoads).keys writableFirst =
      .ok ⟨readonlyLoads.staticKeys, writableFirst.loaded⟩ ∧
    TransactionMessage.decompile (.v0 readonlyLoads) writableFirst =
      .ok ⟨Address.zero, [⟨byteKey 3, [⟨Address.zero, true, true⟩, ⟨byteKey 1, false, true⟩,
        ⟨byteKey 2, false, false⟩], [7]⟩], Blockhash.zero⟩ ∧
    (VersionedMessage.v0 readonlyLoads).isWritable 2 = false :=
  ⟨rfl, by decide +kernel, by decide +kernel⟩

/-- A decoded message decompiles exactly when its header has a signer, whatever source gives its
keys; the one error it can end in is the invalid header. -/
theorem decoded_decompile_fails_only_without_signers :
    ∀ (b : List UInt8) (vm : VersionedMessage) (src : KeySource) (K : AccountKeys),
      VersionedMessage.decode b = .ok vm → vm.keys src = .ok K →
        ((∃ tm, TransactionMessage.decompile vm src = .ok tm) ↔
          0 < vm.header.numRequiredSignatures.toNat) ∧
        ∀ e, TransactionMessage.decompile vm src = .error e →
          ∃ me, e = .invalidMessage me ∧ me.message = "message header is invalid" := by
  intro b vm src K hb hK
  obtain ⟨hs, -, -⟩ := VersionedMessage.decode_inv hb
  obtain ⟨hst, hsize⟩ := VersionedMessage.keys_inv hK
  have hstatic : vm.staticKeys.length ≤ K.size := by
    rw [← hst]
    exact K.length_static_le_size
  have hok : 0 < vm.header.numRequiredSignatures.toNat →
      ∃ tm, TransactionMessage.decompile vm src = .ok tm := by
    intro hpos
    have hle := hs.signers_le
    have hru := hs.readonly_unsigned_le
    refine TransactionMessage.decompile_ok hK (hs.readonly_signed_lt hpos) (by omega) (by omega)
      fun cix hc => ⟨?_, fun i hi => ?_⟩
    · rw [hsize]
      exact hs.program_lt cix hc
    · rw [hsize]
      exact hs.accounts_lt cix hc i hi
  refine ⟨⟨?_, hok⟩, fun e he => ?_⟩
  · rintro ⟨tm, htm⟩
    have hro := (TransactionMessage.decompile_inv hK htm).1
    omega
  · by_cases hpos : 0 < vm.header.numRequiredSignatures.toNat
    · obtain ⟨tm, htm⟩ := hok hpos
      rw [htm] at he
      cases he
    · rw [TransactionMessage.decompile_invalidHeader (by omega)] at he
      cases he
      exact ⟨_, rfl, rfl⟩

/-- The payer-and-program message with no signer: the sanitizer lets it through. -/
private def noSigner : LegacyMessage :=
  ⟨⟨0, 0, 1⟩, [Address.zero, byteKey 1], Blockhash.zero, [⟨1, [0], [7]⟩]⟩

/-- The table loads under a header without signers. -/
private def splitLoadsNoSigner : V0Message := { splitLoads with header := ⟨0, 0, 1⟩ }

/-- Decoded legacy and version-0 messages, the latter with keys resolved from a table, decompile
with a signer and fail without one, with the header error. -/
theorem decoded_decompile_fails_only_without_signers_tableLoads :
    (∃ tm, TransactionMessage.decompile (.legacy payerProgram) ⟨none, []⟩ = .ok tm) ∧
    (¬ ∃ tm, TransactionMessage.decompile (.legacy noSigner) ⟨none, []⟩ = .ok tm) ∧
    (∃ tm, TransactionMessage.decompile (.v0 splitLoads) ⟨none, [splitTable]⟩ = .ok tm) ∧
    ∃ me, TransactionMessage.decompile (.v0 splitLoadsNoSigner) ⟨none, [splitTable]⟩ =
      .error (.invalidMessage me) ∧ me.message = "message header is invalid" := by
  have hb : VersionedMessage.decode payerProgram.encode = .ok (.legacy payerProgram) := by
    decide +kernel
  have hb' : VersionedMessage.decode noSigner.encode = .ok (.legacy noSigner) := by
    decide +kernel
  have hv : VersionedMessage.decode (VersionedMessage.v0 splitLoads).encode =
      .ok (.v0 splitLoads) := by decide +kernel
  have hv' : VersionedMessage.decode (VersionedMessage.v0 splitLoadsNoSigner).encode =
      .ok (.v0 splitLoadsNoSigner) := by decide +kernel
  have hK : (VersionedMessage.v0 splitLoads).keys ⟨none, [splitTable]⟩ =
      .ok ⟨splitLoads.staticKeys, some ⟨[byteKey 2], [byteKey 3]⟩⟩ := by rfl
  have hK' : (VersionedMessage.v0 splitLoadsNoSigner).keys ⟨none, [splitTable]⟩ =
      .ok ⟨splitLoadsNoSigner.staticKeys, some ⟨[byteKey 2], [byteKey 3]⟩⟩ := by rfl
  have hfails := decoded_decompile_fails_only_without_signers _ _ _ _ hv' hK'
  refine ⟨(decoded_decompile_fails_only_without_signers _ _ ⟨none, []⟩ payerProgram.keys hb
    rfl).1.mpr (by decide), fun hd => ?_,
    (decoded_decompile_fails_only_without_signers _ _ _ _ hv hK).1.mpr (by decide), ?_⟩
  · have hpos := (decoded_decompile_fails_only_without_signers _ _ ⟨none, []⟩ noSigner.keys hb'
      rfl).1.mp hd
    exact absurd hpos (by decide)
  · -- without a signer decompiling cannot succeed, so it fails, and with the header error
    cases hd : TransactionMessage.decompile (.v0 splitLoadsNoSigner) ⟨none, [splitTable]⟩ with
    | ok tm => exact absurd (hfails.1.mp ⟨tm, hd⟩) (by decide)
    | error e =>
      obtain ⟨me, rfl, hme⟩ := hfails.2 e hd
      exact ⟨me, rfl, hme⟩

end ChainTx
