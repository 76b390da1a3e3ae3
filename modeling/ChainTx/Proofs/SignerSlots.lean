import Mathlib
import ChainTx.Proofs.TransactionCompile
/-!
# Signer slots stay aligned with the message

Compiling a transaction reads its signature slots, making every key that has a slot a signer,
and then rewrites the slots from the message it produced. The slots thus feed back into the
message they are lined up with. This module shows that the lining up is a fixpoint: once the slots
name the message's signers, in order, the same message compiles again, and signing, which only
fills in signatures, keeps it so. Every public operation that compiles therefore leaves, when it
succeeds, a transaction that compiling changes no further.
-/

namespace ChainTx

namespace RunLayout

variable {roles : Address → KeyMeta} {p : Address} {h : MessageHeader} {keys : List Address}

theorem take_head_eq (hl : RunLayout roles p h keys) :
    (keys.take h.numRequiredSignatures.toNat).head? = some p := by
  obtain ⟨ws, rs, wn, rn, rfl, -, -, -, -, -, hn, -, -⟩ := hl
  rw [hn, Nat.add_right_comm, List.take_succ_cons, List.head?_cons]

theorem mem_take_iff (hl : RunLayout roles p h keys) (hp : (roles p).isSigner = true) {k : Address}
    (hk : k ∈ keys) : k ∈ keys.take h.numRequiredSignatures.toNat ↔ (roles k).isSigner = true := by
  obtain ⟨ws, rs, wn, rn, rfl, hws, hrs, hwn, hrn, -, hn, -, -⟩ := hl
  have htake : (p :: (ws ++ rs ++ wn ++ rn)).take (ws.length + 1 + rs.length) = p :: (ws ++ rs) := by
    rw [Nat.add_right_comm, List.take_succ_cons, List.append_assoc,
      List.take_left' (by rw [List.length_append])]
  rw [hn, htake]
  constructor
  · intro hm
    simp only [List.mem_cons, List.mem_append] at hm
    rcases hm with rfl | hm | hm
    · exact hp
    · exact (hws k hm).1
    · exact (hrs k hm).1
  · intro hs
    simp only [List.mem_cons, List.mem_append] at hk ⊢
    rcases hk with rfl | ((hk | hk) | hk) | hk
    · exact .inl rfl
    · exact .inr (.inl hk)
    · exact .inr (.inr hk)
    · rw [(hwn k hk).1] at hs; cases hs
    · rw [(hrn k hk).1] at hs; cases hs

end RunLayout

namespace Transaction

open KeyTable

/-- An account made a signer when a slot names its key. -/
def promoteMeta (slots : List SignerSlot) (x : AccountMeta) : AccountMeta :=
  { x with isSigner := x.isSigner || slots.any (·.pubkey == x.pubkey) }

@[simp] theorem promoteMeta_pubkey (slots : List SignerSlot) (x : AccountMeta) :
    (promoteMeta slots x).pubkey = x.pubkey := rfl

theorem keys_markSigner (metas : List AccountMeta) (k : Address) :
    (metas.map fun x => if x.pubkey = k then { x with isSigner := true } else x).map (·.pubkey) =
      metas.map (·.pubkey) := by
  rw [List.map_map]
  exact List.map_congr_left fun x _ => by by_cases hx : x.pubkey = k <;> simp [hx]

theorem promoteSigners_eq {metas : List AccountMeta} {slots : List SignerSlot}
    (h : ∀ s ∈ slots, s.pubkey ∈ metas.map (·.pubkey)) :
    promoteSigners metas slots = .ok (metas.map (promoteMeta slots)) := by
  induction slots generalizing metas with
  | nil =>
    have hid : metas.map (promoteMeta []) = metas := by
      conv_rhs => rw [← List.map_id metas]
      exact List.map_congr_left fun x _ => by simp [promoteMeta]
    rw [hid]
    rfl
  | cons s slots ih =>
    have hs : metas.any (·.pubkey == s.pubkey) = true := by simpa using h s List.mem_cons_self
    rw [promoteSigners, if_pos hs,
      ih fun s' hs' => (keys_markSigner metas s.pubkey) ▸ h s' (List.mem_cons_of_mem _ hs'),
      List.map_map]
    congr 2
    funext x
    by_cases hx : x.pubkey = s.pubkey
    · simp [promoteMeta, hx]
    · have hb : (s.pubkey == x.pubkey) = false := beq_eq_false_iff_ne.mpr (Ne.symm hx)
      simp [promoteMeta, hx, hb]

theorem mem_of_promoteSigners {metas metas' : List AccountMeta} {slots : List SignerSlot}
    (h : promoteSigners metas slots = .ok metas') : ∀ s ∈ slots, s.pubkey ∈ metas.map (·.pubkey) := by
  induction slots generalizing metas with
  | nil => simp
  | cons s slots ih =>
    rw [promoteSigners] at h
    split at h
    · next hs =>
      intro s' hs'
      rcases List.mem_cons.mp hs' with rfl | hs'
      · simpa using hs
      · exact (keys_markSigner metas s.pubkey) ▸ ih h s' hs'
    · cases h

variable {metas : List AccountMeta} {named : Address → Bool} {roles : Address → KeyMeta}

/-- The roles with every key that has a slot made a signer. -/
def promoteRoles (slots : List SignerSlot) (roles : Address → KeyMeta) (k : Address) : KeyMeta :=
  { roles k with isSigner := (roles k).isSigner || slots.any (·.pubkey == k) }

@[simp] theorem promoteRoles_isWritable (slots : List SignerSlot) (roles : Address → KeyMeta)
    (k : Address) : (promoteRoles slots roles k).isWritable = (roles k).isWritable := rfl

theorem MetasHold.promote (h : MetasHold metas named roles) {slots : List SignerSlot}
    (hs : ∀ s ∈ slots, named s.pubkey = true) :
    MetasHold (metas.map (promoteMeta slots)) named (promoteRoles slots roles) where
  nodup := by rw [List.map_map]; exact h.nodup
  mem_iff k := by rw [List.map_map]; exact h.mem_iff k
  flags m hm := by
    obtain ⟨x, hx, rfl⟩ := List.mem_map.mp hm
    simp [promoteMeta, promoteRoles, (h.flags x hx).1, (h.flags x hx).2]
  unnamed k hk := by
    have hno : slots.any (·.pubkey == k) = false := by
      rw [List.any_eq_false]
      intro s hsm hsk
      have hn := hs s hsm
      rw [beq_iff_eq.mp hsk, hk] at hn
      cases hn
    simp [promoteRoles, (h.unnamed k hk).1, (h.unnamed k hk).2, hno]

/-- The message laid out from merged and promoted accounts: the fee payer first as a writable
signer, then the accounts signers first, then writable ones, ties by base58 text. -/
def layout (payer : Address) (metas : List AccountMeta) (ixs : List Instruction)
    (blockhash : Blockhash) : Except SolError LegacyMessage := do
  let ms : List AccountMeta :=
    ⟨payer, true, true⟩ :: dropKey (metas.mergeSort fun a b => metaOrder a b != .gt) payer
  if ms.length > 256 then throw (.tooManyAccountKeys ms.length)
  let header ← headerFor ms
  let compiled ← (AccountKeys.mk (ms.map (·.pubkey)) none).compileInstructions ixs
  pure ⟨header, ms.map (·.pubkey), blockhash, compiled⟩

theorem compileMessage_eq_layout {tx : Transaction} {p : Address} {ixs : List Instruction}
    {bh : Blockhash} (hpl : tx.payload = (ixs, some bh)) (hp : tx.feePayer = some p) :
    tx.compileMessage = promoteSigners (mergedMetas p ixs) tx.signatures >>= fun metas =>
      layout p metas ixs bh := by
  simp only [compileMessage, hpl, hp, layout]
  rfl

theorem compileMessage_inv {tx : Transaction} {m : LegacyMessage} (h : tx.compileMessage = .ok m) :
    ∃ p ixs bh, tx.payload = (ixs, some bh) ∧ tx.feePayer = some p ∧
      (∀ s ∈ tx.signatures, s.pubkey ∈ (mergedMetas p ixs).map (·.pubkey)) ∧
      layout p ((mergedMetas p ixs).map (promoteMeta tx.signatures)) ixs bh = .ok m := by
  rcases hpl : tx.payload with ⟨ixs, _ | bh⟩
  · simp [compileMessage, hpl, bind, Except.bind, throw, throwThe, MonadExceptOf.throw] at h
  rcases hp : tx.feePayer with _ | p
  · simp [compileMessage, hpl, hp, bind, Except.bind, pure, Except.pure, throw, throwThe,
      MonadExceptOf.throw] at h
  rw [compileMessage_eq_layout hpl hp] at h
  cases hpro : promoteSigners (mergedMetas p ixs) tx.signatures with
  | error e => rw [hpro] at h; cases h
  | ok metas =>
    have hmem := mem_of_promoteSigners hpro
    rw [promoteSigners_eq hmem] at h
    exact ⟨p, ixs, bh, rfl, rfl, hmem, h⟩

theorem MetasHold.sortedRest (h : MetasHold metas named roles) (p : Address) :
    ∃ rest, SortedRest p named roles rest := by
  have hnd : ((metas.map (·.pubkey)).erase p).Nodup := h.nodup.erase p
  have hperm := List.mergeSort_perm ((metas.map (·.pubkey)).erase p)
    fun a b => decide (a.toBase58 ≤ b.toBase58)
  have hsorted : (((metas.map (·.pubkey)).erase p).mergeSort fun a b =>
      decide (a.toBase58 ≤ b.toBase58)).Pairwise fun a b => decide (a.toBase58 ≤ b.toBase58) :=
    List.pairwise_mergeSort
      (fun a b c hab hbc => by simp only [decide_eq_true_eq] at *; exact le_trans hab hbc)
      (fun a b => by simpa using le_total a.toBase58 b.toBase58) ((metas.map (·.pubkey)).erase p)
  have hkeys : ((((metas.map (·.pubkey)).erase p).mergeSort fun a b =>
      decide (a.toBase58 ≤ b.toBase58)).map fun k => (k, roles k)).map Prod.fst =
      ((metas.map (·.pubkey)).erase p).mergeSort fun a b => decide (a.toBase58 ≤ b.toBase58) := by
    simp [List.map_map, Function.comp_def]
  refine ⟨(((metas.map (·.pubkey)).erase p).mergeSort fun a b => decide (a.toBase58 ≤ b.toBase58)).map
    fun k => (k, roles k), ⟨?_, fun k => ?_, fun e he => ?_, ?_⟩⟩
  · rw [hkeys]
    exact hperm.nodup_iff.mpr hnd
  · rw [hkeys, hperm.mem_iff, h.nodup.mem_erase_iff, h.mem_iff]
    exact and_comm
  · obtain ⟨k, -, rfl⟩ := List.mem_map.mp he
    rfl
  · rw [List.pairwise_map]
    refine (hsorted.and (hperm.nodup_iff.mpr hnd)).imp fun {a b} ⟨hab, hne⟩ => ?_
    exact lt_of_le_of_ne (by simpa using hab) (mt Address.toBase58_inj.mp hne)

/-- Laying out accounts that list each key once, the fee payer a writable signer among them, gives
the keys once each, in the runs of a header that counts them. -/
theorem layout_ok (hm : MetasHold metas named roles) {p : Address} (hp : named p = true)
    (hps : (roles p).isSigner = true ∧ (roles p).isWritable = true) {ixs : List Instruction}
    {bh : Blockhash} {m : LegacyMessage} (h : layout p metas ixs bh = .ok m) :
    RunLayout roles p m.header m.accountKeys ∧ m.accountKeys.Nodup ∧
      (∀ k, k ∈ m.accountKeys ↔ named k = true) ∧
      (AccountKeys.mk m.accountKeys none).compileInstructions ixs = .ok m.instructions ∧
      m.recentBlockhash = bh := by
  obtain ⟨rest, hr⟩ := hm.sortedRest p
  simp only [layout] at h
  generalize hms : (⟨p, true, true⟩ :: dropKey (metas.mergeSort fun a b => metaOrder a b != .gt) p :
    List AccountMeta) = ms at h
  obtain ⟨hkeys, hlen, hns, hro, hru⟩ := hm.laidOut hr hps hms
  have hsum := (runs_perm rest).length_eq
  simp only [List.length_append] at hsum
  have h₁ : rest.length + 1 ≤ 256 := by
    by_contra hc
    rw [if_pos (by omega)] at h
    cases h
  rw [if_neg (by omega)] at h
  have h₂ : (rolesRun true true rest).length + 1 + (rolesRun true false rest).length < 256 := by
    by_contra hc
    rw [headerFor_of_signers (by omega)] at h
    cases h
  rw [headerFor_of_lt (by omega) (by omega)] at h
  cases hci : (AccountKeys.mk (ms.map (·.pubkey)) none).compileInstructions ixs with
  | error e => simp [hci, bind, Except.bind] at h
  | ok cs =>
    simp only [hci, bind, Except.bind, pure, Except.pure, Except.ok.injEq] at h
    subst h
    have hnd : (p :: (rest.map Prod.fst)).Nodup :=
      List.nodup_cons.mpr ⟨fun hp' => ((hr.mem_iff p).mp hp').2 rfl, hr.nodup⟩
    have hperm := ((runs_perm rest).map Prod.fst).cons p
    refine ⟨?_, ?_, fun k => ?_, hci, rfl⟩
    · simp only [hkeys, hns, hro, hru]
      exact hr.runLayout h₂ h₁
    · rw [hkeys]
      exact hperm.nodup_iff.mpr hnd
    · rw [hkeys, hperm.mem_iff, List.mem_cons, hr.mem_iff]
      by_cases hk : k = p
      · subst hk; simp [hp]
      · simp [hk]

theorem promoteSigners_congr {metas : List AccountMeta} {slots slots' : List SignerSlot}
    (h : slots'.map (·.pubkey) = slots.map (·.pubkey)) :
    promoteSigners metas slots' = promoteSigners metas slots := by
  induction slots generalizing metas slots' with
  | nil => rw [List.map_eq_nil_iff.mp h]
  | cons s slots ih =>
    obtain ⟨s', slots', rfl, hs, hrest⟩ := List.map_eq_cons_iff.mp h
    simp only [promoteSigners, hs, ih hrest]

theorem compileMessage_congr {tx tx' : Transaction} (hpl : tx'.payload = tx.payload)
    (hfp : tx'.feePayer = tx.feePayer) (hk : tx'.signatures.map (·.pubkey) = tx.signatures.map (·.pubkey)) :
    tx'.compileMessage = tx.compileMessage := by
  have hpro : ∀ metas, promoteSigners metas tx'.signatures = promoteSigners metas tx.signatures :=
    fun _ => promoteSigners_congr hk
  simp only [compileMessage, hpl, hfp, hpro]

/-- A compiled message lays its keys out in runs by the merged roles, every key holding a slot
made a signer, and lists exactly the keys the fee payer and the instructions name. -/
theorem compileMessage_runLayout {tx : Transaction} {m : LegacyMessage}
    (h : tx.compileMessage = .ok m) :
    ∃ p ixs bh, tx.payload = (ixs, some bh) ∧ tx.feePayer = some p ∧
      (∀ s ∈ tx.signatures, s.pubkey ∈ (mergedMetas p ixs).map (·.pubkey)) ∧
      layout p ((mergedMetas p ixs).map (promoteMeta tx.signatures)) ixs bh = .ok m ∧
      RunLayout (promoteRoles tx.signatures (mergedRoles p ixs)) p m.header m.accountKeys ∧
      (∀ k, k ∈ m.accountKeys ↔ mentioned p ixs k = true) ∧
      (AccountKeys.mk m.accountKeys none).compileInstructions ixs = .ok m.instructions ∧
      m.recentBlockhash = bh := by
  obtain ⟨p, ixs, bh, hpl, hfp, hmem, hlay⟩ := compileMessage_inv h
  have hM := metasHold_mergedMetas p ixs
  have hP := hM.promote fun s hs => (hM.mem_iff _).mp (hmem s hs)
  obtain ⟨hl, -, hkeys, hci, hbh⟩ :=
    layout_ok hP (by simp [mentioned]) (by simp [promoteRoles, mergedRoles]) hlay
  exact ⟨p, ixs, bh, hpl, hfp, hmem, hlay, hl, hkeys, hci, hbh⟩

theorem head?_signers {tx : Transaction} {m : LegacyMessage} (h : tx.compileMessage = .ok m) :
    (m.accountKeys.take m.header.numRequiredSignatures.toNat).head? = tx.feePayer := by
  obtain ⟨p, ixs, bh, hpl, hfp, hmem, hlay, hl, -⟩ := compileMessage_runLayout h
  rw [hfp, hl.take_head_eq]

theorem compileMessage_of_signers {tx tx' : Transaction} {m : LegacyMessage}
    (h : tx.compileMessage = .ok m) (hpl : tx'.payload = tx.payload) (hfp : tx'.feePayer = tx.feePayer)
    (hs : tx'.signatures.map (·.pubkey) = m.accountKeys.take m.header.numRequiredSignatures.toNat) :
    tx'.compileMessage = .ok m := by
  obtain ⟨p, ixs, bh, hpl0, hfp0, -, hlay, hl, hkeys, -⟩ := compileMessage_runLayout h
  have hM := metasHold_mergedMetas p ixs
  have hpay : (promoteRoles tx.signatures (mergedRoles p ixs) p).isSigner = true := by
    simp [promoteRoles, mergedRoles]
  -- a key has a new slot exactly when the old slots or its merged roles made it a signer
  have hpre : ∀ k, mentioned p ixs k = true → (k ∈ tx'.signatures.map (·.pubkey) ↔
      (promoteRoles tx.signatures (mergedRoles p ixs) k).isSigner = true) := fun k hk =>
    hs ▸ hl.mem_take_iff hpay ((hkeys k).mpr hk)
  have hmem : ∀ s ∈ tx'.signatures, s.pubkey ∈ (mergedMetas p ixs).map (·.pubkey) := by
    intro s hs'
    have hk : s.pubkey ∈ m.accountKeys := List.mem_of_mem_take (hs ▸ List.mem_map_of_mem hs')
    exact (hM.mem_iff _).mpr ((hkeys _).mp hk)
  have hsame : (mergedMetas p ixs).map (promoteMeta tx'.signatures) =
      (mergedMetas p ixs).map (promoteMeta tx.signatures) := by
    refine List.map_congr_left fun x hx => ?_
    have hany : tx'.signatures.any (·.pubkey == x.pubkey) =
        (promoteRoles tx.signatures (mergedRoles p ixs) x.pubkey).isSigner := by
      rw [Bool.eq_iff_iff, ← hpre _ ((hM.mem_iff _).mp (List.mem_map_of_mem hx))]
      simp
    simp only [promoteMeta, hany, promoteRoles, ← (hM.flags x hx).1, ← Bool.or_assoc, Bool.or_self]
  rw [compileMessage_eq_layout (hpl ▸ hpl0) (hfp ▸ hfp0), promoteSigners_eq hmem, hsame]
  exact hlay

theorem compileMessage_realign {tx : Transaction} {m : LegacyMessage} (h : tx.compileMessage = .ok m) :
    (tx.realign m).compileMessage = .ok m := by
  dsimp only [realign]
  split
  · exact h
  · have hkeys : ((m.accountKeys.take m.header.numRequiredSignatures.toNat).map
        fun k => (⟨k, none⟩ : SignerSlot)).map (·.pubkey) =
          m.accountKeys.take m.header.numRequiredSignatures.toNat := by
      rw [List.map_map]
      exact List.map_id _
    refine compileMessage_of_signers h rfl ?_ hkeys
    cases hx : tx.explicitPayer with
    | some q => simp [feePayer, hx]
    | none =>
      have hfp := head?_signers h
      simp only [feePayer, hx] at hfp ⊢
      rw [← hfp, ← List.head?_map, hkeys]

theorem realign_signers (tx : Transaction) (m : LegacyMessage) :
    (tx.realign m).signatures.map (·.pubkey) = m.accountKeys.take m.header.numRequiredSignatures.toNat := by
  dsimp only [realign]
  split
  · assumption
  · rw [List.map_map]
    exact List.map_id _

theorem compile_of_ok {tx : Transaction} {m : LegacyMessage} (h : tx.compileMessage = .ok m) :
    tx.compile = (tx.realign m, .ok m) := by
  simp [compile, h]

theorem compile_of_error {tx : Transaction} {e : SolError} (h : tx.compileMessage = .error e) :
    tx.compile = (tx, .error e) := by
  rw [compile, h]

/-- A transaction whose slots name, in order, the signers of the message it compiles to. -/
structure Aligned (tx : Transaction) (m : LegacyMessage) : Prop where
  compiles : tx.compileMessage = .ok m
  signers : tx.signatures.map (·.pubkey) = m.accountKeys.take m.header.numRequiredSignatures.toNat

variable {tx tx' : Transaction} {m : LegacyMessage}

theorem aligned_realign (h : tx.compileMessage = .ok m) : Aligned (tx.realign m) m :=
  ⟨compileMessage_realign h, realign_signers tx m⟩

theorem Aligned.compile (h : Aligned tx m) : tx.compile = (tx, .ok m) := by
  simp [Transaction.compile, h.compiles, realign, h.signers]

theorem Aligned.withSignatures (h : Aligned tx m) {sigs : List SignerSlot}
    (hk : sigs.map (·.pubkey) = tx.signatures.map (·.pubkey)) :
    Aligned { tx with signatures := sigs } m := by
  have hfp : ({ tx with signatures := sigs } : Transaction).feePayer = tx.feePayer := by
    cases hx : tx.explicitPayer with
    | some q => simp [feePayer, hx]
    | none => simp only [feePayer, hx, ← List.head?_map, hk]
  exact ⟨(@compileMessage_congr tx { tx with signatures := sigs } rfl hfp hk).trans h.compiles,
    hk.trans h.signers⟩

theorem setFirst_pubkeys (k : Address) (sig : Signature) (slots : List SignerSlot) :
    (setSignature.setFirst k sig slots).map (·.pubkey) = slots.map (·.pubkey) := by
  induction slots with
  | nil => rfl
  | cons s slots ih =>
    by_cases hs : s.pubkey = k
    · simp [setSignature.setFirst, hs]
    · simp [setSignature.setFirst, hs, ih]

theorem Aligned.setSignature (h : Aligned tx m) {k : Address} {sig : Signature}
    (hs : tx.setSignature k sig = .ok tx') : Aligned tx' m := by
  unfold Transaction.setSignature at hs
  split at hs
  · cases hs
    exact h.withSignatures (setFirst_pubkeys k sig tx.signatures)
  · cases hs

theorem Aligned.signWith {S : Type} [Signer S] {data : List UInt8} {signers : List S}
    (h : Aligned tx m) (hs : tx.signWith data signers = (tx', .ok ())) : Aligned tx' m := by
  induction signers generalizing tx with
  | nil =>
    cases hs
    exact h
  | cons k signers ih =>
    unfold Transaction.signWith at hs
    split at hs
    · cases hs
    · split at hs
      · next tx₁ h₁ => exact ih (h.setSignature h₁) hs
      · cases hs

theorem compileAndSign_aligned {S : Type} [Signer S] {signers : List S}
    (h : tx.compileAndSign signers = (tx', .ok ())) : ∃ m, Aligned tx' m := by
  unfold compileAndSign at h
  cases hc : tx.compileMessage with
  | error e => simp [compile_of_error hc] at h
  | ok m =>
    simp only [compile_of_ok hc] at h
    exact ⟨m, (aligned_realign hc).signWith h⟩

theorem addSignature_aligned {k : Address} {sig : Signature}
    (h : tx.addSignature k sig = (tx', .ok ())) : ∃ m, Aligned tx' m := by
  unfold addSignature at h
  cases hc : tx.compileMessage with
  | error e => simp [compile_of_error hc] at h
  | ok m =>
    simp only [compile_of_ok hc] at h
    split at h
    · next tx₁ h₁ =>
      cases h
      exact ⟨m, (aligned_realign hc).setSignature h₁⟩
    · cases h

theorem serializeWith_fst (tx : Transaction) (requireAll verify : Bool) :
    (tx.serializeWith requireAll verify).1 = tx.compile.1 := by
  unfold serializeWith serializeMessage
  rcases tx.compile with ⟨tx₁, _ | m⟩
  · rfl
  · dsimp only [Except.map]
    split <;> rfl

/-- The public operations on a legacy transaction. -/
inductive Op where
  | addInstruction (ix : Instruction)
  | addInstructions (ixs : List Instruction)
  | setFeePayer (k : Address)
  | setBlockhash (h : Option Blockhash)
  | setNonce (n : Option NonceInfo)
  | sign (signers : List Keypair)
  | partialSign (signers : List Keypair)
  | addSignature (k : Address) (sig : Signature)
  | compile
  | serializeMessage
  | verifySignatures (requireAll : Bool)
  | serializeWith (requireAll verify : Bool)

def forget {α : Type} (r : TxResult α) : TxResult Unit := (r.1, r.2.map fun _ => ())

namespace Op

/-- Runs an operation: the transaction after it, and whether it succeeded. -/
def apply : Op → Transaction → TxResult Unit
  | addInstruction ix, tx => ({ tx with instructions := tx.instructions ++ [ix] }, .ok ())
  | addInstructions ixs, tx => ({ tx with instructions := tx.instructions ++ ixs }, .ok ())
  | setFeePayer k, tx => ({ tx with explicitPayer := some k }, .ok ())
  | setBlockhash h, tx => ({ tx with recentBlockhash := h }, .ok ())
  | setNonce n, tx => ({ tx with nonceInfo := n }, .ok ())
  | sign signers, tx => tx.sign signers
  | partialSign signers, tx => tx.partialSign signers
  | addSignature k sig, tx => tx.addSignature k sig
  | compile, tx => forget tx.compile
  | serializeMessage, tx => forget tx.serializeMessage
  | verifySignatures requireAll, tx => forget (tx.verifySignatures requireAll)
  | serializeWith requireAll verify, tx => forget (tx.serializeWith requireAll verify)

/-- The operations that compile the message on the way. -/
def compiles : Op → Bool
  | addInstruction _ | addInstructions _ | setFeePayer _ | setBlockhash _ | setNonce _ => false
  | _ => true

theorem aligned (op : Op) (hc : op.compiles = true) (h : op.apply tx = (tx', .ok ())) :
    ∃ m, Aligned tx' m := by
  cases op with
  | addInstruction | addInstructions | setFeePayer | setBlockhash | setNonce => cases hc
  | sign signers => exact compileAndSign_aligned h
  | partialSign signers => exact compileAndSign_aligned h
  | addSignature k sig => exact addSignature_aligned h
  | compile | serializeMessage | verifySignatures =>
    cases hcm : tx.compileMessage with
    | error e =>
      simp [apply, forget, Except.map, Transaction.serializeMessage,
        Transaction.verifySignatures, compile_of_error hcm] at h
    | ok m =>
      simp only [apply, forget, Except.map, Transaction.serializeMessage,
        Transaction.verifySignatures, compile_of_ok hcm, Prod.mk.injEq] at h
      exact ⟨m, h.1 ▸ aligned_realign hcm⟩
  | serializeWith requireAll verify =>
    have hfst : tx' = tx.compile.1 := by
      rw [← serializeWith_fst tx requireAll verify]
      exact (congrArg Prod.fst h).symm
    cases hcm : tx.compileMessage with
    | error e =>
      simp [apply, forget, Except.map, Transaction.serializeWith, Transaction.serializeMessage,
        compile_of_error hcm] at h
    | ok m =>
      rw [compile_of_ok hcm] at hfst
      exact ⟨m, hfst ▸ aligned_realign hcm⟩

end Op

theorem compile_inv (h : tx.compile = (tx', .ok m)) : tx.compileMessage = .ok m ∧ tx' = tx.realign m := by
  cases hc : tx.compileMessage with
  | error e =>
    rw [compile_of_error hc] at h
    cases h
  | ok m' =>
    rw [compile_of_ok hc] at h
    cases h
    exact ⟨rfl, rfl⟩

/-- The signer slots stay aligned with the message: every operation that compiles leaves, when it
succeeds, slots naming exactly the message's signers in order, so that compiling again gives the
same message and changes nothing. Compiling keeps the slots, signatures included, when they already
name the signers, and otherwise replaces them all by unsigned slots, changing nothing else. -/
theorem slots_aligned_with_signers :
    (∀ (op : Op) (tx tx' : Transaction), op.compiles = true → op.apply tx = (tx', .ok ()) →
      ∃ m, tx'.compileMessage = .ok m ∧
        tx'.signatures.map (·.pubkey) = m.accountKeys.take m.header.numRequiredSignatures.toNat ∧
        tx'.compile = (tx', .ok m)) ∧
    (∀ (tx tx' : Transaction) (m : LegacyMessage), tx.compile = (tx', .ok m) →
      { tx' with signatures := tx.signatures } = tx ∧
      (tx.signatures.map (·.pubkey) = m.accountKeys.take m.header.numRequiredSignatures.toNat →
        tx'.signatures = tx.signatures) ∧
      (tx.signatures.map (·.pubkey) ≠ m.accountKeys.take m.header.numRequiredSignatures.toNat →
        ∀ s ∈ tx'.signatures, s.signature = none)) := by
  refine ⟨fun op tx tx' hc h => ?_, fun tx tx' m h => ?_⟩
  · obtain ⟨m, hm⟩ := op.aligned hc h
    exact ⟨m, hm.compiles, hm.signers, hm.compile⟩
  · obtain ⟨-, rfl⟩ := compile_inv h
    dsimp only [realign]
    split
    · next hs => exact ⟨rfl, fun _ => rfl, fun hne => absurd hs hne⟩
    · next hs =>
      refine ⟨rfl, fun he => absurd he hs, fun _ s hs' => ?_⟩
      obtain ⟨k, -, rfl⟩ := List.mem_map.mp hs'
      rfl

/-- A transaction under a blockhash with an explicit fee payer and no slots yet. -/
private def payerOnly : Transaction :=
  { Transaction.withBlockhash Blockhash.zero 0 with explicitPayer := some Address.zero }

theorem slots_aligned_with_signers_payerOnly :
    ∃ m, ({ payerOnly with signatures := [⟨Address.zero, none⟩] } : Transaction).compileMessage = .ok m ∧
      [Address.zero] = m.accountKeys.take m.header.numRequiredSignatures.toNat ∧
      ({ payerOnly with signatures := [⟨Address.zero, none⟩] } : Transaction).compile =
        ({ payerOnly with signatures := [⟨Address.zero, none⟩] }, .ok m) :=
  slots_aligned_with_signers.1 .compile payerOnly _ rfl (by cbv)

end Transaction


end ChainTx
