import ChainTx.Proofs.SignerSlots
import ChainTx.Proofs.Decompile
import ChainTx.Proofs.MessageCodec
/-!
# The transaction wire form round-trips

A serialized transaction is its signatures, one per signer slot with zero for an unsigned one,
followed by the message. Reading it back populates a transaction from the message: the slots
are the signer prefix with their signatures, the fee payer is the first key, and every account
of every instruction carries the roles the header gives its key. That transaction is not the one
serialized, yet it compiles to the same message: the roles it carries are the ones the slots and
the merged accounts gave each key, and the layout depends on nothing else. So it serializes to
the same bytes.
-/

namespace ChainTx

open Reader

namespace Signature

theorem ofBytes?_bytes (s : Signature) : ofBytes? s.bytes = some s := by
  simp [ofBytes?, s.size_eq]

theorem isEmpty_iff {s : Signature} : s.isEmpty = true ↔ s = zero := by
  constructor
  · intro h
    have hb : s.bytes = List.replicate 64 0 := by
      rw [← s.size_eq]
      exact List.eq_replicate_iff.mpr ⟨rfl, by simpa [isEmpty] using h⟩
    obtain ⟨bytes, hlen⟩ := s
    subst hb
    rfl
  · rintro rfl
    decide

end Signature

namespace TransactionWire

theorem readSignature_readsBack (s : Signature) : ReadsBack readSignature s.bytes s := by
  have hb := readBytes_readsBack "signature" s.bytes
  rw [s.size_eq] at hb
  refine (hb.bind fun rest => ?_).congr_bytes (List.append_nil _)
  simp only [run, StateT.run, Signature.ofBytes?_bytes]
  rfl

theorem readSignatures_readsBack {sigs : List Signature} (h : sigs.length < Nat.pow 2 32) :
    ReadsBack readSignatures (ShortVec.encode sigs.length ++ sigs.flatMap (·.bytes)) sigs :=
  (readLength_readsBack _ h).bind (readMany_readsBack fun s _ => readSignature_readsBack s)

theorem encode_ok {sigs : List Signature} {data bytes : List UInt8} (h : encode sigs data = .ok bytes) :
    bytes = ShortVec.encode sigs.length ++ sigs.flatMap (·.bytes) ++ data ∧ sigs.length ≤ 255 ∧
      bytes.length ≤ packetDataSize := by
  unfold encode at h
  by_cases h₁ : sigs.length > 255
  · rw [if_pos h₁] at h
    cases h
  rw [if_neg h₁] at h
  dsimp only at h
  by_cases h₂ : (ShortVec.encode sigs.length ++ sigs.flatMap (·.bytes) ++ data).length > packetDataSize
  · rw [if_pos h₂] at h
    cases h
  rw [if_neg h₂] at h
  cases h
  exact ⟨rfl, by omega, by omega⟩

end TransactionWire

section Fits

variable {α β : Type}

theorem length_le_length_flatMap {l : List α} {f : α → List β} (h : ∀ x ∈ l, f x ≠ []) :
    l.length ≤ (l.flatMap f).length := by
  induction l with
  | nil => simp
  | cons x xs ih =>
    have hx : 1 ≤ (f x).length := List.length_pos_iff.mpr (h x List.mem_cons_self)
    have hxs := ih fun y hy => h y (List.mem_cons_of_mem x hy)
    rw [List.flatMap_cons, List.length_append, List.length_cons]
    omega

theorem length_le_length_flatMap_of_mem {l : List α} {f : α → List β} {x : α} (hx : x ∈ l) :
    (f x).length ≤ (l.flatMap f).length := by
  rw [List.flatMap_def]
  exact (List.sublist_flatten_of_mem (List.mem_map_of_mem hx)).length_le

theorem LegacyMessage.bodyFits_of_length {m : LegacyMessage} (h : m.encode.length < Nat.pow 2 32) :
    BodyFits m.accountKeys m.instructions := by
  have hkeys : m.accountKeys.length ≤ (m.accountKeys.flatMap (·.bytes)).length :=
    length_le_length_flatMap fun a _ => List.ne_nil_of_length_pos (by rw [a.size_eq]; decide)
  have hixs : m.instructions.length ≤ (m.instructions.flatMap MessageWire.encodeInstruction).length :=
    length_le_length_flatMap fun ix _ => List.cons_ne_nil _ _
  have hix : ∀ ix ∈ m.instructions, (MessageWire.encodeInstruction ix).length ≤
      (m.instructions.flatMap MessageWire.encodeInstruction).length :=
    fun _ hix => length_le_length_flatMap_of_mem hix
  simp only [LegacyMessage.encode, MessageWire.encodeKeys, MessageWire.encodeInstructions,
    List.length_append] at h
  refine ⟨by omega, by omega, fun ix hi => ?_, fun ix hi => ?_⟩
  · have := hix ix hi
    simp only [MessageWire.encodeInstruction, ShortVec.encodeBytes, List.length_cons,
      List.length_append] at this
    omega
  · have := hix ix hi
    simp only [MessageWire.encodeInstruction, ShortVec.encodeBytes, List.length_cons,
      List.length_append] at this
    omega

end Fits

@[simp] theorem AccountKeys.all_static (keys : List Address) : (AccountKeys.mk keys none).all = keys := by
  simp [AccountKeys.all, AccountKeys.segments]

namespace Transaction

open KeyTable

theorem compileMessage_sanitized {tx : Transaction} {m : LegacyMessage}
    (h : tx.compileMessage = .ok m) :
    m.header.Sanitized m.accountKeys.length m.accountKeys.length m.instructions := by
  obtain ⟨p, ixs, bh, -, -, -, -, hl, -, hci, -⟩ := compileMessage_runLayout h
  obtain ⟨hsize, hkeys, hix⟩ := AccountKeys.compileInstructions_inv hci
  obtain ⟨hle, hro⟩ := hl.signers_le
  simp only [AccountKeys.size, AccountKeys.all_static] at hsize hkeys hix
  have hidx : ∀ k ∈ m.accountKeys, (m.accountKeys.idxOf k).toUInt8.toNat < m.accountKeys.length := by
    intro k hk
    have hlt := List.idxOf_lt_length_of_mem hk
    rw [ShortVec.toNat_toUInt8_of_lt (by omega)]
    exact hlt
  refine ⟨by omega, fun _ => hro, by omega, fun ix hi => ?_, fun ix hi a ha => ?_⟩
  · rw [hix] at hi
    obtain ⟨ix₀, hix₀, rfl⟩ := List.mem_map.mp hi
    exact hidx _ (hkeys ix₀ hix₀).1
  · rw [hix] at hi
    obtain ⟨ix₀, hix₀, rfl⟩ := List.mem_map.mp hi
    obtain ⟨a₀, ha₀, rfl⟩ := List.mem_map.mp ha
    exact hidx _ ((hkeys ix₀ hix₀).2 a₀ ha₀)

theorem fromWire_frame {m : LegacyMessage} {sigs : List Signature}
    (hs : m.header.Sanitized m.accountKeys.length m.accountKeys.length m.instructions)
    (hf : BodyFits m.accountKeys m.instructions) (hn : sigs.length < Nat.pow 2 32) :
    fromWire (ShortVec.encode sigs.length ++ sigs.flatMap (·.bytes) ++ m.encode) = populate m sigs := by
  have hr := ((TransactionWire.readSignatures_readsBack hn).bind
    (f := fun sigs => LegacyMessage.read >>= fun m => Pure.pure (sigs, m))
    ((LegacyMessage.read_readsBack hs hf).map (Prod.mk sigs))) []
  rw [List.append_nil] at hr
  rw [fromWire, hr]
  rfl

theorem map_zip_signatures {f : Signature × Address → SignerSlot} {slots : List SignerSlot}
    {keys : List Address} (hs : slots.map (·.pubkey) = keys.take slots.length)
    (hf : ∀ s ∈ slots, f (s.signature.getD .zero, s.pubkey) = s) :
    ((slots.map fun s => s.signature.getD .zero).zip keys).map f = slots := by
  induction slots generalizing keys with
  | nil => simp
  | cons s slots ih =>
    cases keys with
    | nil => simp at hs
    | cons k keys =>
      simp only [List.map_cons, List.length_cons, List.take_succ_cons, List.cons.injEq] at hs
      obtain ⟨rfl, hs⟩ := hs
      simp only [List.map_cons, List.zip_cons_cons, hf s List.mem_cons_self,
        ih hs fun s' hs' => hf s' (List.mem_cons_of_mem s hs')]

/-- Populating a message laid out by roles, with one signature per signer slot, gives back the
slots, the fee payer and the blockhash, and every account with the roles of its key. -/
theorem populate_eq {m : LegacyMessage} {roles : Address → KeyMeta} {p : Address}
    {ixs : List Instruction} {slots : List SignerSlot}
    (hl : RunLayout roles p m.header m.accountKeys)
    (hp : (roles p).isSigner = true ∧ (roles p).isWritable = true)
    (hsize : m.accountKeys.length ≤ 256)
    (hkeys : ∀ ix ∈ ixs, ix.programId ∈ m.accountKeys ∧ ∀ a ∈ ix.accounts, a.pubkey ∈ m.accountKeys)
    (hix : m.instructions = ixs.map (Instruction.compileAt m.accountKeys))
    (hs : slots.map (·.pubkey) = m.accountKeys.take m.header.numRequiredSignatures.toNat)
    (hz : ∀ s ∈ slots, s.signature ≠ some Signature.zero) :
    populate m (slots.map fun s => s.signature.getD .zero) =
      .ok { empty with
        recentBlockhash := some m.recentBlockhash
        explicitPayer := some p
        signatures := slots
        instructions := ixs.map (Instruction.withRoles roles) } := by
  obtain ⟨hle, hro⟩ := hl.signers_le
  have hlen : slots.length = m.header.numRequiredSignatures.toNat := by
    have := congrArg List.length hs
    simp only [List.length_map, List.length_take] at this
    omega
  have hhead : m.accountKeys.head? = some p := by
    obtain ⟨ws, rs, wn, rn, hk, -⟩ := hl
    rw [hk, List.head?_cons]
  have hat : ∀ k ∈ m.accountKeys, (m.accountKeys.idxOf k).toUInt8.toNat = m.accountKeys.idxOf k ∧
      m.accountKeys[m.accountKeys.idxOf k]? = some k ∧
      ((m.accountKeys.take m.header.numRequiredSignatures.toNat).contains k ||
        m.isSigner (m.accountKeys.idxOf k)) = (roles k).isSigner ∧
      m.isWritable (m.accountKeys.idxOf k) = (roles k).isWritable := by
    intro k hk
    have hlt := List.idxOf_lt_length_of_mem hk
    have hsig : m.isSigner (m.accountKeys.idxOf k) = (roles k).isSigner := by
      rw [LegacyMessage.isSigner, hl.isSigner_eq hp.1 _ hlt, List.getElem_idxOf hlt]
    have hmem : (m.accountKeys.take m.header.numRequiredSignatures.toNat).contains k =
        (roles k).isSigner := by
      rw [Bool.eq_iff_iff, List.contains_iff_mem]
      exact hl.mem_take_iff hp.1 hk
    refine ⟨ShortVec.toNat_toUInt8_of_lt (by omega), ?_, by rw [hmem, hsig, Bool.or_self], ?_⟩
    · rw [List.getElem?_eq_getElem hlt, List.getElem_idxOf hlt]
    · simp only [LegacyMessage.isWritable, decide_eq_true hlt, Bool.true_and]
      rw [hl.isStaticWritable_eq hp.2 _ hlt, List.getElem_idxOf hlt]
  simp only [populate]
  rw [map_zip_signatures (by rw [hs, hlen]) fun s hsm => ?_]
  · rw [if_neg (by simp [hlen]), hs]
    simp only [hix, List.mapM_map, bind, Except.bind, pure, Except.pure,
      if_pos (show m.header.numRequiredSignatures.toNat > 0 by omega), hhead]
    rw [mapM_except_eq_map (g := Instruction.withRoles roles) fun ix hix => ?_]
    have hpid := hat _ (hkeys ix hix).1
    simp only [Function.comp_def, Instruction.compileAt, List.mapM_map]
    rw [mapM_except_eq_map (g := AccountMeta.withRoles roles) fun a ha => ?_]
    · simp only [hpid.1, hpid.2.1]
      rfl
    have hacc := hat _ ((hkeys ix hix).2 a ha)
    simp only [hacc.1, hacc.2.1, hacc.2.2.1, hacc.2.2.2]
    rfl
  · obtain ⟨k, _ | x⟩ := s
    · simp [Signature.isEmpty_iff]
    · have hx : x ≠ Signature.zero := fun he => hz _ hsm (by rw [he])
      simp [Signature.isEmpty_iff, hx]

variable {metas metas' : List AccountMeta} {named : Address → Bool} {roles : Address → KeyMeta}

theorem eq_of_pubkeys {ms ms' : List AccountMeta} (hk : ms.map (·.pubkey) = ms'.map (·.pubkey))
    (hf : ∀ x ∈ ms, x.isSigner = (roles x.pubkey).isSigner ∧ x.isWritable = (roles x.pubkey).isWritable)
    (hf' : ∀ x ∈ ms', x.isSigner = (roles x.pubkey).isSigner ∧
      x.isWritable = (roles x.pubkey).isWritable) : ms = ms' := by
  have he : ∀ {ms : List AccountMeta}, (∀ x ∈ ms, x.isSigner = (roles x.pubkey).isSigner ∧
      x.isWritable = (roles x.pubkey).isWritable) →
      ms = (ms.map (·.pubkey)).map fun k => ⟨k, (roles k).isSigner, (roles k).isWritable⟩ := by
    intro ms hf
    rw [List.map_map]
    conv_lhs => rw [← List.map_id ms]
    refine List.map_congr_left fun x hx => ?_
    obtain ⟨k, s, w⟩ := x
    obtain ⟨hs, hw⟩ := hf _ hx
    simp only at hs hw
    simp [hs, hw]
  rw [he hf, he hf', hk]

theorem layout_congr (hm : MetasHold metas named roles) (hm' : MetasHold metas' named roles)
    (p : Address) (ixs : List Instruction) (bh : Blockhash) :
    layout p metas ixs bh = layout p metas' ixs bh := by
  obtain ⟨rest, hr⟩ := hm.sortedRest p
  have hflags : ∀ {ms : List AccountMeta}, MetasHold ms named roles →
      ∀ x ∈ dropKey (ms.mergeSort fun a b => metaOrder a b != .gt) p,
        x.isSigner = (roles x.pubkey).isSigner ∧ x.isWritable = (roles x.pubkey).isWritable :=
    fun h x hx => h.flags x ((List.mergeSort_perm _ _).mem_iff.mp ((dropKey_sublist _ p).subset hx))
  have hdrop : dropKey (metas.mergeSort fun a b => metaOrder a b != .gt) p =
      dropKey (metas'.mergeSort fun a b => metaOrder a b != .gt) p :=
    eq_of_pubkeys ((hm.sortedKeys_eq hr).trans (hm'.sortedKeys_eq hr).symm) (hflags hm) (hflags hm')
  simp only [layout, hdrop]

theorem layout_withRoles (p : Address) (ms : List AccountMeta) (ixs : List Instruction)
    (bh : Blockhash) (f : Address → KeyMeta) :
    layout p ms (ixs.map (Instruction.withRoles f)) bh = layout p ms ixs bh := by
  simp only [layout, AccountKeys.compileInstructions_withRoles]

theorem mentioned_withRoles (p : Address) (ixs : List Instruction) (f : Address → KeyMeta) :
    mentioned p (ixs.map (Instruction.withRoles f)) = mentioned p ixs := by
  funext k
  simp [mentioned, namedIn, List.any_map, Function.comp_def]

theorem promoteRoles_withRoles (slots : List SignerSlot) (p : Address) (ixs : List Instruction)
    (k : Address) :
    (promoteRoles slots (mergedRoles p (ixs.map (Instruction.withRoles
        (promoteRoles slots (mergedRoles p ixs))))) k).isSigner =
      (promoteRoles slots (mergedRoles p ixs) k).isSigner ∧
    (promoteRoles slots (mergedRoles p (ixs.map (Instruction.withRoles
        (promoteRoles slots (mergedRoles p ixs))))) k).isWritable =
      (promoteRoles slots (mergedRoles p ixs) k).isWritable := by
  have hs : (rolesIn ixs k).isSigner = true → accountIn ixs k = true :=
    fun h => accountIn_of_rolesIn (.inl h)
  have hw : (rolesIn ixs k).isWritable = true → accountIn ixs k = true :=
    fun h => accountIn_of_rolesIn (.inr h)
  simp only [promoteRoles, mergedRoles, rolesIn_withRoles]
  constructor
  · cases (k == p) <;> cases h : (rolesIn ixs k).isSigner <;> cases slots.any (·.pubkey == k) <;>
      simp_all
  · cases (k == p) <;> cases h : (rolesIn ixs k).isWritable <;> simp_all

/-- Giving each account the roles its key has in a compiled message, and keeping the slots, the
fee payer and the blockhash, compiles to the same message. -/
theorem compileMessage_withRoles {tx t : Transaction} {m : LegacyMessage} {p : Address}
    {ixs : List Instruction} {bh : Blockhash} (hpl : tx.payload = (ixs, some bh))
    (hfp : tx.feePayer = some p) (h : tx.compileMessage = .ok m)
    (hplt : t.payload =
      (ixs.map (Instruction.withRoles (promoteRoles tx.signatures (mergedRoles p ixs))), some bh))
    (hfpt : t.feePayer = some p) (hst : t.signatures = tx.signatures) :
    t.compileMessage = .ok m := by
  obtain ⟨p', ixs', bh', hpl', hfp', hmem, hlay, -⟩ := compileMessage_runLayout h
  rw [hpl] at hpl'
  rw [hfp] at hfp'
  cases hpl'
  cases hfp'
  have hM := metasHold_mergedMetas p ixs
  have hM' := metasHold_mergedMetas p
    (ixs.map (Instruction.withRoles (promoteRoles tx.signatures (mergedRoles p ixs))))
  rw [mentioned_withRoles] at hM'
  have hmem' : ∀ s ∈ tx.signatures, s.pubkey ∈ (mergedMetas p
      (ixs.map (Instruction.withRoles (promoteRoles tx.signatures (mergedRoles p ixs))))).map
        (·.pubkey) :=
    fun s hs => (hM'.mem_iff _).mpr ((hM.mem_iff _).mp (hmem s hs))
  have hP := hM.promote fun s hs => (hM.mem_iff _).mp (hmem s hs)
  have hP' := (hM'.promote fun s hs => (hM'.mem_iff _).mp (hmem' s hs)).congr (fun _ => rfl)
    (fun k => (promoteRoles_withRoles tx.signatures p ixs k).1)
    (fun k => (promoteRoles_withRoles tx.signatures p ixs k).2)
  rw [compileMessage_eq_layout hplt hfpt, hst, promoteSigners_eq hmem']
  show layout _ _ _ _ = _
  rw [layout_withRoles, layout_congr hP' hP]
  exact hlay

theorem serializeWith_ok {tx : Transaction} {requireAll verify : Bool} {bytes : List UInt8}
    (h : (tx.serializeWith requireAll verify).2 = .ok bytes) :
    ∃ m, tx.compileMessage = .ok m ∧ TransactionWire.encode
      ((tx.realign m).signatures.map fun s => s.signature.getD .zero) m.encode = .ok bytes := by
  cases hc : tx.compileMessage with
  | error e => simp [serializeWith, serializeMessage, compile_of_error hc, Except.map] at h
  | ok m =>
    refine ⟨m, rfl, ?_⟩
    simp only [serializeWith, serializeMessage, compile_of_ok hc, Except.map] at h
    split at h
    · cases h
    · exact h

theorem serializeWith_congr {tx₁ tx₂ tx₁' tx₂' : Transaction} {m : LegacyMessage}
    (h₁ : tx₁.compile = (tx₁', .ok m)) (h₂ : tx₂.compile = (tx₂', .ok m))
    (hs : tx₁'.signatures = tx₂'.signatures) (requireAll verify : Bool) :
    (tx₁.serializeWith requireAll verify).2 = (tx₂.serializeWith requireAll verify).2 := by
  simp only [serializeWith, serializeMessage, h₁, h₂, Except.map, signednessError, hs]
  split <;> simp_all

theorem serializeWith_of_compile {tx t : Transaction} {m : LegacyMessage}
    (hc : tx.compileMessage = .ok m) (ht : t.compileMessage = .ok m)
    (hs : t.signatures = (tx.realign m).signatures) (requireAll verify : Bool) :
    t.serializeWith requireAll verify = (t, (tx.serializeWith requireAll verify).2) := by
  have hat : Aligned t m := ⟨ht, hs ▸ realign_signers tx m⟩
  refine Prod.ext ?_ (serializeWith_congr hat.compile (compile_of_ok hc) hs requireAll verify)
  rw [serializeWith_fst, hat.compile]

theorem realign_ne_signature {tx : Transaction} {m : LegacyMessage} {x : Signature}
    (hz : ∀ s ∈ tx.signatures, s.signature ≠ some x) :
    ∀ s ∈ (tx.realign m).signatures, s.signature ≠ some x := by
  dsimp only [realign]
  split
  · exact hz
  · intro s hs
    obtain ⟨k, -, rfl⟩ := List.mem_map.mp hs
    simp

/-- The wire form of a legacy transaction round-trips: when serializing succeeds and no slot holds
the all-zero signature, the bytes decode to a transaction with the slots serializing left, in order
and with their signatures, that compiles to the same message and serializes to the same bytes. -/
theorem fromWire_serializeWith (tx : Transaction) (requireAll verify : Bool) (bytes : List UInt8)
    (hz : ∀ s ∈ tx.signatures, s.signature ≠ some Signature.zero)
    (h : (tx.serializeWith requireAll verify).2 = .ok bytes) :
    ∃ t, fromWire bytes = .ok t ∧ t.signatures = (tx.serializeWith requireAll verify).1.signatures ∧
      t.compileMessage = tx.compileMessage ∧ t.serializeWith requireAll verify = (t, .ok bytes) := by
  obtain ⟨m, hc, henc⟩ := serializeWith_ok h
  have hal := aligned_realign hc
  obtain ⟨hb, -, hlen⟩ := TransactionWire.encode_ok henc
  obtain ⟨p, ixs, bh, hpl, hfp, -, -, hl, -, hci, hbh⟩ := compileMessage_runLayout hal.compiles
  obtain ⟨hsize, hkeys, hix⟩ := AccountKeys.compileInstructions_inv hci
  simp only [AccountKeys.size, AccountKeys.all_static] at hsize hkeys hix
  have hpow : Nat.pow 2 32 = 4294967296 := rfl
  have hfits : BodyFits m.accountKeys m.instructions := by
    refine LegacyMessage.bodyFits_of_length ?_
    rw [hb] at hlen
    simp only [List.length_append, TransactionWire.packetDataSize] at hlen
    omega
  have hn : ((tx.realign m).signatures.map fun s => s.signature.getD .zero).length <
      Nat.pow 2 32 := by
    rw [List.length_map, ← List.length_map (f := (·.pubkey)), hal.signers, List.length_take]
    omega
  have hwire := fromWire_frame (compileMessage_sanitized hc) hfits hn
  rw [← hb] at hwire
  have hpop := populate_eq hl (by simp [promoteRoles, mergedRoles]) hsize hkeys hix hal.signers
    (realign_ne_signature hz)
  have hfst : (tx.serializeWith requireAll verify).1 = tx.realign m := by
    rw [serializeWith_fst, compile_of_ok hc]
  obtain ⟨t, ht, hcomp, hts⟩ : ∃ t, populate m ((tx.realign m).signatures.map fun s =>
      s.signature.getD .zero) = .ok t ∧ t.compileMessage = .ok m ∧
      t.signatures = (tx.realign m).signatures :=
    ⟨_, hpop, compileMessage_withRoles hpl hfp hal.compiles (by rw [← hbh]; rfl) rfl rfl, rfl⟩
  refine ⟨t, hwire.trans ht, by rw [hfst, hts], hcomp.trans hc.symm, ?_⟩
  rw [serializeWith_of_compile hc hcomp hts, h]

private theorem lastByte_length (b : UInt8) : (List.replicate 63 0 ++ [b]).length = 64 := by simp

private def signatureOne : Signature := ⟨List.replicate 63 0 ++ [1], lastByte_length 1⟩

private theorem wireKey_length (b : UInt8) : (List.replicate 31 0 ++ [b]).length = 32 := by simp

/-- The address whose bytes are zero but the last, `b`. -/
private def wireKey (b : UInt8) : Address := ⟨List.replicate 31 0 ++ [b], wireKey_length b⟩

/-- Program 9 on the writable account 3. -/
private def promotingInstruction : Instruction := ⟨wireKey 9, [⟨wireKey 3, false, true⟩], [7]⟩

/-- Paid and signed by 1 under the nonce of account 4, whose authority 2 has a slot, with a slot
that promotes the account 3 to a signer. -/
private def nonceSigned : Transaction :=
  { Transaction.withNonce (NonceInfo.advance Blockhash.zero (wireKey 4) (wireKey 2)) 0 with
    explicitPayer := some (wireKey 1)
    instructions := [promotingInstruction]
    signatures := [⟨wireKey 1, some signatureOne⟩, ⟨wireKey 3, none⟩, ⟨wireKey 2, none⟩] }

/-- The writable signers 1 and 3, the readonly signer 2, the nonce account, then the system
program, program 9 and the sysvar, which sorts last by its text. -/
private def nonceMessage : LegacyMessage :=
  ⟨⟨3, 1, 3⟩, [wireKey 1, wireKey 3, wireKey 2, wireKey 4, Address.systemProgram, wireKey 9,
    Address.recentBlockhashesSysvar], Blockhash.zero, [⟨4, [3, 6, 2], [4, 0, 0, 0]⟩, ⟨5, [1], [7]⟩]⟩

private theorem nonceSigned_compileMessage : nonceSigned.compileMessage = .ok nonceMessage := by
  have hadv : SystemProgram.advanceNonceAccount (wireKey 4) (wireKey 2) = ⟨Address.systemProgram,
      [⟨wireKey 4, false, true⟩, ⟨Address.recentBlockhashesSysvar, false, false⟩,
        ⟨wireKey 2, true, false⟩], [4, 0, 0, 0]⟩ := by decide +kernel
  have hpl : nonceSigned.payload = ([SystemProgram.advanceNonceAccount (wireKey 4) (wireKey 2),
      promotingInstruction], some Blockhash.zero) := by decide +kernel
  have hprom : promoteSigners (mergedMetas (wireKey 1) [SystemProgram.advanceNonceAccount
      (wireKey 4) (wireKey 2), promotingInstruction]) nonceSigned.signatures = .ok
      [⟨wireKey 1, true, true⟩, ⟨wireKey 4, false, true⟩,
        ⟨Address.recentBlockhashesSysvar, false, false⟩, ⟨wireKey 2, true, false⟩,
        ⟨Address.systemProgram, false, false⟩, ⟨wireKey 3, true, true⟩,
        ⟨wireKey 9, false, false⟩] := by
    simp only [nonceSigned, hadv]
    cbv
  -- sorting distinct keys has one outcome, so the sort is checked rather than run
  have hsort : List.mergeSort [⟨wireKey 1, true, true⟩, ⟨wireKey 4, false, true⟩,
        ⟨Address.recentBlockhashesSysvar, false, false⟩, ⟨wireKey 2, true, false⟩,
        ⟨Address.systemProgram, false, false⟩, ⟨wireKey 3, true, true⟩,
        ⟨wireKey 9, false, false⟩] (fun a b => metaOrder a b != .gt) =
      [⟨wireKey 1, true, true⟩, ⟨wireKey 3, true, true⟩, ⟨wireKey 2, true, false⟩,
        ⟨wireKey 4, false, true⟩, ⟨Address.systemProgram, false, false⟩, ⟨wireKey 9, false, false⟩,
        ⟨Address.recentBlockhashesSysvar, false, false⟩] :=
    mergeSort_metaOrder_eq (by decide +kernel) (by decide +kernel) (of_decide_eq_true (by cbv))
  rw [compileMessage_eq_layout hpl rfl, hprom]
  simp only [bind, Except.bind, layout, hsort, hadv]
  cbv

/-- The wire form: three signatures, the payer's and two empty ones, then the message. -/
private def nonceSignedWire : List UInt8 :=
  [3] ++ signatureOne.bytes ++ Signature.zero.bytes ++ Signature.zero.bytes ++ nonceMessage.encode

theorem fromWire_serializeWith_noncePromoted :
    (∀ s ∈ nonceSigned.signatures, s.signature ≠ some Signature.zero) ∧
    (nonceSigned.serializeWith false false).2 = .ok nonceSignedWire ∧
    ∃ t, fromWire nonceSignedWire = .ok t ∧
      t.signatures = (nonceSigned.serializeWith false false).1.signatures ∧
      t.compileMessage = nonceSigned.compileMessage ∧
      t.serializeWith false false = (t, .ok nonceSignedWire) := by
  have hz : ∀ s ∈ nonceSigned.signatures, s.signature ≠ some Signature.zero := by decide
  have hre : nonceSigned.realign nonceMessage = nonceSigned := by
    simp only [realign]
    exact if_pos (by decide +kernel)
  have hwire : TransactionWire.encode [signatureOne, .zero, .zero] nonceMessage.encode =
      .ok nonceSignedWire := by
    unfold TransactionWire.encode
    rw [if_neg (by decide), if_neg (by decide +kernel), ShortVec.encode_of_lt (by decide)]
    simp [nonceSignedWire]
  have h : (nonceSigned.serializeWith false false).2 = .ok nonceSignedWire := by
    simp only [serializeWith, serializeMessage, compile, nonceSigned_compileMessage, hre, Except.map,
      Bool.false_eq_true, ↓reduceIte]
    exact hwire
  exact ⟨hz, h, fromWire_serializeWith nonceSigned false false nonceSignedWire hz h⟩

end Transaction

end ChainTx
