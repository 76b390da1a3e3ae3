import ChainTx.Proofs.DecompileRoles
/-!
# Two decoders of legacy transactions agree

A legacy transaction on the wire can be read in two ways: as a legacy transaction, whose message
is populated into instructions with the signatures in its signer slots, or as a versioned
transaction, which keeps the signatures and the message as they are. Both read the signatures,
then a message, then refuse trailing bytes, then compare the signature count with the header; the
versioned reader dispatches on the first byte of the message, and a byte below `0x80` sends it to
the legacy message reader.
-/

namespace ChainTx

theorem zipWith_take_of_length {α β γ : Type} {f : α → β → γ} {l₁ : List α} {l₂ : List β} {n : Nat}
    (h : l₁.length = n) (hn : n ≤ l₂.length) :
    List.zipWith f l₁ (l₂.take n) = List.zipWith f l₁ l₂ := by
  induction l₁ generalizing l₂ n with
  | nil => simp
  | cons a l₁ ih =>
    cases l₂ with
    | nil =>
      simp only [List.length_cons] at h
      simp only [List.length_nil] at hn
      omega
    | cons x l₂ =>
      obtain ⟨n, rfl⟩ : ∃ k, n = k + 1 := ⟨n - 1, by simp at h; omega⟩
      simp only [List.take_succ_cons, List.zipWith_cons_cons]
      rw [ih (by simpa using h) (by simpa using hn)]

namespace Transaction

variable {m : LegacyMessage} {sigs : List Signature}

theorem populate_mismatch (hc : sigs.length ≠ m.header.numRequiredSignatures.toNat) :
    populate m sigs =
      .error (.signatureCountMismatch m.header.numRequiredSignatures.toNat sigs.length) := by
  simp only [populate, bind, Except.bind]
  rw [if_pos hc]
  rfl

theorem populate_sanitized_ok
    (hs : m.header.Sanitized m.accountKeys.length m.accountKeys.length m.instructions)
    (hc : sigs.length = m.header.numRequiredSignatures.toNat) : ∃ tx, populate m sigs = .ok tx := by
  obtain ⟨ixs, hixs⟩ := mapM_except_ok _ m.instructions fun c hmem =>
    populateInstruction_ok _ (hs.program_lt c hmem) (hs.accounts_lt c hmem)
  exact populate_ok hc hixs

theorem populate_signatures {tx : Transaction} (h : populate m sigs = .ok tx) :
    tx.signatures = List.zipWith (fun s k => ⟨k, if s = .zero then none else some s⟩) sigs
      m.accountKeys := by
  simp only [populate, bind, Except.bind, pure, Except.pure] at h
  by_cases hc : sigs.length = m.header.numRequiredSignatures.toNat
  · rw [if_neg (by omega)] at h
    split at h
    · cases h
    · cases h
      simp [List.zip_eq_zipWith, List.map_zipWith, Signature.isEmpty_iff]
  · rw [if_pos hc] at h
    cases h

end Transaction

theorem TransactionWire.readSignatures_run_none (rest : List UInt8) :
    readSignatures.run (0 :: rest) = .ok ([], rest) := by
  have h := @readSignatures_readsBack [] (by decide) rest
  rwa [List.length_nil, ShortVec.encode_of_lt (by decide), List.flatMap_nil, List.append_nil] at h

theorem VersionedMessage.read_run_legacy {x : UInt8} {r : List UInt8} (hx : x < 0x80) :
    VersionedMessage.read.run (x :: r) =
      (LegacyMessage.read.run (x :: r)).map fun p => (.legacy p.1, p.2) := by
  simp only [VersionedMessage.read, Reader.run, StateT.run_bind]
  show (Reader.peekU8 "message prefix" (x :: r)) >>= _ = _
  simp only [Reader.peekU8]
  show StateT.run (if x < 0x80 then _ else _) (x :: r) = _
  rw [if_pos hx]
  simp only [StateT.run_bind]
  cases StateT.run LegacyMessage.read (x :: r) <;> rfl

variable {b : List UInt8}

/-- Both frame readers take the same signatures and message, when the message part starts below
`0x80`; a reader that fails on the signatures fails alike in both. -/
theorem frame_run_legacy
    (hb : ∀ sigs rest, TransactionWire.readSignatures.run b = .ok (sigs, rest) →
      ∃ x r, rest = x :: r ∧ x < 0x80) :
    (TransactionWire.readSignatures >>= fun sigs => VersionedMessage.read >>= fun m =>
        pure (sigs, m)).run b =
      ((TransactionWire.readSignatures >>= fun sigs => LegacyMessage.read >>= fun m =>
        pure (sigs, m)).run b).map fun p => ((p.1.1, .legacy p.1.2), p.2) := by
  simp only [Reader.run, StateT.run_bind]
  cases hs : TransactionWire.readSignatures.run b with
  | error e =>
    simp only [Reader.run] at hs
    rw [hs]
    rfl
  | ok p =>
    obtain ⟨sigs, rest⟩ := p
    obtain ⟨x, r, rfl, hx⟩ := hb sigs rest hs
    simp only [Reader.run] at hs
    have hv := VersionedMessage.read_run_legacy (r := r) hx
    simp only [Reader.run] at hv
    rw [hs]
    show StateT.run VersionedMessage.read (x :: r) >>= _ =
      Except.map _ (StateT.run LegacyMessage.read (x :: r) >>= _)
    rw [hv]
    cases StateT.run LegacyMessage.read (x :: r) <;> rfl

theorem legacy_frame_sanitized {sigs : List Signature} {m : LegacyMessage} {rest : List UInt8}
    (h : (TransactionWire.readSignatures >>= fun sigs => LegacyMessage.read >>= fun m =>
        pure (sigs, m)).run b = .ok ((sigs, m), rest)) :
    m.header.Sanitized m.accountKeys.length m.accountKeys.length m.instructions := by
  obtain ⟨sigs', b₁, -, h₁⟩ := Reader.run_bind_eq_ok h
  obtain ⟨m', b₂, hm, h₂⟩ := Reader.run_bind_eq_ok h₁
  obtain ⟨hp, -⟩ := Reader.run_pure_eq_ok h₂
  cases hp
  exact (LegacyMessage.read_inv hm).1

/-- Both decoders of a legacy frame end alike: in the same error, or in a transaction populated
from a message and signatures and the versioned transaction of the same two. -/
theorem decoders_legacy_outcome
    (hb : ∀ sigs rest, TransactionWire.readSignatures.run b = .ok (sigs, rest) →
      ∃ x r, rest = x :: r ∧ x < 0x80) :
    (∃ e, Transaction.fromWire b = .error e ∧ VersionedTransaction.deserialize b = .error e) ∨
    ∃ m sigs tx, Transaction.fromWire b = .ok tx ∧
      VersionedTransaction.deserialize b = .ok ⟨sigs, .legacy m⟩ ∧
      Transaction.populate m sigs = .ok tx ∧ sigs.length = m.header.numRequiredSignatures.toNat ∧
      m.header.numRequiredSignatures.toNat ≤ m.accountKeys.length := by
  unfold Transaction.fromWire VersionedTransaction.deserialize
  rw [frame_run_legacy hb]
  cases hL : (TransactionWire.readSignatures >>= fun sigs => LegacyMessage.read >>= fun m =>
      pure (sigs, m)).run b with
  | error e => exact .inl ⟨e, rfl, rfl⟩
  | ok p =>
    obtain ⟨⟨sigs, m⟩, rest⟩ := p
    have hs := legacy_frame_sanitized hL
    cases rest with
    | cons y ys => exact .inl ⟨_, rfl, rfl⟩
    | nil =>
      by_cases hc : sigs.length = m.header.numRequiredSignatures.toNat
      · obtain ⟨tx, htx⟩ := Transaction.populate_sanitized_ok hs hc
        refine .inr ⟨m, sigs, tx, ?_, ?_, htx, hc, hs.signers_le⟩
        · simp [bind, Except.bind, MessageWire.expectEnd, htx]
        · simp [Except.map, bind, Except.bind, MessageWire.expectEnd, hc, VersionedMessage.header,
            pure, Except.pure]
      · refine .inl ⟨.signatureCountMismatch m.header.numRequiredSignatures.toNat sigs.length, ?_, ?_⟩
        · simp [bind, Except.bind, MessageWire.expectEnd, Transaction.populate_mismatch hc]
        · simp [Except.map, bind, Except.bind, MessageWire.expectEnd, hc, VersionedMessage.header,
            throw, throwThe, MonadExceptOf.throw]

/-- On a frame whose message part starts with a byte below `0x80`, decoding a legacy transaction
and decoding a versioned one succeed together and fail with the same error. When both succeed the
message is a legacy message, and the legacy transaction's slots are its first
`numRequiredSignatures` keys paired in order with the decoded signatures, an all-zero signature an
unsigned slot. -/
theorem legacy_and_versioned_decoders_agree (b : List UInt8)
    (hb : ∀ sigs rest, TransactionWire.readSignatures.run b = .ok (sigs, rest) →
      ∃ x r, rest = x :: r ∧ x < 0x80) :
    ((∃ tx, Transaction.fromWire b = .ok tx) ↔ ∃ vt, VersionedTransaction.deserialize b = .ok vt) ∧
    (∀ e, Transaction.fromWire b = .error e ↔ VersionedTransaction.deserialize b = .error e) ∧
    ∀ tx vt, Transaction.fromWire b = .ok tx → VersionedTransaction.deserialize b = .ok vt →
      ∃ m, vt.message = .legacy m ∧
        tx.signatures = List.zipWith (fun s k => ⟨k, if s = .zero then none else some s⟩)
          vt.signatures (m.accountKeys.take m.header.numRequiredSignatures.toNat) := by
  rcases decoders_legacy_outcome hb with ⟨e, hl, hv⟩ | ⟨m, sigs, tx, hl, hv, hp, hc, hle⟩
  · -- both fail, with the same error
    rw [hl, hv]
    refine ⟨⟨?_, ?_⟩, fun e' => ⟨?_, ?_⟩, ?_⟩
    · rintro ⟨_, h⟩
      cases h
    · rintro ⟨_, h⟩
      cases h
    · intro h
      cases h
      rfl
    · intro h
      cases h
      rfl
    · intro tx vt h
      cases h
  · -- both succeed, on the same signatures and message
    rw [hl, hv]
    refine ⟨⟨fun _ => ⟨_, rfl⟩, fun _ => ⟨_, rfl⟩⟩, fun e => ⟨?_, ?_⟩, ?_⟩
    · intro h
      cases h
    · intro h
      cases h
    intro tx' vt' htx hvt
    cases htx
    cases hvt
    refine ⟨m, rfl, ?_⟩
    rw [Transaction.populate_signatures hp, zipWith_take_of_length hc hle]

/-- A payer running a program, the payer its one account. -/
private def payerRuns : LegacyMessage :=
  ⟨⟨1, 0, 1⟩, [Address.zero, Address.memoProgram], Blockhash.zero, [⟨1, [0], [7]⟩]⟩

private theorem lastOne_length : (List.replicate 63 0 ++ [1]).length = 64 := by simp

/-- A signature whose bytes are zero but the last, one. -/
private def lastOne : Signature := ⟨List.replicate 63 0 ++ [1], lastOne_length⟩

/-- The payer's message framed with the payer's signature. -/
private def payerSignedFrame : List UInt8 := [1] ++ lastOne.bytes ++ payerRuns.encode

/-- The payer's message framed with one signature, which both decoders accept, the legacy slot of
the payer holding it; framed with none, both refuse it for its count. -/
theorem legacy_and_versioned_decoders_agree_framed :
    (∀ sigs rest, TransactionWire.readSignatures.run payerSignedFrame = .ok (sigs, rest) →
      ∃ x r, rest = x :: r ∧ x < 0x80) ∧
    (∃ tx, Transaction.fromWire payerSignedFrame = .ok tx ∧
      tx.signatures = [⟨Address.zero, some lastOne⟩]) ∧
    (∀ sigs rest, TransactionWire.readSignatures.run (0 :: payerRuns.encode) = .ok (sigs, rest) →
      ∃ x r, rest = x :: r ∧ x < 0x80) ∧
    (Transaction.fromWire (0 :: payerRuns.encode) = .error (.signatureCountMismatch 1 0) ↔
      VersionedTransaction.deserialize (0 :: payerRuns.encode) = .error (.signatureCountMismatch 1 0)) := by
  have hread : TransactionWire.readSignatures.run payerSignedFrame = .ok ([lastOne], payerRuns.encode) := by
    have h := @TransactionWire.readSignatures_readsBack [lastOne] (by decide) payerRuns.encode
    rwa [List.length_singleton, ShortVec.encode_of_lt (by decide), List.flatMap_singleton] at h
  have hb : ∀ sigs rest, TransactionWire.readSignatures.run payerSignedFrame = .ok (sigs, rest) →
      ∃ x r, rest = x :: r ∧ x < 0x80 := by
    intro sigs rest h
    rw [hread] at h
    cases h
    exact ⟨1, _, rfl, by decide⟩
  have hb₀ : ∀ sigs rest,
      TransactionWire.readSignatures.run (0 :: payerRuns.encode) = .ok (sigs, rest) →
        ∃ x r, rest = x :: r ∧ x < 0x80 := by
    intro sigs rest h
    rw [TransactionWire.readSignatures_run_none] at h
    cases h
    exact ⟨1, _, rfl, by decide⟩
  have hagree := legacy_and_versioned_decoders_agree _ hb
  have hvt : VersionedTransaction.deserialize payerSignedFrame = .ok ⟨[lastOne], .legacy payerRuns⟩ := by
    decide +kernel
  obtain ⟨tx, htx⟩ := hagree.1.mpr ⟨_, hvt⟩
  obtain ⟨m, hm, hsigs⟩ := hagree.2.2 tx _ htx hvt
  cases hm
  refine ⟨hb, ⟨tx, htx, ?_⟩, hb₀, (legacy_and_versioned_decoders_agree _ hb₀).2.1 _⟩
  rw [hsigs]
  decide

end ChainTx
