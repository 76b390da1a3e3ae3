import ChainTx.Proofs.WireLayout
import ChainTx.Proofs.VersionedTransaction
/-!
# Decoded messages re-encode to their canonical form

The decoder accepts every spelling of a count the reader takes, not only the shortest, so it is
not one-to-one on bytes. What it accepts is pinned down here: the bytes of a decoded message lay
out the message's parts (`LegacyMessage.parts`, `V0Message.parts`), its counts spelled in one way
only, and the message passed the decoder's checks. Re-encoding a decoded message therefore gives
bytes that decode to it again, and gives back the input exactly when the input spelled every count
in the shortest form. A decoded transaction is the same, its signature count included, except that
writing enforces the packet limit, which reading does not: a decoded transaction whose canonical
form is longer than a packet cannot be written back.
-/

namespace ChainTx

open Reader WirePart

/-! ### The layouts of messages and transactions -/

/-- A legacy message: its header, its keys, its blockhash and its instructions. -/
def LegacyMessage.parts (m : LegacyMessage) : List WirePart :=
  (.raw m.header.encode :: MessageWire.keysParts m.accountKeys) ++
    (.raw m.recentBlockhash.bytes :: MessageWire.instructionsParts m.instructions)

/-- A version-0 message: its prefix, the layout of a legacy message, then its table lookups. -/
def V0Message.parts (m : V0Message) : List WirePart :=
  .raw [versionPrefix] :: ((.raw m.header.encode :: MessageWire.keysParts m.staticKeys) ++
    (.raw m.recentBlockhash.bytes :: MessageWire.instructionsParts m.instructions) ++
    (.count m.lookups.length :: m.lookups.flatMap TableLookup.parts))

def VersionedMessage.parts : VersionedMessage → List WirePart
  | .legacy m => m.parts
  | .v0 m => m.parts

/-- A transaction: its signatures, then its message. -/
def VersionedTransaction.parts (tx : VersionedTransaction) : List WirePart :=
  TransactionWire.signaturesParts tx.signatures ++ tx.message.parts

theorem LegacyMessage.render_parts (m : LegacyMessage) : render m.parts = m.encode := by
  simp [parts, encode, write, MessageWire.render_keysParts, MessageWire.render_instructionsParts]

theorem V0Message.render_parts (m : V0Message) : render m.parts = m.encode := by
  simp [parts, encode, write, MessageWire.render_keysParts, MessageWire.render_instructionsParts,
    render_flatMap, TableLookup.render_parts]

theorem VersionedMessage.render_parts (vm : VersionedMessage) : render vm.parts = vm.encode := by
  cases vm with
  | legacy m => exact m.render_parts
  | v0 m => exact m.render_parts

theorem VersionedTransaction.render_parts (tx : VersionedTransaction) :
    render tx.parts = ShortVec.encode tx.signatures.length ++ tx.signatures.flatMap (·.bytes) ++
      tx.message.encode := by
  rw [parts, render_append, TransactionWire.render_signaturesParts,
    VersionedMessage.render_parts]

/-! ### Counts that a layout holds fit their compact form -/

section Fits

open MessageWire

variable {ss : List (List UInt8)} {bx : List UInt8}

@[simp] theorem MessageWire.counts_keysParts (keys : List Address) :
    counts (keysParts keys) = [keys.length] := by
  simp [keysParts, countsOf, counts_flatMap]

@[simp] theorem MessageWire.counts_instructionParts (ix : CompiledInstruction) :
    counts (instructionParts ix) = [ix.accounts.length, ix.data.length] := by
  simp [instructionParts, countsOf]

@[simp] theorem TableLookup.counts_parts (l : TableLookup) :
    counts l.parts = [l.writableIndexes.length, l.readonlyIndexes.length] := by
  simp [TableLookup.parts, countsOf]

theorem bodyFits_of_counts {keys : List Address} {ixs : List CompiledInstruction}
    (h : ∀ n ∈ counts (keysParts keys ++ instructionsParts ixs), n < Nat.pow 2 32) :
    BodyFits keys ixs := by
  have hix : ∀ ix ∈ ixs, ix.accounts.length < Nat.pow 2 32 ∧ ix.data.length < Nat.pow 2 32 := by
    intro ix hix
    have hsub : ∀ n ∈ counts (instructionParts ix),
        n ∈ counts (keysParts keys ++ instructionsParts ixs) := by
      intro n hn
      simp only [instructionsParts, counts_append, counts_cons, countsOf, counts_flatMap,
        List.mem_append, List.mem_cons, List.mem_flatMap]
      exact .inr (.inr ⟨ix, hix, hn⟩)
    exact ⟨h _ (hsub _ (by simp)), h _ (hsub _ (by simp))⟩
  exact ⟨h _ (by simp), h _ (by simp [instructionsParts, countsOf]), fun ix hi => (hix ix hi).1,
    fun ix hi => (hix ix hi).2⟩

theorem lookupsFit_of_counts {ls : List TableLookup}
    (h : ∀ n ∈ counts (.count ls.length :: ls.flatMap TableLookup.parts), n < Nat.pow 2 32) :
    LookupsFit ls := by
  have hl : ∀ l ∈ ls, l.writableIndexes.length < Nat.pow 2 32 ∧
      l.readonlyIndexes.length < Nat.pow 2 32 := by
    intro l hl
    have hsub : ∀ n ∈ counts l.parts,
        n ∈ counts (.count ls.length :: ls.flatMap TableLookup.parts) := by
      intro n hn
      simp only [counts_cons, countsOf, counts_flatMap, List.singleton_append, List.mem_cons,
        List.mem_flatMap]
      exact .inr ⟨l, hl, hn⟩
    exact ⟨h _ (hsub _ (by simp)), h _ (hsub _ (by simp))⟩
  exact ⟨h _ (by simp [countsOf]), fun l hi => (hl l hi).1, fun l hi => (hl l hi).2⟩

theorem LegacyMessage.fits_of_laysOut {m : LegacyMessage} (h : LaysOut m.parts ss bx) :
    BodyFits m.accountKeys m.instructions :=
  bodyFits_of_counts fun n hn => h.counts_lt n (by simpa [parts, countsOf] using hn)

theorem V0Message.fits_of_laysOut {m : V0Message} (h : LaysOut m.parts ss bx) :
    BodyFits m.staticKeys m.instructions ∧ LookupsFit m.lookups := by
  have hc : counts m.parts = counts (keysParts m.staticKeys ++ instructionsParts m.instructions) ++
      counts (.count m.lookups.length :: m.lookups.flatMap TableLookup.parts) := by
    simp [parts, countsOf]
  exact ⟨bodyFits_of_counts fun n hn => h.counts_lt n (hc ▸ List.mem_append_left _ hn),
    lookupsFit_of_counts fun n hn => h.counts_lt n (hc ▸ List.mem_append_right _ hn)⟩

end Fits

/-! ### What the readers of messages and transactions take -/

theorem versionPrefix_eq {p : UInt8} (hlt : ¬ p < 128) (hv : p &&& 127 = 0) : p = versionPrefix := by
  have hmod : (p &&& 127).toNat = p.toNat % 128 := by
    rw [UInt8.toNat_and, show (127 : UInt8).toNat = 2 ^ 7 - 1 from rfl,
      Nat.and_two_pow_sub_one_eq_mod]
  rw [hv, UInt8.toNat_zero] at hmod
  rw [UInt8.lt_iff_toNat_lt, show (128 : UInt8).toNat = 128 from rfl] at hlt
  have hp := p.toNat_lt
  apply UInt8.toNat_inj.mp
  rw [show versionPrefix.toNat = 128 from rfl]
  omega

theorem MessageWire.body_takesLayout {b b₁ b₂ b₃ rest : List UInt8} {hd : MessageHeader}
    {keys : List Address} {bh : Blockhash} {ixs : List CompiledInstruction}
    (hh : MessageHeader.read.run b = .ok (hd, b₁)) (hk : MessageWire.readKeys.run b₁ = .ok (keys, b₂))
    (hb : MessageWire.readBlockhash.run b₂ = .ok (bh, b₃))
    (hi : MessageWire.readInstructions.run b₃ = .ok (ixs, rest)) :
    ∃ ss bx, LaysOut ((.raw hd.encode :: MessageWire.keysParts keys) ++
      (.raw bh.bytes :: MessageWire.instructionsParts ixs)) ss bx ∧ b = bx ++ rest := by
  obtain rfl := MessageHeader.read_inv hh
  obtain ⟨ss₁, bx₁, hl₁, rfl⟩ := MessageWire.readKeys_takesLayout hk
  obtain rfl := MessageWire.readBlockhash_inv hb
  obtain ⟨ss₂, bx₂, hl₂, rfl⟩ := MessageWire.readInstructions_takesLayout hi
  exact ⟨ss₁ ++ ss₂, _, (LaysOut.raw hl₁).append (LaysOut.raw hl₂), by simp⟩

theorem LegacyMessage.read_inv {m : LegacyMessage} {b rest : List UInt8}
    (h : LegacyMessage.read.run b = .ok (m, rest)) :
    m.header.Sanitized m.accountKeys.length m.accountKeys.length m.instructions ∧
      ∃ ss bx, LaysOut m.parts ss bx ∧ b = bx ++ rest := by
  obtain ⟨hd, b₁, hh, h₁⟩ := run_bind_eq_ok h
  obtain ⟨keys, b₂, hk, h₂⟩ := run_bind_eq_ok h₁
  obtain ⟨bh, b₃, hb, h₃⟩ := run_bind_eq_ok h₂
  obtain ⟨ixs, b₄, hi, h₄⟩ := run_bind_eq_ok h₃
  cases hc : hd.check keys.length keys.length ixs with
  | error e =>
    simp only [hc] at h₄
    exact absurd h₄ run_throw_ne_ok
  | ok u =>
    simp only [hc] at h₄
    obtain ⟨rfl, rfl⟩ := run_pure_eq_ok h₄
    exact ⟨MessageHeader.check_eq_ok_iff.mp hc, MessageWire.body_takesLayout hh hk hb hi⟩

theorem V0Message.read_inv {m : V0Message} {b rest : List UInt8}
    (h : V0Message.read.run b = .ok (m, rest)) :
    m.header.Sanitized m.staticKeys.length (m.staticKeys.length + m.numLoaded) m.instructions ∧
      ∃ ss bx, LaysOut m.parts ss bx ∧ b = bx ++ rest := by
  obtain ⟨pfx, b₁, hp, h₁⟩ := run_bind_eq_ok h
  obtain rfl := readU8_inv hp
  by_cases hlt : pfx < 128
  · simp only [if_pos hlt] at h₁
    obtain ⟨_, _, hthrow, -⟩ := run_bind_eq_ok h₁
    exact absurd hthrow run_throw_ne_ok
  simp only [if_neg hlt] at h₁
  by_cases hv : pfx &&& 127 ≠ 0
  · simp only [if_pos hv] at h₁
    obtain ⟨_, _, hthrow, -⟩ := run_bind_eq_ok h₁
    exact absurd hthrow run_throw_ne_ok
  simp only [if_neg hv] at h₁
  obtain rfl := versionPrefix_eq hlt (not_not.mp hv)
  obtain ⟨hd, b₂, hh, h₂⟩ := run_bind_eq_ok h₁
  obtain ⟨keys, b₃, hk, h₃⟩ := run_bind_eq_ok h₂
  obtain ⟨bh, b₄, hb, h₄⟩ := run_bind_eq_ok h₃
  obtain ⟨ixs, b₅, hi, h₅⟩ := run_bind_eq_ok h₄
  obtain ⟨n, b₆, hn, h₆⟩ := run_bind_eq_ok h₅
  obtain ⟨ls, b₇, hls, h₇⟩ := run_bind_eq_ok h₆
  cases hc : hd.check keys.length (keys.length + (V0Message.mk hd keys bh ixs ls).numLoaded) ixs with
  | error e =>
    simp only [hc] at h₇
    exact absurd h₇ run_throw_ne_ok
  | ok u =>
    simp only [hc] at h₇
    obtain ⟨rfl, rfl⟩ := run_pure_eq_ok h₇
    refine ⟨MessageHeader.check_eq_ok_iff.mp hc, ?_⟩
    obtain ⟨s, hs, rfl⟩ := readLength_inv hn
    obtain ⟨rfl, ss₃, bx₃, hl₃, rfl⟩ := TableLookup.read_takesLayout.readMany n hls
    obtain ⟨ss₁, bx₁, hl₁, rfl⟩ := MessageWire.body_takesLayout hh hk hb hi
    exact ⟨ss₁ ++ (s :: ss₃), _, .raw (hl₁.append (.count hs hl₃)), by simp⟩

theorem VersionedMessage.read_inv {vm : VersionedMessage} {b rest : List UInt8}
    (h : VersionedMessage.read.run b = .ok (vm, rest)) :
    vm.header.Sanitized vm.staticKeys.length vm.numKeys vm.instructions ∧
      (∀ m, vm = .legacy m → m.header.numRequiredSignatures.toNat < 128) ∧
      ∃ ss bx, LaysOut vm.parts ss bx ∧ b = bx ++ rest := by
  obtain ⟨pfx, b₁, hp, h₁⟩ := run_bind_eq_ok h
  obtain ⟨rfl, t, rfl⟩ := peekU8_inv hp
  by_cases hlt : pfx < 128
  · -- a legacy message, whose signer count is the byte looked at
    simp only [if_pos hlt] at h₁
    obtain ⟨m, b₂, hm, h₂⟩ := run_bind_eq_ok h₁
    obtain ⟨rfl, rfl⟩ := run_pure_eq_ok h₂
    obtain ⟨hs, ss, bx, hl, hb⟩ := LegacyMessage.read_inv hm
    have hfirst : pfx = m.header.numRequiredSignatures := by
      obtain ⟨bx', rfl⟩ : ∃ bx', bx = m.header.encode ++ bx' := by
        cases hl
        exact ⟨_, rfl⟩
      simp only [MessageHeader.encode, List.cons_append, List.cons.injEq] at hb
      exact hb.1
    refine ⟨hs, fun m' hm' => ?_, ss, bx, hl, hb⟩
    cases hm'
    rw [← hfirst]
    exact UInt8.lt_iff_toNat_lt.mp hlt
  simp only [if_neg hlt] at h₁
  by_cases hv : pfx &&& 127 = 0
  · -- a version-0 message
    simp only [if_pos hv] at h₁
    obtain ⟨m, b₂, hm, h₂⟩ := run_bind_eq_ok h₁
    obtain ⟨rfl, rfl⟩ := run_pure_eq_ok h₂
    obtain ⟨hs, hl⟩ := V0Message.read_inv hm
    refine ⟨hs, fun m' hm' => ?_, hl⟩
    cases hm'
  · simp only [if_neg hv] at h₁
    exact absurd h₁ run_throw_ne_ok

/-- Decoding reads one value and refuses bytes after it, so a decoded value was read with no
bytes left. -/
theorem run_of_decode {α : Type} {r : Reader α} {bytes : List UInt8} {x : α}
    (h : (do let (m, rest) ← r.run bytes; MessageWire.expectEnd rest; pure m :
      Except SolError α) = .ok x) :
    r.run bytes = .ok (x, []) := by
  cases hr : r.run bytes with
  | error e =>
    rw [hr] at h
    cases h
  | ok p =>
    obtain ⟨m, rest⟩ := p
    rw [hr] at h
    cases rest with
    | nil =>
      cases h
      rfl
    | cons y ys => cases h

theorem VersionedTransaction.read_of_deserialize {tx : VersionedTransaction} {b : List UInt8}
    (h : VersionedTransaction.deserialize b = .ok tx) :
    (TransactionWire.readSignatures >>= fun sigs => VersionedMessage.read >>= fun m =>
      pure (sigs, m)).run b = .ok ((tx.signatures, tx.message), []) ∧
      tx.signatures.length = tx.message.header.numRequiredSignatures.toNat := by
  unfold deserialize at h
  cases hr : (TransactionWire.readSignatures >>= fun sigs => VersionedMessage.read >>= fun m =>
      pure (sigs, m)).run b with
  | error e =>
    rw [hr] at h
    cases h
  | ok p =>
    obtain ⟨⟨sigs, m⟩, rest⟩ := p
    rw [hr] at h
    cases rest with
    | cons y ys => cases h
    | nil =>
      -- the frame was read to its end; the signature count is checked against the header
      by_cases hn : sigs.length = m.header.numRequiredSignatures.toNat
      · simp only [MessageWire.expectEnd, List.isEmpty_nil, if_true, hn, ne_eq, not_true_eq_false,
          if_false, bind, Except.bind, pure, Except.pure, Except.ok.injEq] at h
        subst h
        exact ⟨rfl, hn⟩
      · simp only [MessageWire.expectEnd, List.isEmpty_nil, if_true, hn, ne_eq, not_false_eq_true,
          if_true, bind, Except.bind] at h
        cases h

/-! ### Decoded bytes lay out the value decoded -/

theorem LegacyMessage.decode_inv {b : List UInt8} {m : LegacyMessage}
    (h : LegacyMessage.decode b = .ok m) :
    m.header.Sanitized m.accountKeys.length m.accountKeys.length m.instructions ∧
      ∃ ss, LaysOut m.parts ss b := by
  obtain ⟨hs, ss, bx, hl, hb⟩ := LegacyMessage.read_inv (run_of_decode h)
  rw [List.append_nil] at hb
  exact ⟨hs, ss, hb ▸ hl⟩

theorem V0Message.decode_inv {b : List UInt8} {m : V0Message} (h : V0Message.decode b = .ok m) :
    m.header.Sanitized m.staticKeys.length (m.staticKeys.length + m.numLoaded) m.instructions ∧
      ∃ ss, LaysOut m.parts ss b := by
  obtain ⟨hs, ss, bx, hl, hb⟩ := V0Message.read_inv (run_of_decode h)
  rw [List.append_nil] at hb
  exact ⟨hs, ss, hb ▸ hl⟩

theorem VersionedMessage.decode_inv {b : List UInt8} {vm : VersionedMessage}
    (h : VersionedMessage.decode b = .ok vm) :
    vm.header.Sanitized vm.staticKeys.length vm.numKeys vm.instructions ∧
      (∀ m, vm = .legacy m → m.header.numRequiredSignatures.toNat < 128) ∧
      ∃ ss, LaysOut vm.parts ss b := by
  obtain ⟨hs, hlt, ss, bx, hl, hb⟩ := VersionedMessage.read_inv (run_of_decode h)
  rw [List.append_nil] at hb
  exact ⟨hs, hlt, ss, hb ▸ hl⟩

theorem VersionedTransaction.deserialize_inv {b : List UInt8} {tx : VersionedTransaction}
    (h : VersionedTransaction.deserialize b = .ok tx) :
    tx.signatures.length = tx.message.header.numRequiredSignatures.toNat ∧
      tx.message.header.Sanitized tx.message.staticKeys.length tx.message.numKeys
        tx.message.instructions ∧
      ∃ ss, LaysOut tx.parts ss b := by
  obtain ⟨hr, hn⟩ := read_of_deserialize h
  obtain ⟨sigs, b₁, hsigs, h₁⟩ := run_bind_eq_ok hr
  obtain ⟨m, b₂, hm, h₂⟩ := run_bind_eq_ok h₁
  obtain ⟨hp, rfl⟩ := run_pure_eq_ok h₂
  obtain ⟨rfl, hmsg⟩ := Prod.mk.inj hp
  subst hmsg
  obtain ⟨hs, -, ss₂, bx₂, hl₂, rfl⟩ := VersionedMessage.read_inv hm
  obtain ⟨ss₁, bx₁, hl₁, rfl⟩ := TransactionWire.readSignatures_takesLayout hsigs
  refine ⟨hn, hs, ss₁ ++ ss₂, ?_⟩
  rw [List.append_nil]
  exact hl₁.append hl₂

/-- Writing a transaction with at most 255 signatures gives its canonical form when that fits a
packet, and fails as too large otherwise. -/
theorem VersionedTransaction.serialize_eq {tx : VersionedTransaction}
    (hn : tx.signatures.length ≤ 255) :
    tx.serialize = if (render tx.parts).length ≤ TransactionWire.packetDataSize then
      .ok (render tx.parts)
    else .error (.transactionTooLarge (render tx.parts).length TransactionWire.packetDataSize) := by
  rw [serialize, TransactionWire.encode, if_neg (by omega), render_parts]
  dsimp only
  by_cases hle : (ShortVec.encode tx.signatures.length ++ tx.signatures.flatMap (·.bytes) ++
      tx.message.encode).length ≤ TransactionWire.packetDataSize
  · rw [if_neg (by omega), if_pos hle]
  · rw [if_pos (by omega), if_neg hle]

/-! ### Re-encoding decoded bytes -/

/-- Bytes that decode to a message lay the message out with one spelling of each count; encoding
the message gives bytes that decode to it again, and gives back the input exactly when the input
spelled every count in its shortest form. A decoded transaction is the same with its signature
count, except that writing it back enforces the packet limit: it gives the canonical bytes, which
decode to the same transaction, when they fit in a packet, and fails as too large otherwise. -/
theorem decoded_reencodes_canonically :
    (∀ (b : List UInt8) (m : LegacyMessage), LegacyMessage.decode b = .ok m →
      LegacyMessage.decode m.encode = .ok m ∧ m.encode = render m.parts ∧ Respelling m.parts b) ∧
    (∀ (b : List UInt8) (m : V0Message), V0Message.decode b = .ok m →
      V0Message.decode m.encode = .ok m ∧ m.encode = render m.parts ∧ Respelling m.parts b) ∧
    (∀ (b : List UInt8) (vm : VersionedMessage), VersionedMessage.decode b = .ok vm →
      VersionedMessage.decode vm.encode = .ok vm ∧ vm.encode = render vm.parts ∧
        Respelling vm.parts b) ∧
    (∀ (b : List UInt8) (tx : VersionedTransaction), VersionedTransaction.deserialize b = .ok tx →
      Respelling tx.parts b ∧
      tx.serialize = (if (render tx.parts).length ≤ TransactionWire.packetDataSize then
          .ok (render tx.parts)
        else .error (.transactionTooLarge (render tx.parts).length TransactionWire.packetDataSize)) ∧
      ((render tx.parts).length ≤ TransactionWire.packetDataSize →
        VersionedTransaction.deserialize (render tx.parts) = .ok tx)) := by
  refine ⟨fun b m h => ?_, fun b m h => ?_, fun b vm h => ?_, fun b tx h => ?_⟩
  · obtain ⟨hs, ss, hl⟩ := LegacyMessage.decode_inv h
    exact ⟨LegacyMessage.decode_encode hs (LegacyMessage.fits_of_laysOut hl),
      m.render_parts.symm, hl.respelling⟩
  · obtain ⟨hs, ss, hl⟩ := V0Message.decode_inv h
    obtain ⟨hf, hlk⟩ := V0Message.fits_of_laysOut hl
    exact ⟨V0Message.decode_encode hs hf hlk, m.render_parts.symm, hl.respelling⟩
  · obtain ⟨hs, hlt, ss, hl⟩ := VersionedMessage.decode_inv h
    refine ⟨?_, vm.render_parts.symm, hl.respelling⟩
    cases vm with
    | legacy m =>
      exact decode_of_readsBack (VersionedMessage.read_readsBack_legacy hs
        (LegacyMessage.fits_of_laysOut hl) (hlt m rfl))
    | v0 m =>
      obtain ⟨hf, hlk⟩ := V0Message.fits_of_laysOut hl
      exact decode_of_readsBack (VersionedMessage.read_readsBack_v0 hs hf hlk)
  · obtain ⟨hn, hs, ss, hl⟩ := VersionedTransaction.deserialize_inv h
    have h255 : tx.signatures.length ≤ 255 := by
      have := tx.message.header.numRequiredSignatures.toNat_lt
      omega
    have hser := VersionedTransaction.serialize_eq h255
    refine ⟨hl.respelling, hser, fun hle => ?_⟩
    rw [if_pos hle] at hser
    exact VersionedTransaction.deserialize_serialize hn hs hser

/-- A legacy message with one key whose count is spelled `0x81 0x00`, read directly and behind the
version dispatch; a version-0 message whose instruction count is spelled so; and a transaction
whose signature count is spelled so. -/
theorem decoded_reencodes_canonically_padded :
    LegacyMessage.decode (LegacyMessage.mk ⟨1, 0, 0⟩ [Address.zero] Blockhash.zero []).encode =
        .ok (LegacyMessage.mk ⟨1, 0, 0⟩ [Address.zero] Blockhash.zero []) ∧
      (LegacyMessage.mk ⟨1, 0, 0⟩ [Address.zero] Blockhash.zero []).encode ≠
        [1, 0, 0, 0x81, 0x00] ++ List.replicate 64 0 ++ [0] ∧
      Respelling (LegacyMessage.mk ⟨1, 0, 0⟩ [Address.zero] Blockhash.zero []).parts
        ([1, 0, 0, 0x81, 0x00] ++ List.replicate 64 0 ++ [0]) ∧
    V0Message.decode (V0Message.mk ⟨1, 0, 0⟩ [Address.zero] Blockhash.zero [] []).encode =
        .ok (V0Message.mk ⟨1, 0, 0⟩ [Address.zero] Blockhash.zero [] []) ∧
    VersionedMessage.decode (VersionedMessage.legacy
        (LegacyMessage.mk ⟨1, 0, 0⟩ [Address.zero] Blockhash.zero [])).encode =
      .ok (.legacy (LegacyMessage.mk ⟨1, 0, 0⟩ [Address.zero] Blockhash.zero [])) ∧
    VersionedTransaction.deserialize
        (render (VersionedTransaction.mk [Signature.zero]
          (.legacy (LegacyMessage.mk ⟨1, 0, 0⟩ [Address.zero] Blockhash.zero []))).parts) =
      .ok (VersionedTransaction.mk [Signature.zero]
        (.legacy (LegacyMessage.mk ⟨1, 0, 0⟩ [Address.zero] Blockhash.zero []))) := by
  obtain ⟨hL, hV, hM, hT⟩ :
      LegacyMessage.decode ([1, 0, 0, 0x81, 0x00] ++ List.replicate 64 0 ++ [0]) =
          .ok (LegacyMessage.mk ⟨1, 0, 0⟩ [Address.zero] Blockhash.zero []) ∧
        V0Message.decode ([0x80, 1, 0, 0, 1] ++ List.replicate 64 0 ++ [0x80, 0x00, 0]) =
          .ok (V0Message.mk ⟨1, 0, 0⟩ [Address.zero] Blockhash.zero [] []) ∧
        VersionedMessage.decode ([1, 0, 0, 0x81, 0x00] ++ List.replicate 64 0 ++ [0]) =
          .ok (.legacy (LegacyMessage.mk ⟨1, 0, 0⟩ [Address.zero] Blockhash.zero [])) ∧
        VersionedTransaction.deserialize ([0x81, 0x00] ++ List.replicate 64 0 ++ [1, 0, 0, 1] ++
            List.replicate 64 0 ++ [0]) =
          .ok (VersionedTransaction.mk [Signature.zero]
            (.legacy (LegacyMessage.mk ⟨1, 0, 0⟩ [Address.zero] Blockhash.zero []))) := by
    decide +kernel
  obtain ⟨hre, -, hresp⟩ := decoded_reencodes_canonically.1 _ _ hL
  obtain ⟨-, -, hback⟩ := decoded_reencodes_canonically.2.2.2 _ _ hT
  exact ⟨hre, by decide +kernel, hresp, (decoded_reencodes_canonically.2.1 _ _ hV).1,
    (decoded_reencodes_canonically.2.2.1 _ _ hM).1, hback (by decide +kernel)⟩

/-- A frame of 1254 bytes, one signature and a message with 36 keys, is decoded, but writing the
transaction back fails: it is longer than a packet. -/
theorem oversized_transaction_not_rewritten :
    VersionedTransaction.deserialize ([1] ++ List.replicate 64 0 ++ [1, 0, 0, 36] ++
        List.replicate (36 * 32) 0 ++ List.replicate 32 0 ++ [0]) =
      .ok ⟨[Signature.zero], .legacy ⟨⟨1, 0, 0⟩, List.replicate 36 Address.zero, Blockhash.zero, []⟩⟩ ∧
    (VersionedTransaction.mk [Signature.zero]
        (.legacy ⟨⟨1, 0, 0⟩, List.replicate 36 Address.zero, Blockhash.zero, []⟩)).serialize =
      .error (.transactionTooLarge 1254 1232) := by
  decide +kernel

end ChainTx
