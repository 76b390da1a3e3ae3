import ChainTx.Proofs.TransactionCodec
import ChainTx.Transaction.Versioned
/-!
# Versioned transactions: the wire form and signing

A versioned transaction is framed as its signatures followed by its message, so a transaction
whose slots match its header and whose message the decoder accepts is read back from its wire
form. The packet limit is what keeps the first byte of a legacy message, its signer count, below
the version prefix: 128 signatures alone are longer than a packet.
-/

namespace ChainTx

open Reader

section Fits

theorem V0Message.fits_of_length {m : V0Message} (h : m.encode.length < Nat.pow 2 32) :
    BodyFits m.staticKeys m.instructions ∧ LookupsFit m.lookups := by
  have hkeys : m.staticKeys.length ≤ (m.staticKeys.flatMap (·.bytes)).length :=
    length_le_length_flatMap fun a _ => List.ne_nil_of_length_pos (by rw [a.size_eq]; decide)
  have hixs : m.instructions.length ≤
      (m.instructions.flatMap MessageWire.encodeInstruction).length :=
    length_le_length_flatMap fun _ _ => List.cons_ne_nil _ _
  have hix : ∀ ix ∈ m.instructions, (MessageWire.encodeInstruction ix).length ≤
      (m.instructions.flatMap MessageWire.encodeInstruction).length :=
    fun _ hix => length_le_length_flatMap_of_mem hix
  have hls : m.lookups.length ≤ (m.lookups.flatMap TableLookup.encode).length :=
    length_le_length_flatMap fun l _ =>
      List.ne_nil_of_length_pos (by simp [TableLookup.encode, l.accountKey.size_eq])
  have hl : ∀ l ∈ m.lookups, (TableLookup.encode l).length ≤
      (m.lookups.flatMap TableLookup.encode).length :=
    fun _ hl => length_le_length_flatMap_of_mem hl
  simp only [V0Message.encode, MessageWire.encodeKeys, MessageWire.encodeInstructions,
    List.length_cons, List.length_append] at h
  refine ⟨⟨by omega, by omega, fun ix hi => ?_, fun ix hi => ?_⟩,
    ⟨by omega, fun l hi => ?_, fun l hi => ?_⟩⟩
  · have := hix ix hi
    simp only [MessageWire.encodeInstruction, ShortVec.encodeBytes, List.length_cons,
      List.length_append] at this
    omega
  · have := hix ix hi
    simp only [MessageWire.encodeInstruction, ShortVec.encodeBytes, List.length_cons,
      List.length_append] at this
    omega
  · have := hl l hi
    simp only [TableLookup.encode, ShortVec.encodeBytes, List.length_append] at this
    omega
  · have := hl l hi
    simp only [TableLookup.encode, ShortVec.encodeBytes, List.length_append] at this
    omega

theorem VersionedMessage.fits_of_length {vm : VersionedMessage}
    (h : vm.encode.length < Nat.pow 2 32) :
    BodyFits vm.staticKeys vm.instructions ∧ LookupsFit vm.lookups := by
  cases vm with
  | legacy m =>
    exact ⟨LegacyMessage.bodyFits_of_length h,
      ⟨(by decide : 0 < Nat.pow 2 32), (fun _ hl => by cases hl), (fun _ hl => by cases hl)⟩⟩
  | v0 m => exact V0Message.fits_of_length h

theorem VersionedMessage.read_readsBack {vm : VersionedMessage}
    (hs : vm.header.Sanitized vm.staticKeys.length vm.numKeys vm.instructions)
    (hlen : vm.encode.length < Nat.pow 2 32)
    (hlt : ∀ m, vm = .legacy m → m.header.numRequiredSignatures.toNat < 128) :
    ReadsBack VersionedMessage.read vm.encode vm := by
  obtain ⟨hf, hl⟩ := VersionedMessage.fits_of_length hlen
  cases vm with
  | legacy m => exact VersionedMessage.read_readsBack_legacy hs hf (hlt m rfl)
  | v0 m => exact VersionedMessage.read_readsBack_v0 hs hf hl

end Fits

section IdxOf

variable {α : Type} [BEq α] [LawfulBEq α] {l : List α} {i : Nat} {a : α}

theorem getElem?_of_idxOf? (h : l.idxOf? a = some i) : l[i]? = some a := by
  obtain ⟨hlt, heq, -⟩ := List.idxOf?_eq_some_iff.mp h
  exact List.getElem?_eq_some_iff.mpr ⟨hlt, heq⟩

theorem idxOf?_of_getElem? (hnd : l.Nodup) (h : l[i]? = some a) : l.idxOf? a = some i := by
  obtain ⟨hlt, rfl⟩ := List.getElem?_eq_some_iff.mp h
  refine List.idxOf?_eq_some_iff.mpr ⟨hlt, rfl, fun j hj heq => ?_⟩
  have := (hnd.getElem_inj_iff).mp heq
  omega

end IdxOf

/-- What Ed25519 promises of the signature a keypair makes over `data`: it is never the all-zero
placeholder of an unsigned slot, and it verifies for the keypair's address. -/
def Keypair.SignsValidly (k : Keypair) (data : List UInt8) : Prop :=
  (k.sign data).isEmpty = false ∧ k.pubkey.verifies data (k.sign data).bytes = true

namespace VersionedTransaction

theorem length_flatMap_bytes (sigs : List Signature) :
    (sigs.flatMap (·.bytes)).length = 64 * sigs.length := by
  induction sigs with
  | nil => rfl
  | cons s sigs ih =>
    rw [List.flatMap_cons, List.length_append, s.size_eq, ih, List.length_cons]
    omega

/-- A transaction whose slots match its header and whose message the decoder accepts is read
back from the bytes it serializes to. Within the packet limit a frame holds at most 19
signatures, so a legacy message is told apart from a versioned one. -/
theorem deserialize_serialize {tx : VersionedTransaction} {bytes : List UInt8}
    (hcount : tx.signatures.length = tx.message.header.numRequiredSignatures.toNat)
    (hs : tx.message.header.Sanitized tx.message.staticKeys.length tx.message.numKeys
      tx.message.instructions)
    (h : tx.serialize = .ok bytes) : deserialize bytes = .ok tx := by
  obtain ⟨rfl, -, hsize⟩ := TransactionWire.encode_ok h
  have hsigs := length_flatMap_bytes tx.signatures
  have h32 : Nat.pow 2 32 = 4294967296 := rfl
  simp only [List.length_append, TransactionWire.packetDataSize] at hsize
  have hlt : ∀ m, tx.message = .legacy m → m.header.numRequiredSignatures.toNat < 128 := by
    intro m hm
    have hh : tx.message.header = m.header := by rw [hm]; rfl
    rw [hh] at hcount
    omega
  have hr := ((TransactionWire.readSignatures_readsBack (by omega)).bind
    (f := fun sigs => VersionedMessage.read >>= fun m => Pure.pure (sigs, m))
    ((VersionedMessage.read_readsBack hs (by omega) hlt).map (Prod.mk tx.signatures))) []
  rw [List.append_nil] at hr
  rw [deserialize, hr]
  simp [MessageWire.expectEnd, hcount, bind, Except.bind, pure, Except.pure]

/-! ### Signing -/

section Signing

variable {tx : VersionedTransaction} {pk : Address}

theorem signerIndex_of_idxOf? (hlen : tx.message.signerKeys.length ≤ tx.signatures.length)
    {i : Nat} (hi : tx.message.signerKeys.idxOf? pk = some i) : tx.signerIndex pk = .ok i := by
  obtain ⟨hlt, -, -⟩ := List.idxOf?_eq_some_iff.mp hi
  unfold signerIndex
  simp only [hi]
  rw [if_neg (by omega)]

theorem signerIndex_of_not_mem (hk : pk ∉ tx.message.signerKeys) :
    tx.signerIndex pk = .error (.unknownSigner pk) := by
  unfold signerIndex
  simp only [List.idxOf?_eq_none_iff.mpr hk]

section Keypairs

variable {data : List UInt8} {k : Keypair} {S : List Keypair}

theorem signAll_cons_of_idxOf? (hlen : tx.message.signerKeys.length ≤ tx.signatures.length)
    {i : Nat} (hi : tx.message.signerKeys.idxOf? k.pubkey = some i) :
    tx.signAll data (k :: S) = signAll { tx with signatures := tx.signatures.set i (k.sign data) } data S := by
  simp only [signAll, Keypair.signer_pubkey, signerIndex_of_idxOf? hlen hi, Keypair.trySignMessage_eq]

theorem signAll_cons_of_not_mem (hk : k.pubkey ∉ tx.message.signerKeys) :
    tx.signAll data (k :: S) = (tx, .error (.unknownSigner k.pubkey)) := by
  simp only [signAll, Keypair.signer_pubkey, signerIndex_of_not_mem hk]

end Keypairs

theorem signAll_ok_iff (data : List UInt8) (S : List Keypair) :
    ∀ tx : VersionedTransaction, tx.message.signerKeys.length ≤ tx.signatures.length →
      ((tx.signAll data S).2 = .ok () ↔ ∀ k ∈ S, k.pubkey ∈ tx.message.signerKeys) := by
  induction S with
  | nil => intro tx _; simp [signAll]
  | cons k S ih =>
    intro tx hlen
    cases hi : tx.message.signerKeys.idxOf? k.pubkey with
    | none =>
      have hk := List.idxOf?_eq_none_iff.mp hi
      rw [signAll_cons_of_not_mem hk]
      simp [hk]
    | some i =>
      have hk : k.pubkey ∈ tx.message.signerKeys := List.isSome_idxOf?.mp (by simp [hi])
      rw [signAll_cons_of_idxOf? hlen hi, ih _ (by simpa using hlen)]
      simp [hk]

/-- After signing, a slot holds what it held before, when no signer's address is first found
there, or else the signature of a signer whose address is. -/
theorem signAll_slot (data : List UInt8) (S : List Keypair) :
    ∀ (tx tx' : VersionedTransaction), tx.message.signerKeys.length ≤ tx.signatures.length →
      tx.signAll data S = (tx', .ok ()) →
      tx'.message = tx.message ∧ ∀ i,
        (tx'.signatures[i]? = tx.signatures[i]? ∧
          ∀ k ∈ S, tx.message.signerKeys.idxOf? k.pubkey ≠ some i) ∨
        ∃ k ∈ S, tx.message.signerKeys.idxOf? k.pubkey = some i ∧
          tx'.signatures[i]? = some (k.sign data) := by
  induction S with
  | nil =>
    intro tx tx' _ h
    cases h
    exact ⟨rfl, fun i => .inl ⟨rfl, fun _ hk => by cases hk⟩⟩
  | cons k S ih =>
    intro tx tx' hlen h
    cases hj : tx.message.signerKeys.idxOf? k.pubkey with
    | none =>
      rw [signAll_cons_of_not_mem (List.idxOf?_eq_none_iff.mp hj)] at h
      cases h
    | some j =>
      have hjlt : j < tx.signatures.length :=
        Nat.lt_of_lt_of_le (List.idxOf?_eq_some_iff.mp hj).1 hlen
      rw [signAll_cons_of_idxOf? hlen hj] at h
      obtain ⟨hm, hslots⟩ := ih _ tx' (by simpa using hlen) h
      refine ⟨hm, fun i => ?_⟩
      rcases hslots i with ⟨hi, hnone⟩ | ⟨k', hk', hidx, hi⟩
      · -- the slot is as `k` left it: its signature if it is `k`'s slot, else untouched
        rw [List.getElem?_set] at hi
        by_cases hji : j = i
        · subst hji
          rw [if_pos rfl, if_pos hjlt] at hi
          exact .inr ⟨k, List.mem_cons_self, hj, hi⟩
        · rw [if_neg hji] at hi
          refine .inl ⟨hi, fun k'' hk'' => ?_⟩
          rcases List.mem_cons.mp hk'' with rfl | hk''
          · rw [hj]
            exact fun h => hji (Option.some.inj h)
          · exact hnone k'' hk''
      · exact .inr ⟨k', List.mem_cons_of_mem _ hk', hidx, hi⟩

theorem signerKeys_length_le (m : VersionedMessage) :
    m.signerKeys.length ≤ m.header.numRequiredSignatures.toNat := by
  simp [VersionedMessage.signerKeys]

theorem tryNew_eq_ok_iff {m : VersionedMessage} {S : List Keypair} {tx : VersionedTransaction} :
    tryNew m S = .ok tx ↔
      (VersionedTransaction.mk (List.replicate m.header.numRequiredSignatures.toNat .zero) m).signAll
        m.encode S = (tx, .ok ()) := by
  have hn : new m [] = .ok ⟨List.replicate m.header.numRequiredSignatures.toNat .zero, m⟩ := rfl
  unfold tryNew
  rw [hn]
  rcases hs : (VersionedTransaction.mk (List.replicate m.header.numRequiredSignatures.toNat .zero)
    m).signAll m.encode S with ⟨tx', _ | _⟩
  · simp [bind, Except.bind, sign, hs, throw, throwThe, MonadExceptOf.throw]
  · simp [bind, Except.bind, sign, hs, pure, Except.pure]

/-- The signatures check exactly when the slot of each signer key holds a signature, not the
empty one, that verifies for the key over the message. -/
theorem verifySignatures_eq_ok_iff {tx : VersionedTransaction} :
    tx.verifySignatures = .ok () ↔ ∀ (i : Nat) (a : Address), tx.message.signerKeys[i]? = some a →
      ∃ s, tx.signatures[i]? = some s ∧ s.isEmpty = false ∧
        a.verifies tx.message.encode s.bytes = true := by
  unfold verifySignatures
  dsimp only
  split
  · next h =>
    simp only [Bool.and_eq_true, List.isEmpty_iff, List.filterMap_eq_nil_iff, Prod.forall,
      List.mem_zipIdx_iff_getElem?] at h
    refine iff_of_true rfl fun i a hi => ?_
    have h₁ := h.1 a i hi
    have h₂ := h.2 a i hi
    cases ho : tx.signatures[i]? with
    | none =>
      rw [ho] at h₂
      cases h₂
    | some s =>
      rw [ho] at h₁ h₂
      have he : s.isEmpty = false := by simpa using h₂
      simp only [he] at h₁
      exact ⟨s, rfl, he, by simpa using h₁⟩
  · next h =>
    refine iff_of_false (fun h' => by cases h') fun hall => h ?_
    simp only [Bool.and_eq_true, List.isEmpty_iff, List.filterMap_eq_nil_iff, Prod.forall,
      List.mem_zipIdx_iff_getElem?]
    refine ⟨fun a i hi => ?_, fun a i hi => ?_⟩ <;>
      obtain ⟨s, hs, he, hv⟩ := hall i a hi <;> simp [hs, he, hv]

theorem tryNew_ok_iff (m : VersionedMessage) (S : List Keypair) :
    (∃ tx, tryNew m S = .ok tx) ↔ ∀ k ∈ S, k.pubkey ∈ m.signerKeys := by
  have hlen : m.signerKeys.length ≤
      (List.replicate m.header.numRequiredSignatures.toNat Signature.zero).length := by
    rw [List.length_replicate]
    exact signerKeys_length_le m
  have h := signAll_ok_iff m.encode S ⟨_, m⟩ hlen
  constructor
  · rintro ⟨tx, htx⟩
    exact h.mp (by rw [tryNew_eq_ok_iff.mp htx])
  · intro hall
    rcases hs : (VersionedTransaction.mk
      (List.replicate m.header.numRequiredSignatures.toNat .zero) m).signAll m.encode S with ⟨tx, r⟩
    have hr : r = .ok () := by
      rw [hs] at h
      exact h.mpr hall
    subst hr
    exact ⟨tx, tryNew_eq_ok_iff.mpr hs⟩

theorem tryNew_verifySignatures_iff {m : VersionedMessage} {S : List Keypair}
    {tx : VersionedTransaction} (h : tryNew m S = .ok tx) (hnd : m.signerKeys.Nodup)
    (hsig : ∀ k ∈ S, k.SignsValidly m.encode) :
    tx.verifySignatures = .ok () ↔ ∀ a ∈ m.signerKeys, ∃ k ∈ S, k.pubkey = a := by
  have hlen : m.signerKeys.length ≤
      (List.replicate m.header.numRequiredSignatures.toNat Signature.zero).length := by
    rw [List.length_replicate]
    exact signerKeys_length_le m
  obtain ⟨hm, hslot⟩ := signAll_slot m.encode S ⟨_, m⟩ tx hlen (tryNew_eq_ok_iff.mp h)
  rw [verifySignatures_eq_ok_iff, hm]
  constructor
  · -- a filled slot was filled by a signer whose address is the slot's key
    intro hv a ha
    obtain ⟨i, hi⟩ := List.mem_iff_getElem?.mp ha
    obtain ⟨s, hs, he, -⟩ := hv i a hi
    rcases hslot i with ⟨hs₀, -⟩ | ⟨k, hk, hidx, -⟩
    · -- an untouched slot still holds the empty signature
      have hlt : i < m.header.numRequiredSignatures.toNat :=
        Nat.lt_of_lt_of_le (List.getElem?_eq_some_iff.mp hi).1 (signerKeys_length_le m)
      rw [hs, List.getElem?_replicate, if_pos hlt] at hs₀
      cases hs₀
      exact absurd he (by decide)
    · exact ⟨k, hk, Option.some.inj ((getElem?_of_idxOf? hidx).symm.trans hi)⟩
  · -- with distinct keys a signer's address is first found at its own slot
    intro hcov i a hi
    obtain ⟨k, hk, rfl⟩ := hcov a (List.mem_of_getElem? hi)
    rcases hslot i with ⟨-, hnone⟩ | ⟨k', hk', hidx, hs⟩
    · exact absurd (idxOf?_of_getElem? hnd hi) (hnone k hk)
    · have hka : k'.pubkey = k.pubkey :=
        Option.some.inj ((getElem?_of_idxOf? hidx).symm.trans hi)
      obtain ⟨he, hv⟩ := hsig k' hk'
      exact ⟨_, hs, he, hka ▸ hv⟩

end Signing

/-- The versioned wire form round-trips every transaction whose slots match its header and whose
message the decoder accepts, legacy and version 0 alike. Making and signing a transaction succeeds
exactly when every signer's address is a signer key; when the signer keys are distinct and each
signer's signature is one Ed25519 makes valid, the result checks exactly when the signers cover
every signer key. -/
theorem wire_roundTrip_and_signing :
    (∀ (tx : VersionedTransaction) (bytes : List UInt8),
      tx.signatures.length = tx.message.header.numRequiredSignatures.toNat →
      tx.message.header.Sanitized tx.message.staticKeys.length tx.message.numKeys
        tx.message.instructions →
      tx.serialize = .ok bytes → deserialize bytes = .ok tx) ∧
    (∀ (m : VersionedMessage) (S : List Keypair),
      (∃ tx, tryNew m S = .ok tx) ↔ ∀ k ∈ S, k.pubkey ∈ m.signerKeys) ∧
    (∀ (m : VersionedMessage) (S : List Keypair) (tx : VersionedTransaction),
      tryNew m S = .ok tx → m.signerKeys.Nodup → (∀ k ∈ S, k.SignsValidly m.encode) →
      (tx.verifySignatures = .ok () ↔ ∀ a ∈ m.signerKeys, ∃ k ∈ S, k.pubkey = a)) :=
  ⟨fun _ _ hcount hs h => deserialize_serialize hcount hs h, tryNew_ok_iff,
    fun _ _ _ h hnd hsig => tryNew_verifySignatures_iff h hnd hsig⟩

/-- A legacy message whose one key must sign. -/
private def oneSignerMessage : VersionedMessage :=
  .legacy ⟨⟨1, 0, 0⟩, [Address.zero], Blockhash.zero, []⟩

/-- The keypairs of the seeds of 32 bytes of seven and of eight. -/
private def sevenKeypair : Keypair := ⟨List.replicate 32 7, List.length_replicate⟩

private def eightKeypair : Keypair := ⟨List.replicate 32 8, List.length_replicate⟩

/-- A legacy message whose one key, that of `sevenKeypair`, must sign. -/
private def sevenSignerMessage : VersionedMessage :=
  .legacy ⟨⟨1, 0, 0⟩, [sevenKeypair.pubkey], Blockhash.zero, []⟩

/-- A transaction with its one slot left empty is read back from its frame. Signing the message of
`sevenKeypair`'s key by that keypair succeeds and checks; by `eightKeypair` it fails; with no
signers it leaves the empty slot, which fails the check because no signer covers the key. -/
theorem wire_roundTrip_and_signing_oneSigner :
    (VersionedTransaction.mk [.zero] oneSignerMessage).serialize =
        .ok ([1] ++ List.replicate 64 0 ++ [1, 0, 0, 1] ++ List.replicate 64 0 ++ [0]) ∧
      deserialize ([1] ++ List.replicate 64 0 ++ [1, 0, 0, 1] ++ List.replicate 64 0 ++ [0]) =
        .ok ⟨[.zero], oneSignerMessage⟩ ∧
    tryNew sevenSignerMessage [sevenKeypair] =
        .ok ⟨[sevenKeypair.sign sevenSignerMessage.encode], sevenSignerMessage⟩ ∧
      (VersionedTransaction.mk [sevenKeypair.sign sevenSignerMessage.encode]
        sevenSignerMessage).verifySignatures = .ok () ∧
    (∀ tx, tryNew sevenSignerMessage [eightKeypair] ≠ .ok tx) ∧
    tryNew sevenSignerMessage ([] : List Keypair) = .ok ⟨[.zero], sevenSignerMessage⟩ ∧
      (VersionedTransaction.mk [.zero] sevenSignerMessage).verifySignatures ≠ .ok () := by
  have hser : (VersionedTransaction.mk [.zero] oneSignerMessage).serialize =
      .ok ([1] ++ List.replicate 64 0 ++ [1, 0, 0, 1] ++ List.replicate 64 0 ++ [0]) := by cbv
  have hs : oneSignerMessage.header.Sanitized oneSignerMessage.staticKeys.length
      oneSignerMessage.numKeys oneSignerMessage.instructions :=
    MessageHeader.check_eq_ok_iff.mp (by decide)
  have hkeys : sevenSignerMessage.signerKeys = [sevenKeypair.pubkey] := rfl
  have hnd : sevenSignerMessage.signerKeys.Nodup := hkeys ▸ List.nodup_singleton _
  have hlen : sevenSignerMessage.signerKeys.length ≤ (VersionedTransaction.mk
      (List.replicate sevenSignerMessage.header.numRequiredSignatures.toNat .zero)
      sevenSignerMessage).signatures.length := by
    rw [hkeys]
    decide
  have hidx : sevenSignerMessage.signerKeys.idxOf? sevenKeypair.pubkey = some 0 :=
    idxOf?_of_getElem? hnd (by rw [hkeys]; rfl)
  have hsigned : tryNew sevenSignerMessage [sevenKeypair] =
      .ok ⟨[sevenKeypair.sign sevenSignerMessage.encode], sevenSignerMessage⟩ := by
    rw [tryNew_eq_ok_iff, @signAll_cons_of_idxOf? ⟨_, sevenSignerMessage⟩ _ _ _ hlen _ hidx]
    rfl
  have hunsigned : tryNew sevenSignerMessage ([] : List Keypair) = .ok ⟨[.zero], sevenSignerMessage⟩ :=
    rfl
  obtain ⟨hvalid, hne⟩ : sevenKeypair.SignsValidly sevenSignerMessage.encode ∧
      eightKeypair.pubkey ≠ sevenKeypair.pubkey := by
    unfold Keypair.SignsValidly
    decide +kernel
  refine ⟨hser, wire_roundTrip_and_signing.1 ⟨[.zero], oneSignerMessage⟩ _ (by decide) hs hser, hsigned,
    ?_, fun tx h => ?_, hunsigned, fun hv => ?_⟩
  · refine (wire_roundTrip_and_signing.2.2 _ _ _ hsigned hnd fun k hk => ?_).mpr fun a ha => ?_
    · rw [List.mem_singleton.mp hk]
      exact hvalid
    · rw [hkeys, List.mem_singleton] at ha
      exact ⟨sevenKeypair, List.mem_singleton_self _, ha.symm⟩
  · have hin := (wire_roundTrip_and_signing.2.1 _ _).mp ⟨tx, h⟩ eightKeypair (List.mem_singleton_self _)
    rw [hkeys, List.mem_singleton] at hin
    exact hne hin
  · obtain ⟨k, hk, -⟩ := (wire_roundTrip_and_signing.2.2 _ _ _ hunsigned hnd
      (fun _ hk => by cases hk)).mp hv sevenKeypair.pubkey (by simp [hkeys])
    cases hk

end VersionedTransaction

end ChainTx
