import ChainTx.Proofs.WireRead
/-!
# The message codec round-trips

Decoding a message checks its header and indexes against its keys (`MessageHeader.check`), which
accepts exactly the sanitized messages (`MessageHeader.Sanitized`). Every sanitized message whose
lists fit their compact counts is decoded back from its wire form, in either format; a legacy
message also needs fewer than 128 signers to be told apart from a versioned one by its first byte.
-/

namespace ChainTx

open Reader

/-- What the decoder requires of a header and instructions: the signers are among the static
keys, a message with signers has a writable one, the readonly unsigned run fits among the unsigned
static keys, and every program and account index names one of the keys. -/
structure MessageHeader.Sanitized (h : MessageHeader) (numStatic numTotal : Nat)
    (ixs : List CompiledInstruction) : Prop where
  signers_le : h.numRequiredSignatures.toNat ≤ numStatic
  readonly_signed_lt : 0 < h.numRequiredSignatures.toNat →
    h.numReadonlySigned.toNat < h.numRequiredSignatures.toNat
  readonly_unsigned_le : h.numReadonlyUnsigned.toNat ≤ numStatic - h.numRequiredSignatures.toNat
  program_lt : ∀ ix ∈ ixs, ix.programIdIndex.toNat < numTotal
  accounts_lt : ∀ ix ∈ ixs, ∀ a ∈ ix.accounts, a.toNat < numTotal

/-- The lists of a message body fit their compact counts: fewer than `2^32` keys and
instructions, and fewer than `2^32` account indexes and data bytes in each instruction. -/
structure BodyFits (keys : List Address) (ixs : List CompiledInstruction) : Prop where
  keys_lt : keys.length < Nat.pow 2 32
  instructions_lt : ixs.length < Nat.pow 2 32
  accounts_lt : ∀ ix ∈ ixs, ix.accounts.length < Nat.pow 2 32
  data_lt : ∀ ix ∈ ixs, ix.data.length < Nat.pow 2 32

/-- Table lookups fit their compact counts: fewer than `2^32` lookups, and fewer than `2^32`
writable and readonly indexes in each. -/
structure LookupsFit (ls : List TableLookup) : Prop where
  lookups_lt : ls.length < Nat.pow 2 32
  writable_lt : ∀ l ∈ ls, l.writableIndexes.length < Nat.pow 2 32
  readonly_lt : ∀ l ∈ ls, l.readonlyIndexes.length < Nat.pow 2 32

namespace MessageHeader

private theorem indexes_in_range_iff {t : Nat} {ixs : List CompiledInstruction} :
    (ixs.any fun ix => (ix.programIdIndex :: ix.accounts).any (·.toNat ≥ t)) = false ↔
      (∀ ix ∈ ixs, ix.programIdIndex.toNat < t) ∧ ∀ ix ∈ ixs, ∀ a ∈ ix.accounts, a.toNat < t := by
  simp only [List.any_eq_false, List.any_cons, Bool.or_eq_true, List.any_eq_true,
    decide_eq_true_eq, not_or, not_exists, not_and, Nat.not_le]
  exact ⟨fun h => ⟨fun ix hix => (h ix hix).1, fun ix hix a ha => (h ix hix).2 a ha⟩,
    fun h ix hix => ⟨h.1 ix hix, fun a ha => h.2 ix hix a ha⟩⟩

theorem check_eq_ok_iff {h : MessageHeader} {numStatic numTotal : Nat}
    {ixs : List CompiledInstruction} :
    h.check numStatic numTotal ixs = .ok () ↔ h.Sanitized numStatic numTotal ixs := by
  have hro : (h.numReadonlySigned ≥ h.numRequiredSignatures ∧ h.numRequiredSignatures > 0) ↔
      ¬ (0 < h.numRequiredSignatures.toNat →
        h.numReadonlySigned.toNat < h.numRequiredSignatures.toNat) := by
    rw [GE.ge, UInt8.le_iff_toNat_le, GT.gt, UInt8.lt_iff_toNat_lt]
    simp only [UInt8.toNat_zero]
    omega
  unfold check
  dsimp only
  constructor
  · intro hc
    split_ifs at hc with h₁ h₂ h₃ h₄
    obtain ⟨hp, ha⟩ := indexes_in_range_iff.mp (Bool.eq_false_iff.mpr h₄)
    exact ⟨by omega, not_not.mp (mt hro.mpr h₂), by omega, hp, ha⟩
  · intro hs
    have h₄ := indexes_in_range_iff.mpr ⟨hs.program_lt, hs.accounts_lt⟩
    rw [if_neg (by have := hs.signers_le; omega), if_neg (fun h => hro.mp h hs.readonly_signed_lt),
      if_neg (by have := hs.readonly_unsigned_le; omega), if_neg (Bool.eq_false_iff.mp h₄)]

end MessageHeader

/-- Decoding reads one value and refuses bytes after it, so what a reader reads back with
nothing after it is decoded. -/
theorem decode_of_readsBack {α : Type} {r : Reader α} {bytes : List UInt8} {x : α}
    (h : ReadsBack r bytes x) :
    (do let (m, rest) ← r.run bytes; MessageWire.expectEnd rest; pure m :
      Except SolError α) = .ok x := by
  have h₀ := h []
  rw [List.append_nil] at h₀
  simp [h₀, bind, Except.bind, MessageWire.expectEnd, pure, Except.pure]

theorem ReadsBack.of_run {α : Type} {r : Reader α} {x : α}
    (h : ∀ rest, r.run rest = .ok (x, rest)) : ReadsBack r [] x :=
  h

theorem ReadsBack.peek {α : Type} {what : String} {f : UInt8 → Reader α} {b : UInt8}
    {bs : List UInt8} {x : α} (h : ReadsBack (f b) (b :: bs) x) :
    ReadsBack (peekU8 what >>= f) (b :: bs) x := by
  intro rest
  have h₁ := h rest
  simp only [run, StateT.run, List.cons_append] at h₁ ⊢
  show StateT.bind (peekU8 what) f _ = _
  simp only [StateT.bind, peekU8]
  exact h₁

namespace LegacyMessage

theorem read_readsBack {m : LegacyMessage}
    (hs : m.header.Sanitized m.accountKeys.length m.accountKeys.length m.instructions)
    (hf : BodyFits m.accountKeys m.instructions) : ReadsBack read m.encode m := by
  have hcheck := MessageHeader.check_eq_ok_iff.mpr hs
  refine ((MessageHeader.read_readsBack m.header).bind
    ((MessageWire.readKeys_readsBack hf.keys_lt).bind
    ((MessageWire.readBlockhash_readsBack m.recentBlockhash).bind
    ((MessageWire.readInstructions_readsBack hf.instructions_lt
      fun ix hix => ⟨hf.accounts_lt ix hix, hf.data_lt ix hix⟩).bind
    (ReadsBack.of_run fun rest => ?_))))).congr_bytes (by simp [encode])
  simp only [run, StateT.run, hcheck]
  rfl

theorem decode_encode {m : LegacyMessage}
    (hs : m.header.Sanitized m.accountKeys.length m.accountKeys.length m.instructions)
    (hf : BodyFits m.accountKeys m.instructions) : decode m.encode = .ok m :=
  decode_of_readsBack (read_readsBack hs hf)

end LegacyMessage

namespace V0Message

theorem read_readsBack {m : V0Message}
    (hs : m.header.Sanitized m.staticKeys.length (m.staticKeys.length + m.numLoaded) m.instructions)
    (hf : BodyFits m.staticKeys m.instructions) (hl : LookupsFit m.lookups) :
    ReadsBack read m.encode m := by
  have hcheck := MessageHeader.check_eq_ok_iff.mpr hs
  refine ReadsBack.congr_bytes (b := [versionPrefix] ++ (m.header.encode ++
    (MessageWire.encodeKeys m.staticKeys ++ (m.recentBlockhash.bytes ++
    (MessageWire.encodeInstructions m.instructions ++ (ShortVec.encode m.lookups.length ++
    (m.lookups.flatMap TableLookup.encode ++ []))))))) ?_ (by simp [encode])
  refine (readU8_readsBack _ versionPrefix).bind ?_
  simp only [versionPrefix, show ¬ ((128 : UInt8) < 128) by decide,
    show ((128 : UInt8) &&& 127) = 0 by decide, ne_eq, not_true_eq_false, if_false]
  exact (MessageHeader.read_readsBack m.header).bind
    ((MessageWire.readKeys_readsBack hf.keys_lt).bind
    ((MessageWire.readBlockhash_readsBack m.recentBlockhash).bind
    ((MessageWire.readInstructions_readsBack hf.instructions_lt
      fun ix hix => ⟨hf.accounts_lt ix hix, hf.data_lt ix hix⟩).bind
    ((readLength_readsBack _ hl.lookups_lt).bind
    ((readMany_readsBack fun l hml =>
      TableLookup.read_readsBack (hl.writable_lt l hml) (hl.readonly_lt l hml)).bind
    (ReadsBack.of_run fun rest => by
      simp only [run, StateT.run, hcheck]; rfl))))))

theorem decode_encode {m : V0Message}
    (hs : m.header.Sanitized m.staticKeys.length (m.staticKeys.length + m.numLoaded) m.instructions)
    (hf : BodyFits m.staticKeys m.instructions) (hl : LookupsFit m.lookups) :
    decode m.encode = .ok m :=
  decode_of_readsBack (read_readsBack hs hf hl)

end V0Message

namespace VersionedMessage

/-- A legacy message with fewer than 128 signers starts with a byte below the version prefix and
is read as a legacy message. -/
theorem read_readsBack_legacy {m : LegacyMessage}
    (hs : m.header.Sanitized m.accountKeys.length m.accountKeys.length m.instructions)
    (hf : BodyFits m.accountKeys m.instructions) (hlt : m.header.numRequiredSignatures.toNat < 128) :
    ReadsBack read (legacy m).encode (legacy m) := by
  have hr := LegacyMessage.read_readsBack hs hf
  obtain ⟨bs, hbs⟩ : ∃ bs, m.encode = m.header.numRequiredSignatures :: bs := ⟨_, rfl⟩
  have hpfx : m.header.numRequiredSignatures < 128 := UInt8.lt_iff_toNat_lt.mpr hlt
  rw [hbs] at hr
  show ReadsBack read m.encode _
  rw [hbs]
  refine ReadsBack.peek ?_
  simp only [if_pos hpfx]
  exact hr.map legacy

theorem read_readsBack_v0 {m : V0Message}
    (hs : m.header.Sanitized m.staticKeys.length (m.staticKeys.length + m.numLoaded) m.instructions)
    (hf : BodyFits m.staticKeys m.instructions) (hl : LookupsFit m.lookups) :
    ReadsBack read (v0 m).encode (v0 m) := by
  have hr := V0Message.read_readsBack hs hf hl
  obtain ⟨bs, hbs⟩ : ∃ bs, m.encode = versionPrefix :: bs := ⟨_, rfl⟩
  rw [hbs] at hr
  show ReadsBack read m.encode _
  rw [hbs]
  refine ReadsBack.peek ?_
  simp only [versionPrefix, show ¬ ((128 : UInt8) < 128) by decide,
    show ((128 : UInt8) &&& 127) = 0 by decide, if_false, if_true]
  exact hr.map v0

end VersionedMessage

/-- The wire codec round-trips every sanitized message whose lists fit their compact counts:
legacy messages, version-0 messages (whose indexes may also name the keys their lookups load),
and messages of either format behind the version dispatch, where a legacy message needs fewer
than 128 signers. -/
theorem decode_encode_sanitized :
    (∀ m : LegacyMessage,
      m.header.Sanitized m.accountKeys.length m.accountKeys.length m.instructions →
      BodyFits m.accountKeys m.instructions → LegacyMessage.decode m.encode = .ok m) ∧
    (∀ m : V0Message,
      m.header.Sanitized m.staticKeys.length (m.staticKeys.length + m.numLoaded) m.instructions →
      BodyFits m.staticKeys m.instructions → LookupsFit m.lookups →
      V0Message.decode m.encode = .ok m) ∧
    (∀ vm : VersionedMessage,
      vm.header.Sanitized vm.staticKeys.length vm.numKeys vm.instructions →
      BodyFits vm.staticKeys vm.instructions → LookupsFit vm.lookups →
      (∀ m, vm = .legacy m → m.header.numRequiredSignatures.toNat < 128) →
      VersionedMessage.decode vm.encode = .ok vm) := by
  refine ⟨fun m hs hf => LegacyMessage.decode_encode hs hf,
    fun m hs hf hl => V0Message.decode_encode hs hf hl, fun vm hs hf hl hlt => ?_⟩
  cases vm with
  | legacy m =>
    exact decode_of_readsBack (VersionedMessage.read_readsBack_legacy hs hf (hlt m rfl))
  | v0 m =>
    exact decode_of_readsBack (VersionedMessage.read_readsBack_v0 hs hf hl)

/-- A legacy message invoking its second key, and a version-0 message whose instruction names the
account its lookup loads, decoded directly and behind the version dispatch. -/
theorem decode_encode_sanitized_samples :
    LegacyMessage.decode (LegacyMessage.mk ⟨1, 0, 1⟩ [Address.zero, Address.zero] Blockhash.zero
        [⟨1, [0], [7]⟩]).encode =
      .ok (LegacyMessage.mk ⟨1, 0, 1⟩ [Address.zero, Address.zero] Blockhash.zero [⟨1, [0], [7]⟩]) ∧
    V0Message.decode (V0Message.mk ⟨1, 0, 0⟩ [Address.zero] Blockhash.zero [⟨0, [1], []⟩]
        [⟨Address.zero, [0], []⟩]).encode =
      .ok (V0Message.mk ⟨1, 0, 0⟩ [Address.zero] Blockhash.zero [⟨0, [1], []⟩]
        [⟨Address.zero, [0], []⟩]) ∧
    VersionedMessage.decode (VersionedMessage.v0 (V0Message.mk ⟨1, 0, 0⟩ [Address.zero]
        Blockhash.zero [⟨0, [1], []⟩] [⟨Address.zero, [0], []⟩])).encode =
      .ok (VersionedMessage.v0 (V0Message.mk ⟨1, 0, 0⟩ [Address.zero] Blockhash.zero
        [⟨0, [1], []⟩] [⟨Address.zero, [0], []⟩])) :=
  ⟨decode_encode_sanitized.1 _ (MessageHeader.check_eq_ok_iff.mp rfl)
      ⟨by decide, by decide, by decide, by decide⟩,
    decode_encode_sanitized.2.1 _ (MessageHeader.check_eq_ok_iff.mp rfl)
      ⟨by decide, by decide, by decide, by decide⟩ ⟨by decide, by decide, by decide⟩,
    decode_encode_sanitized.2.2 _ (MessageHeader.check_eq_ok_iff.mp rfl)
      ⟨by decide, by decide, by decide, by decide⟩ ⟨by decide, by decide, by decide⟩
      fun _ h => by cases h⟩

end ChainTx
