import ChainTx.Proofs.Utf8Codec
import ChainTx.Proofs.WireLayout
import ChainTx.Program.Registry
/-!
# Instruction data of the built-in programs

The system program writes a 4-byte little-endian discriminant and then its fields in order:
numbers as 8 little-endian bytes, keys as their 32 bytes, strings as an 8-byte length and their
UTF-8 bytes. The compute budget program writes a tag byte and then numbers of 4 or 8 bytes.
-/

namespace ChainTx

/-! ### Little-endian numbers -/

theorem pow_256_succ (n : Nat) : Nat.pow 256 (n + 1) = 256 * Nat.pow 256 n :=
  Nat.mul_comm _ _

theorem leBytes_succ (n v : Nat) :
    leBytes (n + 1) v = (v % 256).toUInt8 :: leBytes n (v / 256) := by
  simp only [leBytes, List.range_succ_eq_map, List.map_cons, List.map_map]
  congr 1
  · simp
  · apply List.map_congr_left
    intro i _
    simp [Nat.pow_succ', Nat.div_div_eq_div_mul]

@[simp] theorem length_leBytes (n v : Nat) : (leBytes n v).length = n := by
  simp [leBytes]

theorem leValue_cons (b : UInt8) (bs : List UInt8) : leValue (b :: bs) = b.toNat + 256 * leValue bs :=
  rfl

theorem leValue_leBytes (n v : Nat) : leValue (leBytes n v) = v % Nat.pow 256 n := by
  induction n generalizing v with
  | zero => exact (Nat.mod_one v).symm
  | succ n ih =>
    rw [leBytes_succ, leValue_cons, ih, pow_256_succ, Nat.mod_mul]
    simp

theorem leValue_lt (bytes : List UInt8) : leValue bytes < Nat.pow 256 bytes.length := by
  induction bytes with
  | nil => simp [leValue]
  | cons b bs ih =>
    rw [leValue_cons, List.length_cons, pow_256_succ]
    have hb := b.toNat_lt
    omega

theorem leBytes_leValue (bytes : List UInt8) : leBytes bytes.length (leValue bytes) = bytes := by
  induction bytes with
  | nil => rfl
  | cons b bs ih =>
    have hb := b.toNat_lt
    have hmod : (b.toNat + 256 * leValue bs) % 256 = b.toNat := by omega
    have hdiv : (b.toNat + 256 * leValue bs) / 256 = leValue bs := by omega
    rw [List.length_cons, leBytes_succ, leValue_cons, hmod, hdiv, ih]
    exact congrArg (· :: bs) UInt8.ofNat_toNat

/-! ### Field readers -/

namespace Reader

variable {α β : Type} {b rest : List UInt8}

/-- Every successful read by `r` took, from the front of its input, the bytes `enc x` of the value
`x` it read, and that value meets `fits`. -/
def Takes (r : Reader α) (fits : α → Prop) (enc : α → List UInt8) : Prop :=
  ∀ {b x rest}, r.run b = .ok (x, rest) → fits x ∧ b = enc x ++ rest

theorem Takes.bind_inv {r : Reader α} {fits : α → Prop} {enc : α → List UInt8} {f : α → Reader β}
    {y : β} (hr : Takes r fits enc) (h : (r >>= f).run b = .ok (y, rest)) :
    ∃ x b₁, fits x ∧ b = enc x ++ b₁ ∧ (f x).run b₁ = .ok (y, rest) := by
  obtain ⟨x, b₁, hx, h₁⟩ := run_bind_eq_ok h
  obtain ⟨hfits, rfl⟩ := hr hx
  exact ⟨x, b₁, hfits, rfl, h₁⟩

theorem run_bind_of_ok {r : Reader α} {f : α → Reader β} {x : α} {b₁ : List UInt8}
    (h : r.run b = .ok (x, b₁)) : (r >>= f).run b = (f x).run b₁ := by
  simp only [run, StateT.run] at h ⊢
  show StateT.bind r f b = _
  simp only [StateT.bind, h]
  rfl

theorem readU8_bind_run_cons (what : String) (t : UInt8) (f : UInt8 → Reader β) :
    (readU8 what >>= f).run (t :: rest) = (f t).run rest :=
  run_bind_of_ok (readU8_readsBack what t rest)

theorem readLE_readsBack (what : String) {n v : Nat} (h : v < Nat.pow 256 n) :
    ReadsBack (readLE n what) (leBytes n v) v := by
  have hb := readBytes_readsBack what (leBytes n v)
  rw [length_leBytes] at hb
  have hv : leValue (leBytes n v) = v := by rw [leValue_leBytes, Nat.mod_eq_of_lt h]
  have hmap := hb.map leValue
  rwa [hv] at hmap

theorem readLE_takes (n : Nat) (what : String) :
    Takes (readLE n what) (· < Nat.pow 256 n) (leBytes n) := by
  intro b v rest h
  obtain ⟨bytes, b₁, hr, hp⟩ := run_bind_eq_ok h
  obtain ⟨rfl, rfl⟩ := run_pure_eq_ok hp
  obtain ⟨rfl, rfl⟩ := readBytes_inv hr
  exact ⟨leValue_lt bytes, by rw [leBytes_leValue]⟩

end Reader

open Reader

namespace SystemInstruction

variable {b rest : List UInt8}

theorem readU64_readsBack {v : Nat} (h : v < Nat.pow 256 8) : ReadsBack readU64 (u64Bytes v) v :=
  readLE_readsBack _ h

theorem readU64_takes : Takes readU64 (· < Nat.pow 256 8) u64Bytes :=
  readLE_takes 8 _

-- a key field is read as the keys of a message are
theorem readAddress_eq : readAddress = MessageWire.readAddress "address field" := rfl

theorem readAddress_readsBack (a : Address) : ReadsBack readAddress a.bytes a := by
  rw [readAddress_eq]
  exact MessageWire.readAddress_readsBack _ a

theorem readAddress_takes : Takes readAddress (fun _ => True) Address.bytes := by
  intro b a rest h
  rw [readAddress_eq] at h
  exact ⟨trivial, MessageWire.readAddress_inv h⟩

theorem readString_readsBack {s : String} (h : s.utf8ByteSize < Nat.pow 256 8) :
    ReadsBack readString (stringBytes s) s := by
  have hb := readBytes_readsBack "string field" s.toUTF8.toList
  rw [Utf8.length_toUTF8_toList] at hb
  refine (readU64_readsBack h).bind ((hb.bind fun rest => ?_).congr_bytes (List.append_nil _))
  simp only [run, StateT.run, Utf8.decode_toUTF8]
  rfl

theorem readString_takes :
    Takes readString (fun s => s.utf8ByteSize < Nat.pow 256 8) stringBytes := by
  intro b s rest h
  obtain ⟨n, b₁, hn, rfl, h₁⟩ := readU64_takes.bind_inv h
  obtain ⟨bytes, b₂, hr, h₂⟩ := run_bind_eq_ok h₁
  obtain ⟨hlen, rfl⟩ := readBytes_inv hr
  split at h₂
  · rename_i s' hd
    obtain ⟨rfl, rfl⟩ := run_pure_eq_ok h₂
    have hs := Utf8.toUTF8_of_decode hd
    have hsize : s'.utf8ByteSize = n := by rw [← Utf8.length_toUTF8_toList, hs, hlen]
    refine ⟨show s'.utf8ByteSize < Nat.pow 256 8 by rw [hsize]; exact hn, ?_⟩
    rw [stringBytes, hsize, hs, List.append_assoc]
  · exact absurd h₂ run_throw_ne_ok

/-! ### System instructions -/

/-- The numbers an instruction writes in 8-byte fields: its lamports and sizes, and the byte
lengths of its strings. -/
def wideFields : SystemInstruction → List Nat
  | .createAccount l s _ => [l, s]
  | .assign _ => []
  | .transfer l => [l]
  | .createAccountWithSeed _ seed l s _ => [seed.utf8ByteSize, l, s]
  | .advanceNonceAccount => []
  | .withdrawNonceAccount l => [l]
  | .initializeNonceAccount _ => []
  | .authorizeNonceAccount _ => []
  | .allocate s => [s]
  | .allocateWithSeed _ seed s _ => [seed.utf8ByteSize, s]
  | .assignWithSeed _ seed _ => [seed.utf8ByteSize]
  | .transferWithSeed l seed _ => [l, seed.utf8ByteSize]
  | .upgradeNonceAccount => []

/-- Every number the instruction writes fits its 8 bytes, as the program's own field types
guarantee. -/
def Fits (x : SystemInstruction) : Prop := ∀ n ∈ x.wideFields, n < Nat.pow 256 8

instance (x : SystemInstruction) : Decidable x.Fits :=
  inferInstanceAs (Decidable (∀ n ∈ x.wideFields, n < Nat.pow 256 8))

theorem discriminant_lt (x : SystemInstruction) : x.discriminant < Nat.pow 256 4 := by
  cases x <;> simp [discriminant]

theorem readPayload_readsBack {x : SystemInstruction} (h : x.Fits) :
    ReadsBack (readPayload x.discriminant) x.payload x := by
  intro rest
  cases x with
  | createAccount l s o =>
    obtain ⟨hl, hs⟩ : l < Nat.pow 256 8 ∧ s < Nat.pow 256 8 := by simpa [Fits, wideFields] using h
    simp only [discriminant, readPayload, payload, List.append_assoc]
    rw [run_bind_of_ok (readU64_readsBack hl _), run_bind_of_ok (readU64_readsBack hs _),
      run_bind_of_ok (readAddress_readsBack o _)]
    rfl
  | assign o =>
    simp only [discriminant, readPayload, payload]
    rw [run_bind_of_ok (readAddress_readsBack o _)]
    rfl
  | transfer l =>
    have hl : l < Nat.pow 256 8 := by simpa [Fits, wideFields] using h
    simp only [discriminant, readPayload, payload]
    rw [run_bind_of_ok (readU64_readsBack hl _)]
    rfl
  | createAccountWithSeed base seed l s o =>
    obtain ⟨hseed, hl, hs⟩ : seed.utf8ByteSize < Nat.pow 256 8 ∧ l < Nat.pow 256 8 ∧
        s < Nat.pow 256 8 := by simpa [Fits, wideFields] using h
    simp only [discriminant, readPayload, payload, List.append_assoc]
    rw [run_bind_of_ok (readAddress_readsBack base _), run_bind_of_ok (readString_readsBack hseed _),
      run_bind_of_ok (readU64_readsBack hl _), run_bind_of_ok (readU64_readsBack hs _),
      run_bind_of_ok (readAddress_readsBack o _)]
    rfl
  | advanceNonceAccount => rfl
  | withdrawNonceAccount l =>
    have hl : l < Nat.pow 256 8 := by simpa [Fits, wideFields] using h
    simp only [discriminant, readPayload, payload]
    rw [run_bind_of_ok (readU64_readsBack hl _)]
    rfl
  | initializeNonceAccount a =>
    simp only [discriminant, readPayload, payload]
    rw [run_bind_of_ok (readAddress_readsBack a _)]
    rfl
  | authorizeNonceAccount a =>
    simp only [discriminant, readPayload, payload]
    rw [run_bind_of_ok (readAddress_readsBack a _)]
    rfl
  | allocate s =>
    have hs : s < Nat.pow 256 8 := by simpa [Fits, wideFields] using h
    simp only [discriminant, readPayload, payload]
    rw [run_bind_of_ok (readU64_readsBack hs _)]
    rfl
  | allocateWithSeed base seed s o =>
    obtain ⟨hseed, hs⟩ : seed.utf8ByteSize < Nat.pow 256 8 ∧ s < Nat.pow 256 8 := by
      simpa [Fits, wideFields] using h
    simp only [discriminant, readPayload, payload, List.append_assoc]
    rw [run_bind_of_ok (readAddress_readsBack base _), run_bind_of_ok (readString_readsBack hseed _),
      run_bind_of_ok (readU64_readsBack hs _), run_bind_of_ok (readAddress_readsBack o _)]
    rfl
  | assignWithSeed base seed o =>
    have hseed : seed.utf8ByteSize < Nat.pow 256 8 := by simpa [Fits, wideFields] using h
    simp only [discriminant, readPayload, payload, List.append_assoc]
    rw [run_bind_of_ok (readAddress_readsBack base _), run_bind_of_ok (readString_readsBack hseed _),
      run_bind_of_ok (readAddress_readsBack o _)]
    rfl
  | transferWithSeed l seed o =>
    obtain ⟨hl, hseed⟩ : l < Nat.pow 256 8 ∧ seed.utf8ByteSize < Nat.pow 256 8 := by
      simpa [Fits, wideFields] using h
    simp only [discriminant, readPayload, payload, List.append_assoc]
    rw [run_bind_of_ok (readU64_readsBack hl _), run_bind_of_ok (readString_readsBack hseed _),
      run_bind_of_ok (readAddress_readsBack o _)]
    rfl
  | upgradeNonceAccount => rfl

theorem readPayload_takes {tag : Nat} {x : SystemInstruction}
    (h : (readPayload tag).run b = .ok (x, rest)) :
    x.discriminant = tag ∧ x.Fits ∧ b = x.payload ++ rest := by
  unfold readPayload at h
  split at h
  · obtain ⟨l, b₁, hl, rfl, h₁⟩ := readU64_takes.bind_inv h
    obtain ⟨s, b₂, hs, rfl, h₂⟩ := readU64_takes.bind_inv h₁
    obtain ⟨o, b₃, -, rfl, h₃⟩ := readAddress_takes.bind_inv h₂
    obtain ⟨rfl, rfl⟩ := run_pure_eq_ok h₃
    exact ⟨rfl, by simp [Fits, wideFields]; exact ⟨hl, hs⟩, by simp [payload]⟩
  · obtain ⟨o, b₁, -, rfl, h₁⟩ := readAddress_takes.bind_inv h
    obtain ⟨rfl, rfl⟩ := run_pure_eq_ok h₁
    exact ⟨rfl, by simp [Fits, wideFields], rfl⟩
  · obtain ⟨l, b₁, hl, rfl, h₁⟩ := readU64_takes.bind_inv h
    obtain ⟨rfl, rfl⟩ := run_pure_eq_ok h₁
    exact ⟨rfl, by simp [Fits, wideFields]; exact hl, rfl⟩
  · obtain ⟨base, b₁, -, rfl, h₁⟩ := readAddress_takes.bind_inv h
    obtain ⟨seed, b₂, hseed, rfl, h₂⟩ := readString_takes.bind_inv h₁
    obtain ⟨l, b₃, hl, rfl, h₃⟩ := readU64_takes.bind_inv h₂
    obtain ⟨s, b₄, hs, rfl, h₄⟩ := readU64_takes.bind_inv h₃
    obtain ⟨o, b₅, -, rfl, h₅⟩ := readAddress_takes.bind_inv h₄
    obtain ⟨rfl, rfl⟩ := run_pure_eq_ok h₅
    exact ⟨rfl, by simp [Fits, wideFields]; exact ⟨hseed, hl, hs⟩, by simp [payload]⟩
  · obtain ⟨rfl, rfl⟩ := run_pure_eq_ok h
    exact ⟨rfl, by simp [Fits, wideFields], rfl⟩
  · obtain ⟨l, b₁, hl, rfl, h₁⟩ := readU64_takes.bind_inv h
    obtain ⟨rfl, rfl⟩ := run_pure_eq_ok h₁
    exact ⟨rfl, by simp [Fits, wideFields]; exact hl, rfl⟩
  · obtain ⟨a, b₁, -, rfl, h₁⟩ := readAddress_takes.bind_inv h
    obtain ⟨rfl, rfl⟩ := run_pure_eq_ok h₁
    exact ⟨rfl, by simp [Fits, wideFields], rfl⟩
  · obtain ⟨a, b₁, -, rfl, h₁⟩ := readAddress_takes.bind_inv h
    obtain ⟨rfl, rfl⟩ := run_pure_eq_ok h₁
    exact ⟨rfl, by simp [Fits, wideFields], rfl⟩
  · obtain ⟨s, b₁, hs, rfl, h₁⟩ := readU64_takes.bind_inv h
    obtain ⟨rfl, rfl⟩ := run_pure_eq_ok h₁
    exact ⟨rfl, by simp [Fits, wideFields]; exact hs, rfl⟩
  · obtain ⟨base, b₁, -, rfl, h₁⟩ := readAddress_takes.bind_inv h
    obtain ⟨seed, b₂, hseed, rfl, h₂⟩ := readString_takes.bind_inv h₁
    obtain ⟨s, b₃, hs, rfl, h₃⟩ := readU64_takes.bind_inv h₂
    obtain ⟨o, b₄, -, rfl, h₄⟩ := readAddress_takes.bind_inv h₃
    obtain ⟨rfl, rfl⟩ := run_pure_eq_ok h₄
    exact ⟨rfl, by simp [Fits, wideFields]; exact ⟨hseed, hs⟩, by simp [payload]⟩
  · obtain ⟨base, b₁, -, rfl, h₁⟩ := readAddress_takes.bind_inv h
    obtain ⟨seed, b₂, hseed, rfl, h₂⟩ := readString_takes.bind_inv h₁
    obtain ⟨o, b₃, -, rfl, h₃⟩ := readAddress_takes.bind_inv h₂
    obtain ⟨rfl, rfl⟩ := run_pure_eq_ok h₃
    exact ⟨rfl, by simp [Fits, wideFields]; exact hseed, by simp [payload]⟩
  · obtain ⟨l, b₁, hl, rfl, h₁⟩ := readU64_takes.bind_inv h
    obtain ⟨seed, b₂, hseed, rfl, h₂⟩ := readString_takes.bind_inv h₁
    obtain ⟨o, b₃, -, rfl, h₃⟩ := readAddress_takes.bind_inv h₂
    obtain ⟨rfl, rfl⟩ := run_pure_eq_ok h₃
    exact ⟨rfl, by simp [Fits, wideFields]; exact ⟨hl, hseed⟩, by simp [payload]⟩
  · obtain ⟨rfl, rfl⟩ := run_pure_eq_ok h
    exact ⟨rfl, by simp [Fits, wideFields], rfl⟩
  · exact absurd h run_throw_ne_ok

-- `decode` runs this reader and drops what is left
theorem decode_eq_ok_iff_run {d : List UInt8} {x : SystemInstruction} :
    decode d = .ok x ↔
      ∃ rest, (Reader.readLE 4 "system instruction" >>= readPayload).run d = .ok (x, rest) := by
  unfold decode
  cases hr : (Reader.readLE 4 "system instruction" >>= readPayload).run d with
  | error e => simp [bind, Except.bind]
  | ok p =>
    obtain ⟨x', rest'⟩ := p
    simp [bind, Except.bind, pure, Except.pure]

/-- Instruction data is read exactly when it starts with what the writer writes for an
instruction whose numbers fit their fields, and it is read as that instruction. -/
theorem decode_eq_ok_iff {d : List UInt8} {x : SystemInstruction} :
    decode d = .ok x ↔ x.Fits ∧ x.encode <+: d := by
  rw [decode_eq_ok_iff_run]
  constructor
  · rintro ⟨rest, h⟩
    obtain ⟨tag, b₁, -, rfl, h₁⟩ := Takes.bind_inv (readLE_takes 4 _) h
    obtain ⟨rfl, hfits, rfl⟩ := readPayload_takes h₁
    exact ⟨hfits, rest, by rw [encode, List.append_assoc]⟩
  · rintro ⟨hfits, rest, rfl⟩
    refine ⟨rest, ?_⟩
    rw [encode, List.append_assoc, run_bind_of_ok (readLE_readsBack _ (discriminant_lt x) _)]
    exact readPayload_readsBack hfits rest

end SystemInstruction

namespace BudgetInstruction

variable {b rest : List UInt8}

theorem readU32_readsBack {v : Nat} (h : v < Nat.pow 256 4) : ReadsBack readU32 (leBytes 4 v) v :=
  readLE_readsBack _ h

theorem readU32_takes : Takes readU32 (· < Nat.pow 256 4) (leBytes 4) :=
  readLE_takes 4 _

/-! ### Compute budget instructions -/

/-- The numbers of an instruction, each with the width of its field in bytes. -/
def fields : BudgetInstruction → List (Nat × Nat)
  | .requestUnitsDeprecated u f => [(u, 4), (f, 4)]
  | .requestHeapFrame b => [(b, 4)]
  | .setComputeUnitLimit u => [(u, 4)]
  | .setComputeUnitPrice p => [(p, 8)]
  | .setLoadedAccountsDataSizeLimit b => [(b, 4)]

/-- Every number of the instruction fits its field, as the program's own field types guarantee. -/
def Fits (y : BudgetInstruction) : Prop := ∀ f ∈ y.fields, f.1 < Nat.pow 256 f.2

instance (y : BudgetInstruction) : Decidable y.Fits :=
  inferInstanceAs (Decidable (∀ f ∈ y.fields, f.1 < Nat.pow 256 f.2))

theorem read_readsBack {y : BudgetInstruction} (h : y.Fits) :
    ReadsBack (readU8 "compute budget instruction" >>= fun t => readPayload t.toNat) y.encode y := by
  intro rest
  cases y with
  | requestUnitsDeprecated u f =>
    obtain ⟨hu, hf⟩ : u < Nat.pow 256 4 ∧ f < Nat.pow 256 4 := by simpa [Fits, fields] using h
    simp only [encode, List.cons_append, List.append_assoc]
    rw [readU8_bind_run_cons]
    simp only [UInt8.reduceToNat, readPayload]
    rw [run_bind_of_ok (readU32_readsBack hu _), run_bind_of_ok (readU32_readsBack hf _)]
    rfl
  | requestHeapFrame n =>
    have hn : n < Nat.pow 256 4 := by simpa [Fits, fields] using h
    simp only [encode, List.cons_append]
    rw [readU8_bind_run_cons]
    simp only [UInt8.reduceToNat, readPayload]
    rw [run_bind_of_ok (readU32_readsBack hn _)]
    rfl
  | setComputeUnitLimit u =>
    have hu : u < Nat.pow 256 4 := by simpa [Fits, fields] using h
    simp only [encode, List.cons_append]
    rw [readU8_bind_run_cons]
    simp only [UInt8.reduceToNat, readPayload]
    rw [run_bind_of_ok (readU32_readsBack hu _)]
    rfl
  | setComputeUnitPrice p =>
    have hp : p < Nat.pow 256 8 := by simpa [Fits, fields] using h
    simp only [encode, List.cons_append]
    rw [readU8_bind_run_cons]
    simp only [UInt8.reduceToNat, readPayload]
    rw [run_bind_of_ok (readLE_readsBack _ hp _)]
    rfl
  | setLoadedAccountsDataSizeLimit n =>
    have hn : n < Nat.pow 256 4 := by simpa [Fits, fields] using h
    simp only [encode, List.cons_append]
    rw [readU8_bind_run_cons]
    simp only [UInt8.reduceToNat, readPayload]
    rw [run_bind_of_ok (readU32_readsBack hn _)]
    rfl

theorem read_takes {y : BudgetInstruction}
    (h : (readU8 "compute budget instruction" >>= fun t => readPayload t.toNat).run b =
      .ok (y, rest)) :
    y.Fits ∧ b = y.encode ++ rest := by
  obtain ⟨t, b₁, ht, h₁⟩ := run_bind_eq_ok h
  rw [readU8_inv ht]
  unfold readPayload at h₁
  split at h₁
  · rename_i htag
    obtain rfl : t = 0 := UInt8.toNat_inj.mp htag
    obtain ⟨u, b₂, hu, rfl, h₂⟩ := readU32_takes.bind_inv h₁
    obtain ⟨f, b₃, hf, rfl, h₃⟩ := readU32_takes.bind_inv h₂
    obtain ⟨rfl, rfl⟩ := run_pure_eq_ok h₃
    exact ⟨by simp [Fits, fields]; exact ⟨hu, hf⟩, by simp [encode]⟩
  · rename_i htag
    obtain rfl : t = 1 := UInt8.toNat_inj.mp htag
    obtain ⟨n, b₂, hn, rfl, h₂⟩ := readU32_takes.bind_inv h₁
    obtain ⟨rfl, rfl⟩ := run_pure_eq_ok h₂
    exact ⟨by simp [Fits, fields]; exact hn, rfl⟩
  · rename_i htag
    obtain rfl : t = 2 := UInt8.toNat_inj.mp htag
    obtain ⟨u, b₂, hu, rfl, h₂⟩ := readU32_takes.bind_inv h₁
    obtain ⟨rfl, rfl⟩ := run_pure_eq_ok h₂
    exact ⟨by simp [Fits, fields]; exact hu, rfl⟩
  · rename_i htag
    obtain rfl : t = 3 := UInt8.toNat_inj.mp htag
    obtain ⟨p, b₂, hp, rfl, h₂⟩ := Takes.bind_inv (readLE_takes 8 _) h₁
    obtain ⟨rfl, rfl⟩ := run_pure_eq_ok h₂
    exact ⟨by simp [Fits, fields]; exact hp, rfl⟩
  · rename_i htag
    obtain rfl : t = 4 := UInt8.toNat_inj.mp htag
    obtain ⟨n, b₂, hn, rfl, h₂⟩ := readU32_takes.bind_inv h₁
    obtain ⟨rfl, rfl⟩ := run_pure_eq_ok h₂
    exact ⟨by simp [Fits, fields]; exact hn, rfl⟩
  · exact absurd h₁ run_throw_ne_ok

-- `decode` runs this reader and drops what is left
theorem decode_eq_ok_iff_run {d : List UInt8} {y : BudgetInstruction} :
    decode d = .ok y ↔ ∃ rest,
      (readU8 "compute budget instruction" >>= fun t => readPayload t.toNat).run d =
        .ok (y, rest) := by
  unfold decode
  cases hr : (readU8 "compute budget instruction" >>= fun t => readPayload t.toNat).run d with
  | error e => simp [bind, Except.bind]
  | ok p =>
    obtain ⟨y', rest'⟩ := p
    simp [bind, Except.bind, pure, Except.pure]

/-- Instruction data is read exactly when it starts with what the writer writes for an
instruction whose numbers fit their fields, and it is read as that instruction. -/
theorem decode_eq_ok_iff {d : List UInt8} {y : BudgetInstruction} :
    decode d = .ok y ↔ y.Fits ∧ y.encode <+: d := by
  rw [decode_eq_ok_iff_run]
  constructor
  · rintro ⟨rest, h⟩
    obtain ⟨hfits, rfl⟩ := read_takes h
    exact ⟨hfits, rest, rfl⟩
  · rintro ⟨hfits, rest, rfl⟩
    exact ⟨rest, read_readsBack hfits rest⟩

end BudgetInstruction

/-! ### The registry of built-in programs -/

namespace ProgramRegistry

theorem kind_systemProgram : withBuiltins.kind Address.systemProgram = some .system := by
  decide

theorem kind_computeBudgetProgram :
    withBuiltins.kind Address.computeBudgetProgram = some .computeBudget := by
  decide

theorem kind_memoProgram : withBuiltins.kind Address.memoProgram = some .memo := by
  decide

theorem parse_systemInstruction (accounts : List AccountMeta) {x : SystemInstruction}
    (h : x.Fits) : withBuiltins.parse (SystemProgram.instruction accounts x) = .ok (.system x) := by
  have hd := SystemInstruction.decode_eq_ok_iff.mpr ⟨h, ⟨[], List.append_nil _⟩⟩
  simp only [parse, SystemProgram.instruction, kind_systemProgram, hd]
  rfl

theorem parse_budgetInstruction {y : BudgetInstruction} (h : y.Fits) :
    withBuiltins.parse (BudgetProgram.instruction y) = .ok (.computeBudget y) := by
  have hd := BudgetInstruction.decode_eq_ok_iff.mpr ⟨h, ⟨[], List.append_nil _⟩⟩
  simp only [parse, BudgetProgram.instruction, kind_computeBudgetProgram, hd]
  rfl

theorem parse_memo (text : String) (signers : List Address) :
    withBuiltins.parse (MemoProgram.memo text signers) = .ok (.memo text) := by
  simp only [parse, MemoProgram.memo, kind_memoProgram, MemoProgram.decode, Utf8.decode_toUTF8]
  rfl

end ProgramRegistry

/-! ### Reading back what the builders write -/

/-- The instruction data of the built-in programs is read back exactly as written. System and
compute budget data is read exactly when it starts with the data that an instruction writes and
that instruction's numbers fit their fields, and it is then read as that instruction, whatever
follows. So the registry of built-in programs reads every instruction the system, compute budget
and memo builders make as the instruction it was built from. -/
theorem builtin_instruction_codecs_roundTrip :
    (∀ (d : List UInt8) (x : SystemInstruction),
      SystemInstruction.decode d = .ok x ↔ x.Fits ∧ x.encode <+: d) ∧
    (∀ (d : List UInt8) (y : BudgetInstruction),
      BudgetInstruction.decode d = .ok y ↔ y.Fits ∧ y.encode <+: d) ∧
    (∀ (accounts : List AccountMeta) (x : SystemInstruction), x.Fits →
      ProgramRegistry.withBuiltins.parse (SystemProgram.instruction accounts x) = .ok (.system x)) ∧
    (∀ y : BudgetInstruction, y.Fits →
      ProgramRegistry.withBuiltins.parse (BudgetProgram.instruction y) = .ok (.computeBudget y)) ∧
    (∀ (text : String) (signers : List Address),
      ProgramRegistry.withBuiltins.parse (MemoProgram.memo text signers) = .ok (.memo text)) :=
  ⟨fun _ _ => SystemInstruction.decode_eq_ok_iff, fun _ _ => BudgetInstruction.decode_eq_ok_iff,
    fun accounts _ h => ProgramRegistry.parse_systemInstruction accounts h,
    fun _ h => ProgramRegistry.parse_budgetInstruction h, ProgramRegistry.parse_memo⟩

/-- An account created under a seed, a string between fixed-width fields. -/
private def seededCreate : SystemInstruction :=
  .createAccountWithSeed Address.zero "limber chicken" 5 6 Address.memoProgram

theorem builtin_instruction_codecs_roundTrip_seeded :
    seededCreate.Fits ∧ SystemInstruction.decode seededCreate.encode = .ok seededCreate ∧
      ProgramRegistry.withBuiltins.parse (SystemProgram.instruction [] seededCreate) =
        .ok (.system seededCreate) := by
  have hfits : seededCreate.Fits := by decide
  exact ⟨hfits, (builtin_instruction_codecs_roundTrip.1 _ _).mpr ⟨hfits, [], List.append_nil _⟩,
    builtin_instruction_codecs_roundTrip.2.2.1 [] _ hfits⟩

end ChainTx
