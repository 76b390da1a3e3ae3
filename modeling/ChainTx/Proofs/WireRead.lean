import Mathlib.Tactic.Ring
import ChainTx.Message.V0
/-!
# Reading back what was written

Every part of the wire layout is read back by its reader, whatever bytes follow it, and the bytes
that follow are left untouched: a compact length below `2^32` (it takes at most five groups), a
length-prefixed byte string, 32-byte keys and hashes, a header, compiled instructions and table
lookups. `Reader.ReadsBack` is that relation; readers built with `>>=` read back the concatenation
of what their parts read back, and lists of parts are read back item by item.
-/

namespace ChainTx

namespace ShortVec

theorem toNat_toUInt8_of_lt {n : Nat} (h : n < 256) : n.toUInt8.toNat = n := by
  simp [Nat.mod_eq_of_lt h]

theorem encode_of_lt {n : Nat} (h : n < 128) : encode n = [n.toUInt8] := by
  rw [encode, if_pos h]

theorem encode_of_le {n : Nat} (h : 128 ≤ n) :
    encode n = (n % 128 + 128).toUInt8 :: encode (n / 128) := by
  rw [encode, if_neg (by omega)]

theorem pow_seven_succ (i : Nat) : Nat.pow 2 (7 * (i + 1)) = Nat.pow 2 (7 * i) * 128 := by
  simp only [Nat.pow_eq, Nat.mul_succ, Nat.pow_add]

theorem length_encode_le {n k : Nat} (hk : 0 < k) (h : n < Nat.pow 2 (7 * k)) :
    (encode n).length ≤ k := by
  induction n using Nat.strong_induction_on generalizing k with
  | _ n ih =>
    by_cases hn : n < 128
    · rw [encode_of_lt hn, List.length_singleton]; exact hk
    · obtain ⟨j, rfl⟩ : ∃ j, k = j + 1 := ⟨k - 1, by omega⟩
      rw [pow_seven_succ] at h
      have hj : 0 < j := by
        by_contra h0
        rw [Nat.eq_zero_of_not_pos h0] at h
        exact hn (by simpa using h)
      have hq : n / 128 < Nat.pow 2 (7 * j) := (Nat.div_lt_iff_lt_mul (by decide)).mpr h
      rw [encode_of_le (by omega), List.length_cons]
      have := ih (n / 128) (by omega) hj hq
      omega

/-- Reading the groups of a length from group `i` on adds the length, shifted past the `i` groups
already read, to the value read so far. -/
theorem decodeFrom_encode (n : Nat) : ∀ (i acc : Nat) (rest : List UInt8),
    i + (encode n).length ≤ maxGroups → acc + n * Nat.pow 2 (7 * i) < Nat.pow 2 32 →
    decodeFrom i acc (encode n ++ rest) = .ok (acc + n * Nat.pow 2 (7 * i), i + (encode n).length) := by
  induction n using Nat.strong_induction_on with
  | _ n ih =>
    intro i acc rest hi hv
    have hgroup : ¬ i ≥ maxGroups := by
      have := List.length_pos_iff.mpr (show encode n ≠ [] by rw [encode]; split <;> simp)
      omega
    by_cases hn : n < 128
    · -- the last group
      rw [encode_of_lt hn] at hi ⊢
      have hb : n.toUInt8.toNat = n := toNat_toUInt8_of_lt (by omega)
      simpa [decodeFrom, hgroup, hb, hn, Nat.mod_eq_of_lt hn] using hv
    · -- a group with its top bit set, then the groups of `n / 128`
      rw [encode_of_le (by omega)] at hi ⊢
      have hb : (n % 128 + 128).toUInt8.toNat = n % 128 + 128 := toNat_toUInt8_of_lt (by omega)
      have hval : acc + (n % 128 + 128) % 128 * Nat.pow 2 (7 * i) + n / 128 * Nat.pow 2 (7 * (i + 1)) =
          acc + n * Nat.pow 2 (7 * i) := by
        rw [pow_seven_succ, Nat.add_mod_right, Nat.mod_mod]
        conv_rhs => rw [← Nat.mod_add_div n 128]
        ring
      simp only [List.length_cons] at hi
      rw [List.cons_append, decodeFrom, if_neg hgroup, hb, if_neg (by omega),
        ih (n / 128) (by omega) (i + 1) _ rest (by omega) (by rw [hval]; exact hv), hval,
        List.length_cons]
      congr 2
      omega

/-- A length below `2^32` is read back, with the number of groups it took. -/
theorem decode_encode {n : Nat} (h : n < Nat.pow 2 32) (rest : List UInt8) :
    decode (encode n ++ rest) = .ok (n, (encode n).length) := by
  have hlen : (encode n).length ≤ 5 := length_encode_le (by decide) (lt_of_lt_of_le h (by decide))
  rw [decode]
  simpa using decodeFrom_encode n 0 0 rest (by simpa [maxGroups] using hlen) (by simpa using h)

end ShortVec

namespace Reader

variable {α β : Type}

/-- `r` reads `x` back from `bytes`, whatever follows them, and leaves what follows. -/
def ReadsBack (r : Reader α) (bytes : List UInt8) (x : α) : Prop :=
  ∀ rest, r.run (bytes ++ rest) = .ok (x, rest)

theorem ReadsBack.congr_bytes {r : Reader α} {b b' : List UInt8} {x : α} (h : ReadsBack r b x)
    (hb : b = b') : ReadsBack r b' x :=
  hb ▸ h

theorem ReadsBack.bind {r : Reader α} {f : α → Reader β} {b b' : List UInt8} {x : α} {y : β}
    (h : ReadsBack r b x) (hf : ReadsBack (f x) b' y) : ReadsBack (r >>= f) (b ++ b') y := by
  intro rest
  have h₁ := h (b' ++ rest)
  simp only [run, StateT.run] at h₁ ⊢
  rw [List.append_assoc]
  show StateT.bind r f _ = _
  simp only [StateT.bind, h₁]
  exact hf rest

theorem ReadsBack.pure (x : α) : ReadsBack (Pure.pure x : Reader α) [] x := fun _ => rfl

theorem ReadsBack.map {r : Reader α} {b : List UInt8} {x : α} (h : ReadsBack r b x) (g : α → β) :
    ReadsBack (r >>= fun a => Pure.pure (g a)) b (g x) :=
  (h.bind (ReadsBack.pure (g x))).congr_bytes (List.append_nil b)

theorem readU8_readsBack (what : String) (b : UInt8) : ReadsBack (readU8 what) [b] b :=
  fun _ => rfl

theorem readBytes_readsBack (what : String) (l : List UInt8) :
    ReadsBack (readBytes l.length what) l l := by
  intro rest
  simp [run, StateT.run, readBytes]

theorem readLength_readsBack (what : String) {n : Nat} (h : n < Nat.pow 2 32) :
    ReadsBack (readLength what) (ShortVec.encode n) n := by
  intro rest
  simp [run, StateT.run, readLength, ShortVec.decode_encode h]

theorem readVec_readsBack (what : String) {bytes : List UInt8} (h : bytes.length < Nat.pow 2 32) :
    ReadsBack (readVec what) (ShortVec.encodeBytes bytes) bytes :=
  (readLength_readsBack what h).bind (readBytes_readsBack what bytes)

theorem readMany_readsBack {item : Reader α} {enc : α → List UInt8} {xs : List α}
    (h : ∀ x ∈ xs, ReadsBack item (enc x) x) :
    ReadsBack (readMany item xs.length) (xs.flatMap enc) xs := by
  induction xs with
  | nil => exact ReadsBack.pure []
  | cons x xs ih =>
    have hx := h x (by simp)
    have hxs := ih fun y hy => h y (by simp [hy])
    rw [List.flatMap_cons]
    exact hx.bind (hxs.map (x :: ·))

end Reader

open Reader

theorem Address.ofBytes?_bytes (a : Address) : Address.ofBytes? a.bytes = some a := by
  simp [Address.ofBytes?, a.size_eq]

theorem Blockhash.ofBytes?_bytes (h : Blockhash) : Blockhash.ofBytes? h.bytes = some h := by
  simp [Blockhash.ofBytes?, h.size_eq]

namespace MessageWire

theorem readAddress_readsBack (what : String) (a : Address) :
    ReadsBack (readAddress what) a.bytes a := by
  have hb := readBytes_readsBack what a.bytes
  rw [a.size_eq] at hb
  refine (hb.bind fun rest => ?_).congr_bytes (List.append_nil _)
  simp only [run, StateT.run, Address.ofBytes?_bytes]
  rfl

theorem readBlockhash_readsBack (h : Blockhash) : ReadsBack readBlockhash h.bytes h := by
  have hb := readBytes_readsBack "recent blockhash" h.bytes
  rw [h.size_eq] at hb
  refine (hb.bind fun rest => ?_).congr_bytes (List.append_nil _)
  simp only [run, StateT.run, Blockhash.ofBytes?_bytes]
  rfl

theorem readKeys_readsBack {keys : List Address} (h : keys.length < Nat.pow 2 32) :
    ReadsBack readKeys (encodeKeys keys) keys :=
  (readLength_readsBack _ h).bind
    (readMany_readsBack fun a _ => readAddress_readsBack "account key" a)

theorem readInstruction_readsBack {ix : CompiledInstruction}
    (ha : ix.accounts.length < Nat.pow 2 32) (hd : ix.data.length < Nat.pow 2 32) :
    ReadsBack readInstruction (encodeInstruction ix) ix :=
  ((readU8_readsBack _ ix.programIdIndex).bind ((readVec_readsBack _ ha).bind
    ((readVec_readsBack _ hd).map fun data =>
      (⟨ix.programIdIndex, ix.accounts, data⟩ : CompiledInstruction)))).congr_bytes
      (by simp [encodeInstruction])

theorem readInstructions_readsBack {ixs : List CompiledInstruction}
    (hn : ixs.length < Nat.pow 2 32)
    (hs : ∀ ix ∈ ixs, ix.accounts.length < Nat.pow 2 32 ∧ ix.data.length < Nat.pow 2 32) :
    ReadsBack readInstructions (encodeInstructions ixs) ixs :=
  (readLength_readsBack _ hn).bind
    (readMany_readsBack fun ix hix => readInstruction_readsBack (hs ix hix).1 (hs ix hix).2)

end MessageWire

theorem MessageHeader.read_readsBack (h : MessageHeader) : ReadsBack MessageHeader.read h.encode h :=
  ((readU8_readsBack _ h.numRequiredSignatures).bind ((readU8_readsBack _ h.numReadonlySigned).bind
    ((readU8_readsBack _ h.numReadonlyUnsigned).map fun c =>
      (⟨h.numRequiredSignatures, h.numReadonlySigned, c⟩ : MessageHeader)))).congr_bytes rfl

theorem TableLookup.read_readsBack {l : TableLookup} (hw : l.writableIndexes.length < Nat.pow 2 32)
    (hr : l.readonlyIndexes.length < Nat.pow 2 32) : ReadsBack TableLookup.read l.encode l :=
  ((MessageWire.readAddress_readsBack _ l.accountKey).bind ((readVec_readsBack _ hw).bind
    ((readVec_readsBack _ hr).map fun r =>
      (⟨l.accountKey, l.writableIndexes, r⟩ : TableLookup)))).congr_bytes
      (by simp [TableLookup.encode])

end ChainTx
