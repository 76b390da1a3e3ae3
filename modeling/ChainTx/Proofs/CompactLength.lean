import Mathlib.Data.Nat.Log
import ChainTx.Proofs.WireRead
/-!
# Compact lengths: their size, their range, and the other spellings the reader takes

A length takes one group of seven bits per base-128 digit, at least one: `Nat.log 128 n + 1`
groups. The reader takes every length below `2^32` back from its groups, whatever follows them,
and refuses every larger one as an overflow, which it detects at the sixth group or, with five
groups, by the range check on the value.
-/

namespace ChainTx.ShortVec

/-- Reading the groups of a length from group `i` on, the value so far `acc`: the length is
added, shifted past the `i` groups already read, when its groups fit in the five allowed and the
value stays below `2^32`; otherwise the read overflows. -/
theorem decodeFrom_encode_eq (n : Nat) : ∀ (i acc : Nat) (rest : List UInt8),
    decodeFrom i acc (encode n ++ rest) =
      if i + (encode n).length ≤ maxGroups ∧ acc + n * Nat.pow 2 (7 * i) < Nat.pow 2 32 then
        .ok (acc + n * Nat.pow 2 (7 * i), i + (encode n).length)
      else .error .lengthOverflow := by
  induction n using Nat.strong_induction_on with
  | _ n ih =>
    intro i acc rest
    by_cases hn : n < 128
    · -- the last group
      have hb : n.toUInt8.toNat = n := toNat_toUInt8_of_lt (by omega)
      rw [encode_of_lt hn, List.singleton_append, decodeFrom, List.length_singleton]
      by_cases hi : i ≥ maxGroups
      · rw [if_pos hi, if_neg (by omega)]
      rw [if_neg hi]
      simp only [hb, Nat.mod_eq_of_lt hn, if_pos hn]
      by_cases hv : acc + n * Nat.pow 2 (7 * i) < Nat.pow 2 32
      · rw [if_pos hv, if_pos ⟨by omega, hv⟩]
      · rw [if_neg hv, if_neg fun h => hv h.2]
    · -- a group with its top bit set, then the groups of `n / 128`
      have hb : (n % 128 + 128).toUInt8.toNat = n % 128 + 128 := toNat_toUInt8_of_lt (by omega)
      have hval : acc + (n % 128 + 128) % 128 * Nat.pow 2 (7 * i) + n / 128 * Nat.pow 2 (7 * (i + 1)) =
          acc + n * Nat.pow 2 (7 * i) := by
        rw [pow_seven_succ, Nat.add_mod_right, Nat.mod_mod]
        conv_rhs => rw [← Nat.mod_add_div n 128]
        ring
      rw [encode_of_le (by omega), List.cons_append, decodeFrom, List.length_cons]
      by_cases hi : i ≥ maxGroups
      · rw [if_pos hi, if_neg (by omega)]
      rw [if_neg hi]
      simp only [hb, if_neg (show ¬ n % 128 + 128 < 128 by omega)]
      rw [ih (n / 128) (by omega), hval]
      have hlen : i + 1 + (encode (n / 128)).length = i + ((encode (n / 128)).length + 1) := by omega
      rw [hlen]

theorem decode_encode_of_le {n : Nat} (h : Nat.pow 2 32 ≤ n) (rest : List UInt8) :
    decode (encode n ++ rest) = .error .lengthOverflow := by
  rw [decode, decodeFrom_encode_eq, if_neg]
  rintro ⟨-, hv⟩
  have hone : Nat.pow 2 (7 * 0) = 1 := rfl
  rw [hone, Nat.mul_one, Nat.zero_add] at hv
  omega

theorem length_encode (n : Nat) : (encode n).length = Nat.log 128 n + 1 := by
  induction n using Nat.strong_induction_on with
  | _ n ih =>
    by_cases hn : n < 128
    · rw [encode_of_lt hn, List.length_singleton, Nat.log_of_lt hn]
    · rw [encode_of_le (by omega), List.length_cons, ih (n / 128) (by omega),
        Nat.log_of_one_lt_of_le (b := 128) (n := n) (by decide) (by omega)]

/-- Compact lengths round-trip below `2^32`, each taking one byte per base-128 digit; from `2^32`
on, the reader refuses what the writer writes; and a length-prefixed byte string is read back,
the reader left at what follows it. -/
theorem compact_length_roundTrip :
    (∀ (n : Nat) (rest : List UInt8), n < Nat.pow 2 32 →
      decode (encode n ++ rest) = .ok (n, (encode n).length) ∧
        (encode n).length = Nat.log 128 n + 1) ∧
    (∀ (n : Nat) (rest : List UInt8), Nat.pow 2 32 ≤ n →
      decode (encode n ++ rest) = .error .lengthOverflow) ∧
    (∀ (what : String) (bytes rest : List UInt8), bytes.length < Nat.pow 2 32 →
      (Reader.readVec what).run (encodeBytes bytes ++ rest) = .ok (bytes, rest)) :=
  ⟨fun n rest h => ⟨decode_encode h rest, length_encode n⟩,
    fun _ rest h => decode_encode_of_le h rest,
    fun what _ rest h => Reader.readVec_readsBack what h rest⟩

/-- The repository's own vectors: `300` takes two groups and is read back before a trailing
byte; `2^32` overflows; `[1, 2, 3]` is read back with its prefix. -/
theorem compact_length_roundTrip_vectors :
    decode (encode 300 ++ [7]) = .ok (300, 2) ∧
    decode (encode (Nat.pow 2 32) ++ []) = .error .lengthOverflow ∧
    (Reader.readVec "data").run (encodeBytes [1, 2, 3] ++ [9]) = .ok ([1, 2, 3], [9]) := by
  obtain ⟨hdec, hlen⟩ := compact_length_roundTrip.1 300 [7] (by decide)
  have hlog : Nat.log 128 300 = 1 := Nat.log_eq_of_pow_le_of_lt_pow (by decide) (by decide)
  rw [hlen, hlog] at hdec
  exact ⟨hdec, compact_length_roundTrip.2.1 _ [] (by decide),
    compact_length_roundTrip.2.2 "data" [1, 2, 3] [9] (by decide)⟩

/-! ### Spellings -/

/-- The reader takes `s` for the length `n`, whatever follows it. -/
def Spells (n : Nat) (s : List UInt8) : Prop :=
  ∀ rest, decode (s ++ rest) = .ok (n, s.length)

theorem spells_encode {n : Nat} (h : n < Nat.pow 2 32) : Spells n (encode n) :=
  decode_encode h

theorem decodeFrom_lt {i acc n k : Nat} {b : List UInt8} (h : decodeFrom i acc b = .ok (n, k)) :
    n < Nat.pow 2 32 := by
  induction b generalizing i acc with
  | nil => cases h
  | cons x xs ih =>
    simp only [decodeFrom] at h
    split_ifs at h with hi hx hv
    · cases h
      exact hv
    · exact ih h

theorem Spells.lt {n : Nat} {s : List UInt8} (h : Spells n s) : n < Nat.pow 2 32 :=
  decodeFrom_lt (h [])

theorem decodeFrom_prefix {i acc n k : Nat} {b : List UInt8} (h : decodeFrom i acc b = .ok (n, k)) :
    ∃ s rest, b = s ++ rest ∧ s.length + i = k ∧
      ∀ rest', decodeFrom i acc (s ++ rest') = .ok (n, k) := by
  induction b generalizing i acc with
  | nil => cases h
  | cons x xs ih =>
    simp only [decodeFrom] at h
    split_ifs at h with hi hx hv
    · -- `x` is the last group
      cases h
      refine ⟨[x], xs, rfl, Nat.add_comm 1 i, fun rest' => ?_⟩
      simp only [List.singleton_append, decodeFrom, if_neg hi, if_pos hx, if_pos hv]
    · -- `x` has its top bit set: the read goes on with the groups after it
      obtain ⟨s, rest, rfl, hlen, hs⟩ := ih h
      refine ⟨x :: s, rest, rfl, by rw [List.length_cons]; omega, fun rest' => ?_⟩
      rw [List.cons_append, decodeFrom, if_neg hi, if_neg hx]
      exact hs rest'

theorem decode_prefix {b : List UInt8} {n k : Nat} (h : decode b = .ok (n, k)) :
    ∃ s rest, b = s ++ rest ∧ s.length = k ∧ Spells n s := by
  obtain ⟨s, rest, rfl, hlen, hs⟩ := decodeFrom_prefix h
  refine ⟨s, rest, rfl, by omega, fun rest' => ?_⟩
  rw [Nat.add_zero] at hlen
  rw [decode, hs rest', hlen]

theorem Spells.unique {n n' : Nat} {s s' r r' : List UInt8} (h : Spells n s) (h' : Spells n' s')
    (he : s ++ r = s' ++ r') : s = s' ∧ n = n' := by
  have hread := h r
  rw [he, h' r', Except.ok.injEq, Prod.mk.injEq] at hread
  exact ⟨(List.append_inj he hread.2.symm).1, hread.1.symm⟩

/-! ### The grammar of the reader -/

/-- A byte whose top bit is clear is the last group of a length. -/
def endsLength (b : UInt8) : Bool := decide (b.toNat < 128)

/-- The value of groups of seven bits, least significant first: each byte gives its low seven
bits. -/
def groupsValue (groups : List UInt8) : Nat :=
  groups.foldr (fun b acc => b.toNat % 128 + 128 * acc) 0

theorem groupsValue_cons (b : UInt8) (bs : List UInt8) :
    groupsValue (b :: bs) = b.toNat % 128 + 128 * groupsValue bs := rfl

/-- Reading from group `i` on, the value so far `acc`, bytes whose first last group stands at `k`:
the groups up to it are read when they fit in the five allowed and their value stays below
`2^32`; otherwise the read overflows. -/
theorem decodeFrom_of_findIdx? {d : List UInt8} {k : Nat} (hk : d.findIdx? endsLength = some k) :
    ∀ i acc, decodeFrom i acc d =
      if i + k < maxGroups ∧
          acc + groupsValue (d.take (k + 1)) * Nat.pow 2 (7 * i) < Nat.pow 2 32 then
        .ok (acc + groupsValue (d.take (k + 1)) * Nat.pow 2 (7 * i), i + k + 1)
      else .error .lengthOverflow := by
  induction d generalizing k with
  | nil => cases hk
  | cons b rest ih =>
    intro i acc
    rw [decodeFrom]
    by_cases hi : i ≥ maxGroups
    · rw [if_pos hi, if_neg fun h => by omega]
    rw [if_neg hi]
    by_cases hb : endsLength b = true
    · -- `b` is the last group
      rw [List.findIdx?_cons, if_pos hb, Option.some.injEq] at hk
      subst hk
      have hb' : b.toNat < 128 := of_decide_eq_true hb
      have hlast : groupsValue [b] = b.toNat % 128 := by simp [groupsValue]
      have hfit : i < maxGroups := by omega
      simp only [if_pos hb', List.take_succ_cons, List.take_zero, hlast, Nat.add_zero, hfit,
        true_and]
    · -- `b` is followed by more groups, whose last group stands one place earlier in `rest`
      rw [List.findIdx?_cons, if_neg hb] at hk
      obtain ⟨k', hk', rfl⟩ := Option.map_eq_some_iff.mp hk
      have hb' : ¬ b.toNat < 128 := fun h => hb (decide_eq_true h)
      rw [if_neg hb', ih hk', List.take_succ_cons, groupsValue_cons, pow_seven_succ]
      have hval : acc + b.toNat % 128 * Nat.pow 2 (7 * i) +
            groupsValue (rest.take (k' + 1)) * (Nat.pow 2 (7 * i) * 128) =
          acc + (b.toNat % 128 + 128 * groupsValue (rest.take (k' + 1))) * Nat.pow 2 (7 * i) := by
        ring
      rw [hval, show i + 1 + k' = i + (k' + 1) by omega]

/-- Reading from group `i` on bytes that all carry the continuation bit: running out of them
within the five groups allowed is an early end, reaching a sixth group an overflow. -/
theorem decodeFrom_of_continues {d : List UInt8} (hd : ∀ b ∈ d, endsLength b = false) :
    ∀ i acc, i ≤ maxGroups → decodeFrom i acc d =
      if i + d.length ≤ maxGroups then .error (.unexpectedEof "short-vec length")
      else .error .lengthOverflow := by
  induction d with
  | nil =>
    intro i acc hi
    rw [List.length_nil, Nat.add_zero, if_pos hi, decodeFrom]
  | cons b rest ih =>
    intro i acc hi5
    have hb : ¬ b.toNat < 128 := of_decide_eq_false (hd b List.mem_cons_self)
    rw [decodeFrom]
    by_cases hi : i ≥ maxGroups
    · rw [if_pos hi, if_neg (by simp; omega)]
    rw [if_neg hi, if_neg hb, ih (fun x hx => hd x (List.mem_cons_of_mem b hx)) _ _ (by omega),
      List.length_cons,
      show i + 1 + rest.length = i + (rest.length + 1) by omega]

theorem decodeFrom_take (d : List UInt8) :
    ∀ i acc, i ≤ maxGroups →
      decodeFrom i acc d = decodeFrom i acc (d.take (maxGroups + 1 - i)) := by
  induction d with
  | nil => intro i acc _; rw [List.take_nil]
  | cons b rest ih =>
    intro i acc hi
    rw [show maxGroups + 1 - i = (maxGroups - i) + 1 by omega, List.take_succ_cons, decodeFrom,
      decodeFrom]
    by_cases h5 : i ≥ maxGroups
    · rw [if_pos h5, if_pos h5]
    rw [if_neg h5, if_neg h5]
    dsimp only
    rw [ih (i + 1) _ (by omega), show maxGroups + 1 - (i + 1) = maxGroups - i by omega]

theorem pow_seven_zero : Nat.pow 2 (7 * 0) = 1 := rfl

theorem decode_of_findIdx? {d : List UInt8} {k : Nat} (hk : d.findIdx? endsLength = some k) :
    decode d = if k < maxGroups ∧ groupsValue (d.take (k + 1)) < Nat.pow 2 32 then
      .ok (groupsValue (d.take (k + 1)), k + 1) else .error .lengthOverflow := by
  rw [decode, decodeFrom_of_findIdx? hk, pow_seven_zero, Nat.mul_one, Nat.zero_add, Nat.zero_add]

theorem decode_of_continues {d : List UInt8} (hd : ∀ b ∈ d, endsLength b = false) :
    decode d = if d.length ≤ maxGroups then .error (.unexpectedEof "short-vec length")
      else .error .lengthOverflow := by
  rw [decode, decodeFrom_of_continues hd 0 0 (Nat.zero_le _), Nat.zero_add]

theorem continues_of_findIdx? {d : List UInt8} {k : Nat} (hk : d.findIdx? endsLength = some k) :
    k < d.length ∧ ∀ b ∈ d.take k, endsLength b = false := by
  obtain ⟨hlt, -, hbefore⟩ := List.findIdx?_eq_some_iff_getElem.mp hk
  refine ⟨hlt, fun b hb => ?_⟩
  obtain ⟨j, hj, rfl⟩ := List.getElem_of_mem hb
  rw [List.length_take] at hj
  rw [List.getElem_take]
  exact Bool.eq_false_iff.mpr (hbefore j (by omega))

theorem decode_eq_ok_iff (d : List UInt8) (v n : Nat) :
    decode d = .ok (v, n) ↔ ∃ k, d.findIdx? endsLength = some k ∧ k < maxGroups ∧
      v = groupsValue (d.take (k + 1)) ∧ v < Nat.pow 2 32 ∧ n = k + 1 := by
  cases hk : d.findIdx? endsLength with
  | none =>
    rw [decode_of_continues (List.findIdx?_eq_none_iff.mp hk)]
    constructor
    · intro h
      split at h <;> cases h
    · rintro ⟨k, hk', -⟩
      cases hk'
  | some k =>
    rw [decode_of_findIdx? hk]
    constructor
    · intro h
      split at h
      · next hfit =>
        cases h
        exact ⟨k, rfl, hfit.1, rfl, hfit.2, rfl⟩
      · cases h
    · rintro ⟨k', hk', hfive, rfl, hv, rfl⟩
      cases hk'
      rw [if_pos ⟨hfive, hv⟩]

theorem ends_mem_take_of_findIdx? {d : List UInt8} {k m : Nat} (hk : d.findIdx? endsLength = some k)
    (hm : k < m) : ∃ b ∈ d.take m, endsLength b = true := by
  obtain ⟨hlt, hend, -⟩ := List.findIdx?_eq_some_iff_getElem.mp hk
  have hmem : d[k] ∈ d.take m :=
    List.mem_iff_getElem.mpr ⟨k, by rw [List.length_take]; omega, List.getElem_take⟩
  exact ⟨d[k], hmem, hend⟩

theorem decode_eq_lengthOverflow_iff (d : List UInt8) :
    decode d = .error .lengthOverflow ↔
      (∃ k, d.findIdx? endsLength = some k ∧ k < maxGroups ∧
        Nat.pow 2 32 ≤ groupsValue (d.take (k + 1))) ∨
      (maxGroups < d.length ∧ ∀ b ∈ d.take maxGroups, endsLength b = false) := by
  cases hk : d.findIdx? endsLength with
  | none =>
    have hall := List.findIdx?_eq_none_iff.mp hk
    rw [decode_of_continues hall]
    by_cases hlen : d.length ≤ maxGroups
    · rw [if_pos hlen]
      refine iff_of_false (fun h => by cases h) ?_
      rintro (⟨k, hk', -⟩ | ⟨hlt, -⟩)
      · cases hk'
      · omega
    · rw [if_neg hlen]
      exact iff_of_true rfl (.inr ⟨by omega, fun b hb => hall b (List.mem_of_mem_take hb)⟩)
  | some k =>
    rw [decode_of_findIdx? hk]
    by_cases hfit : k < maxGroups ∧ groupsValue (d.take (k + 1)) < Nat.pow 2 32
    · -- the groups are read: neither overflow holds
      rw [if_pos hfit]
      refine iff_of_false (fun h => by cases h) ?_
      rintro (⟨k', hk', -, hv⟩ | ⟨-, hcont⟩)
      · cases hk'
        omega
      · obtain ⟨b, hb, hend⟩ := ends_mem_take_of_findIdx? hk hfit.1
        rw [hcont b hb] at hend
        cases hend
    · rw [if_neg hfit]
      refine iff_of_true rfl ?_
      by_cases hfive : k < maxGroups
      · exact .inl ⟨k, rfl, hfive, by omega⟩
      · -- the last group stands past the fifth byte
        obtain ⟨hlt, hcont⟩ := continues_of_findIdx? hk
        exact .inr ⟨by omega, fun b hb => hcont b (List.take_subset_take_left d (by omega) hb)⟩

theorem decode_eq_unexpectedEof_iff (d : List UInt8) :
    decode d = .error (.unexpectedEof "short-vec length") ↔
      d.length ≤ maxGroups ∧ ∀ b ∈ d, endsLength b = false := by
  cases hk : d.findIdx? endsLength with
  | none =>
    have hall := List.findIdx?_eq_none_iff.mp hk
    rw [decode_of_continues hall]
    by_cases hlen : d.length ≤ maxGroups
    · rw [if_pos hlen]
      exact iff_of_true rfl ⟨hlen, hall⟩
    · rw [if_neg hlen]
      exact iff_of_false (fun h => by cases h) fun h => hlen h.1
  | some k =>
    have hend := ends_mem_take_of_findIdx? hk (Nat.lt_succ_self k)
    refine iff_of_false ?_ fun h => ?_
    · rw [decode_of_findIdx? hk]
      split <;> exact fun h => by cases h
    · obtain ⟨b, hb, hb'⟩ := hend
      rw [h.2 b (List.mem_of_mem_take hb)] at hb'
      cases hb'

theorem decode_cases (d : List UInt8) :
    (∃ v n, decode d = .ok (v, n)) ∨ decode d = .error .lengthOverflow ∨
      decode d = .error (.unexpectedEof "short-vec length") := by
  cases hk : d.findIdx? endsLength with
  | none =>
    rw [decode_of_continues (List.findIdx?_eq_none_iff.mp hk)]
    split
    · exact .inr (.inr rfl)
    · exact .inr (.inl rfl)
  | some k =>
    rw [decode_of_findIdx? hk]
    split
    · exact .inl ⟨_, _, rfl⟩
    · exact .inr (.inl rfl)

/-- The length reader accepts exactly its grammar. With `k` the index of the first byte whose top
bit is clear, it reads the value of the groups up to `k`, taking `k + 1` bytes, when `k` is among
the first five bytes and the value is below `2^32`. It overflows when that value is larger, or when
the first five bytes all carry the continuation bit and a sixth follows. It reports the end of the
data exactly when there are at most five bytes and all carry the continuation bit. These are its
only outcomes, and it looks at no byte past the sixth. -/
theorem compact_length_grammar (d : List UInt8) :
    (∀ v n, decode d = .ok (v, n) ↔ ∃ k, d.findIdx? endsLength = some k ∧ k < maxGroups ∧
      v = groupsValue (d.take (k + 1)) ∧ v < Nat.pow 2 32 ∧ n = k + 1) ∧
    (decode d = .error .lengthOverflow ↔
      (∃ k, d.findIdx? endsLength = some k ∧ k < maxGroups ∧
        Nat.pow 2 32 ≤ groupsValue (d.take (k + 1))) ∨
      (maxGroups < d.length ∧ ∀ b ∈ d.take maxGroups, endsLength b = false)) ∧
    (decode d = .error (.unexpectedEof "short-vec length") ↔
      d.length ≤ maxGroups ∧ ∀ b ∈ d, endsLength b = false) ∧
    ((∃ v n, decode d = .ok (v, n)) ∨ decode d = .error .lengthOverflow ∨
      decode d = .error (.unexpectedEof "short-vec length")) ∧
    decode d = decode (d.take (maxGroups + 1)) :=
  ⟨decode_eq_ok_iff d, decode_eq_lengthOverflow_iff d, decode_eq_unexpectedEof_iff d,
    decode_cases d, decodeFrom_take d 0 0 (Nat.zero_le _)⟩

-- the repository's vectors: a sixth group, and five groups past `2^32`
example : decode [0x80, 0x80, 0x80, 0x80, 0x80, 0x01] = .error .lengthOverflow := rfl
example : decode [0xff, 0xff, 0xff, 0xff, 0x7f] = .error .lengthOverflow := by decide +kernel

end ChainTx.ShortVec
