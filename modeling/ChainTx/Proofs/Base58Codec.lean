import Mathlib.Data.Nat.Digits.Lemmas
import ChainTx.Proofs.Base58Text
import ChainTx.Proofs.Utf8Codec
import ChainTx.Key.Text
/-!
# Base58 text is a bijection

Writing a byte string puts one `1` for every leading zero byte before the base-58 digits of its
value, and reading takes the text back. Reading accepts exactly the texts that writing produces
(`Base58.decode_eq_ok_iff`): a text of alphabet characters is its leading `1`s and then digits
that start with a non-zero digit, and writing the bytes it reads as gives exactly those back.
-/

namespace ChainTx.Base58

/-! ### Digits -/

theorem digitChar_lt : ∀ d : Fin 58, (digitChar d).toNat < 0x80 := by
  decide

theorem digitValue?_digitChar : ∀ d : Fin 58, digitValue? (digitChar d) = some d := by
  decide

theorem digitByte_eq_one_iff : ∀ d : Fin 58, UInt8.ofNat (digitChar d).toNat = 49 ↔ d.val = 0 := by
  decide

theorem digitChar_of_digitValue? {c : Char} {d : Nat} (h : digitValue? c = some d) :
    d < 58 ∧ digitChar d = c := by
  obtain ⟨hd, hc, -⟩ := List.idxOf?_eq_some_iff.mp h
  refine ⟨hd, ?_⟩
  rw [digitChar, List.getD_eq_getElem?_getD, List.getElem?_eq_getElem hd, Option.getD_some, hc]

theorem eq_map_digits {α : Type} {b : Nat} (hb : 1 < b) (f : Nat → List α) (g : Nat → α)
    (hf : ∀ n, f n = if n = 0 then [] else f (n / b) ++ [g (n % b)]) (n : Nat) :
    f n = (Nat.digits b n).reverse.map g := by
  induction n using Nat.strongRecOn with
  | ind n ih =>
    rcases Nat.eq_zero_or_pos n with rfl | hn
    · simp [hf 0]
    · rw [hf n, if_neg (by omega), ih (n / b) (Nat.div_lt_self hn hb), Nat.digits_def' hb hn]
      simp

theorem digitsOf_eq_digits (n : Nat) : digitsOf n = (Nat.digits 58 n).reverse.map digitChar :=
  eq_map_digits (by decide) digitsOf digitChar (fun n => by rw [digitsOf]) n

theorem bytesOf_eq_digits (n : Nat) :
    bytesOf n = (Nat.digits 256 n).reverse.map Nat.toUInt8 :=
  eq_map_digits (by decide) bytesOf Nat.toUInt8 (fun n => by rw [bytesOf]) n

theorem foldl_eq_ofDigits (b : Nat) (ds : List Nat) :
    ds.foldl (fun acc d => acc * b + d) 0 = Nat.ofDigits b ds.reverse := by
  induction ds using List.reverseRecOn with
  | nil => rfl
  | append_singleton ds d ih =>
    rw [List.foldl_append, ih, List.reverse_append, List.reverse_singleton, List.singleton_append,
      Nat.ofDigits_cons, List.foldl_cons, List.foldl_nil]
    ring

theorem exists_digits (n : Nat) :
    ∃ ds : List Nat, (∀ d ∈ ds, d < 58) ∧ ds.head? ≠ some 0 ∧
      ds.foldl (fun acc d => acc * 58 + d) 0 = n := by
  refine ⟨(Nat.digits 58 n).reverse, fun d hd => Nat.digits_lt_base (by decide)
    (List.mem_reverse.mp hd), ?_, by rw [foldl_eq_ofDigits, List.reverse_reverse, Nat.ofDigits_digits]⟩
  rw [List.head?_reverse]
  rcases Nat.eq_zero_or_pos n with rfl | hn
  · simp
  · rw [List.getLast?_eq_some_getLast (Nat.digits_ne_nil_iff_ne_zero.mpr (by omega))]
    simpa using Nat.getLast_digit_ne_zero 58 (by omega)

theorem digitsOf_foldl {ds : List Nat} (hds : ∀ d ∈ ds, d < 58) (hhead : ds.head? ≠ some 0) :
    digitsOf (ds.foldl (fun acc d => acc * 58 + d) 0) = ds.map digitChar := by
  have hlast : ∀ h : ds.reverse ≠ [], ds.reverse.getLast h ≠ 0 := by
    intro h hz
    rw [List.getLast_reverse] at hz
    apply hhead
    rw [List.head?_eq_some_head (by simpa using h), hz]
  rw [digitsOf_eq_digits, foldl_eq_ofDigits, Nat.digits_ofDigits 58 (by decide) ds.reverse
    (fun d hd => hds d (List.mem_reverse.mp hd)) hlast, List.reverse_reverse]

theorem bytesValue_bytesOf (n : Nat) : bytesValue (bytesOf n) = n := by
  have hbytes : (bytesOf n).map UInt8.toNat = (Nat.digits 256 n).reverse := by
    rw [bytesOf_eq_digits, List.map_map]
    conv_rhs => rw [← List.map_id (Nat.digits 256 n).reverse]
    apply List.map_congr_left
    intro d hd
    have := Nat.digits_lt_base (by decide) (List.mem_reverse.mp hd)
    simp [Nat.mod_eq_of_lt this]
  rw [bytesValue, ← List.foldl_map, hbytes, foldl_eq_ofDigits, List.reverse_reverse,
    Nat.ofDigits_digits]

theorem bytesOf_head?_ne_zero (n : Nat) : (bytesOf n).head? ≠ some 0 := by
  rw [bytesOf_eq_digits, List.head?_map, List.head?_reverse]
  rcases Nat.eq_zero_or_pos n with rfl | hn
  · simp
  · have hne : Nat.digits 256 n ≠ [] := Nat.digits_ne_nil_iff_ne_zero.mpr (by omega)
    have hlast := Nat.getLast_digit_ne_zero 256 (m := n) (by omega)
    have hlt := Nat.digits_lt_base (by decide) (List.getLast_mem hne)
    rw [List.getLast?_eq_some_getLast hne, Option.map_some]
    intro h
    apply hlast
    have := congrArg UInt8.toNat (Option.some.inj h)
    simpa [Nat.mod_eq_of_lt hlt] using this

/-! ### Leading runs -/

theorem exists_replicate_append {α : Type} [DecidableEq α] (x : α) (l : List α) :
    ∃ k rest, l = List.replicate k x ++ rest ∧ rest.head? ≠ some x := by
  induction l with
  | nil => exact ⟨0, [], rfl, by simp⟩
  | cons y l ih =>
    by_cases hy : y = x
    · obtain ⟨k, rest, rfl, h⟩ := ih
      exact ⟨k + 1, rest, by rw [hy, List.replicate_succ, List.cons_append], h⟩
    · exact ⟨0, y :: l, rfl, by simpa using hy⟩

theorem length_takeWhile_replicate_append {α : Type} [DecidableEq α] {x : α} {l : List α}
    (hl : l.head? ≠ some x) (k : Nat) :
    ((List.replicate k x ++ l).takeWhile (· == x)).length = k := by
  induction k with
  | zero =>
    cases l with
    | nil => rfl
    | cons y l =>
      have hy : y ≠ x := fun h => hl (by rw [h]; rfl)
      simp [hy]
  | succ k ih =>
    rw [List.replicate_succ, List.cons_append, List.takeWhile_cons_of_pos (by simp),
      List.length_cons, ih]

theorem foldl_replicate_of_fixed {α β : Type} (f : β → α → β) {b : β} {x : α} (h : f b x = b)
    (k : Nat) : (List.replicate k x).foldl f b = b := by
  induction k with
  | zero => rfl
  | succ k ih => rw [List.replicate_succ, List.foldl_cons, h, ih]

theorem bytesValue_zeros_append (k : Nat) (bytes : List UInt8) :
    bytesValue (List.replicate k 0 ++ bytes) = bytesValue bytes := by
  rw [bytesValue, List.foldl_append, foldl_replicate_of_fixed _ (by rfl)]
  rfl

theorem foldl_digits_zeros_append (k : Nat) (ds : List Nat) :
    (List.replicate k 0 ++ ds).foldl (fun acc d => acc * 58 + d) 0 =
      ds.foldl (fun acc d => acc * 58 + d) 0 := by
  rw [List.foldl_append, foldl_replicate_of_fixed _ (by rfl)]

/-! ### Reading digits -/

/-- The bytes of the text whose digits are `ds`, most significant first. -/
def digitBytes (ds : List Nat) : List UInt8 := ds.map fun d => UInt8.ofNat (digitChar d).toNat

theorem toUTF8_digits {ds : List Nat} (hds : ∀ d ∈ ds, d < 58) :
    (String.ofList (ds.map digitChar)).toUTF8.toList = digitBytes ds := by
  rw [Utf8.toUTF8_ofList_of_lt, List.map_map]
  · rfl
  · intro c hc
    obtain ⟨d, hd, rfl⟩ := List.mem_map.mp hc
    exact digitChar_lt ⟨d, hds d hd⟩

theorem digitBytes_zeros_append (k : Nat) (ds : List Nat) :
    digitBytes (List.replicate k 0 ++ ds) = List.replicate k 49 ++ digitBytes ds := by
  rw [digitBytes, List.map_append, List.map_replicate]
  rfl

theorem digitsValue_digitBytes {ds : List Nat} (hds : ∀ d ∈ ds, d < 58) (i acc : Nat) :
    digitsValue i acc (digitBytes ds) = .ok (ds.foldl (fun a d => a * 58 + d) acc) := by
  induction ds generalizing i acc with
  | nil => rfl
  | cons d ds ih =>
    have hd : d < 58 := hds d (by simp)
    have hlt : (digitChar d).toNat < 0x80 := digitChar_lt ⟨d, hd⟩
    have hbyte : (UInt8.ofNat (digitChar d).toNat).toNat = (digitChar d).toNat :=
      Utf8.toNat_ofNat_lt (by omega)
    have hv : digitValue? (digitChar d) = some d := digitValue?_digitChar ⟨d, hd⟩
    rw [digitBytes, List.map_cons, digitsValue, if_neg (by omega), hbyte, Char.ofNat_toNat, hv]
    exact ih (fun e he => hds e (by simp [he])) _ _

theorem digitsValue_eq_ok {r : List UInt8} {i acc v : Nat} (h : digitsValue i acc r = .ok v) :
    ∃ ds, (∀ d ∈ ds, d < 58) ∧ r = digitBytes ds ∧ v = ds.foldl (fun a d => a * 58 + d) acc := by
  induction r generalizing i acc with
  | nil =>
    rw [digitsValue] at h
    cases h
    exact ⟨[], by simp, rfl, rfl⟩
  | cons b r ih =>
    rw [digitsValue] at h
    by_cases hb : b.toNat > 127
    · rw [if_pos hb] at h
      cases h
    rw [if_neg hb] at h
    split at h
    · cases h
    rename_i d hd
    obtain ⟨hd58, hc⟩ := digitChar_of_digitValue? hd
    obtain ⟨ds, hds, rfl, rfl⟩ := ih h
    have hbyte : UInt8.ofNat (digitChar d).toNat = b := by
      rw [hc, Utf8.toNat_ofNat_of_valid (Or.inl (by omega)), UInt8.ofNat_toNat]
    refine ⟨d :: ds, ?_, by rw [← hbyte]; rfl, rfl⟩
    intro e he
    rcases List.mem_cons.mp he with rfl | he
    · exact hd58
    · exact hds e he

/-- The text with `k` leading `1`s and then digits `ds` without a leading zero reads as `k` zero
bytes and then the bytes of the number `ds` denotes. -/
theorem decode_digits {k : Nat} {ds : List Nat} (hds : ∀ d ∈ ds, d < 58)
    (hhead : ds.head? ≠ some 0) :
    decode (String.ofList ((List.replicate k 0 ++ ds).map digitChar)) =
      .ok (List.replicate k 0 ++ bytesOf (ds.foldl (fun a d => a * 58 + d) 0)) := by
  have hall : ∀ d ∈ List.replicate k 0 ++ ds, d < 58 := by
    intro d hd
    rcases List.mem_append.mp hd with h | h
    · rw [List.eq_of_mem_replicate h]
      decide
    · exact hds d h
  have hne : (digitBytes ds).head? ≠ some 49 := by
    cases ds with
    | nil => simp [digitBytes]
    | cons d ds =>
      have hd : d ≠ 0 := fun h => hhead (by rw [h]; rfl)
      have := (digitByte_eq_one_iff ⟨d, hds d (by simp)⟩).not.mpr hd
      simpa [digitBytes] using this
  simp only [decode, toUTF8_digits hall, digitsValue_digitBytes hall, foldl_digits_zeros_append]
  simp only [digitBytes_zeros_append, length_takeWhile_replicate_append hne]
  rfl

/-- Writing `k` zero bytes and then the bytes of the number that `ds` denotes gives the text with
`k` leading `1`s and then the digits `ds`. -/
theorem encode_digits {k : Nat} {ds : List Nat} (hds : ∀ d ∈ ds, d < 58)
    (hhead : ds.head? ≠ some 0) :
    encode (List.replicate k 0 ++ bytesOf (ds.foldl (fun a d => a * 58 + d) 0)) =
      String.ofList ((List.replicate k 0 ++ ds).map digitChar) := by
  simp only [encode, length_takeWhile_replicate_append (bytesOf_head?_ne_zero _),
    bytesValue_zeros_append, bytesValue_bytesOf, digitsOf_foldl hds hhead, List.map_append,
    List.map_replicate]
  rfl

theorem decode_eq_ok_iff {s : String} {bytes : List UInt8} :
    decode s = .ok bytes ↔ s = encode bytes := by
  constructor
  · intro h
    obtain ⟨ds, hds, hraw⟩ : ∃ ds, (∀ d ∈ ds, d < 58) ∧ s.toUTF8.toList = digitBytes ds := by
      simp only [decode] at h
      cases hv : digitsValue 0 0 s.toUTF8.toList with
      | error e =>
        rw [hv] at h
        cases h
      | ok v =>
        obtain ⟨ds, hds, hraw, -⟩ := digitsValue_eq_ok hv
        exact ⟨ds, hds, hraw⟩
    obtain ⟨k, ds', rfl, hhead⟩ := exists_replicate_append 0 ds
    have hds' : ∀ d ∈ ds', d < 58 := fun d hd => hds d (List.mem_append_right _ hd)
    have hs : s = String.ofList ((List.replicate k 0 ++ ds').map digitChar) :=
      Utf8.eq_of_toUTF8_toList_eq (by rw [hraw, toUTF8_digits hds])
    rw [hs, decode_digits hds' hhead] at h
    cases h
    rw [hs, encode_digits hds' hhead]
  · rintro rfl
    obtain ⟨k, v, hb⟩ : ∃ k v, bytes = List.replicate k 0 ++ bytesOf v :=
      ⟨_, _, eq_zeros_append_bytesOf bytes⟩
    obtain ⟨ds, hds, hhead, rfl⟩ := exists_digits v
    rw [hb, encode_digits hds hhead, decode_digits hds hhead]

end ChainTx.Base58

namespace ChainTx.Base58

/-! ### Lengths -/

theorem utf8ByteSize_encode (bytes : List UInt8) :
    (encode bytes).utf8ByteSize = (encode bytes).length := by
  have hascii : ∀ c ∈ List.replicate (bytes.takeWhile (· == 0)).length '1' ++
      digitsOf (bytesValue bytes), c.toNat < 0x80 := by
    intro c hc
    rcases List.mem_append.mp hc with h | h
    · rw [List.eq_of_mem_replicate h]
      decide
    · rw [digitsOf_eq_digits] at h
      obtain ⟨d, hd, rfl⟩ := List.mem_map.mp h
      exact digitChar_lt ⟨d, Nat.digits_lt_base (by decide) (List.mem_reverse.mp hd)⟩
  rw [encode, ← Utf8.length_toUTF8_toList, Utf8.toUTF8_ofList_of_lt hascii, List.length_map,
    String.length_ofList]

theorem length_encode (bytes : List UInt8) :
    (encode bytes).length =
      (bytes.takeWhile (· == 0)).length + (Nat.digits 58 (bytesValue bytes)).length := by
  rw [encode, String.length_ofList, List.length_append, List.length_replicate, digitsOf_eq_digits,
    List.length_map, List.length_reverse]

theorem pow_256_le_pow_58 : ∀ n ≤ 32, 256 ^ n ≤ 58 ^ (n + 12) := by
  decide

theorem length_digits_58_bounds {v n : Nat} (hn : (Nat.digits 256 v).length = n) (h32 : n ≤ 32) :
    n ≤ (Nat.digits 58 v).length ∧ (Nat.digits 58 v).length ≤ n + 12 := by
  have hlt : v < 256 ^ n := (Nat.digits_length_le_iff (by decide) v).mp hn.le
  refine ⟨?_, (Nat.digits_length_le_iff (by decide) v).mpr
    (lt_of_lt_of_le hlt (pow_256_le_pow_58 n h32))⟩
  rcases Nat.eq_zero_or_pos n with h0 | hpos
  · omega
  -- the leading byte is not zero, and a power of 256 is at least the same power of 58
  have hge : 256 ^ (n - 1) ≤ v := (Nat.lt_digits_length_iff (by decide) v).mp (by omega)
  have h58 : 58 ^ (n - 1) ≤ v := le_trans (Nat.pow_le_pow_left (by decide) _) hge
  have := (Nat.lt_digits_length_iff (by decide) v).mpr h58
  omega

end ChainTx.Base58

namespace ChainTx.Address

open Base58

/-- The text of an address has between 32 and 44 characters: one `1` for each leading zero byte,
and for the `n` bytes of the value between `n` and `n + 12` digits. -/
theorem length_toBase58 (a : Address) :
    32 ≤ a.toBase58.length ∧ a.toBase58.length ≤ maxTextLength := by
  obtain ⟨k, v, hb⟩ : ∃ k v, a.bytes = List.replicate k 0 ++ bytesOf v :=
    ⟨_, _, eq_zeros_append_bytesOf a.bytes⟩
  have hzeros : (a.bytes.takeWhile (· == 0)).length = k := by
    rw [hb]
    exact length_takeWhile_replicate_append (bytesOf_head?_ne_zero v) k
  have hvalue : bytesValue a.bytes = v := by
    rw [hb, bytesValue_zeros_append, bytesValue_bytesOf]
  obtain ⟨n, hn⟩ : ∃ n, (Nat.digits 256 v).length = n := ⟨_, rfl⟩
  have hkn : k + n = 32 := by
    have hsize := a.size_eq
    rw [hb, List.length_append, List.length_replicate, bytesOf_eq_digits, List.length_map,
      List.length_reverse, hn] at hsize
    exact hsize
  have hbounds := length_digits_58_bounds hn (by omega)
  rw [toBase58, length_encode, hzeros, hvalue, maxTextLength]
  omega

theorem fromSlice_eq_ok {b : List UInt8} {a : Address} (h : fromSlice b = .ok a) : a.bytes = b := by
  simp only [fromSlice, Address.ofBytes?] at h
  split_ifs at h with hlen
  cases h
  rfl

theorem parse_eq_ok_iff {s : String} {a : Address} : parse s = .ok a ↔ s = a.toBase58 := by
  constructor
  · intro h
    rw [parse] at h
    split_ifs at h with hlong
    split at h
    · cases h
    · rename_i b hb
      rw [toBase58, fromSlice_eq_ok h]
      exact decode_eq_ok_iff.mp hb
  · rintro rfl
    have hshort : ¬ a.toBase58.utf8ByteSize > maxTextLength := by
      rw [toBase58, utf8ByteSize_encode, ← toBase58]
      exact Nat.not_lt.mpr (length_toBase58 a).2
    rw [parse, if_neg hshort, toBase58, decode_eq_ok_iff.mpr rfl]
    simp [fromSlice, ofBytes?, a.size_eq]

/-! ### The text order -/

instance : Std.TransCmp compareText :=
  inferInstanceAs (Std.TransCmp (compareOn toBase58))

instance : Std.LawfulEqCmp compareText where
  compare_self := compareText_eq_iff.mpr rfl
  eq_of_compare h := compareText_eq_iff.mp h

theorem isStrictTotalOrder_compareText :
    IsStrictTotalOrder Address fun a b => compareText a b = .lt where
  trichotomous a b hab hba := by
    rw [compareText_eq_lt_iff] at hab hba
    exact toBase58_injective (le_antisymm (not_lt.mp hba) (not_lt.mp hab))
  irrefl a h := lt_irrefl _ (compareText_eq_lt_iff.mp h)
  trans a b c hab hbc :=
    compareText_eq_lt_iff.mpr (lt_trans (compareText_eq_lt_iff.mp hab) (compareText_eq_lt_iff.mp hbc))

/-- The base58 text of an address is a bijection between addresses and the texts that read as
one: every text has 32 to 44 characters, reads back as its address, and is the only text that
reads as it. Comparing addresses by their texts is a lawful comparison whose `.lt` is a strict
total order, with `.eq` only for equal addresses, so sorting keys by text is deterministic. -/
theorem address_text_bijective :
    (∀ a : Address, 32 ≤ a.toBase58.length ∧ a.toBase58.length ≤ maxTextLength) ∧
    (∀ (s : String) (a : Address), parse s = .ok a ↔ s = a.toBase58) ∧
    (∀ a b : Address, compareText a b = .eq ↔ a = b) ∧
    Std.TransCmp compareText ∧
    IsStrictTotalOrder Address fun a b => compareText a b = .lt :=
  ⟨length_toBase58, fun _ _ => parse_eq_ok_iff, fun _ _ => compareText_eq_iff, inferInstance,
    isStrictTotalOrder_compareText⟩

end ChainTx.Address
