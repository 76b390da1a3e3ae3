import Mathlib.Data.String.Basic
import Mathlib.Data.List.TakeWhile
import ChainTx.Key.Address
/-!
# Base58 text determines the bytes

A byte string is written as one `1` per leading zero byte followed by the base-58 digits of its
value, and no digit string starts with the digit `1` (zero). So the number of leading `1`s gives
back the zero bytes, the rest gives back the value, and the two give back the bytes. Distinct
addresses therefore have distinct texts, and the text order is a strict total order on addresses:
this is what makes every sort of an account table by text deterministic.
-/

namespace ChainTx.Base58

private theorem idxOf_digitChar : ∀ d : Fin 58, alphabet.idxOf (digitChar d) = d := by
  decide

private theorem digitChar_ne_one : ∀ d : Fin 58, d.val ≠ 0 → digitChar d ≠ '1' := by
  decide

theorem digitChar_injOn {a b : Nat} (ha : a < 58) (hb : b < 58) (h : digitChar a = digitChar b) :
    a = b := by
  have hia := idxOf_digitChar ⟨a, ha⟩
  have hib := idxOf_digitChar ⟨b, hb⟩
  simp only at hia hib
  rw [← hia, ← hib, h]

theorem digitsOf_zero : digitsOf 0 = [] := by
  rw [digitsOf]; simp

theorem digitsOf_of_pos {n : Nat} (h : 0 < n) :
    digitsOf n = digitsOf (n / 58) ++ [digitChar (n % 58)] := by
  rw [digitsOf]; simp [Nat.pos_iff_ne_zero.mp h]

theorem digitsOf_eq_nil_iff {n : Nat} : digitsOf n = [] ↔ n = 0 := by
  rcases Nat.eq_zero_or_pos n with rfl | h
  · simp [digitsOf_zero]
  · simp [digitsOf_of_pos h, Nat.pos_iff_ne_zero.mp h]

theorem digitsOf_head?_ne_one (n : Nat) : (digitsOf n).head? ≠ some '1' := by
  induction n using Nat.strong_induction_on with
  | _ n ih =>
    rcases Nat.eq_zero_or_pos n with rfl | hn
    · simp [digitsOf_zero]
    · rw [digitsOf_of_pos hn]
      rcases Nat.eq_zero_or_pos (n / 58) with hq | hq
      · have hlt : n < 58 := by omega
        rw [hq, digitsOf_zero, List.nil_append, List.head?_singleton, Nat.mod_eq_of_lt hlt]
        simpa using digitChar_ne_one ⟨n, hlt⟩ (by simp; omega)
      · have hne : digitsOf (n / 58) ≠ [] := by rw [Ne, digitsOf_eq_nil_iff]; omega
        rw [List.head?_append_of_ne_nil _ hne]
        exact ih _ (Nat.div_lt_self hn (by decide))

theorem digitsOf_injective : Function.Injective digitsOf := by
  intro a
  induction a using Nat.strong_induction_on with
  | _ a ih =>
    intro b hab
    rcases Nat.eq_zero_or_pos a with rfl | ha
    · rw [digitsOf_zero, eq_comm, digitsOf_eq_nil_iff] at hab
      exact hab.symm
    rcases Nat.eq_zero_or_pos b with rfl | hb
    · rw [digitsOf_zero, digitsOf_eq_nil_iff] at hab
      omega
    rw [digitsOf_of_pos ha, digitsOf_of_pos hb] at hab
    obtain ⟨hq, hr⟩ := List.append_inj' hab rfl
    have hmod : a % 58 = b % 58 :=
      digitChar_injOn (Nat.mod_lt _ (by decide)) (Nat.mod_lt _ (by decide))
        (List.singleton_inj.mp hr)
    have hdiv : a / 58 = b / 58 := ih _ (Nat.div_lt_self ha (by decide)) hq
    omega

/-- A run of one character in front of lists that do not start with it is read back exactly. -/
theorem replicate_append_cancel {x : Char} {m n : Nat} {l l' : List Char}
    (hl : l.head? ≠ some x) (hl' : l'.head? ≠ some x)
    (h : List.replicate m x ++ l = List.replicate n x ++ l') : m = n ∧ l = l' := by
  induction m generalizing n with
  | zero =>
    cases n with
    | zero => simpa using h
    | succ n => simp [List.replicate_succ] at h; simp [h] at hl
  | succ m ih =>
    cases n with
    | zero => simp [List.replicate_succ] at h; simp [← h] at hl'
    | succ n =>
      simp only [List.replicate_succ, List.cons_append, List.cons.injEq, true_and] at h
      obtain ⟨hmn, hll⟩ := ih h
      exact ⟨by omega, hll⟩

private theorem foldl_value_zeros (z : Nat) :
    (List.replicate z (0 : UInt8)).foldl (fun acc b => acc * 256 + b.toNat) 0 = 0 := by
  induction z with
  | zero => rfl
  | succ z ih => simpa [List.replicate_succ] using ih

theorem bytesOf_of_pos {n : Nat} (h : 0 < n) : bytesOf n = bytesOf (n / 256) ++ [(n % 256).toUInt8] := by
  rw [bytesOf]; simp [Nat.pos_iff_ne_zero.mp h]

/-- Reading on from a positive value appends the bytes read to the value's own bytes. -/
private theorem bytesOf_foldl (r : List UInt8) {a : Nat} (ha : 0 < a) :
    bytesOf (r.foldl (fun acc b => acc * 256 + b.toNat) a) = bytesOf a ++ r := by
  induction r generalizing a with
  | nil => simp
  | cons b r ih =>
    have hpos : 0 < a * 256 + b.toNat := by omega
    rw [List.foldl_cons, ih hpos, bytesOf_of_pos hpos]
    have hdiv : (a * 256 + b.toNat) / 256 = a := by have := b.toNat_lt; omega
    have hmod : ((a * 256 + b.toNat) % 256).toUInt8 = b := by
      have := b.toNat_lt
      rw [Nat.mul_comm, Nat.mul_add_mod, Nat.mod_eq_of_lt this]; simp
    rw [hdiv, hmod]; simp

theorem bytesOf_bytesValue {r : List UInt8} (h : r.head? ≠ some 0) : bytesOf (bytesValue r) = r := by
  cases r with
  | nil => simp [bytesValue, bytesOf]
  | cons b r =>
    have hb : 0 < b.toNat := by
      rcases Nat.eq_zero_or_pos b.toNat with h0 | h0
      · have hb0 : b = 0 := UInt8.toNat_inj.mp (by simpa using h0)
        simp [hb0] at h
      · exact h0
    have hone : bytesOf b.toNat = [b] := by
      rw [bytesOf_of_pos hb, Nat.div_eq_of_lt b.toNat_lt, Nat.mod_eq_of_lt b.toNat_lt]
      simp [bytesOf]
    rw [bytesValue, List.foldl_cons, Nat.zero_mul, Nat.zero_add, bytesOf_foldl r hb, hone]
    rfl

theorem eq_zeros_append_bytesOf (bytes : List UInt8) :
    bytes = List.replicate (bytes.takeWhile (· == 0)).length 0 ++ bytesOf (bytesValue bytes) := by
  have hzeros : bytes.takeWhile (· == 0) = List.replicate (bytes.takeWhile (· == 0)).length 0 :=
    List.eq_replicate_iff.mpr ⟨rfl, fun b hb => by simpa using List.mem_takeWhile_imp hb⟩
  have hrest : (bytes.dropWhile (· == 0)).head? ≠ some 0 := by
    have := List.head?_dropWhile_not (· == (0 : UInt8)) bytes
    intro h; rw [h] at this; simp at this
  have hvalue : bytesValue bytes = bytesValue (bytes.dropWhile (· == 0)) := by
    conv_lhs => rw [← List.takeWhile_append_dropWhile (p := (· == (0 : UInt8))) (l := bytes), hzeros]
    rw [bytesValue, List.foldl_append, foldl_value_zeros]; rfl
  rw [hvalue, bytesOf_bytesValue hrest]
  conv_lhs => rw [← List.takeWhile_append_dropWhile (p := (· == (0 : UInt8))) (l := bytes), hzeros]

theorem encode_injective : Function.Injective encode := by
  intro a b h
  simp only [encode] at h
  obtain ⟨hz, hd⟩ := replicate_append_cancel (digitsOf_head?_ne_one _) (digitsOf_head?_ne_one _)
    (String.ofList_injective h)
  rw [eq_zeros_append_bytesOf a, eq_zeros_append_bytesOf b, hz, digitsOf_injective hd]

end ChainTx.Base58

namespace ChainTx.Address

theorem toBase58_injective : Function.Injective Address.toBase58 := by
  intro a b h
  obtain ⟨a, ha⟩ := a
  obtain ⟨b, hb⟩ := b
  have : a = b := Base58.encode_injective h
  subst this; rfl

theorem toBase58_inj {a b : Address} : a.toBase58 = b.toBase58 ↔ a = b :=
  toBase58_injective.eq_iff

theorem compareText_eq_iff {a b : Address} : compareText a b = .eq ↔ a = b := by
  rw [compareText, compare_eq_iff_eq, toBase58_inj]

theorem compareText_eq_lt_iff {a b : Address} : compareText a b = .lt ↔ a.toBase58 < b.toBase58 := by
  rw [compareText, compare_lt_iff_lt]

theorem compareText_eq_gt_iff {a b : Address} : compareText a b = .gt ↔ b.toBase58 < a.toBase58 := by
  rw [compareText, compare_gt_iff_gt]

end ChainTx.Address
