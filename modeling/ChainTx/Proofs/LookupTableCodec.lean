import ChainTx.Proofs.InstructionCodecs
import ChainTx.Account.LookupTable
/-!
# Lookup table account data

A lookup table's account data is a 56-byte header and then its addresses, 32 bytes each. The
header holds the type, the deactivation slot and the last extended slot as little-endian numbers,
the start index, an authority tag with 32 bytes after it, and two bytes of padding. Under tag 0 the
32 bytes stand for no authority and the reader skips them, as it skips the padding.
-/

namespace ChainTx

namespace LookupTableState

theorem addressesOf_flatMap (xs : List Address) : addressesOf (xs.flatMap (·.bytes)) = xs := by
  induction xs with
  | nil => simp [addressesOf]
  | cons a xs ih =>
    have hlen : (a.bytes ++ xs.flatMap (·.bytes)).length ≥ 32 := by simp [a.size_eq]
    rw [List.flatMap_cons, addressesOf, if_neg (by omega), List.take_left' a.size_eq,
      Address.ofBytes?_bytes, List.drop_left' a.size_eq, ih]

theorem flatMap_addressesOf (region : List UInt8) (h : region.length % 32 = 0) :
    (addressesOf region).flatMap (·.bytes) = region := by
  fun_induction addressesOf region with
  | case1 region hlt =>
    have hnil : region = [] := List.length_eq_zero_iff.mp (by omega)
    subst hnil
    rfl
  | case2 region hge a ha ih =>
    have hlen : (region.drop 32).length % 32 = 0 := by simp; omega
    rw [List.flatMap_cons, ih hlen]
    have hbytes : a.bytes = region.take 32 := by
      simp only [Address.ofBytes?] at ha
      split at ha
      · cases ha; rfl
      · cases ha
    rw [hbytes, List.take_append_drop]
  | case3 region hge ha ih =>
    have hlen : (region.take 32).length = 32 := by simp; omega
    simp [Address.ofBytes?, hlen] at ha

/-- The authority that a tag and the 32 bytes after it stand for: none for tag 0, the address of
the bytes for tag 1; any other tag is refused. -/
def authorityField (tag : UInt8) (bytes : List UInt8) : Except SolError (Option Address) :=
  if tag = 0 then .ok none
  else if tag = 1 then .ok (Address.ofBytes? bytes)
  else .error (.invalidLookupTable (.badAuthorityTag tag.toNat))

/-- Account data laid out as its fields: the type, the two slots, the start index and the
authority tag, the authority's bytes and the padding, then the address region. -/
theorem decode_fields {ti ds ls auth pad region : List UInt8} {si tag : UInt8}
    (hti : ti.length = 4) (hds : ds.length = 8) (hls : ls.length = 8) (hauth : auth.length = 32)
    (hpad : pad.length = 2) :
    decode (ti ++ ds ++ ls ++ [si, tag] ++ auth ++ pad ++ region) =
      if region.length % 32 ≠ 0 then .error (.invalidLookupTable (.misaligned region.length))
      else (authorityField tag auth).map fun a =>
        ⟨(leValue ti).toUInt32, (leValue ds).toUInt64, (leValue ls).toUInt64, si, a,
          addressesOf region⟩ := by
  have hlen : (ti ++ ds ++ ls ++ [si, tag] ++ auth ++ pad ++ region).length =
      headerSize + region.length := by
    simp [hti, hds, hls, hauth, hpad, headerSize]
    omega
  rw [decode, hlen, if_neg (by omega), Nat.add_sub_cancel_left]
  split_ifs with halign
  · rfl
  · simp [authorityField, List.drop_append, List.getElem?_append_right,
      List.drop_eq_nil_of_le, headerSize, hti, hds, hls, hauth, hpad]

theorem leBytes_toUInt32 {bytes : List UInt8} (h : bytes.length = 4) :
    leBytes 4 (leValue bytes).toUInt32.toNat = bytes := by
  have hlt : leValue bytes < Nat.pow 256 4 := h ▸ leValue_lt bytes
  have hv : (leValue bytes).toUInt32.toNat = leValue bytes := by simp; omega
  rw [hv, ← h, leBytes_leValue]

theorem leBytes_toUInt64 {bytes : List UInt8} (h : bytes.length = 8) :
    leBytes 8 (leValue bytes).toUInt64.toNat = bytes := by
  have hlt : leValue bytes < Nat.pow 256 8 := h ▸ leValue_lt bytes
  have hv : (leValue bytes).toUInt64.toNat = leValue bytes := by simp; omega
  rw [hv, ← h, leBytes_leValue]

theorem leValue_leBytes_toNat32 (v : UInt32) : (leValue (leBytes 4 v.toNat)).toUInt32 = v := by
  rw [leValue_leBytes, Nat.mod_eq_of_lt (v.toNat_lt : v.toNat < Nat.pow 256 4)]
  exact UInt32.ofNat_toNat

theorem leValue_leBytes_toNat64 (v : UInt64) : (leValue (leBytes 8 v.toNat)).toUInt64 = v := by
  rw [leValue_leBytes, Nat.mod_eq_of_lt (v.toNat_lt : v.toNat < Nat.pow 256 8)]
  exact UInt64.ofNat_toNat

theorem encode_eq_fields (s : LookupTableState) :
    ∃ tag auth, s.encode = leBytes 4 s.typeIndex.toNat ++ leBytes 8 s.deactivationSlot.toNat ++
        leBytes 8 s.lastExtendedSlot.toNat ++ [s.lastExtendedSlotStartIndex, tag] ++ auth ++
          [0, 0] ++ s.addresses.flatMap (·.bytes) ∧
      auth.length = 32 ∧ authorityField tag auth = .ok s.authority := by
  cases h : s.authority with
  | none =>
    refine ⟨0, List.replicate 32 0, by simp [encode, h], List.length_replicate, rfl⟩
  | some a =>
    refine ⟨1, a.bytes, by simp [encode, h], a.size_eq, ?_⟩
    simp [authorityField, Address.ofBytes?_bytes]

theorem decode_encode (s : LookupTableState) : decode s.encode = .ok s := by
  obtain ⟨tag, auth, hs, hauth, htag⟩ := encode_eq_fields s
  have hregion : (s.addresses.flatMap (·.bytes)).length % 32 = 0 := by
    simp [List.length_flatMap, Address.size_eq, List.map_const']
  rw [hs, decode_fields (length_leBytes _ _) (length_leBytes _ _) (length_leBytes _ _) hauth rfl,
    if_neg (by omega), htag]
  simp only [Except.map, leValue_leBytes_toNat32, leValue_leBytes_toNat64, addressesOf_flatMap]

theorem authorityField_eq_ok_iff {tag : UInt8} {auth : List UInt8} {a : Option Address}
    (hauth : auth.length = 32) :
    authorityField tag auth = .ok a ↔ tag = 0 ∧ a = none ∨ tag = 1 ∧ a = some ⟨auth, hauth⟩ := by
  by_cases h0 : tag = 0
  · subst h0
    simp [authorityField, eq_comm]
  by_cases h1 : tag = 1
  · subst h1
    simp [authorityField, Address.ofBytes?, hauth, eq_comm]
  · simp [authorityField, h0, h1]

section Fields

variable {ti ds ls auth pad region : List UInt8} {si tag : UInt8}

theorem decode_fields_eq_ok (hti : ti.length = 4) (hds : ds.length = 8) (hls : ls.length = 8)
    (hauth : auth.length = 32) (hpad : pad.length = 2) {s : LookupTableState} :
    decode (ti ++ ds ++ ls ++ [si, tag] ++ auth ++ pad ++ region) = .ok s ↔
      region.length % 32 = 0 ∧ ∃ a, authorityField tag auth = .ok a ∧
        s = ⟨(leValue ti).toUInt32, (leValue ds).toUInt64, (leValue ls).toUInt64, si, a,
          addressesOf region⟩ := by
  rw [decode_fields hti hds hls hauth hpad]
  by_cases halign : region.length % 32 = 0
  · rw [if_neg (by omega)]
    cases hfield : authorityField tag auth with
    | error e => simp [Except.map]
    | ok a => simp [Except.map, halign, eq_comm]
  · rw [if_pos halign]
    simp [halign]

theorem encode_of_decode_fields (hti : ti.length = 4) (hds : ds.length = 8) (hls : ls.length = 8)
    (hauth : auth.length = 32) (hpad : pad.length = 2) {s : LookupTableState}
    (h : decode (ti ++ ds ++ ls ++ [si, tag] ++ auth ++ pad ++ region) = .ok s) :
    s.encode = ti ++ ds ++ ls ++ [si, tag] ++ (if tag = 0 then List.replicate 32 0 else auth) ++
      [0, 0] ++ region := by
  obtain ⟨halign, a, ha, rfl⟩ := (decode_fields_eq_ok hti hds hls hauth hpad).mp h
  have hregion := flatMap_addressesOf region halign
  rcases (authorityField_eq_ok_iff hauth).mp ha with ⟨rfl, rfl⟩ | ⟨rfl, rfl⟩ <;>
  · simp only [encode, leBytes_toUInt32 hti, leBytes_toUInt64 hds, leBytes_toUInt64 hls, hregion]
    simp

/-- Where the fields stand in the data: its length, the authority tag at byte 21, the
authority's bytes from byte 22 and the padding from byte 54. -/
theorem fields_view (si tag : UInt8) (region : List UInt8) (hti : ti.length = 4)
    (hds : ds.length = 8) (hls : ls.length = 8) (hauth : auth.length = 32) (hpad : pad.length = 2) :
    (ti ++ ds ++ ls ++ [si, tag] ++ auth ++ pad ++ region).length = headerSize + region.length ∧
    (ti ++ ds ++ ls ++ [si, tag] ++ auth ++ pad ++ region)[21]? = some tag ∧
    ((ti ++ ds ++ ls ++ [si, tag] ++ auth ++ pad ++ region).drop 22).take 32 = auth ∧
    ((ti ++ ds ++ ls ++ [si, tag] ++ auth ++ pad ++ region).drop 54).take 2 = pad := by
  refine ⟨?_, ?_, ?_, ?_⟩
  · simp [hti, hds, hls, hauth, hpad, headerSize]
    omega
  · simp [List.getElem?_append_right, hti, hds, hls]
  · simp [List.drop_append, List.drop_eq_nil_of_le, hti, hds, hls, hauth]
  · simp [List.drop_append, List.drop_eq_nil_of_le, hti, hds, hls, hauth, hpad]

end Fields

theorem append_append_eq_iff {a a' b b' r : List UInt8} (ha : a.length = a'.length)
    (hb : b.length = b'.length) : a ++ (b ++ r) = a' ++ (b' ++ r) ↔ a = a' ∧ b = b' := by
  constructor
  · intro h
    obtain ⟨rfl, hrest⟩ := List.append_inj h ha
    exact ⟨rfl, (List.append_inj hrest hb).1⟩
  · rintro ⟨rfl, rfl⟩
    rfl

theorem exists_append_of_le_length {α : Type} {l : List α} {n : Nat} (h : n ≤ l.length) :
    ∃ a b, l = a ++ b ∧ a.length = n :=
  ⟨l.take n, l.drop n, (List.take_append_drop n l).symm, List.length_take_of_le h⟩

theorem exists_fields {d : List UInt8} (h : headerSize ≤ d.length) :
    ∃ ti ds ls si tag auth pad region, d = ti ++ ds ++ ls ++ [si, tag] ++ auth ++ pad ++ region ∧
      ti.length = 4 ∧ ds.length = 8 ∧ ls.length = 8 ∧ auth.length = 32 ∧ pad.length = 2 := by
  simp only [headerSize] at h
  obtain ⟨ti, r₁, rfl, hti⟩ := exists_append_of_le_length (l := d) (n := 4) (by omega)
  rw [List.length_append, hti] at h
  obtain ⟨ds, r₂, rfl, hds⟩ := exists_append_of_le_length (l := r₁) (n := 8) (by omega)
  rw [List.length_append, hds] at h
  obtain ⟨ls, r₃, rfl, hls⟩ := exists_append_of_le_length (l := r₂) (n := 8) (by omega)
  rw [List.length_append, hls] at h
  obtain ⟨st, r₄, rfl, hst⟩ := exists_append_of_le_length (l := r₃) (n := 2) (by omega)
  rw [List.length_append, hst] at h
  obtain ⟨auth, r₅, rfl, hauth⟩ := exists_append_of_le_length (l := r₄) (n := 32) (by omega)
  rw [List.length_append, hauth] at h
  obtain ⟨pad, region, rfl, hpad⟩ := exists_append_of_le_length (l := r₅) (n := 2) (by omega)
  match st, hst with
  | [si, tag], _ =>
    exact ⟨ti, ds, ls, si, tag, auth, pad, region, by simp, hti, hds, hls, hauth, hpad⟩

theorem headerSize_le_of_decode {d : List UInt8} {s : LookupTableState} (h : decode d = .ok s) :
    headerSize ≤ d.length := by
  by_contra hlt
  rw [decode, if_pos (by omega)] at h
  cases h

/-- A read state writes back the data it was read from exactly when that data's authority bytes
are zero under tag 0 and its padding is zero: the reader skips both. -/
theorem encode_eq_iff_of_decode {d : List UInt8} {s : LookupTableState} (h : decode d = .ok s) :
    s.encode = d ↔ (d[21]? = some 0 → (d.drop 22).take 32 = List.replicate 32 0) ∧
      (d.drop 54).take 2 = [0, 0] := by
  obtain ⟨ti, ds, ls, si, tag, auth, pad, region, rfl, hti, hds, hls, hauth, hpad⟩ :=
    exists_fields (headerSize_le_of_decode h)
  obtain ⟨-, h21, hauth', hpad'⟩ := fields_view si tag region hti hds hls
    hauth hpad
  rw [encode_of_decode_fields hti hds hls hauth hpad h, h21, hauth', hpad']
  simp only [List.append_assoc, List.append_cancel_left_eq, Option.some.injEq]
  have hfield : (if tag = 0 then List.replicate 32 (0 : UInt8) else auth).length = auth.length := by
    split <;> simp [hauth]
  rw [append_append_eq_iff hfield (by rw [hpad]; rfl)]
  by_cases h0 : tag = 0
  · simp [h0, eq_comm]
  · simp [h0, eq_comm]

theorem decode_ok_iff (d : List UInt8) :
    (∃ s, decode d = .ok s) ↔ headerSize ≤ d.length ∧ (d.length - headerSize) % 32 = 0 ∧
      (d[21]? = some 0 ∨ d[21]? = some 1) := by
  constructor
  · rintro ⟨s, h⟩
    have hle := headerSize_le_of_decode h
    obtain ⟨ti, ds, ls, si, tag, auth, pad, region, rfl, hti, hds, hls, hauth, hpad⟩ :=
      exists_fields hle
    obtain ⟨hlen, h21, -, -⟩ := fields_view si tag region hti hds hls hauth hpad
    obtain ⟨halign, a, ha, -⟩ := (decode_fields_eq_ok hti hds hls hauth hpad).mp h
    refine ⟨hle, by rw [hlen, Nat.add_sub_cancel_left]; exact halign, ?_⟩
    rw [h21]
    rcases (authorityField_eq_ok_iff hauth).mp ha with ⟨rfl, -⟩ | ⟨rfl, -⟩
    · exact .inl rfl
    · exact .inr rfl
  · rintro ⟨hle, halign, htag⟩
    obtain ⟨ti, ds, ls, si, tag, auth, pad, region, rfl, hti, hds, hls, hauth, hpad⟩ :=
      exists_fields hle
    obtain ⟨hlen, h21, -, -⟩ := fields_view si tag region hti hds hls hauth hpad
    rw [hlen, Nat.add_sub_cancel_left] at halign
    rw [h21] at htag
    obtain ⟨a, ha⟩ : ∃ a, authorityField tag auth = .ok a := by
      rcases htag with h0 | h1
      · exact ⟨none, (authorityField_eq_ok_iff hauth).mpr (.inl ⟨Option.some.inj h0, rfl⟩)⟩
      · exact ⟨_, (authorityField_eq_ok_iff hauth).mpr (.inr ⟨Option.some.inj h1, rfl⟩)⟩
    exact ⟨_, (decode_fields_eq_ok hti hds hls hauth hpad).mpr ⟨halign, a, ha, rfl⟩⟩

/-- The lookup table account codec: every state is read back from the data it writes; data that
is read writes back to itself exactly when its skipped bytes, the authority's under tag 0 and the
padding, are zero; and data is read exactly when it holds the 56-byte header and whole addresses,
with an authority tag of 0 or 1. -/
theorem account_data_roundTrip :
    (∀ s : LookupTableState, decode s.encode = .ok s) ∧
    (∀ d s, decode d = .ok s →
      (s.encode = d ↔ (d[21]? = some 0 → (d.drop 22).take 32 = List.replicate 32 0) ∧
        (d.drop 54).take 2 = [0, 0])) ∧
    (∀ d, (∃ s, decode d = .ok s) ↔ headerSize ≤ d.length ∧ (d.length - headerSize) % 32 = 0 ∧
      (d[21]? = some 0 ∨ d[21]? = some 1)) :=
  ⟨decode_encode, fun _ _ h => encode_eq_iff_of_decode h, decode_ok_iff⟩

/-- Data with no authority whose authority bytes are not zero. -/
private def strayAuthorityData : List UInt8 := List.replicate 22 0 ++ 7 :: List.replicate 33 0

/-- The state read from `strayAuthorityData`, which has no authority and writes zeros there. -/
theorem account_data_roundTrip_strayAuthority :
    decode strayAuthorityData = .ok ⟨0, 0, 0, 0, none, []⟩ ∧
      ((⟨0, 0, 0, 0, none, []⟩ : LookupTableState).encode = strayAuthorityData ↔
        (strayAuthorityData[21]? = some 0 →
          (strayAuthorityData.drop 22).take 32 = List.replicate 32 0) ∧
        (strayAuthorityData.drop 54).take 2 = [0, 0]) := by
  have h : decode strayAuthorityData = .ok ⟨0, 0, 0, 0, none, []⟩ := by decide +kernel
  exact ⟨h, account_data_roundTrip.2.1 _ _ h⟩

end LookupTableState

end ChainTx
