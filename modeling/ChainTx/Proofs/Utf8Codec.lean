import Mathlib.Tactic.SplitIfs
import ChainTx.Text.Utf8
/-!
# UTF-8 decoding inverts the string encoding

The decoder of `ChainTx.Text.Utf8` accepts exactly the byte strings that are the UTF-8 form of some
text, and gives that text back. One step of decoding reads one character's bytes off the front:
the range checks on the lead and second bytes are what rule out overlong forms, surrogates and code
points above U+10FFFF, so the bytes a step accepts re-encode to themselves. Induction on the input
then gives `decode_eq_ok_iff`.
-/

namespace ChainTx.Utf8

theorem toNat_ofNat_of_valid {n : Nat} (h : n.isValidChar) : (Char.ofNat n).toNat = n := by
  rw [Char.ofNat, dif_pos h]
  rfl

theorem ofNat_eq_of_toNat {x : Nat} {b : UInt8} (h : x = b.toNat) : UInt8.ofNat x = b := by
  subst h
  exact UInt8.ofNat_toNat

theorem width_eq (l : UInt8) : width l =
    if l.toNat < 0x80 then 1 else if l.toNat < 0xc2 then 0 else if l.toNat < 0xe0 then 2
    else if l.toNat < 0xf0 then 3 else if l.toNat < 0xf5 then 4 else 0 := by
  simp [width, UInt8.lt_iff_toNat_lt]

theorem isCont_iff (b : UInt8) : isCont b = true ↔ 0x80 ≤ b.toNat ∧ b.toNat ≤ 0xbf := by
  simp [isCont, UInt8.le_iff_toNat_le]

theorem inSecondRange_iff (l b : UInt8) :
    ((secondRange l).1 ≤ b && b ≤ (secondRange l).2) = true ↔
      0x80 ≤ b.toNat ∧ b.toNat ≤ 0xbf ∧ (l.toNat = 0xe0 → 0xa0 ≤ b.toNat) ∧
      (l.toNat = 0xf0 → 0x90 ≤ b.toNat) ∧ (l.toNat = 0xed → b.toNat ≤ 0x9f) ∧
      (l.toNat = 0xf4 → b.toNat ≤ 0x8f) := by
  have key : ∀ x : UInt8, l = x ↔ l.toNat = x.toNat := fun x => UInt8.toNat_inj.symm
  unfold secondRange
  split_ifs with h1 h2 h3 h4
  · subst h1; simp [UInt8.le_iff_toNat_le]; omega
  · subst h2; simp [UInt8.le_iff_toNat_le]; omega
  · subst h3; simp [UInt8.le_iff_toNat_le]; omega
  · subst h4; simp [UInt8.le_iff_toNat_le]; omega
  · rw [key] at h1 h2 h3 h4
    simp only [UInt8.reduceToNat] at h1 h2 h3 h4
    simp [UInt8.le_iff_toNat_le]; omega

theorem utf8EncodeChar_ofNat {n : Nat} (h : n.isValidChar) :
    String.utf8EncodeChar (Char.ofNat n) =
      if n ≤ 0x7f then [UInt8.ofNat n]
      else if n ≤ 0x7ff then [UInt8.ofNat (n / 64 % 32 + 0xc0), UInt8.ofNat (n % 64 + 0x80)]
      else if n ≤ 0xffff then
        [UInt8.ofNat (n / 4096 % 16 + 0xe0), UInt8.ofNat (n / 64 % 64 + 0x80),
          UInt8.ofNat (n % 64 + 0x80)]
      else
        [UInt8.ofNat (n / 262144 % 8 + 0xf0), UInt8.ofNat (n / 4096 % 64 + 0x80),
          UInt8.ofNat (n / 64 % 64 + 0x80), UInt8.ofNat (n % 64 + 0x80)] := by
  have hv : (Char.ofNat n).val.toNat = n := toNat_ofNat_of_valid h
  simp only [String.utf8EncodeChar, hv]

/-! ### One step of decoding -/

variable {pos : Nat} {acc : List Char} {lead : UInt8} {rest : List UInt8}

theorem decodeFrom_ascii (h : lead.toNat < 0x80) :
    decodeFrom pos acc (lead :: rest) = decodeFrom (pos + 1) (Char.ofNat lead.toNat :: acc) rest := by
  have hw : width lead = 1 := by rw [width_eq, if_pos h]
  rw [decodeFrom]
  simp only [hw]
  rfl

theorem decodeFrom_seq {w : Nat} (hw : width lead = w) (h2 : 2 ≤ w)
    (hc : contCount lead (w - 1) rest = some (w - 1)) :
    decodeFrom pos acc (lead :: rest) =
      decodeFrom (pos + w) (Char.ofNat (codePoint (lead :: rest.take (w - 1))) :: acc)
        (rest.drop (w - 1)) := by
  rw [decodeFrom]
  simp only [hw, hc, if_neg (show ¬ w = 0 by omega), if_neg (show ¬ w = 1 by omega),
    Nat.lt_irrefl, if_false]

theorem tailCount_of_isCont {bs : List UInt8} (hs : ∀ c ∈ bs, isCont c = true)
    (rest : List UInt8) : tailCount bs.length (bs ++ rest) = some bs.length := by
  induction bs with
  | nil => rfl
  | cons b bs ih =>
    rw [List.length_cons, List.cons_append, tailCount, if_pos (hs b (by simp)),
      ih fun c hc => hs c (by simp [hc])]
    rfl

/-- A lead byte of width `w`, a second byte in the lead byte's range and then continuation bytes,
`w` bytes in all, are read as one character. -/
theorem decodeFrom_seq_append {w : Nat} {b : UInt8} {bs : List UInt8} (hw : width lead = w)
    (hlen : bs.length + 2 = w) (h₁ : ((secondRange lead).1 ≤ b && b ≤ (secondRange lead).2) = true)
    (hs : ∀ c ∈ bs, isCont c = true) :
    decodeFrom pos acc ((lead :: b :: bs) ++ rest) =
      decodeFrom (pos + w) (Char.ofNat (codePoint (lead :: b :: bs)) :: acc) rest := by
  have hc : contCount lead (w - 1) (b :: (bs ++ rest)) = some (w - 1) := by
    rw [← hlen, show bs.length + 2 - 1 = bs.length + 1 by omega]
    simp only [contCount, h₁, if_true, tailCount_of_isCont hs]
    rfl
  rw [List.cons_append, List.cons_append, decodeFrom_seq hw (by omega) hc, ← hlen,
    show bs.length + 2 - 1 = bs.length + 1 by omega, List.take_succ_cons, List.drop_succ_cons,
    List.take_left, List.drop_left]

/-- `UInt8.toNat_ofNat_of_lt'` with its bound as a number, so that `omega` can meet it. -/
theorem toNat_ofNat_lt {x : Nat} (h : x < 256) : (UInt8.ofNat x).toNat = x :=
  UInt8.toNat_ofNat_of_lt' h

theorem decodeFrom_utf8EncodeChar (c : Char) (pos : Nat) (acc : List Char) (rest : List UInt8) :
    decodeFrom pos acc (String.utf8EncodeChar c ++ rest) =
      decodeFrom (pos + (String.utf8EncodeChar c).length) (c :: acc) rest := by
  obtain ⟨n, hn, rfl⟩ : ∃ n, n.isValidChar ∧ Char.ofNat n = c :=
    ⟨c.toNat, c.valid, Char.ofNat_toNat c⟩
  have hvalid : n < 0xd800 ∨ (0xdfff < n ∧ n < 0x110000) := hn
  rw [utf8EncodeChar_ofNat hn]
  split_ifs with h₁ h₂ h₃
  · -- one byte
    rw [List.singleton_append, decodeFrom_ascii (by rw [toNat_ofNat_lt (by omega)]; omega),
      toNat_ofNat_lt (by omega)]
    rfl
  · -- two bytes
    have hl := toNat_ofNat_lt (x := n / 64 % 32 + 0xc0) (by omega)
    have hb := toNat_ofNat_lt (x := n % 64 + 0x80) (by omega)
    have hw : width (UInt8.ofNat (n / 64 % 32 + 0xc0)) = 2 := by
      rw [width_eq, hl]
      split_ifs <;> omega
    have hcp : codePoint [UInt8.ofNat (n / 64 % 32 + 0xc0), UInt8.ofNat (n % 64 + 0x80)] = n := by
      simp only [codePoint, hl, hb]
      omega
    rw [decodeFrom_seq_append hw rfl ((inSecondRange_iff _ _).mpr (by rw [hl, hb]; omega))
      (by simp), hcp]
    rfl
  · -- three bytes
    have hl := toNat_ofNat_lt (x := n / 4096 % 16 + 0xe0) (by omega)
    have hb₁ := toNat_ofNat_lt (x := n / 64 % 64 + 0x80) (by omega)
    have hb₂ := toNat_ofNat_lt (x := n % 64 + 0x80) (by omega)
    have hw : width (UInt8.ofNat (n / 4096 % 16 + 0xe0)) = 3 := by
      rw [width_eq, hl]
      split_ifs <;> omega
    have hcp : codePoint [UInt8.ofNat (n / 4096 % 16 + 0xe0), UInt8.ofNat (n / 64 % 64 + 0x80),
        UInt8.ofNat (n % 64 + 0x80)] = n := by
      simp only [codePoint, hl, hb₁, hb₂]
      omega
    rw [decodeFrom_seq_append hw rfl ((inSecondRange_iff _ _).mpr (by rw [hl, hb₁]; omega))
      (List.forall_mem_singleton.mpr ((isCont_iff _).mpr (by rw [hb₂]; omega))), hcp]
    rfl
  · -- four bytes
    have hl := toNat_ofNat_lt (x := n / 262144 % 8 + 0xf0) (by omega)
    have hb₁ := toNat_ofNat_lt (x := n / 4096 % 64 + 0x80) (by omega)
    have hb₂ := toNat_ofNat_lt (x := n / 64 % 64 + 0x80) (by omega)
    have hb₃ := toNat_ofNat_lt (x := n % 64 + 0x80) (by omega)
    have hw : width (UInt8.ofNat (n / 262144 % 8 + 0xf0)) = 4 := by
      rw [width_eq, hl]
      split_ifs <;> omega
    have hcp : codePoint [UInt8.ofNat (n / 262144 % 8 + 0xf0), UInt8.ofNat (n / 4096 % 64 + 0x80),
        UInt8.ofNat (n / 64 % 64 + 0x80), UInt8.ofNat (n % 64 + 0x80)] = n := by
      simp only [codePoint, hl, hb₁, hb₂, hb₃]
      omega
    rw [decodeFrom_seq_append hw rfl ((inSecondRange_iff _ _).mpr (by rw [hl, hb₁]; omega))
      (List.forall_mem_cons.mpr ⟨(isCont_iff _).mpr (by rw [hb₂]; omega),
        List.forall_mem_singleton.mpr ((isCont_iff _).mpr (by rw [hb₃]; omega))⟩), hcp]
    rfl

/-! ### What one step accepts -/

theorem tailCount_le : ∀ {n : Nat} {t : List UInt8} {k : Nat}, tailCount n t = some k → k ≤ n
  | 0, _, _, h => by simp [tailCount] at h; omega
  | _ + 1, [], _, h => by simp [tailCount] at h
  | n + 1, b :: t, k, h => by
    simp only [tailCount] at h
    split at h
    · obtain ⟨k', hk', rfl⟩ := Option.map_eq_some_iff.mp h
      have := tailCount_le hk'
      omega
    · cases h
      omega

theorem tailCount_succ_inv {n : Nat} {t : List UInt8} (h : tailCount (n + 1) t = some (n + 1)) :
    ∃ b t', t = b :: t' ∧ isCont b = true ∧ tailCount n t' = some n := by
  cases t with
  | nil => simp [tailCount] at h
  | cons b t' =>
    simp only [tailCount] at h
    split at h
    · rename_i hb
      obtain ⟨k', hk', hk⟩ := Option.map_eq_some_iff.mp h
      exact ⟨b, t', rfl, hb, by rw [hk', show k' = n by omega]⟩
    · cases h

theorem contCount_succ_inv {l : UInt8} {n k : Nat} (h : contCount l (n + 1) rest = some k)
    (hk : n + 1 ≤ k) :
    ∃ b t, rest = b :: t ∧ ((secondRange l).1 ≤ b && b ≤ (secondRange l).2) = true ∧
      tailCount n t = some n := by
  cases rest with
  | nil => simp [contCount] at h
  | cons b t =>
    simp only [contCount] at h
    split at h
    · rename_i hb
      obtain ⟨k', hk', rfl⟩ := Option.map_eq_some_iff.mp h
      have hle := tailCount_le hk'
      exact ⟨b, t, rfl, hb, by rw [hk', show k' = n by omega]⟩
    · cases h
      omega

theorem width_le_four (l : UInt8) : width l ≤ 4 := by
  rw [width_eq]
  split_ifs <;> omega

theorem utf8EncodeChar_codePoint {w k : Nat} (hw : width lead = w) (h2 : 2 ≤ w)
    (hc : contCount lead (w - 1) rest = some k) (hk : w - 1 ≤ k) :
    String.utf8EncodeChar (Char.ofNat (codePoint (lead :: rest.take (w - 1)))) =
      lead :: rest.take (w - 1) := by
  have hw4 : w ≤ 4 := hw ▸ width_le_four lead
  rw [width_eq] at hw
  obtain ⟨b₁, t, rfl, h₁, ht⟩ := contCount_succ_inv (n := w - 2) (by rw [show w - 2 + 1 = w - 1 by omega]; exact hc) (by omega)
  rw [inSecondRange_iff] at h₁
  rcases (show w = 2 ∨ w = 3 ∨ w = 4 by omega) with rfl | rfl | rfl
  · -- two bytes
    have hlead : 0xc2 ≤ lead.toNat ∧ lead.toNat < 0xe0 := by split_ifs at hw <;> omega
    have hcp : codePoint [lead, b₁] = lead.toNat % 32 * 64 + b₁.toNat % 64 := rfl
    have hv : (codePoint [lead, b₁]).isValidChar := by
      rw [hcp]
      omega
    show String.utf8EncodeChar (Char.ofNat (codePoint [lead, b₁])) = [lead, b₁]
    rw [utf8EncodeChar_ofNat hv, hcp, if_neg (by omega),
      if_pos (by omega)]
    simp only [List.cons.injEq, and_true]
    exact ⟨ofNat_eq_of_toNat (by omega), ofNat_eq_of_toNat (by omega)⟩
  · -- three bytes
    obtain ⟨b₂, t', rfl, h₂, -⟩ := tailCount_succ_inv ht
    rw [isCont_iff] at h₂
    have hlead : 0xe0 ≤ lead.toNat ∧ lead.toNat < 0xf0 := by split_ifs at hw <;> omega
    have hcp : codePoint [lead, b₁, b₂] =
        lead.toNat % 16 * 4096 + b₁.toNat % 64 * 64 + b₂.toNat % 64 := rfl
    have hv : (codePoint [lead, b₁, b₂]).isValidChar := by
      rw [hcp]
      omega
    show String.utf8EncodeChar (Char.ofNat (codePoint [lead, b₁, b₂])) = [lead, b₁, b₂]
    rw [utf8EncodeChar_ofNat hv, hcp, if_neg (by omega),
      if_neg (by omega), if_pos (by omega)]
    simp only [List.cons.injEq, and_true]
    exact ⟨ofNat_eq_of_toNat (by omega),
      ofNat_eq_of_toNat (by omega), ofNat_eq_of_toNat (by omega)⟩
  · -- four bytes
    obtain ⟨b₂, t', rfl, h₂, ht'⟩ := tailCount_succ_inv ht
    obtain ⟨b₃, t'', rfl, h₃, -⟩ := tailCount_succ_inv ht'
    rw [isCont_iff] at h₂ h₃
    have hlead : 0xf0 ≤ lead.toNat ∧ lead.toNat < 0xf5 := by split_ifs at hw <;> omega
    have hcp : codePoint [lead, b₁, b₂, b₃] = lead.toNat % 8 * 262144 + b₁.toNat % 64 * 4096 +
        b₂.toNat % 64 * 64 + b₃.toNat % 64 := rfl
    have hv : (codePoint [lead, b₁, b₂, b₃]).isValidChar := by
      rw [hcp]
      omega
    show String.utf8EncodeChar (Char.ofNat (codePoint [lead, b₁, b₂, b₃])) = [lead, b₁, b₂, b₃]
    rw [utf8EncodeChar_ofNat hv, hcp, if_neg (by omega),
      if_neg (by omega), if_neg (by omega)]
    simp only [List.cons.injEq, and_true]
    exact ⟨ofNat_eq_of_toNat (by omega), ofNat_eq_of_toNat (by omega),
      ofNat_eq_of_toNat (by omega), ofNat_eq_of_toNat (by omega)⟩

theorem length_of_tailCount : ∀ {n : Nat} {t : List UInt8}, tailCount n t = some n → n ≤ t.length
  | 0, _, _ => Nat.zero_le _
  | _ + 1, _, h => by
    obtain ⟨b, t', rfl, -, h'⟩ := tailCount_succ_inv h
    have := length_of_tailCount h'
    simp only [List.length_cons]
    omega

theorem length_of_contCount {l : UInt8} {n k : Nat} (h : contCount l (n + 1) rest = some k)
    (hk : n + 1 ≤ k) : n + 1 ≤ rest.length := by
  obtain ⟨b, t, rfl, -, ht⟩ := contCount_succ_inv h hk
  have := length_of_tailCount ht
  simp only [List.length_cons]
  omega

theorem decodeFrom_cons_inv {r : List Char} (h : decodeFrom pos acc (lead :: rest) = .ok r) :
    ∃ c rest', lead :: rest = String.utf8EncodeChar c ++ rest' ∧
      decodeFrom (pos + (String.utf8EncodeChar c).length) (c :: acc) rest' = .ok r := by
  rw [decodeFrom] at h
  by_cases h0 : width lead = 0
  · rw [if_pos h0] at h
    cases h
  rw [if_neg h0] at h
  by_cases h1 : width lead = 1
  · -- a byte below `0x80` stands for itself
    rw [if_pos h1] at h
    have hlt : lead.toNat < 0x80 := by
      rw [width_eq] at h1
      split_ifs at h1 <;> omega
    have henc : String.utf8EncodeChar (Char.ofNat lead.toNat) = [lead] := by
      rw [utf8EncodeChar_ofNat (.inl (by omega)), if_pos (by omega), UInt8.ofNat_toNat]
    exact ⟨_, rest, by rw [henc]; rfl, by rw [henc]; exact h⟩
  rw [if_neg h1] at h
  cases hc : contCount lead (width lead - 1) rest with
  | none =>
    rw [hc] at h
    cases h
  | some k =>
    rw [hc] at h
    dsimp only at h
    by_cases hk : k < width lead - 1
    · rw [if_pos hk] at h
      cases h
    rw [if_neg hk] at h
    have henc := utf8EncodeChar_codePoint rfl (by omega) hc (by omega)
    have hlen : width lead - 1 ≤ rest.length := by
      have := length_of_contCount (n := width lead - 2)
        (by rw [show width lead - 2 + 1 = width lead - 1 by omega]; exact hc) (by omega)
      omega
    refine ⟨Char.ofNat (codePoint (lead :: rest.take (width lead - 1))), rest.drop (width lead - 1),
      ?_, ?_⟩
    · rw [henc, List.cons_append, List.take_append_drop]
    · rw [henc, List.length_cons, List.length_take, Nat.min_eq_left hlen,
        show width lead - 1 + 1 = width lead by omega]
      exact h

theorem decodeFrom_flatMap (cs : List Char) (pos : Nat) (acc : List Char) :
    decodeFrom pos acc (cs.flatMap String.utf8EncodeChar) = .ok (acc.reverse ++ cs) := by
  induction cs generalizing pos acc with
  | nil =>
    rw [List.flatMap_nil, decodeFrom, List.append_nil]
  | cons c cs ih =>
    rw [List.flatMap_cons, decodeFrom_utf8EncodeChar, ih, List.reverse_cons, List.append_assoc,
      List.singleton_append]

theorem eq_flatMap_of_decodeFrom {bytes : List UInt8} {r : List Char}
    (h : decodeFrom pos acc bytes = .ok r) :
    ∃ cs, bytes = cs.flatMap String.utf8EncodeChar ∧ r = acc.reverse ++ cs := by
  obtain ⟨n, hn⟩ : ∃ n, bytes.length = n := ⟨_, rfl⟩
  induction n using Nat.strongRecOn generalizing bytes pos acc r with
  | ind n ih =>
    cases bytes with
    | nil =>
      rw [decodeFrom] at h
      cases h
      exact ⟨[], rfl, by rw [List.append_nil]⟩
    | cons lead rest =>
      -- one character off the front, then the rest, which is shorter
      obtain ⟨c, rest', heq, h'⟩ := decodeFrom_cons_inv h
      have hne := String.utf8EncodeChar_ne_nil (c := c)
      have hlt : rest'.length < n := by
        rw [← hn, heq, List.length_append]
        have := List.length_pos_iff.mpr hne
        omega
      obtain ⟨cs, rfl, rfl⟩ := ih _ hlt h' rfl
      exact ⟨c :: cs, by rw [heq, List.flatMap_cons], by simp⟩

theorem byteArray_toList_loop (bs : ByteArray) (i : Nat) (r : List UInt8) :
    ByteArray.toList.loop bs i r = r.reverse ++ bs.data.toList.drop i := by
  fun_induction ByteArray.toList.loop bs i r with
  | case1 i r h ih =>
    have hi : i < bs.data.toList.length := by simpa using h
    rw [ih, List.drop_eq_getElem_cons hi]
    simp [ByteArray.get!, h]
  | case2 i r h =>
    rw [List.drop_eq_nil_of_le (by simpa using Nat.le_of_not_lt h)]
    simp

theorem byteArray_toList (bs : ByteArray) : bs.toList = bs.data.toList := by
  simp [ByteArray.toList, byteArray_toList_loop]

theorem toUTF8_toList (s : String) : s.toUTF8.toList = s.toList.flatMap String.utf8EncodeChar := by
  conv => lhs; rw [← String.ofList_toList (s := s)]
  rw [String.toUTF8_eq_toByteArray, String.toByteArray_ofList, List.utf8Encode, byteArray_toList,
    List.toList_data_toByteArray]

theorem length_toUTF8_toList (s : String) : s.toUTF8.toList.length = s.utf8ByteSize := by
  rw [byteArray_toList, Array.length_toList, String.toUTF8_eq_toByteArray]
  rfl

theorem decode_toUTF8 (s : String) : decode s.toUTF8.toList = .ok s := by
  rw [decode, toUTF8_toList, decodeFrom_flatMap, List.reverse_nil, List.nil_append]
  simp [Except.map, String.ofList_toList]

theorem toUTF8_of_decode {bytes : List UInt8} {s : String} (h : decode bytes = .ok s) :
    s.toUTF8.toList = bytes := by
  unfold decode at h
  cases hd : decodeFrom 0 [] bytes with
  | error e =>
    rw [hd] at h
    cases h
  | ok cs =>
    rw [hd] at h
    cases h
    obtain ⟨cs', rfl, rfl⟩ := eq_flatMap_of_decodeFrom hd
    rw [toUTF8_toList, String.toList_ofList]

/-- The decoder accepts exactly the UTF-8 forms of strings, each for the string it encodes. -/
theorem decode_eq_ok_iff {bytes : List UInt8} {s : String} :
    decode bytes = .ok s ↔ s.toUTF8.toList = bytes :=
  ⟨toUTF8_of_decode, fun h => h ▸ decode_toUTF8 s⟩

theorem eq_of_toUTF8_toList_eq {s t : String} (h : s.toUTF8.toList = t.toUTF8.toList) : s = t := by
  have hs := decode_toUTF8 s
  rw [h, decode_toUTF8] at hs
  exact (Except.ok.inj hs).symm

/-! ### ASCII text -/

theorem utf8EncodeChar_of_lt {c : Char} (h : c.toNat < 0x80) :
    String.utf8EncodeChar c = [UInt8.ofNat c.toNat] := by
  have henc := utf8EncodeChar_ofNat (n := c.toNat) c.valid
  rw [Char.ofNat_toNat, if_pos (by omega)] at henc
  exact henc

theorem toUTF8_ofList_of_lt {l : List Char} (h : ∀ c ∈ l, c.toNat < 0x80) :
    (String.ofList l).toUTF8.toList = l.map fun c => UInt8.ofNat c.toNat := by
  rw [toUTF8_toList, String.toList_ofList]
  induction l with
  | nil => rfl
  | cons c l ih =>
    rw [List.flatMap_cons, utf8EncodeChar_of_lt (h c (by simp)), ih fun d hd => h d (by simp [hd]),
      List.map_cons, List.singleton_append]

end ChainTx.Utf8
