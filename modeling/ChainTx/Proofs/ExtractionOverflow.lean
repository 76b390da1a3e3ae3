import ChainTx.Proofs.Decompile
/-!
# A lookup extraction that overflows

Extracting a lookup table drains keys from the table of keys one at a time: the writable keys
that are neither signers nor invoked programs and that the table lists, in message order, then
the readonly ones. Each drained key leaves the table of keys at once, under the index of its first
occurrence in the table. A key whose first index does not fit in a byte stops the extraction
with an overflow, and the keys drained before it stay drained.
-/

namespace ChainTx

namespace KeyTable

/-- Whether the first index of a key among a table's addresses fits in one byte. -/
def indexFits (addrs : List Address) (k : Address) : Bool := decide (addrs.idxOf k < 256)

/-- The keys a drain reaches, in snapshot order: those whose roles pass `keep` and that the
table lists. -/
def reached (addrs : List Address) (keep : KeyMeta → Bool) (snap : List (Address × KeyMeta)) :
    List Address :=
  (snap.filter fun e => keep e.2 && addrs.contains e.1).map Prod.fst

/-- The keys extracting a table reaches, in the order it drains them: the writable keys that are
neither signers nor invoked programs and that the table lists, then the readonly ones, each run
in message order. -/
def drainOrder (t : KeyTable) (tbl : LookupTable) : List Address :=
  reached tbl.addresses (fun m => !m.isSigner && !m.isInvoked && m.isWritable) t.ordered ++
    reached tbl.addresses (fun m => !m.isSigner && !m.isInvoked && !m.isWritable) t.ordered

section Drain

variable {addrs : List Address} {keep : KeyMeta → Bool}

theorem reached_cons_of_skip {k : Address} {m : KeyMeta} {rest : List (Address × KeyMeta)}
    (h : (keep m && addrs.contains k) = false) :
    reached addrs keep ((k, m) :: rest) = reached addrs keep rest := by
  have h' : ¬ (keep m && addrs.contains k) = true := by rw [h]; decide
  exact congrArg (List.map Prod.fst) (List.filter_cons_of_neg h')

theorem reached_cons_of_take {k : Address} {m : KeyMeta} {rest : List (Address × KeyMeta)}
    (h : keep m = true) (hk : k ∈ addrs) :
    reached addrs keep ((k, m) :: rest) = k :: reached addrs keep rest := by
  have h' : (keep m && addrs.contains k) = true := by simp [h, hk]
  exact congrArg (List.map Prod.fst) (List.filter_cons_of_pos h')

theorem drain_cons_of_skip {k : Address} {m : KeyMeta} {rest entries : List (Address × KeyMeta)}
    (h : (keep m && addrs.contains k) = false) :
    drain addrs keep ((k, m) :: rest) entries = drain addrs keep rest entries := by
  by_cases hkeep : keep m = true
  · have hk : k ∉ addrs := by simpa [hkeep] using h
    simp only [drain, hkeep, Bool.not_true, Bool.false_eq_true, if_false,
      List.idxOf?_eq_none_iff.mpr hk]
  · rw [drain, if_pos (by simpa using hkeep)]

theorem drain_cons_of_overflow {k : Address} {m : KeyMeta}
    {rest entries : List (Address × KeyMeta)}
    (hkeep : keep m = true) (hk : k ∈ addrs) (hi : addrs.idxOf k > 255) :
    drain addrs keep ((k, m) :: rest) entries =
      (entries, .error (.lookupTableIndexOverflow (addrs.idxOf k))) := by
  simp only [drain, hkeep, Bool.not_true, Bool.false_eq_true, if_false, idxOf?_eq_some_idxOf hk,
    if_pos hi]

theorem drain_cons_of_fits {k : Address} {m : KeyMeta} {rest entries : List (Address × KeyMeta)}
    (hkeep : keep m = true) (hk : k ∈ addrs) (hi : ¬ addrs.idxOf k > 255) :
    drain addrs keep ((k, m) :: rest) entries =
      ((drain addrs keep rest (entries.filter (·.1 != k))).1,
        (drain addrs keep rest (entries.filter (·.1 != k))).2.map
          fun p => ((addrs.idxOf k).toUInt8 :: p.1, k :: p.2)) := by
  simp only [drain, hkeep, Bool.not_true, Bool.false_eq_true, if_false, idxOf?_eq_some_idxOf hk,
    if_neg hi]

theorem filter_not_contains_cons (es : List (Address × KeyMeta)) (k : Address)
    (ks : List Address) :
    (es.filter (·.1 != k)).filter (fun e => !ks.contains e.1) =
      es.filter fun e => !(k :: ks).contains e.1 := by
  rw [List.filter_filter]
  exact List.filter_congr fun e _ => by
    rw [List.contains_cons, Bool.not_or, Bool.and_comm]
    rfl

theorem drain_of_find?_none (snap : List (Address × KeyMeta)) :
    ∀ entries, (reached addrs keep snap).find? (fun k => !indexFits addrs k) = none →
      drain addrs keep snap entries =
        (entries.filter fun e => !(reached addrs keep snap).contains e.1,
          .ok ((reached addrs keep snap).map fun k => (addrs.idxOf k).toUInt8,
            reached addrs keep snap)) := by
  induction snap with
  | nil =>
    intro entries _
    simp [drain, reached]
  | cons e rest ih =>
    obtain ⟨k, m⟩ := e
    intro entries hfind
    cases hskip : (keep m && addrs.contains k) with
    | false =>
      rw [reached_cons_of_skip hskip] at hfind ⊢
      rw [drain_cons_of_skip hskip]
      exact ih entries hfind
    | true =>
      obtain ⟨hkeep, hk⟩ : keep m = true ∧ k ∈ addrs := by simpa using hskip
      rw [reached_cons_of_take hkeep hk] at hfind ⊢
      rw [List.find?_eq_none] at hfind
      have hfits := hfind k List.mem_cons_self
      have hle : ¬ addrs.idxOf k > 255 := by simp [indexFits] at hfits; omega
      have hrest : (reached addrs keep rest).find? (fun k => !indexFits addrs k) = none :=
        List.find?_eq_none.mpr fun x hx => hfind x (List.mem_cons_of_mem k hx)
      rw [drain_cons_of_fits hkeep hk hle, ih _ hrest, filter_not_contains_cons]
      rfl

theorem drain_of_find?_some (snap : List (Address × KeyMeta)) :
    ∀ entries k, (reached addrs keep snap).find? (fun k => !indexFits addrs k) = some k →
      drain addrs keep snap entries =
        (entries.filter fun e =>
            !((reached addrs keep snap).takeWhile (indexFits addrs)).contains e.1,
          .error (.lookupTableIndexOverflow (addrs.idxOf k))) := by
  induction snap with
  | nil =>
    intro entries k hfind
    cases hfind
  | cons e rest ih =>
    obtain ⟨k', m⟩ := e
    intro entries k hfind
    cases hskip : (keep m && addrs.contains k') with
    | false =>
      rw [reached_cons_of_skip hskip] at hfind ⊢
      rw [drain_cons_of_skip hskip]
      exact ih entries k hfind
    | true =>
      obtain ⟨hkeep, hk⟩ : keep m = true ∧ k' ∈ addrs := by simpa using hskip
      rw [reached_cons_of_take hkeep hk] at hfind ⊢
      by_cases hover : addrs.idxOf k' > 255
      · -- `k'` is the key that overflows: nothing was drained before it
        have hnot : indexFits addrs k' = false := by simp [indexFits]; omega
        rw [List.find?_cons_of_pos (by simp [hnot]), Option.some.injEq] at hfind
        subst hfind
        rw [drain_cons_of_overflow hkeep hk hover, List.takeWhile_cons_of_neg (by simp [hnot])]
        simp
      · have hfits : indexFits addrs k' = true := by simp [indexFits]; omega
        rw [List.find?_cons_of_neg (by simp [hfits])] at hfind
        rw [drain_cons_of_fits hkeep hk hover, ih _ k hfind, List.takeWhile_cons_of_pos hfits,
          filter_not_contains_cons]
        rfl

end Drain

section Order

/-- Two keys that rank at most each other are the same key: the payer's rank is the only unmarked
one, and distinct keys have distinct base58 texts. -/
theorem eq_of_rankLe_of_rankLe {p a b : Address} (hab : rankLe (rank p a) (rank p b) = true)
    (hba : rankLe (rank p b) (rank p a) = true) : a = b := by
  simp only [rank] at hab hba
  cases ha : (a != p) <;> cases hb : (b != p) <;> simp [rankLe, ha, hb] at hab hba <;>
    exact Address.toBase58_inj.mp (le_antisymm hab hba)

theorem ordered_filter {t : KeyTable} (hnd : (t.entries.map Prod.fst).Nodup)
    (q : Address × KeyMeta → Bool) :
    (⟨t.payer, t.entries.filter q⟩ : KeyTable).ordered = t.ordered.filter q := by
  have hperm : (⟨t.payer, t.entries.filter q⟩ : KeyTable).ordered.Perm (t.ordered.filter q) :=
    (ordered_perm _).trans ((ordered_perm t).filter q).symm
  refine hperm.eq_of_pairwise (fun a b ha hb hab hba => ?_) (pairwise_ordered _)
    ((pairwise_ordered t).filter q)
  have ha' : a ∈ t.entries := (List.mem_filter.mp ((ordered_perm _).mem_iff.mp ha)).1
  have hb' : b ∈ t.entries := (ordered_perm t).mem_iff.mp (List.mem_filter.mp hb).1
  exact List.inj_on_of_nodup_map hnd ha' hb' (eq_of_rankLe_of_rankLe hab hba)

/-- Draining the writable keys leaves the readonly keys that a drain reaches, in the same order:
a key has one set of roles, so no readonly key was drained. -/
theorem reached_readonly_after_writable {t : KeyTable} (hnd : (t.entries.map Prod.fst).Nodup)
    (addrs : List Address) :
    reached addrs (fun m => !m.isSigner && !m.isInvoked && !m.isWritable)
        (⟨t.payer, t.entries.filter fun e => !(reached addrs
          (fun m => !m.isSigner && !m.isInvoked && m.isWritable) t.ordered).contains e.1⟩ :
          KeyTable).ordered =
      reached addrs (fun m => !m.isSigner && !m.isInvoked && !m.isWritable) t.ordered := by
  have hnd' : (t.ordered.map Prod.fst).Nodup := ((ordered_perm t).map Prod.fst).nodup_iff.mpr hnd
  rw [ordered_filter hnd]
  generalize hW : reached addrs (fun m => !m.isSigner && !m.isInvoked && m.isWritable) t.ordered = W
  unfold reached
  rw [List.filter_filter]
  congr 1
  refine List.filter_congr fun e he => ?_
  by_cases hp : (!e.2.isSigner && !e.2.isInvoked && !e.2.isWritable && addrs.contains e.1) = true
  · -- a readonly key the table lists is not among the writable keys drained
    have hnot : e.1 ∉ W := by
      rw [← hW]
      intro hmem
      obtain ⟨e', he', hkey⟩ := List.mem_map.mp hmem
      obtain ⟨he'o, hw⟩ := List.mem_filter.mp he'
      obtain rfl : e' = e := List.inj_on_of_nodup_map hnd' he'o he hkey
      simp only [Bool.and_eq_true, Bool.not_eq_true'] at hp hw
      rw [hp.1.2] at hw
      exact Bool.false_ne_true hw.1.2
    simp [hnot]
  · simp only [Bool.not_eq_true] at hp
    rw [hp, Bool.false_and]

theorem reached_ordered_of_eq_singleton {t : KeyTable} {addrs : List Address}
    {keep : KeyMeta → Bool} {k : Address} (h : reached addrs keep t.entries = [k]) :
    reached addrs keep t.ordered = [k] :=
  List.perm_singleton.mp (h ▸ ((ordered_perm t).filter _).map _)

end Order

theorem takeWhile_append_of_find? {α : Type} {p : α → Bool} {l₁ l₂ : List α} {x : α}
    (h : l₁.find? (fun a => !p a) = some x) : (l₁ ++ l₂).takeWhile p = l₁.takeWhile p := by
  induction l₁ with
  | nil => cases h
  | cons a l ih =>
    by_cases ha : p a = true
    · rw [List.find?_cons_of_neg (by simp [ha])] at h
      rw [List.cons_append, List.takeWhile_cons_of_pos ha, List.takeWhile_cons_of_pos ha, ih h]
    · rw [List.cons_append, List.takeWhile_cons_of_neg ha, List.takeWhile_cons_of_neg ha]

section Extract

variable {t : KeyTable} {tbl : LookupTable}

/-- An extraction that reaches a key whose index does not fit fails with an overflow naming that
index, and leaves the table less the keys it reached before that key. -/
theorem extract_of_find?_some {k : Address} (hnd : (t.entries.map Prod.fst).Nodup)
    (h : (t.drainOrder tbl).find? (fun k => !indexFits tbl.addresses k) = some k) :
    t.extract tbl = (⟨t.payer, t.entries.filter fun e =>
        !((t.drainOrder tbl).takeWhile (indexFits tbl.addresses)).contains e.1⟩,
      .error (.lookupTableIndexOverflow (tbl.addresses.idxOf k))) := by
  rw [drainOrder] at h ⊢
  rw [List.find?_append] at h
  cases hW : (reached tbl.addresses (fun m => !m.isSigner && !m.isInvoked && m.isWritable)
      t.ordered).find? (fun k => !indexFits tbl.addresses k) with
  | some k' =>
    rw [hW, Option.some_or, Option.some.injEq] at h
    subst h
    rw [takeWhile_append_of_find? hW]
    simp only [extract, drain_of_find?_some t.ordered t.entries k' hW]
  | none =>
    rw [hW, Option.none_or] at h
    rw [← reached_readonly_after_writable hnd tbl.addresses] at h
    simp only [extract, drain_of_find?_none t.ordered t.entries hW]
    rw [drain_of_find?_some _ _ k h, reached_readonly_after_writable hnd tbl.addresses]
    have hfits : ∀ x ∈ reached tbl.addresses
        (fun m => !m.isSigner && !m.isInvoked && m.isWritable) t.ordered,
        indexFits tbl.addresses x = true := fun x hx => by
      simpa using List.find?_eq_none.mp hW x hx
    rw [List.takeWhile_append_of_pos hfits, filter_not_contains_append]

theorem extract_of_find?_none (hnd : (t.entries.map Prod.fst).Nodup)
    (h : (t.drainOrder tbl).find? (fun k => !indexFits tbl.addresses k) = none) :
    (t.extract tbl).1 =
        ⟨t.payer, t.entries.filter fun e => !(t.drainOrder tbl).contains e.1⟩ ∧
      ∃ r, (t.extract tbl).2 = .ok r := by
  rw [drainOrder, List.find?_append, Option.or_eq_none_iff] at h
  obtain ⟨hW, hR⟩ := h
  rw [← reached_readonly_after_writable hnd tbl.addresses] at hR
  rw [drainOrder, extract]
  simp only [drain_of_find?_none t.ordered t.entries hW]
  simp only [drain_of_find?_none _ _ hR]
  rw [reached_readonly_after_writable hnd tbl.addresses, filter_not_contains_append]
  split <;> exact ⟨rfl, _, rfl⟩

theorem extract_fst (hnd : (t.entries.map Prod.fst).Nodup) :
    (t.extract tbl).1 = ⟨t.payer, t.entries.filter fun e =>
      !((t.drainOrder tbl).takeWhile (indexFits tbl.addresses)).contains e.1⟩ := by
  cases h : (t.drainOrder tbl).find? (fun k => !indexFits tbl.addresses k) with
  | some k => rw [extract_of_find?_some hnd h]
  | none =>
    have hall : (t.drainOrder tbl).takeWhile (indexFits tbl.addresses) = t.drainOrder tbl :=
      List.takeWhile_eq_self_iff.mpr fun x hx => by simpa using List.find?_eq_none.mp h x hx
    rw [hall, (extract_of_find?_none hnd h).1]

theorem mem_keys_of_mem_drainOrder {x : Address} (hx : x ∈ t.drainOrder tbl) :
    x ∈ t.entries.map Prod.fst := by
  have hx' : x ∈ t.ordered.map Prod.fst := by
    rcases List.mem_append.mp hx with hx | hx <;>
    · obtain ⟨e, he, rfl⟩ := List.mem_map.mp hx
      exact List.mem_map_of_mem (List.mem_filter.mp he).1
  exact ((ordered_perm t).map Prod.fst).mem_iff.mp hx'

theorem filter_not_contains_eq_self_iff {ks : List Address}
    (hks : ∀ x ∈ ks, x ∈ t.entries.map Prod.fst) :
    t.entries.filter (fun e => !ks.contains e.1) = t.entries ↔ ks = [] := by
  rw [List.filter_eq_self]
  constructor
  · intro hkeep
    cases ks with
    | nil => rfl
    | cons x _ =>
      obtain ⟨e, he, rfl⟩ := List.mem_map.mp (hks x List.mem_cons_self)
      simpa using hkeep e he
  · rintro rfl e _
    rfl

end Extract

/-- A failed extraction is an index overflow at the first key, in drain order, whose first index
among the table's addresses does not fit in a byte. The keys drained before it are gone from the
table of keys, the others keep their roles, and the table of keys is left intact exactly when no
key was drained before it. -/
theorem failed_extraction_removes_drained_keys (t : KeyTable) (tbl : LookupTable)
    (hnd : (t.entries.map Prod.fst).Nodup) (err : SolError) (h : (t.extract tbl).2 = .error err) :
    ∃ k, (t.drainOrder tbl).find? (fun k => !indexFits tbl.addresses k) = some k ∧
      err = .lookupTableIndexOverflow (tbl.addresses.idxOf k) ∧
      (t.extract tbl).1 = ⟨t.payer, t.entries.filter fun e =>
        !((t.drainOrder tbl).takeWhile (indexFits tbl.addresses)).contains e.1⟩ ∧
      ((t.extract tbl).1.entries = t.entries ↔
        (t.drainOrder tbl).takeWhile (indexFits tbl.addresses) = []) := by
  cases hf : (t.drainOrder tbl).find? (fun k => !indexFits tbl.addresses k) with
  | none =>
    obtain ⟨r, hr⟩ := (extract_of_find?_none hnd hf).2
    rw [hr] at h
    cases h
  | some k =>
    rw [extract_of_find?_some hnd hf] at h
    refine ⟨k, rfl, (Except.error.inj h).symm, extract_fst hnd, ?_⟩
    rw [extract_fst hnd]
    exact filter_not_contains_eq_self_iff fun x hx =>
      mem_keys_of_mem_drainOrder ((List.takeWhile_sublist _).subset hx)

end KeyTable

/-- The address whose 32 bytes all equal b. -/
private def uniformKey (b : UInt8) : Address := ⟨List.replicate 32 b, List.length_replicate⟩

/-- A payer, a program, a writable and a readonly account. -/
private def overflowKeys : KeyTable :=
  KeyTable.compile
    [⟨uniformKey 0xFF, [⟨uniformKey 0x22, false, true⟩, ⟨uniformKey 0x33, false, false⟩], []⟩]
    (uniformKey 1)

/-- A table that lists the writable account at index 0 and the readonly one only at index 256. -/
private def overflowTable : LookupTable :=
  LookupTable.ofAddresses (uniformKey 0x99)
    (List.replicate 256 (uniformKey 0x22) ++ [uniformKey 0x33])

private theorem overflowKeys_entries :
    overflowKeys.entries =
      [(uniformKey 1, ⟨true, true, false⟩), (uniformKey 0xFF, ⟨false, false, true⟩),
        (uniformKey 0x22, ⟨false, true, false⟩), (uniformKey 0x33, ⟨false, false, false⟩)] := by
  decide

private theorem overflowKeys_nodup : (overflowKeys.entries.map Prod.fst).Nodup := by
  rw [overflowKeys_entries]
  decide

private theorem overflowKeys_drainOrder :
    overflowKeys.drainOrder overflowTable = [uniformKey 0x22, uniformKey 0x33] := by
  -- each drain reaches one key, so the message order of the snapshot does not matter
  have hW : KeyTable.reached overflowTable.addresses
      (fun m => !m.isSigner && !m.isInvoked && m.isWritable) overflowKeys.entries =
        [uniformKey 0x22] := by
    rw [overflowKeys_entries]
    decide
  have hR : KeyTable.reached overflowTable.addresses
      (fun m => !m.isSigner && !m.isInvoked && !m.isWritable) overflowKeys.entries =
        [uniformKey 0x33] := by
    rw [overflowKeys_entries]
    decide
  rw [KeyTable.drainOrder, KeyTable.reached_ordered_of_eq_singleton hW,
    KeyTable.reached_ordered_of_eq_singleton hR, List.singleton_append]

private theorem overflowKeys_extract :
    overflowKeys.extract overflowTable = (⟨uniformKey 1, [(uniformKey 1, ⟨true, true, false⟩),
      (uniformKey 0xFF, ⟨false, false, true⟩), (uniformKey 0x33, ⟨false, false, false⟩)]⟩,
      .error (.lookupTableIndexOverflow 256)) := by
  have hfind : (overflowKeys.drainOrder overflowTable).find?
      (fun k => !KeyTable.indexFits overflowTable.addresses k) = some (uniformKey 0x33) := by
    rw [overflowKeys_drainOrder]
    decide +kernel
  have hdrained : [uniformKey 0x22, uniformKey 0x33].takeWhile
      (KeyTable.indexFits overflowTable.addresses) = [uniformKey 0x22] := by
    decide +kernel
  have hidx : overflowTable.addresses.idxOf (uniformKey 0x33) = 256 := by
    decide +kernel
  rw [KeyTable.extract_of_find?_some overflowKeys_nodup hfind, overflowKeys_drainOrder, hdrained,
    hidx, overflowKeys_entries]
  rfl

/-- An extraction that drains one key before it overflows. -/
theorem failed_extraction_removes_drained_keys_writableFirst :
    (overflowKeys.entries.map Prod.fst).Nodup ∧
      (overflowKeys.extract overflowTable).2 = .error (.lookupTableIndexOverflow 256) ∧
      ∃ k, (overflowKeys.drainOrder overflowTable).find?
          (fun k => !KeyTable.indexFits overflowTable.addresses k) = some k ∧
        SolError.lookupTableIndexOverflow 256 =
          .lookupTableIndexOverflow (overflowTable.addresses.idxOf k) ∧
        (overflowKeys.extract overflowTable).1 = ⟨overflowKeys.payer, overflowKeys.entries.filter
          fun e => !((overflowKeys.drainOrder overflowTable).takeWhile
            (KeyTable.indexFits overflowTable.addresses)).contains e.1⟩ ∧
        ((overflowKeys.extract overflowTable).1.entries = overflowKeys.entries ↔
          (overflowKeys.drainOrder overflowTable).takeWhile
            (KeyTable.indexFits overflowTable.addresses) = []) := by
  have herr : (overflowKeys.extract overflowTable).2 = .error (.lookupTableIndexOverflow 256) := by
    rw [overflowKeys_extract]
  exact ⟨overflowKeys_nodup, herr, KeyTable.failed_extraction_removes_drained_keys _ _
    overflowKeys_nodup _ herr⟩

/-- An extraction that overflows having drained a writable account: the account is gone from the
table of keys. -/
theorem failed_extraction_drops_drained_key :
    (overflowKeys.extract overflowTable).2 = .error (.lookupTableIndexOverflow 256) ∧
      (overflowKeys.extract overflowTable).1.entries ≠ overflowKeys.entries := by
  rw [overflowKeys_extract, overflowKeys_entries]
  exact ⟨rfl, by decide⟩

end ChainTx
