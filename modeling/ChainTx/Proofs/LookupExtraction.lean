import Mathlib
import ChainTx.Proofs.LegacyCompile
/-!
# Lookup-table extraction

Compiling a version-0 message drains keys into its lookup tables, one table after another: from
each table, first the writable and then the readonly keys that are neither signers nor invoked
programs and that the table lists, each by the index of its first occurrence there. A drained key
leaves the table of keys, so no later table takes it again.
-/

namespace ChainTx

namespace TableLookup

theorem fetch_cons {t : LookupTable} {i : Nat} {k : Address} {is : List UInt8} {ks : List Address}
    (hi : i ≤ 255) (hk : t.addresses[i]? = some k) (h : fetch t is = .ok ks) :
    fetch t (i.toUInt8 :: is) = .ok (k :: ks) := by
  have hn : i.toUInt8.toNat = i := by simp; omega
  simp only [LookupTable.addresses] at hk
  simp [fetch, LookupTable.get, hn, hk, h, bind, Except.bind, pure, Except.pure]

theorem length_of_fetch {t : LookupTable} {is : List UInt8} {ks : List Address}
    (h : fetch t is = .ok ks) : is.length = ks.length := by
  induction is generalizing ks with
  | nil => cases h; rfl
  | cons i is ih =>
    simp only [fetch, bind, Except.bind] at h
    split at h
    · cases h
    split at h
    · cases h
    cases h
    simp [ih (by assumption)]

theorem isEmpty_of_fetch {t : LookupTable} {is : List UInt8} {ks : List Address}
    (h : fetch t is = .ok ks) : is.isEmpty = ks.isEmpty := by
  have hlen := length_of_fetch h
  cases is with
  | nil => cases ks with
    | nil => rfl
    | cons _ _ => cases hlen
  | cons _ _ => cases ks with
    | nil => cases hlen
    | cons _ _ => rfl

theorem nil_iff_of_fetch {t : LookupTable} {is : List UInt8} {ks : List Address}
    (h : fetch t is = .ok ks) : is = [] ↔ ks = [] := by
  rw [← List.isEmpty_iff, ← List.isEmpty_iff, isEmpty_of_fetch h]

end TableLookup

namespace KeyTable

/-- A drain that succeeds takes, in snapshot order, the keys whose roles pass the test and that
the table lists; their indexes fetch them back from the table, and the entries lose them. -/
theorem drain_ok {tbl : LookupTable} {keep : KeyMeta → Bool} {snap entries left : List (Address × KeyMeta)}
    {is : List UInt8} {ks : List Address}
    (h : drain tbl.addresses keep snap entries = (left, .ok (is, ks))) :
    ks = (snap.filter fun e => keep e.2 && tbl.addresses.contains e.1).map Prod.fst ∧
      TableLookup.fetch tbl is = .ok ks ∧
      left = entries.filter fun e => !ks.contains e.1 := by
  induction snap generalizing entries left is ks with
  | nil =>
    simp only [drain, Prod.mk.injEq, Except.ok.injEq] at h
    obtain ⟨rfl, rfl, rfl⟩ := h
    simp [TableLookup.fetch]
  | cons e rest ih =>
    obtain ⟨k, m⟩ := e
    by_cases hkeep : keep m = true
    · cases hidx : tbl.addresses.idxOf? k with
      | none =>
        have hk : k ∉ tbl.addresses := List.idxOf?_eq_none_iff.mp hidx
        simp only [drain, hkeep, Bool.not_true, Bool.false_eq_true, if_false, hidx] at h
        obtain ⟨h₁, h₂, h₃⟩ := ih h
        exact ⟨by simp [h₁, hkeep, hk], h₂, h₃⟩
      | some i =>
        have hi := List.idxOf?_eq_some_iff.mp hidx
        simp only [drain, hkeep, Bool.not_true, Bool.false_eq_true, if_false, hidx] at h
        by_cases hover : i > 255
        · rw [if_pos hover] at h
          cases h
        rw [if_neg hover] at h
        cases hd : drain tbl.addresses keep rest (entries.filter (·.1 != k)) with
        | mk left' r =>
          rw [hd] at h
          cases r with
          | error err => cases h
          | ok r =>
            obtain ⟨is', ks'⟩ := r
            simp only [Except.map, Prod.mk.injEq, Except.ok.injEq] at h
            obtain ⟨rfl, rfl, rfl⟩ := h
            obtain ⟨h₁, h₂, h₃⟩ := ih hd
            obtain ⟨hlt, hget, -⟩ := hi
            have hk : k ∈ tbl.addresses := hget ▸ List.getElem_mem hlt
            refine ⟨by simp [h₁, hkeep, hk], TableLookup.fetch_cons (by omega)
              (by rw [List.getElem?_eq_getElem hlt, hget]) h₂, ?_⟩
            rw [h₃, List.filter_filter]
            exact List.filter_congr fun e _ => by
              rw [List.contains_cons, Bool.not_or, Bool.and_comm]
              rfl
    · rw [drain, if_pos (by simp [hkeep])] at h
      obtain ⟨h₁, h₂, h₃⟩ := ih h
      exact ⟨by simp [h₁, hkeep], h₂, h₃⟩

/-- Entries that list each key once, with the roles `roles` gives it. -/
structure Keyed (roles : Address → KeyMeta) (es : List (Address × KeyMeta)) : Prop where
  nodup : (es.map Prod.fst).Nodup
  roles_eq : ∀ e ∈ es, e.2 = roles e.1

section Extract

variable {roles : Address → KeyMeta}

theorem mem_keys_filter {es : List (Address × KeyMeta)} {ks : List Address} {k : Address} :
    k ∈ (es.filter fun e => !ks.contains e.1).map Prod.fst ↔ k ∈ es.map Prod.fst ∧ k ∉ ks := by
  constructor
  · rintro h
    obtain ⟨e, he, rfl⟩ := List.mem_map.mp h
    obtain ⟨hes, hn⟩ := List.mem_filter.mp he
    exact ⟨List.mem_map_of_mem hes, by simpa using hn⟩
  · rintro ⟨h, hn⟩
    obtain ⟨e, he, rfl⟩ := List.mem_map.mp h
    exact List.mem_map_of_mem (List.mem_filter.mpr ⟨he, by simpa using hn⟩)

theorem filter_not_contains_append (es : List (Address × KeyMeta)) (W R : List Address) :
    (es.filter fun e => !W.contains e.1).filter (fun e => !R.contains e.1) =
      es.filter fun e => !(W ++ R).contains e.1 := by
  rw [List.filter_filter]
  exact List.filter_congr fun e _ => by simp [Bool.and_comm]

theorem Keyed.filter {es : List (Address × KeyMeta)} (h : Keyed roles es)
    (q : Address × KeyMeta → Bool) : Keyed roles (es.filter q) where
  nodup := (List.filter_sublist.map Prod.fst).nodup h.nodup
  roles_eq e he := h.roles_eq e (List.mem_filter.mp he).1

theorem Keyed.drain_ok {es snap left : List (Address × KeyMeta)} {tbl : LookupTable}
    {keep : KeyMeta → Bool} {is : List UInt8} {ks : List Address} (h : Keyed roles es)
    (hp : snap.Perm es) (hd : drain tbl.addresses keep snap es = (left, .ok (is, ks))) :
    (∀ k, k ∈ ks ↔ k ∈ es.map Prod.fst ∧ keep (roles k) = true ∧ k ∈ tbl.addresses) ∧
      ks.Nodup ∧ TableLookup.fetch tbl is = .ok ks ∧ left = es.filter fun e => !ks.contains e.1 := by
  obtain ⟨hks, hfetch, hleft⟩ := KeyTable.drain_ok hd
  refine ⟨fun k => ?_, ?_, hfetch, hleft⟩
  · rw [hks, List.mem_map]
    constructor
    · rintro ⟨e, he, rfl⟩
      obtain ⟨hmem, hsel⟩ := List.mem_filter.mp he
      have hes := hp.mem_iff.mp hmem
      simp only [Bool.and_eq_true, List.contains_iff_mem] at hsel
      exact ⟨List.mem_map_of_mem hes, h.roles_eq e hes ▸ hsel.1, hsel.2⟩
    · rintro ⟨hk, hkeep, hlist⟩
      obtain ⟨e, hes, rfl⟩ := List.mem_map.mp hk
      refine ⟨e, List.mem_filter.mpr ⟨hp.mem_iff.mpr hes, ?_⟩, rfl⟩
      simp [h.roles_eq e hes ▸ hkeep, hlist]
  · rw [hks]
    exact (List.filter_sublist.map Prod.fst).nodup ((hp.map Prod.fst).nodup_iff.mpr h.nodup)

/-- A run of loaded keys: exactly the keys of the table of keys that are neither signers nor
invoked programs, have the writable role `w`, and are listed by some table of `T`. -/
def LoadedRun (roles : Address → KeyMeta) (t : KeyTable) (T : List LookupTable) (w : Bool)
    (run : List Address) : Prop :=
  ∀ k, k ∈ run ↔ k ∈ t.entries.map Prod.fst ∧ (roles k).isSigner = false ∧
    (roles k).isInvoked = false ∧ (roles k).isWritable = w ∧ ∃ tbl ∈ T, k ∈ tbl.addresses

/-- What extracting into a list of tables does to a table of keys: it loads each key at most
once, as writable keys the writable run, as readonly keys the readonly run, and keeps all other
keys. -/
structure Loads (roles : Address → KeyMeta) (t : KeyTable) (T : List LookupTable) (t' : KeyTable)
    (L : LoadedAddresses) : Prop where
  payer_eq : t'.payer = t.payer
  entries_eq : t'.entries = t.entries.filter fun e => !(L.writable ++ L.readonly).contains e.1
  nodup : (L.writable ++ L.readonly).Nodup
  writable : LoadedRun roles t T true L.writable
  readonly : LoadedRun roles t T false L.readonly

theorem extract_ok {t t' : KeyTable} {tbl : LookupTable}
    {r : Option (TableLookup × LoadedAddresses)} (hk : Keyed roles t.entries)
    (h : t.extract tbl = (t', .ok r)) :
    ∃ W R wi ri, Loads roles t [tbl] t' ⟨W, R⟩ ∧ TableLookup.fetch tbl wi = .ok W ∧
      TableLookup.fetch tbl ri = .ok R ∧
      r = if W.isEmpty && R.isEmpty then none else some (⟨tbl.key, wi, ri⟩, ⟨W, R⟩) := by
  cases hd₁ : drain tbl.addresses (fun m => !m.isSigner && !m.isInvoked && m.isWritable) t.ordered
    t.entries with
  | mk left rw =>
  cases rw with
  | error err => simp only [extract, hd₁] at h; cases h
  | ok rw =>
  obtain ⟨wi, W⟩ := rw
  obtain ⟨hW, hWnd, hWf, rfl⟩ := hk.drain_ok (ordered_perm t) hd₁
  have hk₁ : Keyed roles (t.entries.filter fun e => !W.contains e.1) := hk.filter _
  cases hd₂ : drain tbl.addresses (fun m => !m.isSigner && !m.isInvoked && !m.isWritable)
    (⟨t.payer, t.entries.filter fun e => !W.contains e.1⟩ : KeyTable).ordered
    (t.entries.filter fun e => !W.contains e.1) with
  | mk left₂ rr =>
  cases rr with
  | error err => simp only [extract, hd₁, hd₂] at h; cases h
  | ok rr =>
  obtain ⟨ri, R⟩ := rr
  obtain ⟨hR, hRnd, hRf, rfl⟩ := hk₁.drain_ok (ordered_perm _) hd₂
  have hdisj : ∀ k ∈ W, k ∉ R := fun k hkW hkR => by
    have h₁ := ((hW k).mp hkW).2.1
    have h₂ := ((hR k).mp hkR).2.1
    simp only [Bool.and_eq_true, Bool.not_eq_true'] at h₁ h₂
    rw [h₁.2] at h₂
    exact absurd h₂.2 (by decide)
  have hloads : Loads roles t [tbl] ⟨t.payer, (t.entries.filter fun e => !W.contains e.1).filter
      fun e => !R.contains e.1⟩ ⟨W, R⟩ := by
    refine ⟨rfl, filter_not_contains_append _ _ _,
      List.nodup_append.mpr ⟨hWnd, hRnd, fun a ha b hb hab => hdisj a ha (hab ▸ hb)⟩,
      fun k => ?_, fun k => ?_⟩
    · rw [hW k]
      simp [Bool.and_eq_true, and_assoc]
    · rw [hR k, mem_keys_filter]
      constructor
      · rintro ⟨⟨hkt, -⟩, hroles, hl⟩
        simp only [Bool.and_eq_true, Bool.not_eq_true'] at hroles
        exact ⟨hkt, hroles.1.1, hroles.1.2, hroles.2, tbl, List.mem_singleton_self _, hl⟩
      · rintro ⟨hkt, hs, hi, hw, u, hu, hl⟩
        rw [List.mem_singleton] at hu
        subst hu
        refine ⟨⟨hkt, fun hkW => ?_⟩, by simp [hs, hi, hw], hl⟩
        have := ((hW k).mp hkW).2.1
        simp [hw] at this
  simp only [extract, hd₁, hd₂, TableLookup.isEmpty_of_fetch hWf,
    TableLookup.isEmpty_of_fetch hRf] at h
  split_ifs at h with hc
  · obtain ⟨rfl, h⟩ := Prod.mk.inj h
    cases h
    exact ⟨W, R, wi, ri, hloads, hWf, hRf, by rw [if_pos hc]⟩
  · obtain ⟨rfl, h⟩ := Prod.mk.inj h
    cases h
    exact ⟨W, R, wi, ri, hloads, hWf, hRf, by rw [if_neg hc]⟩

variable {t t₁ t' : KeyTable} {T : List LookupTable} {L : LoadedAddresses}

theorem Loads.mem_keys (h : Loads roles t T t' L) {k : Address} :
    k ∈ t'.entries.map Prod.fst ↔ k ∈ t.entries.map Prod.fst ∧ k ∉ L.writable ++ L.readonly := by
  rw [h.entries_eq, mem_keys_filter]

theorem Loads.keyed (h : Loads roles t T t' L) (hk : Keyed roles t.entries) : Keyed roles t'.entries :=
  h.entries_eq ▸ hk.filter _

theorem Loads.loadable (h : Loads roles t T t' L) {k : Address}
    (hk : k ∈ L.writable ++ L.readonly) :
    k ∈ t.entries.map Prod.fst ∧ (roles k).isSigner = false ∧ (roles k).isInvoked = false ∧
      ∃ tbl ∈ T, k ∈ tbl.addresses := by
  rcases List.mem_append.mp hk with hk | hk
  · obtain ⟨h₁, h₂, h₃, -, h₅⟩ := (h.writable k).mp hk
    exact ⟨h₁, h₂, h₃, h₅⟩
  · obtain ⟨h₁, h₂, h₃, -, h₅⟩ := (h.readonly k).mp hk
    exact ⟨h₁, h₂, h₃, h₅⟩

theorem Loads.mem_of_listed (h : Loads roles t T t' L) {k : Address}
    (hk : k ∈ t.entries.map Prod.fst) (hs : (roles k).isSigner = false)
    (hi : (roles k).isInvoked = false) {tbl : LookupTable} (htbl : tbl ∈ T)
    (hl : k ∈ tbl.addresses) : k ∈ L.writable ++ L.readonly := by
  cases hw : (roles k).isWritable
  · exact List.mem_append_right _ ((h.readonly k).mpr ⟨hk, hs, hi, hw, tbl, htbl, hl⟩)
  · exact List.mem_append_left _ ((h.writable k).mpr ⟨hk, hs, hi, hw, tbl, htbl, hl⟩)

theorem Loads.nil (t : KeyTable) : Loads roles t [] t LoadedAddresses.empty where
  payer_eq := rfl
  entries_eq := by simp [LoadedAddresses.empty]
  nodup := List.nodup_nil
  writable k := by simp [LoadedAddresses.empty]
  readonly k := by simp [LoadedAddresses.empty]

theorem LoadedRun.cons {tbl : LookupTable} {rest : List LookupTable} {W R A B : List Address}
    {w : Bool} (h₁ : Loads roles t [tbl] t₁ ⟨W, R⟩) (hA : LoadedRun roles t [tbl] w A)
    (hB : LoadedRun roles t₁ rest w B) : LoadedRun roles t (tbl :: rest) w (A ++ B) := by
  intro k
  rw [List.mem_append, hA k, hB k, h₁.mem_keys]
  constructor
  · rintro (⟨hk, hs, hi, hw, u, hu, hl⟩ | ⟨⟨hk, -⟩, hs, hi, hw, u, hu, hl⟩)
    · rw [List.mem_singleton] at hu
      exact ⟨hk, hs, hi, hw, u, hu ▸ List.mem_cons_self, hl⟩
    · exact ⟨hk, hs, hi, hw, u, List.mem_cons_of_mem _ hu, hl⟩
  · rintro ⟨hk, hs, hi, hw, u, hu, hl⟩
    by_cases hlt : k ∈ tbl.addresses
    · exact .inl ⟨hk, hs, hi, hw, tbl, List.mem_singleton_self _, hlt⟩
    have hnot : k ∉ W ++ R := fun hWR => hlt (by
      obtain ⟨-, -, -, u', hu', hl'⟩ := h₁.loadable hWR
      rw [List.mem_singleton] at hu'
      exact hu' ▸ hl')
    rcases List.mem_cons.mp hu with rfl | hu
    · exact absurd hl hlt
    · exact .inr ⟨⟨hk, hnot⟩, hs, hi, hw, u, hu, hl⟩

theorem Loads.cons {tbl : LookupTable} {rest : List LookupTable} {W R : List Address}
    (h₁ : Loads roles t [tbl] t₁ ⟨W, R⟩) (h₂ : Loads roles t₁ rest t' L) :
    Loads roles t (tbl :: rest) t' ⟨W ++ L.writable, R ++ L.readonly⟩ where
  payer_eq := h₂.payer_eq.trans h₁.payer_eq
  entries_eq := by
    rw [h₂.entries_eq, h₁.entries_eq, filter_not_contains_append]
    exact List.filter_congr fun e _ => by
      simp [Bool.or_left_comm]
  nodup := by
    -- the other tables load only keys the first one left
    have hdisj : ∀ a ∈ W ++ R, ∀ b ∈ L.writable ++ L.readonly, a ≠ b := fun a ha b hb hab =>
      (h₁.mem_keys.mp (h₂.loadable hb).1).2 (hab ▸ ha)
    have hnd : (W ++ R ++ (L.writable ++ L.readonly)).Nodup :=
      List.nodup_append.mpr ⟨h₁.nodup, h₂.nodup, hdisj⟩
    refine (List.perm_iff_count.mpr fun a => ?_).nodup_iff.mp hnd
    simp only [List.count_append]
    omega
  writable := LoadedRun.cons h₁ h₁.writable h₂.writable
  readonly := LoadedRun.cons h₁ h₁.readonly h₂.readonly

theorem Loads.perm (h : Loads roles t T t' L) (hk : Keyed roles t.entries) :
    (t'.entries.map Prod.fst ++ (L.writable ++ L.readonly)).Perm (t.entries.map Prod.fst) := by
  have hnd : (t'.entries.map Prod.fst ++ (L.writable ++ L.readonly)).Nodup :=
    List.nodup_append.mpr ⟨(h.keyed hk).nodup, h.nodup,
      fun a ha b hb hab => (h.mem_keys.mp ha).2 (hab ▸ hb)⟩
  refine (List.perm_ext_iff_of_nodup hnd hk.nodup).mpr fun k => ?_
  rw [List.mem_append, h.mem_keys]
  constructor
  · rintro (⟨hk, -⟩ | hk)
    · exact hk
    · exact (h.loadable hk).1
  · intro hk
    by_cases hL : k ∈ L.writable ++ L.readonly
    · exact .inr hL
    · exact .inl ⟨hk, hL⟩

end Extract

theorem components_perm {t : KeyTable} {hd : MessageHeader} {keys : List Address}
    (h : t.components = .ok (hd, keys)) : keys.Perm (t.entries.map Prod.fst) := by
  have hkeys : keys = ((t.ordered.filter fun e => e.2.isSigner && e.2.isWritable) ++
      (t.ordered.filter fun e => e.2.isSigner && !e.2.isWritable) ++
      (t.ordered.filter fun e => !e.2.isSigner && e.2.isWritable) ++
      (t.ordered.filter fun e => !e.2.isSigner && !e.2.isWritable)).map Prod.fst := by
    simp only [components, bind, Except.bind] at h
    split at h
    · cases h
    split at h
    · cases h
    split at h
    · simp [throw, throwThe, MonadExceptOf.throw] at h
    split at h
    · cases h
    split at h
    · cases h
    split at h
    · cases h
    cases h
    rfl
  obtain ⟨hws, hrs, hwn, hrn⟩ := filter_eq_rolesRun t.ordered
  rw [hkeys, hws, hrs, hwn, hrn]
  exact ((runs_perm t.ordered).trans (ordered_perm t)).map Prod.fst

end KeyTable

namespace V0Message

open KeyTable

variable {roles : Address → KeyMeta} {t t' : KeyTable} {ls : List TableLookup}
  {L : LoadedAddresses}

theorem extractAll_nil (h : extractAll t [] = .ok (t', ls, L)) :
    t' = t ∧ ls = [] ∧ L = LoadedAddresses.empty := by
  simp only [extractAll, Except.ok.injEq, Prod.mk.injEq] at h
  exact ⟨h.1.symm, h.2.1.symm, h.2.2.symm⟩

theorem extractAll_cons {tbl : LookupTable} {rest : List LookupTable} (hk : Keyed roles t.entries)
    (h : extractAll t (tbl :: rest) = .ok (t', ls, L)) :
    ∃ W R wi ri t₁ ls' L', Loads roles t [tbl] t₁ ⟨W, R⟩ ∧ TableLookup.fetch tbl wi = .ok W ∧
      TableLookup.fetch tbl ri = .ok R ∧ extractAll t₁ rest = .ok (t', ls', L') ∧
      L = ⟨W ++ L'.writable, R ++ L'.readonly⟩ ∧
      ls = if W.isEmpty && R.isEmpty then ls' else ⟨tbl.key, wi, ri⟩ :: ls' := by
  cases hx : t.extract tbl with
  | mk t₁ r =>
  cases r with
  | error e => simp only [extractAll, hx] at h; cases h
  | ok r =>
  obtain ⟨W, R, wi, ri, hl, hwf, hrf, rfl⟩ := extract_ok hk hx
  by_cases hc : (W.isEmpty && R.isEmpty) = true
  · -- no key taken: no lookup, and the others load everything
    simp only [Bool.and_eq_true, List.isEmpty_iff] at hc
    obtain ⟨rfl, rfl⟩ := hc
    simp only [extractAll, hx, List.isEmpty_nil, Bool.and_self, if_true] at h
    exact ⟨[], [], wi, ri, t₁, ls, L, hl, hwf, hrf, h, rfl, by simp⟩
  · simp only [extractAll, hx, if_neg hc, bind, Except.bind] at h
    cases hr : extractAll t₁ rest with
    | error e => simp only [hr] at h; cases h
    | ok res =>
      obtain ⟨t'', ls', L'⟩ := res
      simp only [hr, pure, Except.pure, Except.ok.injEq, Prod.mk.injEq] at h
      obtain ⟨rfl, rfl, rfl⟩ := h
      exact ⟨W, R, wi, ri, t₁, ls', L', hl, hwf, hrf, hr, rfl, by rw [if_neg hc]⟩

/-- A whole extraction loads, from the keys it starts with, the writable and the readonly keys
that are neither signers nor invoked and that some table lists, each once. -/
theorem extractAll_loads {T : List LookupTable} (hk : Keyed roles t.entries)
    (h : extractAll t T = .ok (t', ls, L)) : Loads roles t T t' L := by
  induction T generalizing t ls L with
  | nil =>
    obtain ⟨rfl, -, rfl⟩ := extractAll_nil h
    exact Loads.nil _
  | cons tbl rest ih =>
    obtain ⟨W, R, wi, ri, t₁, ls', L', hl, -, -, hrest, rfl, -⟩ := extractAll_cons hk h
    exact hl.cons (ih (hl.keyed hk) hrest)

/-- The lookups an extraction makes: a subsequence of the tables, each with an index, each taking
every key it loads from the first table that lists it, and together naming, for every loaded key,
the first table that lists it; resolved against tables that hold each of these tables under its
key, they give back the loaded keys. -/
structure LooksUp (T : List LookupTable) (ls : List TableLookup) (L : LoadedAddresses) : Prop where
  sublist : (ls.map (·.accountKey)).Sublist (T.map (·.key))
  nonempty : ∀ l ∈ ls, l.writableIndexes ≠ [] ∨ l.readonlyIndexes ≠ []
  first : ∀ l ∈ ls, ∃ tbl ∈ T, tbl.key = l.accountKey ∧ ∃ ws rs,
    TableLookup.fetch tbl l.writableIndexes = .ok ws ∧
    TableLookup.fetch tbl l.readonlyIndexes = .ok rs ∧
    ∀ k ∈ ws ++ rs, k ∈ L.writable ++ L.readonly ∧ T.find? (·.addresses.contains k) = some tbl
  covers : ∀ k ∈ L.writable ++ L.readonly, ∃ tbl ∈ T,
    T.find? (·.addresses.contains k) = some tbl ∧ tbl.key ∈ ls.map (·.accountKey)
  resolves : ∀ T' : List LookupTable, (∀ tbl ∈ T, T'.find? (·.key == tbl.key) = some tbl) →
    resolveLookups T' ls = .ok L

theorem LooksUp.nil : LooksUp [] [] LoadedAddresses.empty where
  sublist := List.Sublist.slnil
  nonempty := by simp
  first := by simp
  covers := by simp [LoadedAddresses.empty]
  resolves _ _ := rfl

theorem LooksUp.cons {tbl : LookupTable} {rest : List LookupTable} {t₁ : KeyTable}
    {W R : List Address} {wi ri : List UInt8} {ls' : List TableLookup} {L' : LoadedAddresses}
    (h₁ : Loads roles t [tbl] t₁ ⟨W, R⟩) (h₂ : Loads roles t₁ rest t' L')
    (hwf : TableLookup.fetch tbl wi = .ok W) (hrf : TableLookup.fetch tbl ri = .ok R)
    (ih : LooksUp rest ls' L') :
    LooksUp (tbl :: rest) (if W.isEmpty && R.isEmpty then ls' else ⟨tbl.key, wi, ri⟩ :: ls')
      ⟨W ++ L'.writable, R ++ L'.readonly⟩ := by
  have hlisted : ∀ k ∈ W ++ R, k ∈ tbl.addresses := fun k hk => by
    obtain ⟨-, -, -, u, hu, hl⟩ := h₁.loadable hk
    rw [List.mem_singleton] at hu
    exact hu ▸ hl
  have hnot : ∀ k ∈ L'.writable ++ L'.readonly, k ∉ tbl.addresses := fun k hk hl => by
    obtain ⟨hk₁, hs, hi, -⟩ := h₂.loadable hk
    obtain ⟨hkt, hkWR⟩ := h₁.mem_keys.mp hk₁
    exact hkWR (h₁.mem_of_listed hkt hs hi (List.mem_singleton_self _) hl)
  have hfindWR : ∀ k ∈ W ++ R,
      (tbl :: rest).find? (·.addresses.contains k) = some tbl := fun k hk =>
    List.find?_cons_of_pos (by simpa using hlisted k hk)
  have hfind' : ∀ k ∈ L'.writable ++ L'.readonly,
      (tbl :: rest).find? (·.addresses.contains k) = rest.find? (·.addresses.contains k) :=
    fun k hk => List.find?_cons_of_neg (by simpa using hnot k hk)
  have hmemL : ∀ k, k ∈ W ++ L'.writable ++ (R ++ L'.readonly) ↔
      k ∈ W ++ R ∨ k ∈ L'.writable ++ L'.readonly := fun k => by
    simp only [List.mem_append]
    tauto
  have hfirst : ∀ l ∈ ls', ∃ u ∈ tbl :: rest, u.key = l.accountKey ∧ ∃ ws rs,
      TableLookup.fetch u l.writableIndexes = .ok ws ∧
      TableLookup.fetch u l.readonlyIndexes = .ok rs ∧
      ∀ k ∈ ws ++ rs, k ∈ W ++ L'.writable ++ (R ++ L'.readonly) ∧
        (tbl :: rest).find? (·.addresses.contains k) = some u := fun l hl => by
    obtain ⟨u, hu, hkey, ws, rs, hw, hr, hks⟩ := ih.first l hl
    exact ⟨u, List.mem_cons_of_mem _ hu, hkey, ws, rs, hw, hr, fun k hk =>
      ⟨(hmemL k).mpr (.inr (hks k hk).1), (hfind' k (hks k hk).1).trans (hks k hk).2⟩⟩
  have hcovers : ∀ k ∈ L'.writable ++ L'.readonly, ∃ u ∈ tbl :: rest,
      (tbl :: rest).find? (·.addresses.contains k) = some u ∧ u.key ∈ ls'.map (·.accountKey) :=
    fun k hk => by
      obtain ⟨u, hu, hf, hkey⟩ := ih.covers k hk
      exact ⟨u, List.mem_cons_of_mem _ hu, (hfind' k hk).trans hf, hkey⟩
  have hresolves : ∀ T' : List LookupTable, (∀ u ∈ tbl :: rest, T'.find? (·.key == u.key) = some u) →
      resolveLookups T' ls' = .ok L' := fun T' hT' =>
    ih.resolves T' fun u hu => hT' u (List.mem_cons_of_mem _ hu)
  by_cases hc : (W.isEmpty && R.isEmpty) = true
  · -- the first table took nothing
    simp only [Bool.and_eq_true, List.isEmpty_iff] at hc
    obtain ⟨rfl, rfl⟩ := hc
    rw [if_pos (by simp)]
    exact ⟨ih.sublist.cons _, ih.nonempty, hfirst, fun k hk => hcovers k (by simpa using hk),
      fun T' hT' => by simpa using hresolves T' hT'⟩
  · -- the first table took a key and makes the first lookup
    rw [if_neg hc]
    refine ⟨ih.sublist.cons_cons _, fun l hl => ?_, fun l hl => ?_, fun k hk => ?_,
      fun T' hT' => ?_⟩
    · rcases List.mem_cons.mp hl with rfl | hl
      · simp only [Bool.and_eq_true, List.isEmpty_iff, ← TableLookup.nil_iff_of_fetch hwf,
          ← TableLookup.nil_iff_of_fetch hrf] at hc
        exact not_and_or.mp hc
      · exact ih.nonempty l hl
    · rcases List.mem_cons.mp hl with rfl | hl
      · exact ⟨tbl, List.mem_cons_self, rfl, W, R, hwf, hrf, fun k hk =>
          ⟨(hmemL k).mpr (.inl hk), hfindWR k hk⟩⟩
      · exact hfirst l hl
    · rcases (hmemL k).mp hk with hk | hk
      · exact ⟨tbl, List.mem_cons_self, hfindWR k hk, List.mem_cons_self⟩
      · obtain ⟨u, hu, hf, hkey⟩ := hcovers k hk
        exact ⟨u, hu, hf, List.mem_cons_of_mem _ hkey⟩
    · have hf := hT' tbl List.mem_cons_self
      have hmore := hresolves T' hT'
      simp [resolveLookups, hf, hwf, hrf, hmore, bind, Except.bind, pure, Except.pure,
        LoadedAddresses.append]

theorem LooksUp.key_mem_iff {T : List LookupTable} {L : LoadedAddresses} (h : LooksUp T ls L)
    (hT : (T.map (·.key)).Nodup) {tbl : LookupTable} (htbl : tbl ∈ T) :
    tbl.key ∈ ls.map (·.accountKey) ↔
      ∃ k ∈ L.writable ++ L.readonly, T.find? (·.addresses.contains k) = some tbl := by
  constructor
  · -- the lookup of a table takes some key, and every key it takes is first listed there
    intro hkey
    obtain ⟨l, hl, hlkey⟩ := List.mem_map.mp hkey
    obtain ⟨u, hu, hukey, ws, rs, hw, hr, hks⟩ := h.first l hl
    obtain rfl : u = tbl := List.inj_on_of_nodup_map hT hu htbl (hukey.trans hlkey)
    have hne : ws ++ rs ≠ [] := by
      rw [Ne, List.append_eq_nil_iff, ← TableLookup.nil_iff_of_fetch hw,
        ← TableLookup.nil_iff_of_fetch hr]
      exact not_and_or.mpr (h.nonempty l hl)
    obtain ⟨k, hk⟩ := List.exists_mem_of_ne_nil _ hne
    exact ⟨k, hks k hk⟩
  · rintro ⟨k, hk, hf⟩
    obtain ⟨u, -, huf, hukey⟩ := h.covers k hk
    rw [hf, Option.some.injEq] at huf
    exact huf ▸ hukey

theorem extractAll_looksUp {T : List LookupTable} (hk : Keyed roles t.entries)
    (h : extractAll t T = .ok (t', ls, L)) : LooksUp T ls L := by
  induction T generalizing t ls L with
  | nil =>
    obtain ⟨rfl, rfl, rfl⟩ := extractAll_nil h
    exact LooksUp.nil
  | cons tbl rest ih =>
    obtain ⟨W, R, wi, ri, t₁, ls', L', hl, hwf, hrf, hrest, rfl, rfl⟩ := extractAll_cons hk h
    exact LooksUp.cons hl (extractAll_loads (hl.keyed hk) hrest) hwf hrf (ih (hl.keyed hk) hrest)

/-- A compiled version-0 message is laid out from what extraction left, and its instructions
are compiled against the static keys followed by the keys extraction loaded. -/
theorem compile_ok {p : Address} {ixs : List Instruction} {bh : Blockhash}
    {T : List LookupTable} {m : V0Message} (h : compile p ixs bh T = .ok m) :
    ∃ t L hd, extractAll (KeyTable.compile ixs p) T = .ok (t, m.lookups, L) ∧
      t.components = .ok (hd, m.staticKeys) ∧
      (AccountKeys.mk m.staticKeys (some L)).compileInstructions ixs = .ok m.instructions := by
  simp only [compile, bind, Except.bind] at h
  cases hx : extractAll (KeyTable.compile ixs p) T with
  | error e => simp only [hx] at h; cases h
  | ok res =>
  obtain ⟨t, ls, L⟩ := res
  simp only [hx] at h
  cases hc : t.components with
  | error e => simp only [hc] at h; cases h
  | ok r =>
  obtain ⟨hd, keys⟩ := r
  simp only [hc] at h
  cases hci : (AccountKeys.mk keys (some L)).compileInstructions ixs with
  | error e => simp only [hci] at h; cases h
  | ok cs =>
  simp only [hci, pure, Except.pure, Except.ok.injEq] at h
  subst h
  exact ⟨t, L, hd, rfl, hc, hci⟩

theorem find?_key {T : List LookupTable} (hT : (T.map (·.key)).Nodup) {tbl : LookupTable}
    (htbl : tbl ∈ T) : T.find? (·.key == tbl.key) = some tbl := by
  have hsome : (T.find? (·.key == tbl.key)).isSome := List.find?_isSome.mpr ⟨tbl, htbl, by simp⟩
  obtain ⟨u, hu⟩ := Option.isSome_iff_exists.mp hsome
  have hkey : u.key = tbl.key := by simpa using List.find?_some hu
  rw [hu, List.inj_on_of_nodup_map hT (List.mem_of_find?_eq_some hu) htbl hkey]

theorem mergedRoles_isInvoked_eq_false {p k : Address} {ixs : List Instruction} :
    (mergedRoles p ixs k).isInvoked = false ↔ ∀ ix ∈ ixs, ix.programId ≠ k := by
  simp [mergedRoles, rolesIn]

end V0Message

open KeyTable V0Message in
/-- Compiling a version-0 message against lookup tables with distinct keys neither loses nor
repeats a key: the static and the loaded keys together list every key the payer and instructions
name once. Only keys that are neither signers nor invoked programs are loaded, as writable keys
exactly those whose merged role is writable, and every such key that a table lists is loaded, so
the payer, the signers and the invoked programs stay static. The message looks up, in the order
of the tables, exactly the tables that supply a loaded key, each lookup naming at least one index
and taking every key from the first table that lists it; resolving its lookups against the tables
gives back the loaded keys its instructions were compiled against. -/
theorem compile_loadedKeys (p : Address) (ixs : List Instruction) (bh : Blockhash)
    (T : List LookupTable) (hT : (T.map (·.key)).Nodup) (m : V0Message)
    (hm : V0Message.compile p ixs bh T = .ok m) :
    ∃ L : LoadedAddresses,
      (∃ t, extractAll (KeyTable.compile ixs p) T = .ok (t, m.lookups, L)) ∧
      (AccountKeys.mk m.staticKeys (some L)).compileInstructions ixs = .ok m.instructions ∧
      (m.staticKeys ++ L.writable ++ L.readonly).Nodup ∧
      (m.staticKeys ++ L.writable ++ L.readonly).Perm (distinctKeys p ixs) ∧
      (∀ k, k ∈ L.writable ++ L.readonly ↔ k ∈ distinctKeys p ixs ∧
        (mergedRoles p ixs k).isSigner = false ∧ (∀ ix ∈ ixs, ix.programId ≠ k) ∧
        ∃ tbl ∈ T, k ∈ tbl.addresses) ∧
      (∀ k ∈ L.writable, (mergedRoles p ixs k).isWritable = true) ∧
      (∀ k ∈ L.readonly, (mergedRoles p ixs k).isWritable = false) ∧
      (∀ k ∈ distinctKeys p ixs, ((mergedRoles p ixs k).isSigner = true ∨
        ∃ ix ∈ ixs, ix.programId = k) → k ∈ m.staticKeys) ∧
      (m.lookups.map (·.accountKey)).Sublist (T.map (·.key)) ∧
      (∀ l ∈ m.lookups, l.writableIndexes ≠ [] ∨ l.readonlyIndexes ≠ []) ∧
      (∀ tbl ∈ T, tbl.key ∈ m.lookups.map (·.accountKey) ↔
        ∃ k ∈ L.writable ++ L.readonly, T.find? (·.addresses.contains k) = some tbl) ∧
      (∀ l ∈ m.lookups, ∃ tbl ∈ T, tbl.key = l.accountKey ∧ ∃ ws rs,
        TableLookup.fetch tbl l.writableIndexes = .ok ws ∧
        TableLookup.fetch tbl l.readonlyIndexes = .ok rs ∧
        ∀ k ∈ ws ++ rs, T.find? (·.addresses.contains k) = some tbl) ∧
      m.resolve T = .ok L := by
  obtain ⟨t, L, hd, hx, hc, hci⟩ := compile_ok hm
  have htab := tabulates_compile ixs p
  have hk : Keyed (mergedRoles p ixs) (KeyTable.compile ixs p).entries := ⟨htab.nodup, htab.roles_eq⟩
  have hl := extractAll_loads hk hx
  have hu := extractAll_looksUp hk hx
  have hnd : (distinctKeys p ixs).Nodup := List.nodup_dedup _
  have hdk : ((KeyTable.compile ixs p).entries.map Prod.fst).Perm (distinctKeys p ixs) :=
    (List.perm_ext_iff_of_nodup htab.nodup hnd).mpr fun k => by
      rw [htab.mem_iff, mem_distinctKeys]
  have hperm : (m.staticKeys ++ L.writable ++ L.readonly).Perm (distinctKeys p ixs) := by
    rw [List.append_assoc]
    exact (((components_perm hc).append_right _).trans (hl.perm hk)).trans hdk
  have hmemL : ∀ k, k ∈ L.writable ++ L.readonly ↔ k ∈ distinctKeys p ixs ∧
      (mergedRoles p ixs k).isSigner = false ∧ (∀ ix ∈ ixs, ix.programId ≠ k) ∧
      ∃ tbl ∈ T, k ∈ tbl.addresses := fun k => by
    rw [← hdk.mem_iff, ← mergedRoles_isInvoked_eq_false]
    constructor
    · exact hl.loadable
    · rintro ⟨hkt, hs, hi, tbl, htbl, hlt⟩
      exact hl.mem_of_listed hkt hs hi htbl hlt
  refine ⟨L, ⟨t, hx⟩, hci, hperm.nodup_iff.mpr hnd, hperm, hmemL,
    fun k hk => ((hl.writable k).mp hk).2.2.2.1, fun k hk => ((hl.readonly k).mp hk).2.2.2.1,
    fun k hk hrole => ?_, hu.sublist, hu.nonempty, fun tbl htbl => hu.key_mem_iff hT htbl,
    fun l hl' => ?_, hu.resolves T fun u hu' => find?_key hT hu'⟩
  · -- a signer or an invoked program is not loaded, so it is static
    have hall := hperm.mem_iff.mpr hk
    rw [List.append_assoc, List.mem_append] at hall
    refine hall.resolve_right fun hL => ?_
    obtain ⟨-, hs, hi, -⟩ := (hmemL k).mp hL
    rcases hrole with hrole | ⟨ix, hix, hpid⟩
    · rw [hs] at hrole; cases hrole
    · exact hi ix hix hpid
  · obtain ⟨u, hu', hukey, ws, rs, hw, hr, hks⟩ := hu.first l hl'
    exact ⟨u, hu', hukey, ws, rs, hw, hr, fun k hk => (hks k hk).2⟩

private def tableAccount : Address := ⟨List.replicate 31 0 ++ [1], rfl⟩

private def accountTable : LookupTable :=
  LookupTable.ofAddresses ⟨List.replicate 31 0 ++ [2], rfl⟩ [tableAccount]

private def payerRunsInstruction : Instruction := ⟨Address.zero, [⟨tableAccount, false, true⟩], []⟩

private def tableLoadingMessage : V0Message :=
  ⟨⟨1, 0, 0⟩, [Address.zero], Blockhash.zero, [⟨0, [1], []⟩], [⟨accountTable.key, [0], []⟩]⟩

open KeyTable V0Message in
/-- A payer that runs the program itself and names one writable account that a table lists: the
account is loaded from the table, and only the payer stays static. -/
theorem compile_loadedKeys_accountTable :
    ([accountTable].map (·.key)).Nodup ∧
    V0Message.compile Address.zero [payerRunsInstruction] Blockhash.zero [accountTable] =
      .ok tableLoadingMessage ∧
    ∃ L : LoadedAddresses,
      (∃ t, extractAll (KeyTable.compile [payerRunsInstruction] Address.zero) [accountTable] =
        .ok (t, tableLoadingMessage.lookups, L)) ∧
      (AccountKeys.mk tableLoadingMessage.staticKeys (some L)).compileInstructions
        [payerRunsInstruction] = .ok tableLoadingMessage.instructions ∧
      (tableLoadingMessage.staticKeys ++ L.writable ++ L.readonly).Nodup ∧
      (tableLoadingMessage.staticKeys ++ L.writable ++ L.readonly).Perm
        (distinctKeys Address.zero [payerRunsInstruction]) ∧
      (∀ k, k ∈ L.writable ++ L.readonly ↔ k ∈ distinctKeys Address.zero [payerRunsInstruction] ∧
        (mergedRoles Address.zero [payerRunsInstruction] k).isSigner = false ∧
        (∀ ix ∈ [payerRunsInstruction], ix.programId ≠ k) ∧
        ∃ tbl ∈ [accountTable], k ∈ tbl.addresses) ∧
      (∀ k ∈ L.writable, (mergedRoles Address.zero [payerRunsInstruction] k).isWritable = true) ∧
      (∀ k ∈ L.readonly, (mergedRoles Address.zero [payerRunsInstruction] k).isWritable = false) ∧
      (∀ k ∈ distinctKeys Address.zero [payerRunsInstruction],
        ((mergedRoles Address.zero [payerRunsInstruction] k).isSigner = true ∨
          ∃ ix ∈ [payerRunsInstruction], ix.programId = k) → k ∈ tableLoadingMessage.staticKeys) ∧
      (tableLoadingMessage.lookups.map (·.accountKey)).Sublist ([accountTable].map (·.key)) ∧
      (∀ l ∈ tableLoadingMessage.lookups, l.writableIndexes ≠ [] ∨ l.readonlyIndexes ≠ []) ∧
      (∀ tbl ∈ [accountTable], tbl.key ∈ tableLoadingMessage.lookups.map (·.accountKey) ↔
        ∃ k ∈ L.writable ++ L.readonly, [accountTable].find? (·.addresses.contains k) = some tbl) ∧
      (∀ l ∈ tableLoadingMessage.lookups, ∃ tbl ∈ [accountTable], tbl.key = l.accountKey ∧ ∃ ws rs,
        TableLookup.fetch tbl l.writableIndexes = .ok ws ∧
        TableLookup.fetch tbl l.readonlyIndexes = .ok rs ∧
        ∀ k ∈ ws ++ rs, [accountTable].find? (·.addresses.contains k) = some tbl) ∧
      tableLoadingMessage.resolve [accountTable] = .ok L := by
  have hT : ([accountTable].map (·.key)).Nodup := List.nodup_singleton _
  have hm : V0Message.compile Address.zero [payerRunsInstruction] Blockhash.zero [accountTable] =
      .ok tableLoadingMessage := by cbv
  exact ⟨hT, hm, compile_loadedKeys _ _ _ _ hT _ hm⟩

end ChainTx
