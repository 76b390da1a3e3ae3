import ChainTx.Key.Derive
/-!
# Finding a program-derived address

A candidate address is the 32-byte SHA-256 digest of the seeds, the program id and the marker;
creating an address first checks the seed count, then each seed's length in order, and accepts the
candidate only off the curve. Finding one appends a bump byte to the seeds and tries 255 down to 1.
-/

namespace ChainTx

namespace Sha256

theorem compress_length (state : List UInt32) (block : List UInt8) :
    (compress state block).length = min state.length 8 := by
  simp [compress, List.length_zipWith]

theorem compressAll_length {state : List UInt32} (h : state.length = 8) (bytes : List UInt8) :
    (compressAll state bytes).length = 8 := by
  induction state, bytes using compressAll.induct with
  | case1 state bytes hlt => rw [compressAll, if_pos hlt]; exact h
  | case2 state bytes hlt ih =>
    rw [compressAll, if_neg hlt]
    exact ih (by rw [compress_length, h]; rfl)

theorem length_flatMap_of_length {α β : Type} {f : α → List β} {k : Nat} (hf : ∀ a, (f a).length = k)
    (l : List α) : (l.flatMap f).length = k * l.length := by
  induction l with
  | nil => simp
  | cons a l ih =>
    rw [List.flatMap_cons, List.length_append, ih, hf, List.length_cons, Nat.mul_succ]
    omega

theorem hash_length (msg : List UInt8) : (hash msg).length = 32 := by
  have hwords : (compressAll initialState (pad msg)).length = 8 := compressAll_length rfl _
  rw [hash, length_flatMap_of_length (k := 4) (fun w => by simp [bigEndian]), hwords]

end Sha256

namespace Address

/-- The candidate address of seeds under a program: their digest, on the curve or not. -/
def candidate (seeds : List (List UInt8)) (program : Address) : Address :=
  ⟨Sha256.hash (seeds.flatten ++ program.bytes ++ derivationMarker), Sha256.hash_length _⟩

variable {seeds : List (List UInt8)} {program : Address}

theorem createProgramAddress_of_many (h : maxSeeds < seeds.length) :
    createProgramAddress seeds program = .error (.maxSeedsExceeded seeds.length maxSeeds) := by
  rw [createProgramAddress, if_pos h]

theorem createProgramAddress_of_long {n : Nat} (h : seeds.length ≤ maxSeeds)
    (hl : firstLongSeed? seeds = some n) :
    createProgramAddress seeds program = .error (.maxSeedLengthExceeded n maxSeedLength) := by
  rw [createProgramAddress, if_neg (by omega), hl]

/-- Seeds that pass both checks give the candidate, refused exactly when it is on the curve. -/
theorem createProgramAddress_of_fit (h : seeds.length ≤ maxSeeds) (hl : firstLongSeed? seeds = none) :
    createProgramAddress seeds program =
      if (candidate seeds program).isOnCurve then .error .invalidSeeds
      else .ok (candidate seeds program) := by
  have hbytes : Address.ofBytes? (Sha256.hash (seeds.flatten ++ program.bytes ++ derivationMarker)) =
      some (candidate seeds program) := by
    rw [ofBytes?, dif_pos (Sha256.hash_length _)]
    rfl
  rw [createProgramAddress, if_neg (by omega), hl]
  simp only [hbytes]

theorem firstLongSeed?_append_bump (bump : Nat) :
    firstLongSeed? (seeds ++ [[bump.toUInt8]]) = firstLongSeed? seeds := by
  simp [firstLongSeed?, List.find?_append, maxSeedLength]

theorem firstLongSeed?_eq_some_iff {n : Nat} :
    firstLongSeed? seeds = some n ↔ ∃ pre s post, seeds = pre ++ s :: post ∧
      (∀ t ∈ pre, t.length ≤ maxSeedLength) ∧ maxSeedLength < s.length ∧ n = s.length := by
  simp only [firstLongSeed?, Option.map_eq_some_iff, List.find?_eq_some_iff_append,
    decide_eq_true_eq, Bool.not_eq_true', decide_eq_false_iff_not, Nat.not_lt]
  constructor
  · rintro ⟨s, ⟨hs, pre, post, rfl, hpre⟩, rfl⟩
    exact ⟨pre, s, post, rfl, hpre, hs, rfl⟩
  · rintro ⟨pre, s, post, rfl, hpre, hs, rfl⟩
    exact ⟨s, ⟨hs, pre, post, rfl, hpre⟩, rfl⟩

theorem firstLongSeed?_eq_none_iff : firstLongSeed? seeds = none ↔ ∀ s ∈ seeds, s.length ≤ maxSeedLength := by
  simp [firstLongSeed?, List.find?_eq_none]

/-! ### The search from a bump down -/

/-- What the search needs of every candidate: accepted, or refused as on the curve. -/
def Decided (seeds : List (List UInt8)) (program : Address) (bump : Nat) : Prop :=
  createProgramAddress (seeds ++ [[bump.toUInt8]]) program = .error .invalidSeeds ∨
    ∃ a, createProgramAddress (seeds ++ [[bump.toUInt8]]) program = .ok a

theorem findWithBump_of_error {e : SolError} (he : e ≠ .invalidSeeds) {n : Nat} (hn : 0 < n)
    (h : ∀ bump : Nat, createProgramAddress (seeds ++ [[bump.toUInt8]]) program = .error e) :
    findWithBump seeds program n = .error e := by
  obtain ⟨m, rfl⟩ : ∃ m, n = m + 1 := ⟨n - 1, by omega⟩
  have hm := h (m + 1)
  rw [findWithBump, hm]
  split
  · rename_i heq
    cases heq
  · rename_i heq
    cases heq
    exact absurd rfl he
  · rename_i heq
    cases heq
    rfl

theorem findWithBump_succ_of_refused {m : Nat}
    (h : createProgramAddress (seeds ++ [[(m + 1).toUInt8]]) program = .error .invalidSeeds) :
    findWithBump seeds program (m + 1) = findWithBump seeds program m := by
  rw [findWithBump, h]

theorem findWithBump_succ_of_ok {m : Nat} {a : Address}
    (h : createProgramAddress (seeds ++ [[(m + 1).toUInt8]]) program = .ok a) :
    findWithBump seeds program (m + 1) = .ok (a, m + 1) := by
  rw [findWithBump, h]

theorem findWithBump_eq_ok_iff (hd : ∀ bump, Decided seeds program bump) {n : Nat} {a : Address}
    {b : Nat} :
    findWithBump seeds program n = .ok (a, b) ↔
      0 < b ∧ b ≤ n ∧ createProgramAddress (seeds ++ [[b.toUInt8]]) program = .ok a ∧
        ∀ b', b < b' → b' ≤ n → createProgramAddress (seeds ++ [[b'.toUInt8]]) program = .error .invalidSeeds := by
  induction n with
  | zero =>
    constructor
    · intro h; cases h
    · rintro ⟨hb, hbn, -⟩; omega
  | succ m ih =>
    rcases hd (m + 1) with hcurve | ⟨a', hok⟩
    · -- the top candidate is on the curve: the search goes on below it
      rw [findWithBump_succ_of_refused hcurve, ih]
      constructor
      · rintro ⟨hb, hbm, hc, hmax⟩
        refine ⟨hb, by omega, hc, fun b' hb' hb'n => ?_⟩
        rcases Nat.lt_or_ge b' (m + 1) with hlt | hge
        · exact hmax b' hb' (by omega)
        · rwa [show b' = m + 1 by omega]
      · rintro ⟨hb, hbn, hc, hmax⟩
        have hbm : b ≤ m := by
          rcases Nat.lt_or_ge b (m + 1) with hlt | hge
          · omega
          · rw [show b = m + 1 by omega, hcurve] at hc; cases hc
        exact ⟨hb, hbm, hc, fun b' hb' hb'm => hmax b' hb' (by omega)⟩
    · -- the top candidate is accepted: the search stops there
      rw [findWithBump_succ_of_ok hok]
      constructor
      · intro h
        cases h
        exact ⟨by omega, Nat.le_refl _, hok, fun b' hb' hb'n => by omega⟩
      · rintro ⟨hb, hbn, hc, hmax⟩
        rcases Nat.lt_or_ge b (m + 1) with hlt | hge
        · rw [hmax (m + 1) hlt (Nat.le_refl _)] at hok; cases hok
        · rw [show b = m + 1 by omega, hok] at hc
          cases hc
          rw [show b = m + 1 by omega]

theorem findWithBump_eq_noViableBump_iff (hd : ∀ bump, Decided seeds program bump) {n : Nat} :
    findWithBump seeds program n = .error .noViableBump ↔
      ∀ b, 0 < b → b ≤ n → createProgramAddress (seeds ++ [[b.toUInt8]]) program = .error .invalidSeeds := by
  induction n with
  | zero =>
    exact ⟨fun _ b hb hbn => by omega, fun _ => rfl⟩
  | succ m ih =>
    rcases hd (m + 1) with hcurve | ⟨a', hok⟩
    · rw [findWithBump_succ_of_refused hcurve, ih]
      constructor
      · intro h b hb hbn
        rcases Nat.lt_or_ge b (m + 1) with hlt | hge
        · exact h b hb (by omega)
        · rwa [show b = m + 1 by omega]
      · exact fun h b hb hbm => h b hb (by omega)
    · rw [findWithBump_succ_of_ok hok]
      constructor
      · intro h; cases h
      · intro h
        rw [h (m + 1) (by omega) (Nat.le_refl _)] at hok
        cases hok

theorem findWithBump_ok_or_noViableBump (hd : ∀ bump, Decided seeds program bump) (n : Nat) :
    (∃ a b, findWithBump seeds program n = .ok (a, b)) ∨
      findWithBump seeds program n = .error .noViableBump := by
  induction n with
  | zero => exact .inr rfl
  | succ m ih =>
    rcases hd (m + 1) with hcurve | ⟨a', hok⟩
    · rw [findWithBump_succ_of_refused hcurve]
      exact ih
    · rw [findWithBump_succ_of_ok hok]
      exact .inl ⟨a', m + 1, rfl⟩

/-! ### The three regimes of a seed list -/

/-- Every candidate of a seed list fails with the same error, found before any hashing. -/
def FailsBefore (seeds : List (List UInt8)) (program : Address) (e : SolError) : Prop :=
  e ≠ .invalidSeeds ∧ ∀ bump : Nat, createProgramAddress (seeds ++ [[bump.toUInt8]]) program = .error e

theorem failsBefore_of_many (h : maxSeeds ≤ seeds.length) :
    FailsBefore seeds program (.maxSeedsExceeded (seeds.length + 1) maxSeeds) := by
  refine ⟨(fun he => by cases he), fun bump => ?_⟩
  rw [createProgramAddress_of_many (by simp; omega), List.length_append, List.length_singleton]

theorem failsBefore_of_long {n : Nat} (h : seeds.length < maxSeeds) (hl : firstLongSeed? seeds = some n) :
    FailsBefore seeds program (.maxSeedLengthExceeded n maxSeedLength) :=
  ⟨(fun he => by cases he), fun bump => createProgramAddress_of_long (by simp; omega)
    (by rw [firstLongSeed?_append_bump, hl])⟩

/-- Seeds that pass both checks: each candidate is accepted exactly when it is off the curve. -/
theorem create_bump_of_fit (h : seeds.length < maxSeeds) (hl : firstLongSeed? seeds = none)
    (bump : Nat) :
    createProgramAddress (seeds ++ [[bump.toUInt8]]) program =
      if (candidate (seeds ++ [[bump.toUInt8]]) program).isOnCurve then .error .invalidSeeds
      else .ok (candidate (seeds ++ [[bump.toUInt8]]) program) :=
  createProgramAddress_of_fit (by simp; omega) (by rw [firstLongSeed?_append_bump, hl])

theorem decided_of_fit (program : Address) (h : seeds.length < maxSeeds)
    (hl : firstLongSeed? seeds = none) (bump : Nat) : Decided seeds program bump := by
  unfold Decided
  rw [create_bump_of_fit h hl]
  split
  · exact .inl rfl
  · exact .inr ⟨_, rfl⟩

/-- A seed list either fails before hashing, the same way for every bump, or passes both checks. -/
theorem regimes (seeds : List (List UInt8)) (program : Address) :
    (maxSeeds ≤ seeds.length ∧
      FailsBefore seeds program (.maxSeedsExceeded (seeds.length + 1) maxSeeds)) ∨
    (∃ n, seeds.length < maxSeeds ∧ firstLongSeed? seeds = some n ∧
      FailsBefore seeds program (.maxSeedLengthExceeded n maxSeedLength)) ∨
    (seeds.length < maxSeeds ∧ firstLongSeed? seeds = none) := by
  by_cases hm : maxSeeds ≤ seeds.length
  · exact .inl ⟨hm, failsBefore_of_many hm⟩
  · cases hl : firstLongSeed? seeds with
    | some n => exact .inr (.inl ⟨n, by omega, rfl, failsBefore_of_long (by omega) hl⟩)
    | none => exact .inr (.inr ⟨by omega, rfl⟩)

theorem findProgramAddress_of_failsBefore {e : SolError} (h : FailsBefore seeds program e) :
    findProgramAddress seeds program = .error e :=
  findWithBump_of_error h.1 (by decide) h.2

theorem not_ok_of_failsBefore {e : SolError} (h : FailsBefore seeds program e) (bump : Nat)
    (a : Address) : createProgramAddress (seeds ++ [[bump.toUInt8]]) program ≠ .ok a := by
  rw [h.2 bump]
  exact fun he => by cases he

theorem failsBefore_or_fit (seeds : List (List UInt8)) (program : Address) :
    (∃ e, FailsBefore seeds program e) ∨ (seeds.length < maxSeeds ∧ firstLongSeed? seeds = none) := by
  rcases regimes seeds program with ⟨-, hf⟩ | ⟨n, -, -, hf⟩ | hfit
  · exact .inl ⟨_, hf⟩
  · exact .inl ⟨_, hf⟩
  · exact .inr hfit

theorem Decided.refused_iff {bump : Nat} (hd : Decided seeds program bump) :
    createProgramAddress (seeds ++ [[bump.toUInt8]]) program = .error .invalidSeeds ↔
      ∀ a, createProgramAddress (seeds ++ [[bump.toUInt8]]) program ≠ .ok a := by
  constructor
  · intro h a
    rw [h]
    exact fun he => by cases he
  · intro h
    rcases hd with hc | ⟨a, ha⟩
    · exact hc
    · exact absurd ha (h a)

/-! ### What the search returns -/

theorem findProgramAddress_eq_ok_iff {a : Address} {b : Nat} :
    findProgramAddress seeds program = .ok (a, b) ↔
      0 < b ∧ b ≤ 255 ∧ createProgramAddress (seeds ++ [[b.toUInt8]]) program = .ok a ∧
        ∀ b', b < b' → b' ≤ 255 →
          ∀ a', createProgramAddress (seeds ++ [[b'.toUInt8]]) program ≠ .ok a' := by
  rcases failsBefore_or_fit seeds program with ⟨e, hf⟩ | ⟨h, hl⟩
  · -- every candidate fails alike, and so does the search
    rw [findProgramAddress_of_failsBefore hf]
    constructor
    · intro he
      cases he
    · rintro ⟨-, -, hc, -⟩
      exact absurd hc (not_ok_of_failsBefore hf b a)
  · have hd := decided_of_fit program h hl
    rw [findProgramAddress, findWithBump_eq_ok_iff hd]
    constructor
    · rintro ⟨hb, hbn, hc, hmax⟩
      exact ⟨hb, hbn, hc, fun b' hb' hb'n => ((hd b').refused_iff).mp (hmax b' hb' hb'n)⟩
    · rintro ⟨hb, hbn, hc, hmax⟩
      exact ⟨hb, hbn, hc, fun b' hb' hb'n => ((hd b').refused_iff).mpr (hmax b' hb' hb'n)⟩

theorem exists_findProgramAddress_ok_iff :
    (∃ a b, findProgramAddress seeds program = .ok (a, b)) ↔
      ∃ b a, 0 < b ∧ b ≤ 255 ∧ createProgramAddress (seeds ++ [[b.toUInt8]]) program = .ok a := by
  constructor
  · rintro ⟨a, b, hab⟩
    obtain ⟨hb, hbn, hc, -⟩ := findProgramAddress_eq_ok_iff.mp hab
    exact ⟨b, a, hb, hbn, hc⟩
  · rintro ⟨b, a, hb, hbn, hc⟩
    rcases failsBefore_or_fit seeds program with ⟨e, hf⟩ | ⟨h, hl⟩
    · exact absurd hc (not_ok_of_failsBefore hf b a)
    · -- an accepted candidate rules out `noViableBump`
      have hd := decided_of_fit program h hl
      rcases findWithBump_ok_or_noViableBump hd 255 with hok | hnone
      · exact hok
      · have hrefused := (findWithBump_eq_noViableBump_iff hd).mp hnone b hb hbn
        rw [hrefused] at hc
        cases hc

theorem findProgramAddress_ok_candidate {a : Address} {b : Nat}
    (h : findProgramAddress seeds program = .ok (a, b)) :
    a = candidate (seeds ++ [[b.toUInt8]]) program ∧ a.isOnCurve = false := by
  have hc := (findProgramAddress_eq_ok_iff.mp h).2.2.1
  rcases failsBefore_or_fit seeds program with ⟨e, hf⟩ | ⟨hn, hl⟩
  · exact absurd hc (not_ok_of_failsBefore hf b a)
  · rw [create_bump_of_fit hn hl] at hc
    split at hc
    · cases hc
    · rename_i hcurve
      cases hc
      exact ⟨rfl, Bool.eq_false_iff.mpr hcurve⟩

theorem findProgramAddress_eq_maxSeedsExceeded_iff :
    findProgramAddress seeds program = .error (.maxSeedsExceeded (seeds.length + 1) maxSeeds) ↔
      maxSeeds ≤ seeds.length := by
  rcases regimes seeds program with ⟨hm, hf⟩ | ⟨n, hm, -, hf⟩ | ⟨hm, hl⟩
  · exact ⟨fun _ => hm, fun _ => findProgramAddress_of_failsBefore hf⟩
  · rw [findProgramAddress_of_failsBefore hf]
    exact ⟨(fun he => by cases he), fun h => by omega⟩
  · -- the search ends in an address or in `noViableBump`
    refine ⟨fun he => ?_, fun h => by omega⟩
    rcases findWithBump_ok_or_noViableBump (decided_of_fit program hm hl) 255 with
      ⟨a, b, hok⟩ | hnone
    · rw [findProgramAddress, hok] at he
      cases he
    · rw [findProgramAddress, hnone] at he
      cases he

theorem findProgramAddress_eq_maxSeedLengthExceeded_iff {n : Nat} :
    findProgramAddress seeds program = .error (.maxSeedLengthExceeded n maxSeedLength) ↔
      seeds.length < maxSeeds ∧ ∃ pre s post, seeds = pre ++ s :: post ∧
        (∀ t ∈ pre, t.length ≤ maxSeedLength) ∧ maxSeedLength < s.length ∧ n = s.length := by
  rw [← firstLongSeed?_eq_some_iff]
  rcases regimes seeds program with ⟨hm, hf⟩ | ⟨n', hm, hl, hf⟩ | ⟨hm, hl⟩
  · rw [findProgramAddress_of_failsBefore hf]
    exact ⟨(fun he => by cases he), fun h => by omega⟩
  · rw [findProgramAddress_of_failsBefore hf, hl]
    constructor
    · intro he
      cases he
      exact ⟨hm, rfl⟩
    · rintro ⟨-, he⟩
      cases he
      rfl
  · rw [hl]
    constructor
    · intro he
      rcases findWithBump_ok_or_noViableBump (decided_of_fit program hm hl) 255 with
        ⟨a, b, hok⟩ | hnone
      · rw [findProgramAddress, hok] at he
        cases he
      · rw [findProgramAddress, hnone] at he
        cases he
    · rintro ⟨-, he⟩
      cases he

theorem findProgramAddress_eq_noViableBump_iff (h : seeds.length < maxSeeds)
    (hl : ∀ s ∈ seeds, s.length ≤ maxSeedLength) :
    findProgramAddress seeds program = .error .noViableBump ↔
      ∀ b, 0 < b → b ≤ 255 → (candidate (seeds ++ [[b.toUInt8]]) program).isOnCurve = true := by
  have hnone := firstLongSeed?_eq_none_iff.mpr hl
  rw [findProgramAddress, findWithBump_eq_noViableBump_iff (decided_of_fit program h hnone)]
  have hcurve : ∀ b : Nat, createProgramAddress (seeds ++ [[b.toUInt8]]) program = .error .invalidSeeds ↔
      (candidate (seeds ++ [[b.toUInt8]]) program).isOnCurve = true := by
    intro b
    rw [create_bump_of_fit h hnone]
    split
    · rename_i hc
      exact ⟨fun _ => hc, fun _ => rfl⟩
    · rename_i hc
      exact ⟨(fun he => by cases he), fun hc' => absurd hc' hc⟩
  simp only [hcurve]

/-- Finding a program-derived address. It succeeds exactly when some bump from 1 to 255 gives an
address, and then with the highest such bump and its address, which is off the curve. It fails on
more than 15 seeds (the bump makes one more), else on the first seed longer than 32 bytes, else
with `noViableBump` exactly when every candidate from 1 to 255 is on the curve. -/
theorem findProgramAddress_highest_bump (seeds : List (List UInt8)) (program : Address) :
    (∀ a b, findProgramAddress seeds program = .ok (a, b) ↔
      0 < b ∧ b ≤ 255 ∧ createProgramAddress (seeds ++ [[b.toUInt8]]) program = .ok a ∧
        ∀ b', b < b' → b' ≤ 255 →
          ∀ a', createProgramAddress (seeds ++ [[b'.toUInt8]]) program ≠ .ok a') ∧
    ((∃ a b, findProgramAddress seeds program = .ok (a, b)) ↔
      ∃ b a, 0 < b ∧ b ≤ 255 ∧ createProgramAddress (seeds ++ [[b.toUInt8]]) program = .ok a) ∧
    (∀ a b, findProgramAddress seeds program = .ok (a, b) →
      a = candidate (seeds ++ [[b.toUInt8]]) program ∧ a.isOnCurve = false) ∧
    (findProgramAddress seeds program = .error (.maxSeedsExceeded (seeds.length + 1) maxSeeds) ↔
      maxSeeds ≤ seeds.length) ∧
    (∀ n, findProgramAddress seeds program = .error (.maxSeedLengthExceeded n maxSeedLength) ↔
      seeds.length < maxSeeds ∧ ∃ pre s post, seeds = pre ++ s :: post ∧
        (∀ t ∈ pre, t.length ≤ maxSeedLength) ∧ maxSeedLength < s.length ∧ n = s.length) ∧
    (seeds.length < maxSeeds → (∀ s ∈ seeds, s.length ≤ maxSeedLength) →
      (findProgramAddress seeds program = .error .noViableBump ↔
        ∀ b, 0 < b → b ≤ 255 → (candidate (seeds ++ [[b.toUInt8]]) program).isOnCurve = true)) :=
  ⟨fun _ _ => findProgramAddress_eq_ok_iff, exists_findProgramAddress_ok_iff,
    fun _ _ => findProgramAddress_ok_candidate, findProgramAddress_eq_maxSeedsExceeded_iff,
    fun _ => findProgramAddress_eq_maxSeedLengthExceeded_iff,
    findProgramAddress_eq_noViableBump_iff⟩

/-- One short seed: the search is decided by the curve alone. -/
theorem findProgramAddress_highest_bump_shortSeed :
    [[1, 2, 3]].length < maxSeeds ∧ (∀ s ∈ [[(1 : UInt8), 2, 3]], s.length ≤ maxSeedLength) ∧
      (findProgramAddress [[1, 2, 3]] zero = .error .noViableBump ↔
        ∀ b, 0 < b → b ≤ 255 → (candidate ([[1, 2, 3]] ++ [[b.toUInt8]]) zero).isOnCurve = true) :=
  ⟨by decide, by decide,
    (findProgramAddress_highest_bump [[1, 2, 3]] zero).2.2.2.2.2 (by decide) (by decide)⟩

end Address

end ChainTx
