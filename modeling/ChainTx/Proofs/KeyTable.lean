import ChainTx.Proofs.Base58Text
import ChainTx.KeyTable
/-!
# What compiling a key table gathers

A fee payer and instructions name a set of keys: the payer, every program and every account. Each
named key gets the roles its uses give it, a role held if any use holds it, and the payer is a
writable signer. `KeyTable.compile` builds its entries one `upsert` at a time; `Tabulates` is the
invariant that the entries list each named key once with those roles, kept by every `upsert` and
so by the whole fold. Ordering the entries then puts the payer first, its rank being the only one
that is not marked, and the other keys ascending by base58 text.
-/

namespace ChainTx

/-- Roles joined: a role held on either side is held. -/
def KeyMeta.join (a b : KeyMeta) : KeyMeta :=
  ⟨a.isSigner || b.isSigner, a.isWritable || b.isWritable, a.isInvoked || b.isInvoked⟩

theorem KeyMeta.ext_roles {a b : KeyMeta} (hs : a.isSigner = b.isSigner) (hw : a.isWritable = b.isWritable)
    (hi : a.isInvoked = b.isInvoked) : a = b := by
  cases a; cases b; simp_all

@[simp] theorem KeyMeta.join_isSigner (a b : KeyMeta) : (a.join b).isSigner = (a.isSigner || b.isSigner) :=
  rfl

@[simp] theorem KeyMeta.join_isWritable (a b : KeyMeta) :
    (a.join b).isWritable = (a.isWritable || b.isWritable) := rfl

@[simp] theorem KeyMeta.join_isInvoked (a b : KeyMeta) :
    (a.join b).isInvoked = (a.isInvoked || b.isInvoked) := rfl

namespace KeyTable

/-- The roles instructions give a key: signer or writable if an account of that key is, invoked if
the key is a program. -/
def rolesIn (ixs : List Instruction) (k : Address) : KeyMeta :=
  ⟨ixs.any (·.accounts.any fun a => a.pubkey == k && a.isSigner),
    ixs.any (·.accounts.any fun a => a.pubkey == k && a.isWritable),
    ixs.any (·.programId == k)⟩

/-- Whether instructions name a key, as a program or as an account. -/
def namedIn (ixs : List Instruction) (k : Address) : Bool :=
  ixs.any fun ix => ix.programId == k || ix.accounts.any (·.pubkey == k)

/-- Whether a key belongs to the table of a fee payer and instructions. -/
def mentioned (p : Address) (ixs : List Instruction) (k : Address) : Bool := k == p || namedIn ixs k

/-- The roles of a key in the table of a fee payer and instructions: the payer signs and is
written, and every other role comes from the instructions. -/
def mergedRoles (p : Address) (ixs : List Instruction) (k : Address) : KeyMeta :=
  ⟨k == p || (rolesIn ixs k).isSigner, k == p || (rolesIn ixs k).isWritable, (rolesIn ixs k).isInvoked⟩

/-- Entries that list each key once, exactly the keys `named` holds, each with the roles `roles`
gives it; a key that is not named has no roles. -/
structure Tabulates (es : List (Address × KeyMeta)) (named : Address → Bool)
    (roles : Address → KeyMeta) : Prop where
  nodup : (es.map Prod.fst).Nodup
  mem_iff : ∀ k, k ∈ es.map Prod.fst ↔ named k = true
  roles_eq : ∀ e ∈ es, e.2 = roles e.1
  unnamed : ∀ k, named k = false → roles k = KeyMeta.none

theorem keys_upsert (k : Address) (f : KeyMeta → KeyMeta) (es : List (Address × KeyMeta)) :
    (upsert k f es).map Prod.fst =
      if k ∈ es.map Prod.fst then es.map Prod.fst else es.map Prod.fst ++ [k] := by
  induction es with
  | nil => simp [upsert]
  | cons e es ih =>
    obtain ⟨k', m⟩ := e
    by_cases hk : k' = k
    · simp [upsert, hk]
    · simp only [upsert, hk, if_false, List.map_cons, ih]
      by_cases hm : k ∈ es.map Prod.fst <;> simp [hm, Ne.symm hk]

private theorem roles_upsert {k : Address} {f : KeyMeta → KeyMeta} {roles : Address → KeyMeta}
    {es : List (Address × KeyMeta)} (hnd : (es.map Prod.fst).Nodup) (hr : ∀ e ∈ es, e.2 = roles e.1)
    (hk : k ∉ es.map Prod.fst → roles k = KeyMeta.none) :
    ∀ e ∈ upsert k f es, e.2 = Function.update roles k (f (roles k)) e.1 := by
  induction es with
  | nil =>
    intro e he
    simp only [upsert, List.mem_singleton] at he
    subst he
    simp [hk (by simp)]
  | cons e0 es ih =>
    obtain ⟨k', m⟩ := e0
    have hk' : k' ∉ es.map Prod.fst := (List.nodup_cons.mp (by simpa using hnd)).1
    have hnd' : (es.map Prod.fst).Nodup := (List.nodup_cons.mp (by simpa using hnd)).2
    have hm : m = roles k' := hr (k', m) List.mem_cons_self
    intro e he
    by_cases hkk : k' = k
    · subst hkk
      simp only [upsert, if_true, List.mem_cons] at he
      rcases he with rfl | he
      · simp [hm]
      · have hne : e.1 ≠ k' := fun h => hk' (h ▸ List.mem_map_of_mem he)
        simp [Function.update_of_ne hne, hr e (by simp [he])]
    · simp only [upsert, hkk, if_false, List.mem_cons] at he
      rcases he with rfl | he
      · simp [Function.update_of_ne hkk, hm]
      · exact ih hnd' (fun e he => hr e (by simp [he]))
          (fun h => hk (by simp [Ne.symm hkk, h])) e he

theorem Tabulates.upsert {es : List (Address × KeyMeta)} {named : Address → Bool}
    {roles : Address → KeyMeta} (h : Tabulates es named roles) (k : Address) (f : KeyMeta → KeyMeta) :
    Tabulates (KeyTable.upsert k f es) (fun k' => named k' || k == k')
      (Function.update roles k (f (roles k))) where
  nodup := by
    rw [keys_upsert]
    split
    · exact h.nodup
    · next hk =>
      exact List.nodup_append.mpr ⟨h.nodup, by simp,
        fun a ha b hb hab => hk (by simp_all)⟩
  mem_iff k' := by
    rw [keys_upsert]
    by_cases hk : k = k'
    · subst hk
      split <;> simp_all [h.mem_iff]
    · have hk' : k' ≠ k := Ne.symm hk
      split <;> simp_all [h.mem_iff]
  roles_eq := roles_upsert h.nodup h.roles_eq fun hk =>
    h.unnamed k (Bool.eq_false_iff.mpr fun hn => hk ((h.mem_iff k).mpr hn))
  unnamed k' hk' := by
    have hne : k ≠ k' := by simpa using (Bool.or_eq_false_iff.mp hk').2
    rw [Function.update_of_ne (Ne.symm hne)]
    exact h.unnamed k' (Bool.or_eq_false_iff.mp hk').1

section Build

variable {es : List (Address × KeyMeta)} {named : Address → Bool} {roles : Address → KeyMeta}

@[simp] theorem KeyMeta.none_isSigner : KeyMeta.none.isSigner = false := rfl
@[simp] theorem KeyMeta.none_isWritable : KeyMeta.none.isWritable = false := rfl
@[simp] theorem KeyMeta.none_isInvoked : KeyMeta.none.isInvoked = false := rfl

theorem Tabulates.congr {named' : Address → Bool} {roles' : Address → KeyMeta}
    (h : Tabulates es named roles) (hn : ∀ k, named k = named' k) (hr : ∀ k, roles k = roles' k) :
    Tabulates es named' roles' := by
  obtain rfl : named = named' := funext hn
  obtain rfl : roles = roles' := funext hr
  exact h

theorem Tabulates.accounts (h : Tabulates es named roles) (accs : List AccountMeta) :
    Tabulates (accs.foldl (fun es a =>
        KeyTable.upsert a.pubkey (fun m => ⟨m.isSigner || a.isSigner, m.isWritable || a.isWritable, m.isInvoked⟩)
          es) es)
      (fun k => named k || accs.any (·.pubkey == k))
      (fun k => (roles k).join ⟨accs.any (fun a => a.pubkey == k && a.isSigner),
        accs.any (fun a => a.pubkey == k && a.isWritable), false⟩) := by
  induction accs generalizing es named roles with
  | nil => exact h.congr (by simp) (fun k => KeyMeta.ext_roles (by simp) (by simp) (by simp))
  | cons a accs ih =>
    rw [List.foldl_cons]
    refine (ih (h.upsert a.pubkey _)).congr (fun k => ?_) (fun k => ?_)
    · by_cases hk : k = a.pubkey <;> simp [hk, Bool.or_assoc]
    · by_cases hk : k = a.pubkey
      · subst hk
        apply KeyMeta.ext_roles <;> simp [Bool.or_assoc]
      · have hb : (a.pubkey == k) = false := beq_eq_false_iff_ne.mpr (Ne.symm hk)
        apply KeyMeta.ext_roles <;> simp [Function.update_of_ne hk, hb]

theorem Tabulates.addInstruction (h : Tabulates es named roles) (ix : Instruction) :
    Tabulates (KeyTable.addInstruction es ix) (fun k => named k || namedIn [ix] k)
      (fun k => (roles k).join (rolesIn [ix] k)) := by
  refine ((h.upsert ix.programId fun m => { m with isInvoked := true }).accounts ix.accounts).congr
    (fun k => ?_) (fun k => ?_)
  · by_cases hk : k = ix.programId <;> simp [namedIn, hk, Bool.or_assoc]
  · by_cases hk : k = ix.programId
    · subst hk
      apply KeyMeta.ext_roles <;> simp [rolesIn]
    · have hb : (ix.programId == k) = false := beq_eq_false_iff_ne.mpr (Ne.symm hk)
      apply KeyMeta.ext_roles <;> simp [rolesIn, Function.update_of_ne hk, hb]

theorem Tabulates.instructions (h : Tabulates es named roles) (ixs : List Instruction) :
    Tabulates (ixs.foldl KeyTable.addInstruction es) (fun k => named k || namedIn ixs k)
      (fun k => (roles k).join (rolesIn ixs k)) := by
  induction ixs generalizing es named roles with
  | nil => exact h.congr (by simp [namedIn]) (fun k => KeyMeta.ext_roles (by simp [rolesIn])
      (by simp [rolesIn]) (by simp [rolesIn]))
  | cons ix ixs ih =>
    rw [List.foldl_cons]
    refine (ih (h.addInstruction ix)).congr (fun k => ?_) (fun k => ?_)
    · simp [namedIn, Bool.or_assoc]
    · apply KeyMeta.ext_roles <;> simp [rolesIn, Bool.or_assoc]

theorem tabulates_compile (ixs : List Instruction) (p : Address) :
    Tabulates (compile ixs p).entries (mentioned p ixs) (mergedRoles p ixs) := by
  have h0 : Tabulates [] (fun _ => false) (fun _ => KeyMeta.none) :=
    ⟨by simp, by simp, by simp, fun _ _ => rfl⟩
  refine ((h0.upsert p fun m => { m with isSigner := true, isWritable := true }).instructions ixs).congr
    (fun k => ?_) (fun k => ?_)
  · simp [mentioned, BEq.comm]
  · by_cases hk : k = p
    · subst hk
      apply KeyMeta.ext_roles <;> simp [mergedRoles]
    · apply KeyMeta.ext_roles <;> simp [mergedRoles, hk]

end Build

section Order

theorem rankLe_trans (a b c : Bool × String) (hab : rankLe a b = true) (hbc : rankLe b c = true) :
    rankLe a c = true := by
  obtain ⟨x, s⟩ := a
  obtain ⟨y, t⟩ := b
  obtain ⟨z, u⟩ := c
  cases x <;> cases y <;> cases z <;> simp_all [rankLe]
  all_goals exact le_trans hab hbc

theorem rankLe_total (a b : Bool × String) : (rankLe a b || rankLe b a) = true := by
  obtain ⟨x, s⟩ := a
  obtain ⟨y, t⟩ := b
  cases x <;> cases y <;> simp [rankLe, le_total]

theorem ordered_perm (t : KeyTable) : t.ordered.Perm t.entries := by
  rw [ordered]
  refine ((List.mergeSort_perm _ _).map _).trans ?_
  rw [List.map_map]
  conv_rhs => rw [← List.map_id t.entries]
  refine .of_eq (List.map_congr_left fun e _ => ?_)
  cases e; rfl

theorem pairwise_ordered (t : KeyTable) :
    t.ordered.Pairwise fun a b => rankLe (rank t.payer a.1) (rank t.payer b.1) = true := by
  rw [ordered, List.pairwise_map]
  refine (List.pairwise_mergeSort (fun a b c => rankLe_trans a.1 b.1 c.1)
    (fun a b => rankLe_total a.1 b.1) _).imp_of_mem fun ha hb hab => ?_
  obtain ⟨⟨k, m⟩, -, rfl⟩ := List.mem_map.mp (List.mem_mergeSort.mp ha)
  obtain ⟨⟨k', m'⟩, -, rfl⟩ := List.mem_map.mp (List.mem_mergeSort.mp hb)
  exact hab

variable {named : Address → Bool} {roles : Address → KeyMeta}

theorem Tabulates.perm {es es' : List (Address × KeyMeta)} (h : Tabulates es named roles)
    (hp : es'.Perm es) : Tabulates es' named roles where
  nodup := (hp.map Prod.fst).nodup_iff.mpr h.nodup
  mem_iff k := ((hp.map Prod.fst).mem_iff).trans (h.mem_iff k)
  roles_eq e he := h.roles_eq e (hp.mem_iff.mp he)
  unnamed := h.unnamed

/-- The entries after the fee payer in message order: each key once, exactly the named keys other
than the payer, with their roles, ascending by base58 text. -/
structure SortedRest (p : Address) (named : Address → Bool) (roles : Address → KeyMeta)
    (rest : List (Address × KeyMeta)) : Prop where
  nodup : (rest.map Prod.fst).Nodup
  mem_iff : ∀ k, k ∈ rest.map Prod.fst ↔ named k = true ∧ k ≠ p
  roles_eq : ∀ e ∈ rest, e.2 = roles e.1
  sorted : rest.Pairwise fun a b => a.1.toBase58 < b.1.toBase58

/-- A table whose named keys include the fee payer lists the payer first, with its roles, and then
the other keys ascending by base58 text. -/
theorem ordered_eq_cons {t : KeyTable} (h : Tabulates t.entries named roles) (hp : named t.payer = true) :
    ∃ rest, t.ordered = (t.payer, roles t.payer) :: rest ∧ SortedRest t.payer named roles rest := by
  have ho := h.perm (ordered_perm t)
  have hpair := pairwise_ordered t
  obtain ⟨x, rest, hxr⟩ : ∃ x rest, t.ordered = x :: rest := by
    cases hl : t.ordered with
    | nil => have := (ho.mem_iff t.payer).mpr hp; simp [hl] at this
    | cons x rest => exact ⟨x, rest, rfl⟩
  rw [hxr] at ho hpair
  have hnd : x.1 ∉ rest.map Prod.fst ∧ (rest.map Prod.fst).Nodup := List.nodup_cons.mp ho.nodup
  have hx : x.1 = t.payer := by
    by_contra hx
    obtain ⟨e, he, hep⟩ : ∃ e ∈ rest, e.1 = t.payer := by
      have := (ho.mem_iff t.payer).mpr hp
      simp only [List.map_cons, List.mem_cons, List.mem_map] at this
      rcases this with h' | h'
      · exact absurd h'.symm hx
      · exact h'
    have := (List.pairwise_cons.mp hpair).1 e he
    simp [rank, bne_iff_ne.mpr hx, hep, rankLe] at this
  have hrest : ∀ e ∈ rest, e.1 ≠ t.payer := fun e he hep =>
    hnd.1 (hx ▸ hep ▸ List.mem_map_of_mem he)
  refine ⟨rest, by rw [hxr, ← hx, ← ho.roles_eq x List.mem_cons_self], ⟨hnd.2, fun k => ?_, fun e he =>
    ho.roles_eq e (by simp [he]), ?_⟩⟩
  · have := ho.mem_iff k
    simp only [List.map_cons, List.mem_cons] at this
    constructor
    · intro hk
      obtain ⟨e, he, rfl⟩ := List.mem_map.mp hk
      exact ⟨this.mp (.inr hk), hrest e he⟩
    · rintro ⟨hk, hkp⟩
      rcases this.mpr hk with h' | h'
      · exact absurd (h'.trans hx) hkp
      · exact h'
  · have hne : rest.Pairwise fun a b => a.1 ≠ b.1 := List.pairwise_map.mp hnd.2
    refine ((List.pairwise_cons.mp hpair).2.and hne).imp_of_mem fun {a b} ha hb hab => ?_
    have hle : a.1.toBase58 ≤ b.1.toBase58 := by
      simpa [rank, rankLe, bne_iff_ne.mpr (hrest a ha), bne_iff_ne.mpr (hrest b hb)] using hab.1
    exact lt_of_le_of_ne hle (mt Address.toBase58_inj.mp hab.2)

end Order

section Layout

/-- The entries with the given signer and writable roles, in order: one of the four runs of a
message's account keys. -/
def rolesRun (s w : Bool) (es : List (Address × KeyMeta)) : List (Address × KeyMeta) :=
  es.filter fun e => e.2.isSigner == s && e.2.isWritable == w

theorem filter_eq_rolesRun (es : List (Address × KeyMeta)) :
    es.filter (fun e => e.2.isSigner && e.2.isWritable) = rolesRun true true es ∧
    es.filter (fun e => e.2.isSigner && !e.2.isWritable) = rolesRun true false es ∧
    es.filter (fun e => !e.2.isSigner && e.2.isWritable) = rolesRun false true es ∧
    es.filter (fun e => !e.2.isSigner && !e.2.isWritable) = rolesRun false false es := by
  refine ⟨?_, ?_, ?_, ?_⟩ <;>
    exact List.filter_congr fun e _ => by cases e.2.isSigner <;> cases e.2.isWritable <;> rfl

theorem countByte_of_lt {n : Nat} (h : n < 256) : countByte n = .ok n.toUInt8 := by
  simp [countByte, h]

/-- Laying out a table whose ordered entries start with a writable signer fee payer: past 256 keys
or 255 signers it fails, else the header counts the runs and the keys follow run by run. -/
theorem components_eq {t : KeyTable} {m : KeyMeta} {rest : List (Address × KeyMeta)}
    (hord : t.ordered = (t.payer, m) :: rest) (hm : m.isSigner = true ∧ m.isWritable = true) :
    t.components =
      if 256 < rest.length + 1 then .error (.tooManyAccountKeys (rest.length + 1))
      else if 256 ≤ (rolesRun true true rest).length + 1 + (rolesRun true false rest).length then
        .error (.tooManyAccountKeys ((rolesRun true true rest).length + 1 +
          (rolesRun true false rest).length))
      else .ok (⟨((rolesRun true true rest).length + 1 + (rolesRun true false rest).length).toUInt8,
          (rolesRun true false rest).length.toUInt8, (rolesRun false false rest).length.toUInt8⟩,
        t.payer :: (rolesRun true true rest ++ rolesRun true false rest ++ rolesRun false true rest ++
          rolesRun false false rest).map Prod.fst) := by
  have hsize : t.size = rest.length + 1 := by
    rw [size, ← (ordered_perm t).length_eq, hord, List.length_cons]
  obtain ⟨hws, hrs, hwn, hrn⟩ := filter_eq_rolesRun rest
  have hlen : ∀ s w, (rolesRun s w rest).length ≤ rest.length := fun _ _ => List.length_filter_le _ _
  by_cases hbig : 256 < rest.length + 1
  · simp [components, hsize, maxAccountKeys, hbig, bind, Except.bind, throw, throwThe,
      MonadExceptOf.throw]
  by_cases hsig : 256 ≤ (rolesRun true true rest).length + 1 + (rolesRun true false rest).length
  · simp [components, hsize, maxAccountKeys, hbig, Nat.not_lt.mpr hsig, hord, hm, hws, hrs,
      countByte, bind, Except.bind]
  · have h1 := hlen true false
    have h2 := hlen false false
    simp [components, hsize, maxAccountKeys, hbig, hsig, hord, hm, hws, hrs, hwn, hrn, bind,
      Except.bind, pure, Except.pure,
      countByte_of_lt (by omega : (rolesRun true false rest).length < 256),
      countByte_of_lt (by omega : (rolesRun false false rest).length < 256),
      countByte_of_lt (by omega : (rolesRun true true rest).length + 1 +
        (rolesRun true false rest).length < 256)]

end Layout

end KeyTable

end ChainTx
