import ChainTx.Proofs.Decompile
/-!
# Instructions compiled to account indexes

Compiling instructions against a message's account keys replaces the program and every account of
each instruction by an index into the keys. The keys may hold one address more than once, across
the static and the loaded segments; compiling takes the first index that holds it.
-/

namespace ChainTx

/-- The addresses an instruction names, in the order compiling looks them up: its program, then
its accounts. -/
def Instruction.namedKeys (ix : Instruction) : List Address :=
  ix.programId :: ix.accounts.map (·.pubkey)

/-- A traversal in `Except` fails with the failure of the first element that `p` picks out, when
every element that `p` passes over succeeds. -/
theorem mapM_except_of_find? {α β ε : Type} {f : α → Except ε β} {p : α → Bool} {xs : List α}
    {x : α} {e : ε} (hok : ∀ y ∈ xs, p y = false → ∃ b, f y = .ok b) (hx : f x = .error e)
    (hfind : xs.find? p = some x) : xs.mapM f = .error e := by
  induction xs with
  | nil => cases hfind
  | cons y ys ih =>
    rw [List.mapM_cons]
    by_cases hy : p y = true
    · -- `y` is the element picked out
      rw [List.find?_cons_of_pos hy, Option.some.injEq] at hfind
      subst hfind
      rw [hx]
      rfl
    · rw [List.find?_cons_of_neg hy] at hfind
      obtain ⟨b, hb⟩ := hok y List.mem_cons_self (Bool.eq_false_iff.mpr hy)
      rw [hb, ih (fun z hz => hok z (List.mem_cons_of_mem y hz)) hfind]
      rfl

namespace AccountKeys

/-- `i` is the first index of the keys that holds the address `a`. -/
def FirstIndex (k : AccountKeys) (a : Address) (i : Nat) : Prop :=
  k.get? i = some a ∧ ∀ j < i, k.get? j ≠ some a

/-- A compiled instruction names the program and accounts of an instruction by their first
indexes among the keys, and carries its data. -/
structure CompilesTo (k : AccountKeys) (ix : Instruction) (ci : CompiledInstruction) : Prop where
  program : k.FirstIndex ix.programId ci.programIdIndex.toNat
  accounts : List.Forall₂ (fun a i => k.FirstIndex a.pubkey i.toNat) ix.accounts ci.accounts
  data : ci.data = ix.data

theorem firstIndex_idxOf {k : AccountKeys} {a : Address} (hsize : k.size ≤ 256) (ha : a ∈ k.all) :
    k.FirstIndex a (k.all.idxOf a).toUInt8.toNat := by
  refine ⟨get?_idxOf hsize ha, fun j hj hget => ?_⟩
  have hlt := List.idxOf_lt_length_of_mem ha
  have hn : (k.all.idxOf a).toUInt8.toNat = k.all.idxOf a := by
    simp only [size] at hsize
    simp; omega
  rw [hn] at hj
  obtain ⟨-, hbefore⟩ := (List.idxOf?_eq_some_iff.mp (idxOf?_eq_some_idxOf ha)).2
  obtain ⟨hj', hgetj⟩ := List.getElem?_eq_some_iff.mp (get?_eq_all k j ▸ hget)
  exact hbefore j hj hgetj

theorem compilesTo_compileAt {k : AccountKeys} {ix : Instruction} (hsize : k.size ≤ 256)
    (hkeys : ∀ a ∈ ix.namedKeys, a ∈ k.all) : k.CompilesTo ix (ix.compileAt k.all) where
  program := firstIndex_idxOf hsize (hkeys _ List.mem_cons_self)
  accounts := by
    rw [Instruction.compileAt, List.forall₂_map_right_iff]
    refine List.forall₂_same.mpr fun acc hacc => firstIndex_idxOf hsize (hkeys _ ?_)
    exact List.mem_cons_of_mem _ (List.mem_map_of_mem hacc)
  data := rfl

theorem compileInstruction_of_find? {k : AccountKeys} {ix : Instruction} {a : Address}
    (h : ix.namedKeys.find? (· ∉ k.all) = some a) :
    k.compileInstruction ix = .error (.unknownInstructionKey a) := by
  rw [Instruction.namedKeys] at h
  by_cases hp : ix.programId ∈ k.all
  · -- the program is held: the first unknown address is an account's
    rw [List.find?_cons_of_neg (by simpa using hp), List.find?_map] at h
    obtain ⟨acc, hacc, rfl⟩ := Option.map_eq_some_iff.mp h
    obtain ⟨i, hi⟩ := indexOf_ok hp
    have hunknown : acc.pubkey ∉ k.all := by simpa using List.find?_some hacc
    have haccs : ix.accounts.mapM (fun a => k.indexOf a.pubkey) =
        .error (.unknownInstructionKey acc.pubkey) :=
      mapM_except_of_find? (fun y _ hy => indexOf_ok (by simpa using hy))
        (by simp [indexOf, List.idxOf?_eq_none_iff.mpr hunknown]) hacc
    simp [compileInstruction, hi, haccs, bind, Except.bind]
  · rw [List.find?_cons_of_pos (by simpa using hp), Option.some.injEq] at h
    subst h
    simp [compileInstruction, indexOf, List.idxOf?_eq_none_iff.mpr hp, bind, Except.bind]

theorem compileInstruction_ok {k : AccountKeys} {ix : Instruction}
    (hkeys : ∀ a ∈ ix.namedKeys, a ∈ k.all) : ∃ c, k.compileInstruction ix = .ok c := by
  obtain ⟨i, hi⟩ := indexOf_ok (hkeys _ List.mem_cons_self)
  obtain ⟨is, his⟩ := mapM_except_ok (fun a => k.indexOf a.pubkey) ix.accounts fun a ha =>
    indexOf_ok (hkeys _ (List.mem_cons_of_mem _ (List.mem_map_of_mem ha)))
  exact ⟨⟨i, is, ix.data⟩,
    by simp [compileInstruction, hi, his, bind, Except.bind, pure, Except.pure]⟩

theorem held_of_find?_eq_none {k : AccountKeys} {keys : List Address}
    (h : keys.find? (· ∉ k.all) = none) : ∀ a ∈ keys, a ∈ k.all := fun a ha => by
  simpa using List.find?_eq_none.mp h a ha

/-- Instructions naming an address the keys do not hold fail on the first such address, in the
order program then accounts, instruction by instruction. -/
theorem mapM_compileInstruction_of_find? {k : AccountKeys} {ixs : List Instruction} {a : Address}
    (h : (ixs.flatMap Instruction.namedKeys).find? (· ∉ k.all) = some a) :
    ixs.mapM k.compileInstruction = .error (.unknownInstructionKey a) := by
  induction ixs with
  | nil => cases h
  | cons ix rest ih =>
    rw [List.flatMap_cons, List.find?_append] at h
    rw [List.mapM_cons]
    cases hix : ix.namedKeys.find? (· ∉ k.all) with
    | some b =>
      rw [hix, Option.some_or, Option.some.injEq] at h
      subst h
      rw [compileInstruction_of_find? hix]
      rfl
    | none =>
      rw [hix, Option.none_or] at h
      obtain ⟨c, hc⟩ := compileInstruction_ok (held_of_find?_eq_none hix)
      rw [hc, ih h]
      rfl

theorem compileInstructions_of_size {k : AccountKeys} (hsize : k.size ≤ maxAccountKeys)
    (ixs : List Instruction) : k.compileInstructions ixs = ixs.mapM k.compileInstruction := by
  rw [compileInstructions, if_neg (Nat.not_lt.mpr hsize)]

theorem compileInstructions_of_find?_some {k : AccountKeys} {ixs : List Instruction} {a : Address}
    (hsize : k.size ≤ maxAccountKeys)
    (h : (ixs.flatMap Instruction.namedKeys).find? (· ∉ k.all) = some a) :
    k.compileInstructions ixs = .error (.unknownInstructionKey a) := by
  rw [compileInstructions_of_size hsize, mapM_compileInstruction_of_find? h]

theorem compileInstructions_of_held {k : AccountKeys} {ixs : List Instruction}
    (hsize : k.size ≤ maxAccountKeys)
    (h : (ixs.flatMap Instruction.namedKeys).find? (· ∉ k.all) = none) :
    ∃ cs, k.compileInstructions ixs = .ok cs ∧ List.Forall₂ k.CompilesTo ixs cs := by
  have hall := held_of_find?_eq_none h
  have hix : ∀ ix ∈ ixs, ∀ a ∈ ix.namedKeys, a ∈ k.all := fun ix hix a ha =>
    hall a (List.mem_flatMap.mpr ⟨ix, hix, ha⟩)
  refine ⟨_, compileInstructions_eq hsize fun ix hx => ⟨hix ix hx _ List.mem_cons_self,
    fun acc hacc => hix ix hx _ (List.mem_cons_of_mem _ (List.mem_map_of_mem hacc))⟩, ?_⟩
  rw [List.forall₂_map_right_iff]
  exact List.forall₂_same.mpr fun ix hx => compilesTo_compileAt hsize (hix ix hx)

/-- Compiling instructions overflows exactly past 256 keys. Below that, it fails on the first
address, in the order program then accounts and instruction by instruction, that the keys do not
hold; when the keys hold every address, it gives one compiled instruction per instruction, naming
each address by the first index that holds it and carrying the instruction's data. -/
theorem compileInstructions_firstIndexes (k : AccountKeys) (ixs : List Instruction) :
    (k.compileInstructions ixs = .error .accountIndexOverflow ↔ maxAccountKeys < k.size) ∧
    (k.size ≤ maxAccountKeys → ∀ a,
      (ixs.flatMap Instruction.namedKeys).find? (· ∉ k.all) = some a →
        k.compileInstructions ixs = .error (.unknownInstructionKey a)) ∧
    (k.size ≤ maxAccountKeys → (ixs.flatMap Instruction.namedKeys).find? (· ∉ k.all) = none →
      ∃ cs, k.compileInstructions ixs = .ok cs ∧ List.Forall₂ k.CompilesTo ixs cs) := by
  refine ⟨⟨fun h => ?_, fun h => ?_⟩, fun hsize _ => compileInstructions_of_find?_some hsize,
    fun hsize => compileInstructions_of_held hsize⟩
  · -- below 256 keys the only failures name an unknown address
    by_contra hsize
    cases hfind : (ixs.flatMap Instruction.namedKeys).find? (· ∉ k.all) with
    | some a =>
      rw [compileInstructions_of_find?_some (by omega) hfind] at h
      cases h
    | none =>
      obtain ⟨cs, hcs, -⟩ := compileInstructions_of_held (by omega) hfind
      rw [hcs] at h
      cases h
  · rw [compileInstructions, if_pos h]

end AccountKeys

private theorem filledKey_length (b : UInt8) : (List.replicate 32 b).length = 32 :=
  List.length_replicate

/-- The address of 32 bytes `b`. -/
private def filledKey (b : UInt8) : Address := ⟨List.replicate 32 b, filledKey_length b⟩

/-- Keys holding one address twice, in the static and in the loaded readonly segment. -/
private def repeatedKeys : AccountKeys :=
  ⟨[filledKey 1, filledKey 2], some ⟨[filledKey 3], [filledKey 1]⟩⟩

private def repeatedUse : List Instruction :=
  [⟨filledKey 2, [⟨filledKey 1, true, true⟩, ⟨filledKey 3, false, true⟩], [9]⟩]

/-- An address the keys hold twice is named by its static index. -/
theorem compileInstructions_firstIndexes_repeated :
    repeatedKeys.size ≤ maxAccountKeys ∧
      (repeatedUse.flatMap Instruction.namedKeys).find? (· ∉ repeatedKeys.all) = none ∧
      ∃ cs, repeatedKeys.compileInstructions repeatedUse = .ok cs ∧
        List.Forall₂ repeatedKeys.CompilesTo repeatedUse cs := by
  have hsize : repeatedKeys.size ≤ maxAccountKeys := by decide
  have hheld : (repeatedUse.flatMap Instruction.namedKeys).find? (· ∉ repeatedKeys.all) = none := by
    decide
  exact ⟨hsize, hheld, (AccountKeys.compileInstructions_firstIndexes _ _).2.2 hsize hheld⟩

end ChainTx
