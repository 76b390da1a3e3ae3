import Mathlib
import ChainTx.Proofs.SignerSlots
/-!
# Signing a legacy transaction

Signing compiles the message, which lines the slots up with its signers, and then writes each
signer's signature over the message bytes into the first slot of its key, one signer after the
other. `sign` first replaces the slots by unsigned ones for its signers, so that compiling makes
each of them a signer; `partialSign` keeps the slots it finds. A signer without a slot fails the
call, after the signers before it have written theirs.
-/

namespace ChainTx

namespace Transaction

open KeyTable

variable {tx tx' : Transaction} {m : LegacyMessage}

/-! ### Writing one signature -/

section SetFirst

variable {k : Address} {sig : Signature} {slots : List SignerSlot}

theorem setFirst_getElem?_of_ne {i : Nat} {s : SignerSlot} (h : slots[i]? = some s)
    (hk : s.pubkey ≠ k) : (setSignature.setFirst k sig slots)[i]? = some s := by
  induction slots generalizing i with
  | nil => simp at h
  | cons x slots ih =>
    cases i with
    | zero =>
      obtain rfl : x = s := by simpa using h
      simp [setSignature.setFirst, hk]
    | succ i =>
      by_cases hx : x.pubkey = k
      · simpa [setSignature.setFirst, hx] using h
      · simpa [setSignature.setFirst, hx] using ih (by simpa using h)

theorem getElem?_setFirst {i : Nat} {s : SignerSlot}
    (h : (setSignature.setFirst k sig slots)[i]? = some s) :
    slots[i]? = some s ∨ s = ⟨k, some sig⟩ ∧ (slots[i]?).map (·.pubkey) = some k := by
  induction slots generalizing i with
  | nil => simp [setSignature.setFirst] at h
  | cons x slots ih =>
    by_cases hx : x.pubkey = k
    · cases i with
      | zero =>
        simp only [setSignature.setFirst, hx, if_true, List.getElem?_cons_zero,
          Option.some.injEq] at h
        exact .inr ⟨h.symm, by simp [hx]⟩
      | succ i => exact .inl (by simpa [setSignature.setFirst, hx] using h)
    · cases i with
      | zero => exact .inl (by simpa [setSignature.setFirst, hx] using h)
      | succ i => simpa using ih (by simpa [setSignature.setFirst, hx] using h)

theorem setFirst_eq_map (hnd : (slots.map (·.pubkey)).Nodup) :
    setSignature.setFirst k sig slots =
      slots.map fun s => if s.pubkey = k then ⟨k, some sig⟩ else s := by
  induction slots with
  | nil => rfl
  | cons s slots ih =>
    rw [List.map_cons, List.nodup_cons] at hnd
    by_cases hs : s.pubkey = k
    · have hrest : (slots.map fun x => if x.pubkey = k then ⟨k, some sig⟩ else x) = slots := by
        conv_rhs => rw [← List.map_id slots]
        refine List.map_congr_left fun x hx => ?_
        have hxk : x.pubkey ≠ k := fun hx' => hnd.1 (hs ▸ hx' ▸ List.mem_map_of_mem hx)
        simp [hxk]
      simp [setSignature.setFirst, hs, hrest]
    · simp [setSignature.setFirst, hs, ih hnd.2]

end SetFirst

theorem setSignature_inv {k : Address} {sig : Signature} (h : tx.setSignature k sig = .ok tx') :
    tx' = { tx with signatures := setSignature.setFirst k sig tx.signatures } := by
  unfold setSignature at h
  split at h
  · cases h
    rfl
  · cases h

theorem setSignature_error {k : Address} {sig : Signature} {e : SolError}
    (h : tx.setSignature k sig = .error e) :
    e = .unknownSigner k ∧ k ∉ tx.signatures.map (·.pubkey) := by
  unfold setSignature at h
  split at h
  · cases h
  · next hk =>
    cases h
    exact ⟨rfl, by simpa using hk⟩

/-! ### Signing with each signer in turn -/

section Generic

variable {S : Type} [Signer S]

theorem signWith_slots {data : List UInt8} {L : List S} {r : Except SolError Unit}
    (h : tx.signWith data L = (tx', r)) :
    tx' = { tx with signatures := tx'.signatures } ∧
      tx'.signatures.map (·.pubkey) = tx.signatures.map (·.pubkey) ∧
      ∀ (i : Nat) (s : SignerSlot), tx'.signatures[i]? = some s → tx.signatures[i]? = some s ∨
        ∃ k ∈ L, ∃ sig, Signer.trySignMessage k data = .ok sig ∧ s = ⟨Signer.pubkey k, some sig⟩ ∧
          (tx.signatures[i]?).map (·.pubkey) = some (Signer.pubkey k) := by
  induction L generalizing tx with
  | nil =>
    cases h
    exact ⟨rfl, rfl, fun _ _ hs => .inl hs⟩
  | cons k L ih =>
    unfold signWith at h
    split at h
    · cases h
      exact ⟨rfl, rfl, fun _ _ hs => .inl hs⟩
    · next sig hsig =>
      split at h
      · next tx₁ h₁ =>
        obtain rfl := setSignature_inv h₁
        obtain ⟨hrest, hkeys, hslot⟩ := ih h
        refine ⟨hrest, hkeys.trans (setFirst_pubkeys _ _ _), fun i s hs => ?_⟩
        rcases hslot i s hs with h' | ⟨k', hk', sig', hsig', rfl, hkey⟩
        · rcases getElem?_setFirst h' with h'' | ⟨rfl, hkey⟩
          · exact .inl h''
          · exact .inr ⟨k, List.mem_cons_self, sig, hsig, rfl, hkey⟩
        · -- the slot's key is the same before and after `k` wrote its signature
          have hsame := congrArg (·[i]?) (setFirst_pubkeys (Signer.pubkey k) sig tx.signatures)
          simp only [List.getElem?_map] at hsame
          exact .inr ⟨k', List.mem_cons_of_mem _ hk', sig', hsig', rfl, hsame ▸ hkey⟩
      · cases h
        exact ⟨rfl, rfl, fun _ _ hs => .inl hs⟩

theorem signWith_error {data : List UInt8} {L : List S} {e : SolError}
    (h : tx.signWith data L = (tx', .error e)) :
    ∃ pre k post, L = pre ++ k :: post ∧ tx.signWith data pre = (tx', .ok ()) ∧
      (Signer.trySignMessage k data = .error e ∨
        ∃ sig, Signer.trySignMessage k data = .ok sig ∧ e = .unknownSigner (Signer.pubkey k) ∧
          Signer.pubkey k ∉ tx'.signatures.map (·.pubkey)) := by
  induction L generalizing tx with
  | nil => cases h
  | cons k L ih =>
    unfold signWith at h
    split at h
    · next e' he' =>
      obtain ⟨rfl, he⟩ := Prod.mk.inj h
      cases he
      exact ⟨[], k, L, rfl, rfl, .inl he'⟩
    · next sig hsig =>
      split at h
      · next tx₁ h₁ =>
        obtain ⟨pre, k', post, rfl, hpre, hk'⟩ := ih h
        refine ⟨k :: pre, k', post, rfl, ?_, hk'⟩
        simp only [signWith, hsig, h₁]
        exact hpre
      · next e' he' =>
        obtain ⟨rfl, he⟩ := Prod.mk.inj h
        cases he
        exact ⟨[], k, L, rfl, rfl, .inr ⟨sig, hsig, setSignature_error he'⟩⟩

end Generic

/-- The slot as signing leaves it: the signature over `data` of the first signer of its key. -/
def signedSlot (data : List UInt8) (S : List Keypair) (s : SignerSlot) : SignerSlot :=
  match S.find? (·.pubkey == s.pubkey) with
  | some k => ⟨s.pubkey, some (k.sign data)⟩
  | none => s

@[simp] theorem signedSlot_pubkey (data : List UInt8) (S : List Keypair) (s : SignerSlot) :
    (signedSlot data S s).pubkey = s.pubkey := by
  unfold signedSlot
  split <;> rfl

theorem signedSlot_nil (data : List UInt8) (s : SignerSlot) : signedSlot data [] s = s := rfl

theorem signWith_eq {data : List UInt8} {S : List Keypair}
    (hnd : (tx.signatures.map (·.pubkey)).Nodup) (hS : (S.map (·.pubkey)).Nodup)
    (hmem : ∀ k ∈ S, k.pubkey ∈ tx.signatures.map (·.pubkey)) :
    tx.signWith data S = ({ tx with signatures := tx.signatures.map (signedSlot data S) }, .ok ()) := by
  induction S generalizing tx with
  | nil =>
    have hid : tx.signatures.map (signedSlot data []) = tx.signatures := by
      conv_rhs => rw [← List.map_id tx.signatures]
      exact List.map_congr_left fun s _ => signedSlot_nil data s
    rw [hid]
    rfl
  | cons k S ih =>
    rw [List.map_cons, List.nodup_cons] at hS
    have hk : tx.signatures.any (·.pubkey == k.pubkey) = true := by
      simpa using hmem k List.mem_cons_self
    have h₁ : tx.setSignature k.pubkey (k.sign data) =
        .ok { tx with
          signatures := tx.signatures.map fun s =>
            if s.pubkey = k.pubkey then ⟨k.pubkey, some (k.sign data)⟩ else s } := by
      rw [setSignature, if_pos hk, setFirst_eq_map hnd]
    have hkeys : (tx.signatures.map fun s : SignerSlot =>
        if s.pubkey = k.pubkey then (⟨k.pubkey, some (k.sign data)⟩ : SignerSlot) else s).map
          (·.pubkey) = tx.signatures.map (·.pubkey) := by
      rw [List.map_map]
      exact List.map_congr_left fun s _ => by by_cases hs : s.pubkey = k.pubkey <;> simp [hs]
    simp only [signWith, Keypair.trySignMessage_eq, Keypair.signer_pubkey, h₁]
    rw [ih (hkeys ▸ hnd) hS.2 fun k' hk' => hkeys ▸ hmem k' (List.mem_cons_of_mem _ hk'), List.map_map]
    congr 3
    funext s
    by_cases hs : s.pubkey = k.pubkey
    · -- no later signer has the key `k` has
      have hno : S.find? (·.pubkey == k.pubkey) = none :=
        List.find?_eq_none.mpr fun k' hk' hk'k => hS.1 (by
          rw [← beq_iff_eq.mp hk'k]
          exact List.mem_map_of_mem hk')
      simp [signedSlot, hs, hno]
    · have hks : (k.pubkey == s.pubkey) = false := beq_eq_false_iff_ne.mpr (Ne.symm hs)
      simp [signedSlot, hs, hks]

/-! ### The signers, each key once -/

section Dedup

variable {S : Type} [Signer S]

theorem dedupSigners_go_spec (seen : List Address) (L : List S) :
    (∀ k ∈ dedupSigners.go seen L, k ∈ L ∧ Signer.pubkey k ∉ seen) ∧
      ((dedupSigners.go seen L).map Signer.pubkey).Nodup ∧
      ∀ k ∈ L, Signer.pubkey k ∈ seen ∨
        ∃ k' ∈ dedupSigners.go seen L, Signer.pubkey k' = Signer.pubkey k := by
  induction L generalizing seen with
  | nil => simp [dedupSigners.go]
  | cons k L ih =>
    by_cases hk : Signer.pubkey k ∈ seen
    · obtain ⟨hmem, hnd, hcov⟩ := ih seen
      have hgo : dedupSigners.go seen (k :: L) = dedupSigners.go seen L := by
        simp [dedupSigners.go, hk]
      rw [hgo]
      refine ⟨fun k' hk' => ⟨List.mem_cons_of_mem _ (hmem k' hk').1, (hmem k' hk').2⟩, hnd,
        fun k' hk' => ?_⟩
      rcases List.mem_cons.mp hk' with rfl | hk'
      · exact .inl hk
      · exact hcov k' hk'
    · obtain ⟨hmem, hnd, hcov⟩ := ih (Signer.pubkey k :: seen)
      have hgo : dedupSigners.go seen (k :: L) =
          k :: dedupSigners.go (Signer.pubkey k :: seen) L := by
        simp [dedupSigners.go, hk]
      rw [hgo]
      refine ⟨fun k' hk' => ?_, ?_, fun k' hk' => ?_⟩
      · rcases List.mem_cons.mp hk' with rfl | hk'
        · exact ⟨List.mem_cons_self, hk⟩
        · obtain ⟨h₁, h₂⟩ := hmem k' hk'
          exact ⟨List.mem_cons_of_mem _ h₁, fun h => h₂ (List.mem_cons_of_mem _ h)⟩
      · refine List.nodup_cons.mpr ⟨fun h => ?_, hnd⟩
        obtain ⟨k', hk', he⟩ := List.mem_map.mp h
        exact (hmem k' hk').2 (he ▸ List.mem_cons_self)
      · rcases List.mem_cons.mp hk' with rfl | hk'
        · exact .inr ⟨k', List.mem_cons_self, rfl⟩
        · rcases hcov k' hk' with h | ⟨k'', hk'', he⟩
          · rcases List.mem_cons.mp h with h | h
            · exact .inr ⟨k, List.mem_cons_self, h.symm⟩
            · exact .inl h
          · exact .inr ⟨k'', List.mem_cons_of_mem _ hk'', he⟩

theorem mem_of_mem_dedupSigners {L : List S} {k : S} (hk : k ∈ dedupSigners L) : k ∈ L :=
  ((dedupSigners_go_spec [] L).1 k hk).1

theorem dedupSigners_nodup (L : List S) : ((dedupSigners L).map Signer.pubkey).Nodup :=
  (dedupSigners_go_spec [] L).2.1

theorem exists_dedupSigners_iff {L : List S} {a : Address} :
    (∃ k ∈ dedupSigners L, Signer.pubkey k = a) ↔ ∃ k ∈ L, Signer.pubkey k = a := by
  constructor
  · rintro ⟨k, hk, rfl⟩
    exact ⟨k, mem_of_mem_dedupSigners hk, rfl⟩
  · rintro ⟨k, hk, rfl⟩
    rcases (dedupSigners_go_spec [] L).2.2 k hk with h | h
    · cases h
    · exact h

end Dedup

/-! ### What compiling promises the slots -/

theorem compileMessage_keys_nodup (h : tx.compileMessage = .ok m) : m.accountKeys.Nodup := by
  obtain ⟨p, ixs, bh, -, -, hmem, hlay⟩ := compileMessage_inv h
  have hM := metasHold_mergedMetas p ixs
  have hP := hM.promote fun s hs => (hM.mem_iff _).mp (hmem s hs)
  exact (layout_ok hP (by simp [mentioned]) (by simp [promoteRoles, mergedRoles]) hlay).2.1

theorem mem_signers_of_slot (h : tx.compileMessage = .ok m) {s : SignerSlot}
    (hs : s ∈ tx.signatures) : s.pubkey ∈ m.accountKeys.take m.header.numRequiredSignatures.toNat := by
  obtain ⟨p, ixs, bh, -, -, hmem, -, hl, hkeys, -⟩ := compileMessage_runLayout h
  have hk : s.pubkey ∈ m.accountKeys :=
    (hkeys _).mpr (((metasHold_mergedMetas p ixs).mem_iff _).mp (hmem s hs))
  refine (hl.mem_take_iff (by simp [promoteRoles, mergedRoles]) hk).mpr ?_
  simp only [promoteRoles, Bool.or_eq_true, List.any_eq_true, beq_iff_eq]
  exact .inr ⟨s, hs, rfl⟩

theorem realign_unsigned (hu : ∀ s ∈ tx.signatures, s.signature = none) :
    (tx.realign m).signatures =
      (m.accountKeys.take m.header.numRequiredSignatures.toNat).map fun k => ⟨k, none⟩ := by
  dsimp only [realign]
  split
  · next hk =>
    rw [← hk, List.map_map]
    conv_lhs => rw [← List.map_id tx.signatures]
    refine List.map_congr_left fun s hs => ?_
    rw [← hu s hs]
    rfl
  · rfl

theorem Aligned.serializeMessage (h : Aligned tx m) : tx.serializeMessage = (tx, .ok m.encode) := by
  simp [Transaction.serializeMessage, h.compile, Except.map]

theorem Aligned.verifySignatures (h : Aligned tx m) (requireAll : Bool) :
    tx.verifySignatures requireAll = (tx, .ok (tx.signednessError m.encode requireAll).isNone) := by
  simp [Transaction.verifySignatures, h.serializeMessage]

theorem signednessError_eq_none_iff {data : List UInt8} {requireAll : Bool} :
    tx.signednessError data requireAll = none ↔
      (∀ s ∈ tx.signatures, ∀ sig, s.signature = some sig → s.pubkey.verifies data sig.bytes = true) ∧
      (requireAll = true → ∀ s ∈ tx.signatures, s.signature.isSome) := by
  unfold signednessError
  simp only [ite_eq_left_iff, reduceCtorEq, imp_false, not_not, Bool.and_eq_true,
    List.isEmpty_iff, List.filterMap_eq_nil_iff]
  refine and_congr (forall₂_congr fun s _ => ?_) ?_
  · cases s.signature with
    | none => simp
    | some sig => by_cases hv : s.pubkey.verifies data sig.bytes <;> simp [hv]
  · cases requireAll with
    | false => simp
    | true => simp [List.filterMap_eq_nil_iff, Option.isSome_iff_ne_none]

/-! ### Signing -/

section Generic

variable {S : Type} [Signer S]

theorem sign_of_error {L : List S} {e : SolError}
    (h : ({ tx with signatures := (dedupSigners L).map fun k => ⟨Signer.pubkey k, none⟩ } :
      Transaction).compileMessage = .error e) :
    tx.sign L =
      ({ tx with signatures := (dedupSigners L).map fun k => ⟨Signer.pubkey k, none⟩ }, .error e) := by
  simp only [sign, compileAndSign, compile_of_error h]

theorem sign_of_compile_ok {L : List S}
    (h : ({ tx with signatures := (dedupSigners L).map fun k => ⟨Signer.pubkey k, none⟩ } :
      Transaction).compileMessage = .ok m) :
    tx.sign L = (({ tx with signatures := (dedupSigners L).map fun k => ⟨Signer.pubkey k, none⟩ } :
      Transaction).realign m).signWith m.encode (dedupSigners L) := by
  simp only [sign, compileAndSign, compile_of_ok h]

end Generic

theorem sign_of_ok {S : List Keypair}
    (h : ({ tx with signatures := (dedupSigners S).map fun k => ⟨k.pubkey, none⟩ } :
      Transaction).compileMessage = .ok m) :
    tx.sign S = ({ ({ tx with signatures := (dedupSigners S).map fun k => ⟨k.pubkey, none⟩ } :
        Transaction).realign m with
      signatures := (m.accountKeys.take m.header.numRequiredSignatures.toNat).map fun a =>
        signedSlot m.encode (dedupSigners S) ⟨a, none⟩ }, .ok ()) := by
  set t : Transaction := { tx with signatures := (dedupSigners S).map fun k => ⟨k.pubkey, none⟩ }
  have hslots : (t.realign m).signatures =
      (m.accountKeys.take m.header.numRequiredSignatures.toNat).map fun k => ⟨k, none⟩ :=
    realign_unsigned fun s hs => by
      obtain ⟨k, -, rfl⟩ := List.mem_map.mp hs
      rfl
  have hkeys : (t.realign m).signatures.map (·.pubkey) =
      m.accountKeys.take m.header.numRequiredSignatures.toNat := realign_signers t m
  have hmem : ∀ k ∈ dedupSigners S, k.pubkey ∈ (t.realign m).signatures.map (·.pubkey) := by
    intro k hk
    rw [hkeys]
    exact mem_signers_of_slot h (List.mem_map_of_mem (f := fun k : Keypair => (⟨k.pubkey, none⟩ : SignerSlot)) hk)
  have hnd : ((t.realign m).signatures.map (·.pubkey)).Nodup :=
    hkeys ▸ (compileMessage_keys_nodup h).sublist (List.take_sublist _ _)
  rw [show tx.sign S = (t.realign m).signWith m.encode (dedupSigners S) from sign_of_compile_ok h,
    signWith_eq hnd (dedupSigners_nodup S) hmem, hslots, List.map_map]
  rfl

theorem signedSlot_unsigned (data : List UInt8) (S : List Keypair) (a : Address) :
    signedSlot data S ⟨a, none⟩ = ⟨a, (S.find? (·.pubkey == a)).map (·.sign data)⟩ := by
  unfold signedSlot
  split <;> simp_all

/-- After a successful `sign`, the slots name the signers of the message the transaction compiles
to, and a slot is signed exactly when a signer has its key, by such a signer, over the message. -/
theorem sign_ok {S : List Keypair} (h : tx.sign S = (tx', .ok ())) :
    ∃ m, Aligned tx' m ∧ ∀ s ∈ tx'.signatures,
      (s.signature.isSome ↔ ∃ k ∈ S, k.pubkey = s.pubkey) ∧
      ∀ sig, s.signature = some sig → ∃ k ∈ S, k.pubkey = s.pubkey ∧ sig = k.sign m.encode := by
  cases hc : ({ tx with signatures := (dedupSigners S).map fun k => ⟨k.pubkey, none⟩ } :
      Transaction).compileMessage with
  | error e =>
    rw [sign_of_error hc] at h
    cases h
  | ok m =>
    rw [sign_of_ok hc] at h
    obtain ⟨rfl, -⟩ := Prod.mk.inj h
    refine ⟨m, (aligned_realign hc).withSignatures ?_, fun s hs => ?_⟩
    · rw [realign_signers, List.map_map]
      conv_rhs => rw [← List.map_id (m.accountKeys.take _)]
      exact List.map_congr_left fun a _ => signedSlot_pubkey _ _ _
    · obtain ⟨a, -, rfl⟩ := List.mem_map.mp hs
      rw [signedSlot_unsigned]
      refine ⟨?_, fun sig hsig => ?_⟩
      · simp only [Option.isSome_map, List.find?_isSome, beq_iff_eq]
        exact exists_dedupSigners_iff
      · obtain ⟨k, hk, rfl⟩ := Option.map_eq_some_iff.mp hsig
        exact ⟨k, mem_of_mem_dedupSigners (List.mem_of_find?_eq_some hk),
          by simpa using List.find?_some hk, rfl⟩

theorem partialSign_keeps {S : List Keypair} {r : Except SolError Unit} (hc : tx.compileMessage = .ok m)
    (hs : tx.signatures.map (·.pubkey) = m.accountKeys.take m.header.numRequiredSignatures.toNat)
    (h : tx.partialSign S = (tx', r)) {i : Nat} {s : SignerSlot} (hi : tx.signatures[i]? = some s)
    (hS : ∀ k ∈ S, k.pubkey ≠ s.pubkey) : tx'.signatures[i]? = some s := by
  have ha : Aligned tx m := ⟨hc, hs⟩
  rw [partialSign, compileAndSign, ha.compile] at h
  obtain ⟨-, hkeys, hslot⟩ := signWith_slots h
  have hkey := congrArg (·[i]?) hkeys
  simp only [List.getElem?_map, hi, Option.map_some] at hkey
  obtain ⟨s', hs', -⟩ := Option.map_eq_some_iff.mp hkey
  rcases hslot i s' hs' with h' | ⟨k, hk, -, -, -, hkk⟩
  · rw [hs', ← hi, h']
  · rw [hi, Option.map_some, Option.some.injEq] at hkk
    exact absurd hkk.symm (hS k (mem_of_mem_dedupSigners hk))

/-- Signing produces exactly the signatures asked for. After a successful `sign`, the slots name
the signers of the message the transaction compiles to, which it serializes to; a slot is signed
exactly when one of the signers has its key, by such a signer over those bytes. So when Ed25519
accepts the signers' own signatures of the message, every signature checks, a check that does not
require all signers passes, and one that does passes exactly when the signers cover the signer
prefix. A `partialSign` on slots that already name the signers keeps every slot of a key that no
signer has. -/
theorem sign_fills_signer_slots :
    (∀ (tx tx' : Transaction) (S : List Keypair), tx.sign S = (tx', .ok ()) →
      ∃ m, tx'.compileMessage = .ok m ∧
        tx'.signatures.map (·.pubkey) = m.accountKeys.take m.header.numRequiredSignatures.toNat ∧
        tx'.serializeMessage = (tx', .ok m.encode) ∧
        (∀ s ∈ tx'.signatures, (s.signature.isSome ↔ ∃ k ∈ S, k.pubkey = s.pubkey) ∧
          ∀ sig, s.signature = some sig → ∃ k ∈ S, k.pubkey = s.pubkey ∧ sig = k.sign m.encode) ∧
        ((∀ k ∈ S, k.pubkey.verifies m.encode (k.sign m.encode).bytes = true) →
          (∀ s ∈ tx'.signatures, ∀ sig, s.signature = some sig →
            s.pubkey.verifies m.encode sig.bytes = true) ∧
          tx'.verifySignatures false = (tx', .ok true) ∧
          (tx'.verifySignatures true = (tx', .ok true) ↔
            ∀ a ∈ m.accountKeys.take m.header.numRequiredSignatures.toNat, ∃ k ∈ S, k.pubkey = a))) ∧
    (∀ (tx tx' : Transaction) (S : List Keypair) (m : LegacyMessage), tx.compileMessage = .ok m →
      tx.signatures.map (·.pubkey) = m.accountKeys.take m.header.numRequiredSignatures.toNat →
      tx.partialSign S = (tx', .ok ()) →
      ∀ (i : Nat) (s : SignerSlot), tx.signatures[i]? = some s → (∀ k ∈ S, k.pubkey ≠ s.pubkey) →
        tx'.signatures[i]? = some s) := by
  refine ⟨fun tx tx' S h => ?_, fun tx tx' S m hc hs h i s hi hS => partialSign_keeps hc hs h hi hS⟩
  obtain ⟨m, ha, hslots⟩ := sign_ok h
  refine ⟨m, ha.compiles, ha.signers, ha.serializeMessage, hslots, fun hsig => ?_⟩
  have hvalid : ∀ s ∈ tx'.signatures, ∀ sig, s.signature = some sig →
      s.pubkey.verifies m.encode sig.bytes = true := by
    intro s hs sig hs'
    obtain ⟨k, hk, hkey, rfl⟩ := (hslots s hs).2 sig hs'
    rw [← hkey]
    exact hsig k hk
  refine ⟨hvalid, ?_, ?_⟩
  · rw [ha.verifySignatures, Option.isNone_iff_eq_none.mpr
      (signednessError_eq_none_iff.mpr ⟨hvalid, fun h => by cases h⟩)]
  · rw [ha.verifySignatures, Prod.mk.injEq, Except.ok.injEq, Option.isNone_iff_eq_none,
      signednessError_eq_none_iff, ← ha.signers]
    simp only [true_implies, true_and, List.mem_map, forall_exists_index, and_imp,
      forall_apply_eq_imp_iff₂]
    exact ⟨fun h s hs => (hslots s hs).1.mp (h.2 s hs),
      fun h => ⟨hvalid, fun s hs => (hslots s hs).1.mpr (h s hs)⟩⟩

theorem txResult_eq_of_snd {α : Type} {x : TxResult α} {a : α} (h : x.2 = .ok a) :
    x = (x.1, .ok a) := by
  rw [← h]

theorem txResult_eq_of_snd' {α : Type} {x : TxResult α} {e : SolError} (h : x.2 = .error e) :
    x = (x.1, .error e) := by
  rw [← h]

/-- The keypair of the seed of 32 bytes of one. -/
private def seedOne : Keypair := ⟨List.replicate 32 1, List.length_replicate⟩

/-- A transaction paid by `seedOne` whose one instruction calls the payer itself, under the zero
blockhash. -/
private def selfPaying : Transaction :=
  { Transaction.withBlockhash Blockhash.zero 0 with
    explicitPayer := some seedOne.pubkey
    instructions := [⟨seedOne.pubkey, [], []⟩] }

/-- `selfPaying` calling the zero address instead, with an unsigned slot for the payer and the zero
signature in a slot of the program, which compiling makes a signer. -/
private def programSigned : Transaction :=
  { selfPaying with
    instructions := [⟨Address.zero, [], []⟩]
    signatures := [⟨seedOne.pubkey, none⟩, ⟨Address.zero, some .zero⟩] }

/-- Signed by its payer, `selfPaying` passes the full check. Partially signing `programSigned` by
the payer succeeds and keeps the program's signature. -/
theorem sign_fills_signer_slots_selfPaying :
    (selfPaying.sign [seedOne]).2 = .ok () ∧
      (selfPaying.sign [seedOne]).1.verifySignatures true = ((selfPaying.sign [seedOne]).1, .ok true) ∧
      (programSigned.partialSign [seedOne]).2 = .ok () ∧
      (programSigned.partialSign [seedOne]).1.signatures[1]? = some ⟨Address.zero, some .zero⟩ := by
  obtain ⟨hs, hv, hkeys, hpayer⟩ : (selfPaying.sign [seedOne]).2 = .ok () ∧
      (selfPaying.sign [seedOne]).1.compileMessage.map
        (fun m => seedOne.pubkey.verifies m.encode (seedOne.sign m.encode).bytes) = .ok true ∧
      (selfPaying.sign [seedOne]).1.signatures.map (·.pubkey) = [seedOne.pubkey] ∧
      seedOne.pubkey = ⟨[138, 136, 227, 221, 116, 9, 241, 149, 253, 82, 219, 45, 60, 186, 93, 114,
        202, 103, 9, 191, 29, 148, 18, 27, 243, 116, 136, 1, 180, 15, 111, 92], rfl⟩ := by
    decide +kernel
  obtain ⟨m, hc, hpre, -, -, hver⟩ :=
    sign_fills_signer_slots.1 selfPaying _ [seedOne] (txResult_eq_of_snd hs)
  rw [hc] at hv
  obtain ⟨-, -, hfull⟩ := hver fun k hk => by
    rw [List.mem_singleton.mp hk]
    exact Except.ok.inj hv
  have hcover : ∀ a ∈ m.accountKeys.take m.header.numRequiredSignatures.toNat,
      ∃ k ∈ [seedOne], k.pubkey = a := by
    rw [← hpre, hkeys]
    intro a ha
    exact ⟨seedOne, List.mem_singleton_self _, (List.mem_singleton.mp ha).symm⟩
  obtain ⟨m', hc', hsigners⟩ : ∃ m', programSigned.compileMessage = .ok m' ∧
      m'.accountKeys.take m'.header.numRequiredSignatures.toNat = [seedOne.pubkey, Address.zero] := by
    have h : programSigned.compileMessage.map (fun m => m.accountKeys.take
        m.header.numRequiredSignatures.toNat) = .ok [seedOne.pubkey, Address.zero] := by
      simp only [programSigned, selfPaying, hpayer]
      cbv
    cases hm : programSigned.compileMessage with
    | error e =>
      rw [hm] at h
      cases h
    | ok m' =>
      rw [hm] at h
      exact ⟨m', rfl, Except.ok.inj h⟩
  have ha : Aligned programSigned m' := ⟨hc', hsigners.symm ▸ rfl⟩
  have hne : seedOne.pubkey ≠ Address.zero := by
    rw [hpayer]
    decide
  have hp : programSigned.partialSign [seedOne] =
      ({ programSigned with
        signatures := programSigned.signatures.map (signedSlot m'.encode [seedOne]) }, .ok ()) := by
    have hnd : (programSigned.signatures.map (·.pubkey)).Nodup := by
      rw [ha.signers, hsigners]
      simp [hne]
    rw [partialSign, compileAndSign, ha.compile]
    exact signWith_eq hnd (List.nodup_singleton _)
      fun k hk => by simp [List.mem_singleton.mp hk, programSigned]
  refine ⟨hs, hfull.mpr hcover, by rw [hp], ?_⟩
  rw [hp]
  exact sign_fills_signer_slots.2 programSigned _ [seedOne] m' hc' ha.signers hp 1
    ⟨Address.zero, some .zero⟩ rfl fun k hk => by
      rw [List.mem_singleton.mp hk]
      exact hne

/-! ### Failed signing -/

theorem realign_with (slots : List SignerSlot) :
    { tx.realign m with signatures := slots } = { tx with signatures := slots } := by
  unfold realign
  dsimp only
  split <;> rfl

section Generic

variable {S : Type} [Signer S]

/-- A failed `sign` failed in compiling the unsigned slots it wrote for its signers, which stay, or
at a signer that could not sign the message; the signers before it have signed. A signer cannot
lack a slot here: compiling made each of them a signer. -/
theorem sign_error {L : List S} {e : SolError} (h : tx.sign L = (tx', .error e)) :
    (tx' = { tx with signatures := (dedupSigners L).map fun k => ⟨Signer.pubkey k, none⟩ } ∧
      tx'.compileMessage = .error e) ∨
    ∃ m pre k post, ({ tx with signatures := (dedupSigners L).map fun k => ⟨Signer.pubkey k, none⟩ } :
        Transaction).compileMessage = .ok m ∧ tx'.compileMessage = .ok m ∧
      tx'.signatures.map (·.pubkey) = m.accountKeys.take m.header.numRequiredSignatures.toNat ∧
      dedupSigners L = pre ++ k :: post ∧ Signer.trySignMessage k m.encode = .error e ∧
      ∀ s ∈ tx'.signatures, s.signature = none ∨
        ∃ k' ∈ pre, ∃ sig, Signer.trySignMessage k' m.encode = .ok sig ∧
          s = ⟨Signer.pubkey k', some sig⟩ := by
  cases hc : ({ tx with signatures := (dedupSigners L).map fun k => ⟨Signer.pubkey k, none⟩ } :
      Transaction).compileMessage with
  | error e' =>
    rw [sign_of_error hc] at h
    obtain ⟨rfl, he⟩ := Prod.mk.inj h
    obtain rfl : e' = e := Except.error.inj he
    exact .inl ⟨rfl, hc⟩
  | ok m =>
    rw [sign_of_compile_ok hc] at h
    obtain ⟨pre, k, post, hL, hpre, hk⟩ := signWith_error h
    have ha : Aligned tx' m := (aligned_realign hc).signWith hpre
    refine .inr ⟨m, pre, k, post, rfl, ha.compiles, ha.signers, hL, ?_, fun s hs => ?_⟩
    · rcases hk with hk | ⟨-, -, -, hslot⟩
      · exact hk
      · have hk : k ∈ dedupSigners L := hL ▸ List.mem_append_right pre List.mem_cons_self
        refine absurd ?_ hslot
        rw [ha.signers]
        exact mem_signers_of_slot hc (List.mem_map_of_mem hk)
    · obtain ⟨i, hi⟩ := List.mem_iff_getElem?.mp hs
      rcases (signWith_slots hpre).2.2 i s hi with h' | ⟨k', hk', sig, hsig, rfl, -⟩
      · -- a slot that signing did not touch is one compiling lined up, unsigned like those written
        have hmem := List.mem_of_getElem? h'
        rw [realign_unsigned fun s hs => by obtain ⟨k, -, rfl⟩ := List.mem_map.mp hs; rfl] at hmem
        obtain ⟨a, -, rfl⟩ := List.mem_map.mp hmem
        exact .inl rfl
      · exact .inr ⟨k', hk', sig, hsig, rfl⟩

/-- A failed `partialSign` keeps the message: its compile failed and nothing changed, or the slots
were lined up with the message's signers and the signers before the failing one have signed. -/
theorem partialSign_error {L : List S} {e : SolError} (h : tx.partialSign L = (tx', .error e)) :
    tx'.compileMessage = tx.compileMessage ∧ tx' = { tx with signatures := tx'.signatures } ∧
      ((∃ e', tx.compileMessage = .error e') → tx' = tx) ∧
      ∀ m, tx.compileMessage = .ok m →
        tx'.signatures.map (·.pubkey) = m.accountKeys.take m.header.numRequiredSignatures.toNat ∧
        ∃ pre k post, dedupSigners L = pre ++ k :: post ∧
          (Signer.trySignMessage k m.encode = .error e ∨
            ∃ sig, Signer.trySignMessage k m.encode = .ok sig ∧ e = .unknownSigner (Signer.pubkey k) ∧
              Signer.pubkey k ∉ m.accountKeys.take m.header.numRequiredSignatures.toNat) ∧
          ∀ (i : Nat) (s : SignerSlot), tx'.signatures[i]? = some s →
            (tx.realign m).signatures[i]? = some s ∨
              ∃ k' ∈ pre, ∃ sig, Signer.trySignMessage k' m.encode = .ok sig ∧
                s = ⟨Signer.pubkey k', some sig⟩ := by
  cases hc : tx.compileMessage with
  | error e' =>
    rw [partialSign, compileAndSign, compile_of_error hc] at h
    obtain ⟨rfl, -⟩ := Prod.mk.inj h
    exact ⟨hc, rfl, fun _ => rfl, fun m hm => by cases hm⟩
  | ok m =>
    rw [partialSign, compileAndSign, compile_of_ok hc] at h
    obtain ⟨hrest, -, -⟩ := signWith_slots h
    obtain ⟨pre, k, post, hL, hpre, hk⟩ := signWith_error h
    have ha : Aligned tx' m := (aligned_realign hc).signWith hpre
    refine ⟨ha.compiles, hrest.trans (realign_with _), fun hx => ?_, fun m' hm' => ?_⟩
    · obtain ⟨_, he'⟩ := hx
      cases he'
    obtain rfl : m = m' := Except.ok.inj hm'
    refine ⟨ha.signers, pre, k, post, hL, by rwa [← ha.signers], fun i s hs => ?_⟩
    rcases (signWith_slots hpre).2.2 i s hs with h' | ⟨k', hk', sig, hsig, rfl, -⟩
    · exact .inl h'
    · exact .inr ⟨k', hk', sig, hsig, rfl⟩

end Generic

theorem addSignature_error {k : Address} {sig : Signature} {e : SolError}
    (h : tx.addSignature k sig = (tx', .error e)) :
    tx'.compileMessage = tx.compileMessage ∧ ((∃ e', tx.compileMessage = .error e') → tx' = tx) ∧
      ∀ m, tx.compileMessage = .ok m →
        tx' = tx.realign m ∧ k ∉ m.accountKeys.take m.header.numRequiredSignatures.toNat := by
  cases hc : tx.compileMessage with
  | error e' =>
    rw [addSignature, compile_of_error hc] at h
    obtain ⟨rfl, -⟩ := Prod.mk.inj h
    exact ⟨hc, fun _ => rfl, fun m hm => by cases hm⟩
  | ok m =>
    rw [addSignature, compile_of_ok hc] at h
    dsimp only at h
    split at h
    · cases (Prod.mk.inj h).2
    · next e' hs =>
      obtain ⟨rfl, -⟩ := Prod.mk.inj h
      refine ⟨compileMessage_realign hc, fun hx => ?_, fun m' hm' => ?_⟩
      · obtain ⟨_, he⟩ := hx
        cases he
      obtain rfl : m = m' := Except.ok.inj hm'
      exact ⟨rfl, realign_signers tx m ▸ (setSignature_error hs).2⟩

/-- The keypair of the seed of 32 bytes of two, which `selfPaying` does not know. -/
private def seedTwo : Keypair := ⟨List.replicate 32 2, List.length_replicate⟩

/-- `selfPaying` with its one slot lined up and unsigned. -/
private def payerSlot : Transaction :=
  { selfPaying with signatures := [⟨seedOne.pubkey, none⟩] }

/-- Failed signing calls change the slots. `sign` with a signer the message does not know leaves
that signer's slot behind, and compiling, which succeeded before, now fails; `partialSign` with the
payer and that signer fails after the payer has signed; `addSignature` for it fails after lining
the slots up. -/
theorem failed_signing_changes_slots :
    selfPaying.compileMessage.isOk = true ∧
      (selfPaying.sign [seedTwo]).2 = .error (.unknownSigner seedTwo.pubkey) ∧
      (selfPaying.sign [seedTwo]).1.signatures = [⟨seedTwo.pubkey, none⟩] ∧
      (selfPaying.sign [seedTwo]).1.compileMessage.isOk = false ∧
      (payerSlot.partialSign [seedOne, seedTwo]).2 = .error (.unknownSigner seedTwo.pubkey) ∧
      (payerSlot.partialSign [seedOne, seedTwo]).1.signatures ≠ payerSlot.signatures ∧
      (selfPaying.addSignature seedTwo.pubkey .zero).2 = .error (.unknownSigner seedTwo.pubkey) ∧
      (selfPaying.addSignature seedTwo.pubkey .zero).1.signatures ≠ selfPaying.signatures := by
  decide +kernel

/-- A failed signing call changes only what it wrote. A failed `sign` failed in compiling the
unsigned slots it wrote for its signers, which stay, so that compiling keeps failing with the same
error; or a signer could not sign the message: the slots are lined up with its signers and hold
only signatures over it by the signers before the failing one. A failed `partialSign` or
`addSignature` leaves the message the transaction compiles to as it was: when its own compile
failed nothing changed; otherwise the slots were lined up with the message's signers, keeping their
signatures only if they already named them, and `partialSign` may have written signatures of the
signers before the one that failed. -/
theorem failed_signing_keeps_message {S : Type} [Signer S] :
    (∀ (tx tx' : Transaction) (signers : List S) (e : SolError), tx.sign signers = (tx', .error e) →
      (tx' = { tx with signatures := (dedupSigners signers).map fun k => ⟨Signer.pubkey k, none⟩ } ∧
        tx'.compileMessage = .error e) ∨
      ∃ m pre k post,
        ({ tx with signatures := (dedupSigners signers).map fun k => ⟨Signer.pubkey k, none⟩ } :
          Transaction).compileMessage = .ok m ∧ tx'.compileMessage = .ok m ∧
        tx'.signatures.map (·.pubkey) = m.accountKeys.take m.header.numRequiredSignatures.toNat ∧
        dedupSigners signers = pre ++ k :: post ∧ Signer.trySignMessage k m.encode = .error e ∧
        ∀ s ∈ tx'.signatures, s.signature = none ∨
          ∃ k' ∈ pre, ∃ sig, Signer.trySignMessage k' m.encode = .ok sig ∧
            s = ⟨Signer.pubkey k', some sig⟩) ∧
    (∀ (tx tx' : Transaction) (signers : List S) (e : SolError),
      tx.partialSign signers = (tx', .error e) →
      tx'.compileMessage = tx.compileMessage ∧ tx' = { tx with signatures := tx'.signatures } ∧
      ((∃ e', tx.compileMessage = .error e') → tx' = tx) ∧
      ∀ m, tx.compileMessage = .ok m →
        tx'.signatures.map (·.pubkey) = m.accountKeys.take m.header.numRequiredSignatures.toNat ∧
        ∃ pre k post, dedupSigners signers = pre ++ k :: post ∧
          (Signer.trySignMessage k m.encode = .error e ∨
            ∃ sig, Signer.trySignMessage k m.encode = .ok sig ∧ e = .unknownSigner (Signer.pubkey k) ∧
              Signer.pubkey k ∉ m.accountKeys.take m.header.numRequiredSignatures.toNat) ∧
          ∀ (i : Nat) (s : SignerSlot), tx'.signatures[i]? = some s →
            (tx.realign m).signatures[i]? = some s ∨
              ∃ k' ∈ pre, ∃ sig, Signer.trySignMessage k' m.encode = .ok sig ∧
                s = ⟨Signer.pubkey k', some sig⟩) ∧
    (∀ (tx tx' : Transaction) (k : Address) (sig : Signature) (e : SolError),
      tx.addSignature k sig = (tx', .error e) →
      tx'.compileMessage = tx.compileMessage ∧ ((∃ e', tx.compileMessage = .error e') → tx' = tx) ∧
      ∀ m, tx.compileMessage = .ok m →
        tx' = tx.realign m ∧ k ∉ m.accountKeys.take m.header.numRequiredSignatures.toNat) :=
  ⟨fun _ _ _ _ h => sign_error h, fun _ _ _ _ h => partialSign_error h,
    fun _ _ _ _ _ h => addSignature_error h⟩

/-- A signer that names its key but cannot reach it, as a hardware wallet that is unplugged. -/
private structure DetachedSigner where
  key : Address

private instance : Signer DetachedSigner :=
  ⟨DetachedSigner.key, fun _ _ => .error (.signingError "device unavailable")⟩

/-- Signing `selfPaying` by a detached signer of its payer fails after compiling: the payer's slot
stays unsigned and the transaction still compiles. Signing it with a stranger fails in the compile
and leaves the stranger's slot, on which compiling fails in the same way; attaching the stranger's
signature fails and keeps the message. -/
theorem failed_signing_keeps_message_stranger :
    (selfPaying.sign [DetachedSigner.mk seedOne.pubkey]).2 = .error (.signingError "device unavailable") ∧
      (selfPaying.sign [DetachedSigner.mk seedOne.pubkey]).1.compileMessage.isOk = true ∧
      (∀ s ∈ (selfPaying.sign [DetachedSigner.mk seedOne.pubkey]).1.signatures, s.signature = none) ∧
      (selfPaying.sign [seedTwo]).2 = .error (.unknownSigner seedTwo.pubkey) ∧
      (selfPaying.sign [seedTwo]).1.compileMessage = .error (.unknownSigner seedTwo.pubkey) ∧
      (selfPaying.addSignature seedTwo.pubkey .zero).2 = .error (.unknownSigner seedTwo.pubkey) ∧
      (selfPaying.addSignature seedTwo.pubkey .zero).1.compileMessage = selfPaying.compileMessage := by
  obtain ⟨hd, hs, ha⟩ : (selfPaying.sign [DetachedSigner.mk seedOne.pubkey]).2 =
        .error (.signingError "device unavailable") ∧
      (selfPaying.sign [seedTwo]).2 = .error (.unknownSigner seedTwo.pubkey) ∧
      (selfPaying.addSignature seedTwo.pubkey .zero).2 = .error (.unknownSigner seedTwo.pubkey) := by
    decide +kernel
  have hstranger := (failed_signing_keeps_message.1 _ _ _ _ (txResult_eq_of_snd' hs))
  have hcompiled : (selfPaying.sign [DetachedSigner.mk seedOne.pubkey]).1.compileMessage.isOk = true := by
    decide +kernel
  obtain ⟨m, pre, k, post, -, -, -, hL, -, hslots⟩ :=
    (failed_signing_keeps_message.1 _ _ _ _ (txResult_eq_of_snd' hd)).resolve_left fun h => by
      simp [h.2, Except.isOk, Except.toBool] at hcompiled
  obtain rfl : pre = [] := by
    cases pre with
    | nil => rfl
    | cons x pre => simp [dedupSigners, dedupSigners.go] at hL
  refine ⟨hd, hcompiled, fun s hs => ?_, hs, ?_, ha,
    ((@failed_signing_keeps_message Keypair _).2.2 _ _ _ _ _ (txResult_eq_of_snd' ha)).1⟩
  · simpa using hslots s hs
  · rcases hstranger with h | ⟨m, pre, k, post, -, -, -, -, hk, -⟩
    · exact h.2
    · simp at hk

end Transaction

end ChainTx
