import ChainTx.Proofs.CompactLength
import ChainTx.Transaction.Wire
/-!
# Wire layouts and what a read takes

The wire form of a message is a layout: runs of bytes written as they are, and compact counts
(`WirePart`). Writing spells every count in its shortest form (`WirePart.render`); the reader
takes any spelling of a count (`ShortVec.Spells`). `LaysOut ps ss b` says that `b` lays out `ps`
with the count spellings `ss`. The spellings of a layout are fixed by its bytes, and the bytes are
the layout written out exactly when every spelling is the shortest (`LaysOut.render_eq_iff`).
-/

namespace ChainTx

/-- A part of a wire layout: bytes written as they are, or a compact count. -/
inductive WirePart where
  | raw (bytes : List UInt8)
  | count (n : Nat)

namespace WirePart

/-- The bytes of a part, a count in its shortest form. -/
def write : WirePart → List UInt8
  | raw bytes => bytes
  | count n => ShortVec.encode n

/-- The counts a part holds. -/
def countsOf : WirePart → List Nat
  | raw _ => []
  | count n => [n]

/-- A layout written out, every count in its shortest form. -/
def render (ps : List WirePart) : List UInt8 := ps.flatMap write

/-- The counts of a layout, in order. -/
def counts (ps : List WirePart) : List Nat := ps.flatMap countsOf

@[simp] theorem render_nil : render [] = [] := rfl

@[simp] theorem render_cons (p : WirePart) (ps : List WirePart) :
    render (p :: ps) = p.write ++ render ps := List.flatMap_cons

@[simp] theorem render_append (ps qs : List WirePart) : render (ps ++ qs) = render ps ++ render qs :=
  List.flatMap_append

theorem render_flatMap {α : Type} (f : α → List WirePart) (xs : List α) :
    render (xs.flatMap f) = xs.flatMap fun x => render (f x) :=
  List.flatMap_assoc

@[simp] theorem counts_nil : counts [] = [] := rfl

@[simp] theorem counts_cons (p : WirePart) (ps : List WirePart) :
    counts (p :: ps) = p.countsOf ++ counts ps := List.flatMap_cons

@[simp] theorem counts_append (ps qs : List WirePart) : counts (ps ++ qs) = counts ps ++ counts qs :=
  List.flatMap_append

theorem counts_flatMap {α : Type} (f : α → List WirePart) (xs : List α) :
    counts (xs.flatMap f) = xs.flatMap fun x => counts (f x) :=
  List.flatMap_assoc

end WirePart

open WirePart ShortVec

/-- `b` lays out the parts `ps`, its counts spelled in order by `ss`, each a spelling the reader
takes. -/
inductive LaysOut : List WirePart → List (List UInt8) → List UInt8 → Prop
  | nil : LaysOut [] [] []
  | raw {c : List UInt8} {ps : List WirePart} {ss : List (List UInt8)} {b : List UInt8} :
      LaysOut ps ss b → LaysOut (.raw c :: ps) ss (c ++ b)
  | count {n : Nat} {s : List UInt8} {ps : List WirePart} {ss : List (List UInt8)}
      {b : List UInt8} : Spells n s → LaysOut ps ss b → LaysOut (.count n :: ps) (s :: ss) (s ++ b)

namespace LaysOut

variable {ps qs : List WirePart} {ss ss' ts : List (List UInt8)} {b b' c : List UInt8}

theorem append (h : LaysOut ps ss b) (h' : LaysOut qs ts c) :
    LaysOut (ps ++ qs) (ss ++ ts) (b ++ c) := by
  induction h with
  | nil => exact h'
  | raw _ ih =>
    rw [List.cons_append, List.append_assoc]
    exact .raw ih
  | count hs _ ih =>
    rw [List.cons_append, List.cons_append, List.append_assoc]
    exact .count hs ih

theorem counts_lt (h : LaysOut ps ss b) : ∀ n ∈ counts ps, n < Nat.pow 2 32 := by
  induction h with
  | nil => simp [counts]
  | raw _ ih => simpa [countsOf] using ih
  | count hs _ ih =>
    intro n hn
    simp only [counts_cons, countsOf, List.singleton_append, List.mem_cons] at hn
    rcases hn with rfl | hn
    · exact hs.lt
    · exact ih n hn

/-- A layout whose counts fit is laid out by its written form, with the shortest spellings. -/
theorem of_render (hlt : ∀ n ∈ counts ps, n < Nat.pow 2 32) :
    LaysOut ps ((counts ps).map encode) (render ps) := by
  induction ps with
  | nil => exact .nil
  | cons p ps ih =>
    have hlt' : ∀ n ∈ counts ps, n < Nat.pow 2 32 := fun n hn =>
      hlt n (by rw [counts_cons]; exact List.mem_append_right _ hn)
    cases p with
    | raw c => exact .raw (ih hlt')
    | count n =>
      exact .count (spells_encode (hlt n (by simp [countsOf]))) (ih hlt')

theorem eq_render (h : LaysOut ps ss b) (hss : ss = (counts ps).map encode) : b = render ps := by
  induction h with
  | nil => rfl
  | raw _ ih =>
    rw [ih hss, render_cons]
    rfl
  | @count n s _ _ _ _ _ ih =>
    simp only [counts_cons, countsOf, List.singleton_append, List.map_cons,
      List.cons.injEq] at hss
    rw [ih hss.2, hss.1, render_cons]
    rfl

theorem unique (h : LaysOut ps ss b) (h' : LaysOut ps ss' b) : ss = ss' := by
  induction h generalizing ss' with
  | nil =>
    cases h'
    rfl
  | @raw c _ _ b₁ _ ih =>
    generalize hb : c ++ b₁ = B at h'
    cases h' with
    | raw h'' =>
      rw [← List.append_cancel_left hb] at h''
      exact ih h''
  | @count _ s _ _ b₁ hs _ ih =>
    generalize hb : s ++ b₁ = B at h'
    cases h' with
    | count hs' h'' =>
      obtain ⟨rfl, -⟩ := hs.unique hs' hb
      rw [← List.append_cancel_left hb] at h''
      rw [ih h'']

/-- Bytes that lay out a layout are its written form exactly when every count is spelled in the
shortest form. -/
theorem render_eq_iff (h : LaysOut ps ss b) : render ps = b ↔ ss = (counts ps).map encode := by
  constructor
  · intro he
    have hw := of_render h.counts_lt
    rw [he] at hw
    exact h.unique hw
  · intro hss
    exact (h.eq_render hss).symm

end LaysOut

/-- `b` lays out `ps` with exactly one list of count spellings, and it is the layout written out
exactly when each of those spellings is the shortest form of its count. -/
def WirePart.Respelling (ps : List WirePart) (b : List UInt8) : Prop :=
  (∃! ss, LaysOut ps ss b) ∧ ∀ ss, LaysOut ps ss b → (render ps = b ↔ ss = (counts ps).map encode)

theorem LaysOut.respelling {ps : List WirePart} {ss : List (List UInt8)} {b : List UInt8}
    (h : LaysOut ps ss b) : Respelling ps b :=
  ⟨⟨ss, h, fun _ h' => (h.unique h').symm⟩, fun _ h' => h'.render_eq_iff⟩

/-! ### What a read takes -/

namespace Reader

variable {α β : Type} {b rest : List UInt8}

theorem run_bind_eq_ok {r : Reader α} {f : α → Reader β} {y : β}
    (h : (r >>= f).run b = .ok (y, rest)) :
    ∃ x b₁, r.run b = .ok (x, b₁) ∧ (f x).run b₁ = .ok (y, rest) := by
  simp only [run, StateT.run_bind] at h ⊢
  cases hr : StateT.run r b with
  | error e =>
    rw [hr] at h
    cases h
  | ok p =>
    rw [hr] at h
    exact ⟨p.1, p.2, rfl, h⟩

theorem run_pure_eq_ok {x y : α} (h : (pure x : Reader α).run b = .ok (y, rest)) :
    x = y ∧ b = rest := by
  have hp : (pure x : Reader α).run b = .ok (x, b) := rfl
  rw [hp, Except.ok.injEq, Prod.mk.injEq] at h
  exact h

theorem run_throw_ne_ok {e : SolError} {y : α} : (throw e : Reader α).run b ≠ .ok (y, rest) := by
  intro h
  cases h

theorem readU8_inv {what : String} {x : UInt8} (h : (readU8 what).run b = .ok (x, rest)) :
    b = x :: rest := by
  cases b with
  | nil => cases h
  | cons y ys =>
    simp only [run, StateT.run, readU8, Except.ok.injEq, Prod.mk.injEq] at h
    rw [h.1, h.2]

theorem peekU8_inv {what : String} {x : UInt8} (h : (peekU8 what).run b = .ok (x, rest)) :
    rest = b ∧ ∃ t, b = x :: t := by
  cases b with
  | nil => cases h
  | cons y ys =>
    simp only [run, StateT.run, peekU8, Except.ok.injEq, Prod.mk.injEq] at h
    exact ⟨h.2.symm, ys, by rw [h.1]⟩

theorem readBytes_inv {n : Nat} {what : String} {x : List UInt8}
    (h : (readBytes n what).run b = .ok (x, rest)) : x.length = n ∧ b = x ++ rest := by
  simp only [run, StateT.run, readBytes] at h
  split_ifs at h with hlt
  simp only [Except.ok.injEq, Prod.mk.injEq] at h
  obtain ⟨rfl, rfl⟩ := h
  exact ⟨by rw [List.length_take]; omega, (List.take_append_drop n b).symm⟩

theorem readLength_inv {what : String} {n : Nat} (h : (readLength what).run b = .ok (n, rest)) :
    ∃ s, Spells n s ∧ b = s ++ rest := by
  simp only [run, StateT.run, readLength] at h
  split at h
  · rename_i n' used hd
    simp only [Except.ok.injEq, Prod.mk.injEq] at h
    obtain ⟨rfl, rfl⟩ := h
    obtain ⟨s, r, rfl, hlen, hs⟩ := decode_prefix hd
    refine ⟨s, hs, ?_⟩
    rw [← hlen, List.drop_left]
  · cases h
  · cases h

theorem readVec_inv {what : String} {v : List UInt8} (h : (readVec what).run b = .ok (v, rest)) :
    ∃ s, Spells v.length s ∧ b = s ++ (v ++ rest) := by
  obtain ⟨n, b₁, hn, hv⟩ := run_bind_eq_ok h
  obtain ⟨s, hs, rfl⟩ := readLength_inv hn
  obtain ⟨hlen, rfl⟩ := readBytes_inv hv
  exact ⟨s, hlen ▸ hs, rfl⟩

/-- Every successful read by `r` took, from the front of its input, a layout of the parts of the
value it read. -/
def TakesLayout (r : Reader α) (parts : α → List WirePart) : Prop :=
  ∀ {b x rest}, r.run b = .ok (x, rest) → ∃ ss bx, LaysOut (parts x) ss bx ∧ b = bx ++ rest

theorem TakesLayout.of_raw {r : Reader α} {bytes : α → List UInt8}
    (h : ∀ {b x rest}, r.run b = .ok (x, rest) → b = bytes x ++ rest) :
    TakesLayout r fun x => [.raw (bytes x)] :=
  fun hr => ⟨[], bytes _, by simpa using LaysOut.raw LaysOut.nil, h hr⟩

theorem TakesLayout.readMany {item : Reader α} {parts : α → List WirePart}
    (h : TakesLayout item parts) (n : Nat) {xs : List α}
    (hr : (readMany item n).run b = .ok (xs, rest)) :
    xs.length = n ∧ ∃ ss bx, LaysOut (xs.flatMap parts) ss bx ∧ b = bx ++ rest := by
  induction n generalizing b xs with
  | zero =>
    obtain ⟨rfl, rfl⟩ := run_pure_eq_ok hr
    exact ⟨rfl, [], [], .nil, rfl⟩
  | succ n ih =>
    obtain ⟨x, b₁, hx, hr⟩ := run_bind_eq_ok hr
    obtain ⟨xs', b₂, hxs, hr⟩ := run_bind_eq_ok hr
    obtain ⟨rfl, rfl⟩ := run_pure_eq_ok hr
    obtain ⟨ss, bx, hl, rfl⟩ := h hx
    obtain ⟨hlen, ss', bx', hl', rfl⟩ := ih hxs
    refine ⟨by rw [List.length_cons, hlen], ss ++ ss', bx ++ bx', ?_,
      (List.append_assoc _ _ _).symm⟩
    rw [List.flatMap_cons]
    exact hl.append hl'

theorem TakesLayout.counted {item : Reader α} {parts : α → List WirePart}
    (h : TakesLayout item parts) (what : String) :
    TakesLayout (Reader.readLength what >>= fun n => Reader.readMany item n)
      fun xs => .count xs.length :: xs.flatMap parts := by
  intro b xs rest hr
  obtain ⟨n, b₁, hn, h₁⟩ := run_bind_eq_ok hr
  obtain ⟨s, hs, rfl⟩ := readLength_inv hn
  obtain ⟨rfl, ss, bx, hl, rfl⟩ := h.readMany n h₁
  exact ⟨s :: ss, s ++ bx, .count hs hl, (List.append_assoc _ _ _).symm⟩

end Reader

/-! ### The parts of the wire form -/

open Reader

namespace MessageWire

/-- Keys with their compact count. -/
def keysParts (keys : List Address) : List WirePart :=
  .count keys.length :: keys.flatMap fun a => [.raw a.bytes]

/-- One compiled instruction: its program index, then its account indexes and its data, each
after its count. -/
def instructionParts (ix : CompiledInstruction) : List WirePart :=
  [.raw [ix.programIdIndex], .count ix.accounts.length, .raw ix.accounts, .count ix.data.length,
    .raw ix.data]

/-- Compiled instructions with their compact count. -/
def instructionsParts (ixs : List CompiledInstruction) : List WirePart :=
  .count ixs.length :: ixs.flatMap instructionParts

theorem render_keysParts (keys : List Address) : render (keysParts keys) = encodeKeys keys := by
  simp [keysParts, encodeKeys, write, render_flatMap]

theorem render_instructionParts (ix : CompiledInstruction) :
    render (instructionParts ix) = encodeInstruction ix := by
  simp [instructionParts, encodeInstruction, ShortVec.encodeBytes, write]

theorem render_instructionsParts (ixs : List CompiledInstruction) :
    render (instructionsParts ixs) = encodeInstructions ixs := by
  simp [instructionsParts, encodeInstructions, write, render_flatMap, render_instructionParts]

theorem readAddress_inv {what : String} {a : Address}
    (h : (readAddress what).run b = .ok (a, rest)) : b = a.bytes ++ rest := by
  obtain ⟨x, b₁, hx, h₁⟩ := run_bind_eq_ok h
  obtain ⟨-, rfl⟩ := readBytes_inv hx
  simp only [Address.ofBytes?] at h₁
  split_ifs at h₁ with hlen
  · obtain ⟨rfl, rfl⟩ := run_pure_eq_ok h₁
    rfl
  · exact absurd h₁ run_throw_ne_ok

theorem readBlockhash_inv {h : Blockhash} (hr : readBlockhash.run b = .ok (h, rest)) :
    b = h.bytes ++ rest := by
  obtain ⟨x, b₁, hx, h₁⟩ := run_bind_eq_ok hr
  obtain ⟨-, rfl⟩ := readBytes_inv hx
  simp only [Blockhash.ofBytes?] at h₁
  split_ifs at h₁ with hlen
  · obtain ⟨rfl, rfl⟩ := run_pure_eq_ok h₁
    rfl
  · exact absurd h₁ run_throw_ne_ok

theorem readKeys_takesLayout : TakesLayout readKeys keysParts := by
  have hkey : TakesLayout (readAddress "account key") fun a => [.raw a.bytes] :=
    TakesLayout.of_raw fun hr => readAddress_inv hr
  intro b keys rest h
  exact hkey.counted "account keys" h

theorem readInstruction_takesLayout : TakesLayout readInstruction instructionParts := by
  intro b ix rest h
  obtain ⟨p, b₁, hp, h₁⟩ := run_bind_eq_ok h
  obtain ⟨accounts, b₂, ha, h₂⟩ := run_bind_eq_ok h₁
  obtain ⟨data, b₃, hd, h₃⟩ := run_bind_eq_ok h₂
  obtain ⟨rfl, rfl⟩ := run_pure_eq_ok h₃
  obtain rfl := readU8_inv hp
  obtain ⟨s₁, hs₁, rfl⟩ := readVec_inv ha
  obtain ⟨s₂, hs₂, rfl⟩ := readVec_inv hd
  refine ⟨[s₁, s₂], _, .raw (.count hs₁ (.raw (.count hs₂ (.raw .nil)))), ?_⟩
  simp only [List.cons_append, List.nil_append, List.append_assoc, List.append_nil]

theorem readInstructions_takesLayout : TakesLayout readInstructions instructionsParts :=
  readInstruction_takesLayout.counted "instructions"

end MessageWire

theorem MessageHeader.read_inv {h : MessageHeader} {b rest : List UInt8}
    (hr : MessageHeader.read.run b = .ok (h, rest)) : b = h.encode ++ rest := by
  obtain ⟨x, b₁, hx, hr⟩ := run_bind_eq_ok hr
  obtain ⟨y, b₂, hy, hr⟩ := run_bind_eq_ok hr
  obtain ⟨z, b₃, hz, hr⟩ := run_bind_eq_ok hr
  obtain ⟨rfl, rfl⟩ := run_pure_eq_ok hr
  rw [readU8_inv hx, readU8_inv hy, readU8_inv hz]
  rfl

namespace TableLookup

/-- One table lookup: the table's address, then its writable and its readonly indexes, each
after its count. -/
def parts (l : TableLookup) : List WirePart :=
  [.raw l.accountKey.bytes, .count l.writableIndexes.length, .raw l.writableIndexes,
    .count l.readonlyIndexes.length, .raw l.readonlyIndexes]

theorem render_parts (l : TableLookup) : render l.parts = l.encode := by
  simp [parts, TableLookup.encode, ShortVec.encodeBytes, write]

theorem read_takesLayout : TakesLayout TableLookup.read parts := by
  intro b l rest h
  obtain ⟨key, b₁, hk, h₁⟩ := run_bind_eq_ok h
  obtain ⟨w, b₂, hw, h₂⟩ := run_bind_eq_ok h₁
  obtain ⟨r, b₃, hr, h₃⟩ := run_bind_eq_ok h₂
  obtain ⟨rfl, rfl⟩ := run_pure_eq_ok h₃
  obtain rfl := MessageWire.readAddress_inv hk
  obtain ⟨s₁, hs₁, rfl⟩ := readVec_inv hw
  obtain ⟨s₂, hs₂, rfl⟩ := readVec_inv hr
  refine ⟨[s₁, s₂], _, .raw (.count hs₁ (.raw (.count hs₂ (.raw .nil)))), ?_⟩
  simp only [List.append_assoc, List.append_nil]

end TableLookup

namespace TransactionWire

/-- Signatures with their compact count. -/
def signaturesParts (sigs : List Signature) : List WirePart :=
  .count sigs.length :: sigs.flatMap fun s => [.raw s.bytes]

theorem render_signaturesParts (sigs : List Signature) :
    render (signaturesParts sigs) = ShortVec.encode sigs.length ++ sigs.flatMap (·.bytes) := by
  simp [signaturesParts, write, render_flatMap]

theorem readSignature_inv {s : Signature} {b rest : List UInt8}
    (h : readSignature.run b = .ok (s, rest)) : b = s.bytes ++ rest := by
  obtain ⟨x, b₁, hx, h₁⟩ := run_bind_eq_ok h
  obtain ⟨-, rfl⟩ := readBytes_inv hx
  simp only [Signature.ofBytes?] at h₁
  split_ifs at h₁ with hlen
  · obtain ⟨rfl, rfl⟩ := run_pure_eq_ok h₁
    rfl
  · exact absurd h₁ run_throw_ne_ok

theorem readSignatures_takesLayout : TakesLayout readSignatures signaturesParts := by
  have hsig : TakesLayout readSignature fun s => [.raw s.bytes] :=
    TakesLayout.of_raw fun hr => readSignature_inv hr
  intro b sigs rest h
  exact hsig.counted "signatures" h

end TransactionWire

end ChainTx
