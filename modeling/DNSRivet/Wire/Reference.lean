/-
What a name in a message is, and what RFC 5452 asks of a response, told without the code. `NameAt` derives
the labels of a name byte by byte, following compression pointers; `walk_name` reads exactly the names
that take at most 128 pointers and 255 bytes (`expand_iff`). `Echoes` is the acceptance rule over such
names, and `validate_response` decides it (`validateResponse_reference`).
-/
import DNSRivet.Wire.Question

namespace DNSRivet.Wire

open DNSRivet.Base

/-! ## Names -/

/-- The name at an offset: the contents of its labels, the number of pointers on the way, and the offset
after its local bytes. -/
inductive NameAt (m : Bytes) : Nat → List Bytes → Nat → Nat → Prop
  | root {cursor : Nat} : m[cursor]? = some 0 → NameAt m cursor [] 0 (cursor + 1)
  | label {cursor jumps stop : Nat} {len : UInt8} {label : Bytes} {labels : List Bytes} : m[cursor]? = some len →
      1 ≤ len.toNat → len.toNat ≤ 63 → slice m (cursor + 1) (cursor + 1 + len.toNat) = some label →
      NameAt m (cursor + 1 + len.toNat) labels jumps stop → NameAt m cursor (label :: labels) jumps stop
  | pointer {cursor jumps stop : Nat} {high low : UInt8} {labels : List Bytes} : m[cursor]? = some high →
      192 ≤ high.toNat → m[cursor + 1]? = some low → NameAt m ((high.toNat - 192) * 256 + low.toNat) labels jumps stop →
      NameAt m cursor labels (jumps + 1) (cursor + 2)

/-- The labels in wire form, each behind its length, the root label last. -/
def wireForm (labels : List Bytes) : List Bytes := labels.map (fun label => UInt8.ofNat label.length :: label) ++ [[0]]

/-- The bytes of the wire form. -/
def wireLen (labels : List Bytes) : Nat := (wireForm labels).flatten.length

/-- The name at an offset, within the limits of the protocol. -/
def Expands (m : Bytes) (start : Nat) (labels : List Bytes) (stop : Nat) : Prop :=
  ∃ jumps ≤ 128, NameAt m start labels jumps stop ∧ wireLen labels ≤ 255

theorem wireForm_cons (label : Bytes) (labels : List Bytes) :
    wireForm (label :: labels) = (UInt8.ofNat label.length :: label) :: wireForm labels := rfl

@[simp] theorem wireLen_nil : wireLen [] = 1 := rfl

@[simp] theorem wireLen_cons (label : Bytes) (labels : List Bytes) :
    wireLen (label :: labels) = 1 + label.length + wireLen labels := by
  simp only [wireLen, wireForm_cons, List.flatten_cons, List.length_append, List.length_cons]
  omega

/-! ## The bits of a length byte -/

set_option maxRecDepth 20000 in
theorem lengthBits : ∀ b : Fin 256,
    ((UInt8.ofNat b.val &&& 0xc0 = 0xc0) ↔ 192 ≤ b.val) ∧ ((UInt8.ofNat b.val &&& 0xc0 = 0) ↔ b.val ≤ 63) ∧
      (192 ≤ b.val → (UInt8.ofNat b.val &&& 0x3f).toNat = b.val - 192) := by
  decide

theorem pointerByte_iff (b : UInt8) : b &&& 0xc0 = 0xc0 ↔ 192 ≤ b.toNat := by
  simpa using (lengthBits ⟨b.toNat, b.toNat_lt⟩).1

theorem labelByte_iff (b : UInt8) : b &&& 0xc0 = 0 ↔ b.toNat ≤ 63 := by
  simpa using (lengthBits ⟨b.toNat, b.toNat_lt⟩).2.1

/-- The offset a pointer holds. -/
theorem pointer_offset {high low : UInt8} (h : 192 ≤ high.toNat) :
    ((high &&& 0x3f).toNat <<< 8) ||| low.toNat = (high.toNat - 192) * 256 + low.toNat := by
  have hbits : (high &&& 0x3f).toNat = high.toNat - 192 := by
    simpa using (lengthBits ⟨high.toNat, high.toNat_lt⟩).2.2 h
  rw [hbits, ← Nat.shiftLeft_add_eq_or_of_lt low.toNat_lt, Nat.shiftLeft_eq]

/-- A label in wire form is its length byte and its contents. -/
theorem slice_label {m : Bytes} {cursor : Nat} {len : UInt8} (h : m[cursor]? = some len) (s : Bytes) :
    slice m cursor (cursor + 1 + len.toNat) = some s ↔
      ∃ label, slice m (cursor + 1) (cursor + 1 + len.toNat) = some label ∧ s = len :: label := by
  have hlt := lt_length_of_getElem? h
  have hdrop : m.drop cursor = len :: m.drop (cursor + 1) := by
    rw [List.drop_eq_getElem_cons hlt, (List.getElem?_eq_some_iff.1 h).2]
  unfold slice
  by_cases hin : cursor + 1 + len.toNat ≤ m.length
  · rw [if_pos ⟨by omega, hin⟩, if_pos ⟨by omega, hin⟩, hdrop,
      show cursor + 1 + len.toNat - cursor = (cursor + 1 + len.toNat - (cursor + 1)) + 1 by omega, List.take_succ_cons]
    constructor
    · rintro h
      exact ⟨_, rfl, (Option.some.inj h).symm⟩
    · rintro ⟨label, hlabel, rfl⟩
      rw [Option.some.inj hlabel]
  · rw [if_neg fun hc => hin hc.2, if_neg fun hc => hin hc.2]
    simp

/-! ## walk_name reads these names -/

/-- What a walk reads is a name, within the limits that were left. -/
theorem expandLoop_nameAt {m : Bytes} :
    ∀ (fuel cursor : Nat) (stop : Option Nat) (jumps nameLen : Nat) {ls : List Bytes} {e : Nat}, jumps ≤ 128 →
      nameLen ≤ 254 → expandLoop m fuel cursor stop jumps nameLen = some (ls, e) →
      ∃ labels js e0, NameAt m cursor labels js e0 ∧ ls = wireForm labels ∧ e = stop.getD e0 ∧ jumps + js ≤ 128 ∧
        nameLen + wireLen labels ≤ 255
  | 0, _, _, _, _, _, _, _, _, h => by cases h
  | fuel + 1, cursor, stop, jumps, nameLen, ls, e, hj, hn, h => by
    rcases expandLoop_cases h with ⟨high, low, hh, hptr, hl, -, hlt, h⟩ | ⟨h0, rfl, rfl⟩ |
      ⟨len, label, ls', hl, -, h63, -, hz, hs, hlt, rfl, hrest⟩
    · have h192 := (pointerByte_iff high).1 hptr
      rw [pointer_offset h192] at h
      obtain ⟨labels, js, e0, hname, rfl, rfl, hjs, hlen⟩ := expandLoop_nameAt fuel _ _ _ _ (by omega) hn h
      exact ⟨labels, js + 1, cursor + 2, .pointer hh h192 hl hname, rfl, by simp, by omega, hlen⟩
    · exact ⟨[], 0, cursor + 1, .root h0, rfl, rfl, by omega, by simp; omega⟩
    · obtain ⟨labels, js, e0, hname, rfl, rfl, hjs, hlen⟩ := expandLoop_nameAt fuel _ _ _ _ hj (by omega) hrest
      obtain ⟨contents, hc, rfl⟩ := (slice_label hl label).1 hs
      have hclen : contents.length = len.toNat := by
        have := (slice_some hc).2.2.2
        omega
      have hpos : 1 ≤ len.toNat := Nat.one_le_iff_ne_zero.2 fun h0 => hz (UInt8.toNat_inj.1 h0)
      refine ⟨contents :: labels, js, e0, .label hl hpos ((labelByte_iff len).1 h63) hc hname, ?_, rfl, hjs, ?_⟩
      · rw [wireForm_cons, hclen, UInt8.ofNat_toNat]
      · rw [wireLen_cons, hclen]
        omega

/-- A name within the limits that are left is what a walk with enough fuel reads. -/
theorem NameAt.expandLoop {m : Bytes} {cursor js e0 : Nat} {labels : List Bytes} (h : NameAt m cursor labels js e0) :
    ∀ (fuel : Nat) (stop : Option Nat) (jumps nameLen : Nat), jumps + js ≤ 128 → nameLen + wireLen labels ≤ 255 →
      (128 - jumps) + (254 - nameLen) < fuel →
      Wire.expandLoop m fuel cursor stop jumps nameLen = some (wireForm labels, stop.getD e0) := by
  induction h with
  | root h0 =>
    intro fuel stop jumps nameLen _ _ hf
    obtain _ | fuel := fuel
    · omega
    simp only [Wire.expandLoop, h0, Option.bind_eq_bind, Option.bind_some]
    rfl
  | @label cursor js e0 len label labels hl hpos h63 hs hname ih =>
    intro fuel stop jumps nameLen hj hn hf
    obtain _ | fuel := fuel
    · omega
    have hlen : label.length = len.toNat := by
      have := (slice_some hs).2.2.2
      omega
    rw [wireLen_cons, hlen] at hn
    have hroot : 1 ≤ wireLen labels := by
      cases labels with
      | nil => exact Nat.le_refl _
      | cons l ls => rw [wireLen_cons]; omega
    have hptr : ¬ len &&& 0xc0 = 0xc0 := fun hc => by
      have := (pointerByte_iff len).1 hc
      omega
    have hshort : ¬ (len &&& 0xc0 ≠ 0 ∨ 63 < len) := by
      rintro (hc | hc)
      · exact hc ((labelByte_iff len).2 h63)
      · have := UInt8.lt_iff_toNat_lt.1 hc
        have h63' : (63 : UInt8).toNat = 63 := rfl
        omega
    have hz : len ≠ 0 := by
      rintro rfl
      exact absurd hpos (by decide)
    have hwire : slice m cursor (cursor + 1 + len.toNat) = some (len :: label) := (slice_label hl _).2 ⟨label, hs, rfl⟩
    simp only [Wire.expandLoop, hl, Option.bind_eq_bind, Option.bind_some, if_neg hptr, if_neg hshort, if_neg hz, hwire]
    rw [if_neg (by omega), ih fuel stop jumps (nameLen + (1 + len.toNat)) hj (by omega) (by omega), Option.bind_some,
      wireForm_cons, hlen, UInt8.ofNat_toNat]
  | @pointer cursor js e0 high low labels hh h192 hl hname ih =>
    intro fuel stop jumps nameLen hj hn hf
    obtain _ | fuel := fuel
    · omega
    have hin : (high.toNat - 192) * 256 + low.toNat < m.length := by
      cases hname with
      | root h => exact lt_length_of_getElem? h
      | label h => exact lt_length_of_getElem? h
      | pointer h => exact lt_length_of_getElem? h
    simp only [Wire.expandLoop, hh, hl, Option.bind_eq_bind, Option.bind_some, if_pos ((pointerByte_iff high).2 h192)]
    rw [pointer_offset h192, if_neg (by omega), ih fuel _ (jumps + 1) nameLen (by omega) hn (by omega)]
    rfl

/-- `walk_name` reads exactly the names of at most 128 pointers and 255 bytes. -/
theorem expand_iff {m : Bytes} {start stop : Nat} {ls : List Bytes} :
    expand m start = some (ls, stop) ↔ ∃ labels, Expands m start labels stop ∧ ls = wireForm labels := by
  constructor
  · intro h
    obtain ⟨labels, js, e0, hname, rfl, rfl, hj, hn⟩ := expandLoop_nameAt _ _ _ _ _ (by omega) (by omega) h
    exact ⟨labels, ⟨js, by omega, hname, by omega⟩, rfl⟩
  · rintro ⟨labels, ⟨js, hj, hname, hn⟩, rfl⟩
    exact hname.expandLoop walkFuel none 0 0 (by omega) (by omega) (by unfold walkFuel; omega)

/-! ## Equal names -/

/-- The labels pair up, equal up to ASCII case. -/
def SameName (labels labels' : List Bytes) : Prop := List.Forall₂ (fun a b => lowerAll a = lowerAll b) labels labels'

/-- Equal names have equal wire forms, up to case. -/
theorem foldCase_wireForm {labels labels' : List Bytes} :
    foldCase (wireForm labels) = foldCase (wireForm labels') ↔ SameName labels labels' := by
  have hlabel : ∀ l l' : Bytes, lowerAll (UInt8.ofNat l.length :: l) = lowerAll (UInt8.ofNat l'.length :: l') ↔
      lowerAll l = lowerAll l' := by
    intro l l'
    rw [lowerAll_cons, lowerAll_cons, List.cons.injEq]
    refine ⟨And.right, fun h => ⟨?_, h⟩⟩
    have hlen : l.length = l'.length := by simpa using congrArg List.length h
    rw [hlen]
  unfold foldCase wireForm SameName
  rw [List.map_append, List.map_append, List.append_left_inj, List.map_map, List.map_map, ← List.forall₂_eq_eq_eq,
    List.forall₂_map_left_iff, List.forall₂_map_right_iff]
  simp only [Function.comp, hlabel]

/-! ## Responses that echo a query -/

/-- The opcode bits of a message. -/
def opcodeBits (message : Bytes) : UInt8 := byteAt message 2 &&& 0x78

/-- RFC 5452: a response to the query by QR bit, opcode, question count and, where there is one question, the
question. -/
structure Echoes (q r : Bytes) : Prop where
  query : headerLen ≤ q.length
  response : headerLen ≤ r.length
  isResponse : byteAt r 2 &&& 0x80 ≠ 0
  opcode : opcodeBits r = opcodeBits q
  qdcount : readU16 r 4 = readU16 q 4
  question : readU16 q 4 = some 1 → ∃ labels stop labels' stop' fields,
    Expands q headerLen labels stop ∧ Expands r headerLen labels' stop' ∧ SameName labels labels' ∧
    slice q stop (stop + 4) = some fields ∧ slice r stop' (stop' + 4) = some fields

theorem opcode_iff (q r : Bytes) : (byteAt q 2 ^^^ byteAt r 2) &&& 0x78 = 0 ↔ opcodeBits r = opcodeBits q := by
  exact xor_and_eq_zero.trans eq_comm

/-- Questions in terms of names. -/
theorem question_iff {q r : Bytes} : ((question q).isSome ∧ question r = question q) ↔
    ∃ labels stop labels' stop' fields, Expands q headerLen labels stop ∧ Expands r headerLen labels' stop' ∧
      SameName labels labels' ∧ slice q stop (stop + 4) = some fields ∧ slice r stop' (stop' + 4) = some fields := by
  constructor
  · rintro ⟨hsome, heq⟩
    obtain ⟨⟨folded, fields⟩, hq⟩ := Option.isSome_iff_exists.1 hsome
    obtain ⟨ls, stop, hn, hf, rfl⟩ := question_some hq
    obtain ⟨ls', stop', hn', hf', hfold⟩ := question_some (heq.trans hq)
    obtain ⟨labels, hl, rfl⟩ := expand_iff.1 hn
    obtain ⟨labels', hl', rfl⟩ := expand_iff.1 hn'
    exact ⟨labels, stop, labels', stop', fields, hl, hl', foldCase_wireForm.1 hfold, hf, hf'⟩
  · rintro ⟨labels, stop, labels', stop', fields, hl, hl', hsame, hf, hf'⟩
    have hn := expand_iff.2 ⟨labels, hl, rfl⟩
    have hn' := expand_iff.2 ⟨labels', hl', rfl⟩
    have hq : question q = some (foldCase (wireForm labels), fields) := by
      simp only [question, hn, hf, Option.bind_eq_bind, Option.bind_some]
    have hr : question r = some (foldCase (wireForm labels'), fields) := by
      simp only [question, hn', hf', Option.bind_eq_bind, Option.bind_some]
    rw [hq, hr, foldCase_wireForm.2 hsame]
    exact ⟨rfl, rfl⟩

/-- The comparison of decoded questions: both names by `read_name`, then the four type and class bytes. -/
def decodedQuestionsMatch (query response : Bytes) : Option Bool := do
  let (name, queryEnd) ← readName query headerLen
  let sentFields ← slice query queryEnd (queryEnd + 4)
  let (echoed, responseEnd) ← readName response headerLen
  let echoedFields ← slice response responseEnd (responseEnd + 4)
  some (name == echoed && sentFields == echoedFields)

/-- `validate_response` accepts exactly the responses that echo the query; and its comparison on the fly
has the outcome of decoding both questions. -/
theorem validateResponse_reference (q r : Bytes) :
    (validateResponse q r = .ok () ↔ Echoes q r) ∧ questionsMatch q r = decodedQuestionsMatch q r := by
  constructor
  · rw [validateResponse_ok_iff, opcode_iff, question_iff]
    constructor
    · rintro ⟨h1, h2, h3, h4, h5, h6⟩
      exact ⟨h1, h2, h3, h4, h5, h6⟩
    · rintro ⟨h1, h2, h3, h4, h5, h6⟩
      exact ⟨h1, h2, h3, h4, h5, h6⟩
  · rw [questionsMatch_eq]
    unfold decodedQuestionsMatch
    simp only [readName_eq, Option.bind_eq_bind]
    cases hq : expand q headerLen with
    | none => rfl
    | some nq =>
      simp only [Option.map_some, Option.bind_some]
      cases slice q nq.2 (nq.2 + 4) with
      | none => rfl
      | some sent =>
        simp only [Option.bind_some]
        cases hr : expand r headerLen with
        | none => rfl
        | some nr =>
          simp only [Option.map_some, Option.bind_some]
          have hname : (lowerAll nq.1.flatten == lowerAll nr.1.flatten) = (foldCase nq.1 == foldCase nr.1) := by
            rw [Bool.eq_iff_iff, beq_iff_eq, beq_iff_eq, lowerAll_flatten_inj (expand_ok hq).1 (expand_ok hr).1]
          rw [hname]

end DNSRivet.Wire
