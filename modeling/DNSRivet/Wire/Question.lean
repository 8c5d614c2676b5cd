/-
What `validate_response` accepts. `question` is the question a message asks as RFC 5452 compares
it: the labels of QNAME up to ASCII case and the four QTYPE/QCLASS bytes. The allocation-free
`questions_match` decides equality of the two messages' questions (`questionsMatch_iff`), so the
verdict depends on the query through its opcode, QDCOUNT and question only, and on the response
through those and its QR bit. Editing a response that was accepted, its ID above all, keeps it
accepted as long as its question's name still reads the same (`question_edit`).
-/
import DNSRivet.Wire.Message

namespace DNSRivet.Wire

open DNSRivet.Base

/-- The first question of a message: the labels of its name with case folded, and its type and
class bytes. -/
def question (message : Bytes) : Option (List Bytes × Bytes) := do
  let (labels, stop) ← expand message headerLen
  let fields ← slice message stop (stop + 4)
  some (foldCase labels, fields)

theorem question_some {m : Bytes} {labels : List Bytes} {fields : Bytes} (h : question m = some (labels, fields)) :
    ∃ ls e, expand m headerLen = some (ls, e) ∧ slice m e (e + 4) = some fields ∧ labels = foldCase ls := by
  simp only [question, Option.bind_eq_bind, Option.bind_eq_some_iff, Option.some.injEq, Prod.mk.injEq] at h
  obtain ⟨⟨ls, e⟩, h1, f, h2, rfl, rfl⟩ := h
  exact ⟨ls, e, h1, h2, rfl⟩

/-! ## questions_match -/

/-- The echo visitor over the labels from byte `p` on compares exactly those bytes of the name. -/
theorem echoVisit_foldl (name : Bytes) :
    ∀ (ls : List Bytes) (p : Nat) (b : Bool), (∀ l ∈ ls, l ≠ []) →
      ls.foldl (echoVisit name) (p, b) =
        (p + ls.flatten.length,
          b && (lowerAll ((name.drop p).take ls.flatten.length) == lowerAll ls.flatten))
  | [], p, b, _ => by simp
  | l :: ls, p, b, h => by
    have hl : l ≠ [] := h l (List.mem_cons_self ..)
    have hpos : 0 < l.length := List.length_pos_of_ne_nil hl
    rw [List.foldl_cons, echoVisit, echoVisit_foldl name ls _ _ fun x hx => h x (List.mem_cons_of_mem _ hx)]
    simp only [List.flatten_cons, List.length_append, lowerAll_append, Prod.mk.injEq]
    refine ⟨by omega, ?_⟩
    rw [Bool.and_assoc]
    congr 1
    -- the slice read succeeds exactly when the name is long enough for the label
    have hsplit : (name.drop p).take (l.length + ls.flatten.length) =
        (name.drop p).take l.length ++ (name.drop (p + l.length)).take ls.flatten.length := by
      rw [List.take_add, List.drop_drop]
    rw [hsplit, lowerAll_append, Bool.eq_iff_iff]
    simp only [Bool.and_eq_true, beq_iff_eq, Option.any_eq_true]
    constructor
    · rintro ⟨⟨sent, hs, he⟩, ht⟩
      obtain ⟨-, -, rfl, -⟩ := slice_some hs
      rw [Nat.add_sub_cancel_left] at he
      rw [he, ht]
    · intro he
      have hlen : p + l.length ≤ name.length := by
        by_contra hc
        have := congrArg List.length he
        simp only [List.length_append, lowerAll_length, List.length_take, List.length_drop] at this
        omega
      have h1 : ((name.drop p).take l.length).length = l.length := by
        rw [List.length_take, List.length_drop]; omega
      obtain ⟨e1, e2⟩ := List.append_inj he (by simpa using h1)
      refine ⟨⟨(name.drop p).take l.length, ?_, e1⟩, e2⟩
      rw [slice, if_pos ⟨by omega, hlen⟩, Nat.add_sub_cancel_left]

/-- `questions_match` in terms of the two expanded names. -/
theorem questionsMatch_eq (q r : Bytes) :
    questionsMatch q r = (expand q headerLen).bind fun nq => (slice q nq.2 (nq.2 + 4)).bind fun sent =>
      (expand r headerLen).bind fun nr => (slice r nr.2 (nr.2 + 4)).bind fun echoed =>
        some (foldCase nq.1 == foldCase nr.1 && sent == echoed) := by
  unfold questionsMatch
  rw [walkName_eq]
  cases hq : expand q headerLen with
  | none => rfl
  | some nq =>
    simp only [Option.map_some, Option.bind_eq_bind, Option.bind_some, foldl_append_flatten, List.nil_append]
    cases slice q nq.2 (nq.2 + 4) with
    | none => simp only [Option.bind_none]
    | some sent =>
      simp only [Option.bind_some]
      rw [walkName_eq]
      cases hr : expand r headerLen with
      | none => simp only [Option.map_none, Option.bind_none]
      | some nr =>
        have hne := (expand_ok hr).1.ne_nil
        have hname : (lowerAll (nq.1.flatten.take nr.1.flatten.length) == lowerAll nr.1.flatten &&
            nq.1.flatten.length == nr.1.flatten.length) = (foldCase nq.1 == foldCase nr.1) := by
          rw [Bool.eq_iff_iff]
          simp only [Bool.and_eq_true, beq_iff_eq]
          rw [← lowerAll_flatten_inj (expand_ok hq).1 (expand_ok hr).1]
          constructor
          · rintro ⟨h1, h2⟩
            rwa [← h2, List.take_length] at h1
          · intro h
            have hl : nq.1.flatten.length = nr.1.flatten.length := by simpa using congrArg List.length h
            exact ⟨by rw [← hl, List.take_length]; exact h, hl⟩
        simp only [Option.map_some, Option.bind_some, echoVisit_foldl _ _ _ _ hne, Nat.zero_add, List.drop_zero,
          Bool.true_and, hname]

theorem questionsMatch_iff (q r : Bytes) :
    questionsMatch q r = some true ↔ (question q).isSome ∧ question r = question q := by
  rw [questionsMatch_eq]
  unfold question
  cases expand q headerLen with
  | none => simp
  | some nq =>
    simp only [Option.bind_eq_bind, Option.bind_some]
    cases slice q nq.2 (nq.2 + 4) with
    | none => simp
    | some sent =>
      simp only [Option.bind_some, Option.isSome_some, true_and]
      cases expand r headerLen with
      | none => simp
      | some nr =>
        simp only [Option.bind_some]
        cases slice r nr.2 (nr.2 + 4) with
        | none => simp
        | some echoed =>
          simp only [Option.bind_some, Option.some.injEq, Bool.and_eq_true, beq_iff_eq, Prod.mk.injEq]
          exact ⟨fun h => ⟨h.1.symm, h.2.symm⟩, fun h => ⟨h.1.symm, h.2.symm⟩⟩

/-! ## validate_response -/

/-- What `validate_response` accepts: a response of at least a header with QR set, the query's
opcode and QDCOUNT and, for a single-question query, the query's question. -/
theorem validateResponse_ok_iff (q r : Bytes) :
    validateResponse q r = .ok () ↔
      headerLen ≤ q.length ∧ headerLen ≤ r.length ∧ byteAt r 2 &&& 0x80 ≠ 0 ∧
      (byteAt q 2 ^^^ byteAt r 2) &&& 0x78 = 0 ∧ readU16 r 4 = readU16 q 4 ∧
      (readU16 q 4 = some 1 → (question q).isSome ∧ question r = question q) := by
  unfold validateResponse
  by_cases hl : q.length < headerLen ∨ r.length < headerLen
  · rw [if_pos hl]
    simp only [reduceCtorEq, false_iff]
    rintro ⟨h1, h2, -⟩; omega
  · rw [if_neg hl]
    simp only [not_or, Nat.not_lt] at hl
    obtain ⟨nq, hq⟩ := readU16_isSome (m := q) (o := 4) (by have := hl.1; unfold headerLen at this; omega)
    obtain ⟨nr, hr⟩ := readU16_isSome (m := r) (o := 4) (by have := hl.2; unfold headerLen at this; omega)
    simp only [hl, true_and, hq, hr, Option.some.injEq, ← questionsMatch_iff]
    split
    · rename_i h; simp [h]
    · rename_i hqr
      split
      · rename_i hop; simp [hop]
      · rename_i hop
        simp only [ne_eq, not_not] at hop
        split
        · rename_i hc; simp [hc]
        · rename_i hc
          simp only [ne_eq, not_not] at hc
          subst hc
          split
          · rename_i h1; simp [hqr, hop, h1]
          · rename_i h1
            simp only [ne_eq, not_not] at h1
            subst h1
            split
            · rename_i hm; simp [hqr, hop, hm]
            · rename_i hm; simp [hqr, hop, hm]

/-- The verdict depends on the query through its opcode bits, QDCOUNT and question only. -/
theorem validateResponse_congr_query {q q' : Bytes} (r : Bytes) (hl : headerLen ≤ q.length)
    (hl' : headerLen ≤ q'.length) (hop : byteAt q 2 &&& 0x78 = byteAt q' 2 &&& 0x78)
    (hqd : readU16 q 4 = readU16 q' 4) (hq : readU16 q 4 = some 1 → question q = question q') :
    validateResponse q r = validateResponse q' r := by
  have hx : (byteAt q 2 ^^^ byteAt r 2) &&& 0x78 = 0 ↔ (byteAt q' 2 ^^^ byteAt r 2) &&& 0x78 = 0 := by
    rw [xor_and_eq_zero, xor_and_eq_zero, hop]
  have hm : readU16 q 4 = some 1 → (questionsMatch q r = some true ↔ questionsMatch q' r = some true) := by
    intro h
    rw [questionsMatch_iff, questionsMatch_iff, hq h]
  unfold validateResponse
  have hcond : (q.length < headerLen ∨ r.length < headerLen) ↔ (q'.length < headerLen ∨ r.length < headerLen) := by
    omega
  simp only [hcond, hx, hqd, ne_eq]
  rw [hqd] at hm
  cases h4 : readU16 q' 4 with
  | none => rfl
  | some n =>
    cases readU16 r 4 with
    | none => rfl
    | some nr =>
      by_cases h1 : n = 1
      · subst h1; simp only [hm h4]
      · simp only [h1, not_false_eq_true, if_true]

/-- QR and the opcode of a flags byte, together and apart. -/
theorem sameFlags {a b : UInt8} (h : a &&& 0xf8 = b &&& 0xf8) : a &&& 0x80 = b &&& 0x80 ∧ a &&& 0x78 = b &&& 0x78 := by
  constructor
  · rw [show (0x80 : UInt8) = 0xf8 &&& 0x80 from rfl, ← UInt8.and_assoc, h, UInt8.and_assoc]
  · rw [show (0x78 : UInt8) = 0xf8 &&& 0x78 from rfl, ← UInt8.and_assoc, h, UInt8.and_assoc]

/-- An edited copy of an accepted response with the same QR bit, opcode and QDCOUNT is accepted exactly
when, for a single-question message, it still asks the same question. -/
theorem validateResponse_edit {q r r' : Bytes} (h : validateResponse q r = .ok ()) (hl : headerLen ≤ r'.length)
    (h2 : byteAt r' 2 &&& 0xf8 = byteAt r 2 &&& 0xf8) (h4 : readU16 r' 4 = readU16 r 4) :
    validateResponse q r' = .ok () ↔ (readU16 r 4 = some 1 → question r' = question r) := by
  obtain ⟨hqr, hop⟩ := sameFlags h2
  rw [validateResponse_ok_iff, xor_and_eq_zero] at h ⊢
  obtain ⟨a1, a2, a3, a4, a5, a6⟩ := h
  rw [hqr, hop, h4, a5]
  simp only [a1, hl, a3, a4, ne_eq, not_false_eq_true, true_and]
  constructor
  · intro h h1
    rw [(h h1).2, (a6 h1).2]
  · intro h h1
    exact ⟨(a6 h1).1, by rw [h h1, (a6 h1).2]⟩

/-! ## Edited messages -/

/-- Overwrite the ID of a message. -/
def setId (message : Bytes) (id : UInt8 × UInt8) : Bytes := patch message 0 [id.1, id.2]

theorem setId_length {m : Bytes} {id : UInt8 × UInt8} (h : headerLen ≤ m.length) : (setId m id).length = m.length :=
  patch_length (by simp only [headerLen] at h; simp only [List.length_cons, List.length_nil]; omega)

/-- A new ID changes the first two bytes only. -/
theorem setId_other {m : Bytes} {id : UInt8 × UInt8} (h : headerLen ≤ m.length) {i : Nat} (hi : 2 ≤ i) :
    (setId m id)[i]? = m[i]? :=
  patch_outside (by simp only [headerLen] at h; simp only [List.length_cons, List.length_nil]; omega)
    (.inr (by simpa using hi))

theorem setId_agree {m : Bytes} (id : UInt8 × UInt8) (h : headerLen ≤ m.length) :
    AgreeOn (fun i => 2 ≤ i) m (setId m id) :=
  ⟨(setId_length h).symm, fun _ hi => (setId_other h hi).symm⟩

theorem setId_ident {m : Bytes} {id : UInt8 × UInt8} (h : headerLen ≤ m.length) :
    (setId m id)[0]? = some id.1 ∧ (setId m id)[1]? = some id.2 := by
  have hb : 0 + [id.1, id.2].length ≤ m.length := by
    simp only [headerLen] at h; simp only [List.length_cons, List.length_nil]; omega
  constructor
  · exact patch_inside (i := 0) hb (by simp)
  · exact patch_inside (i := 1) hb (by simp)

/-- The canonical name of the question, as `read_name` gives it. -/
def questionName (message : Bytes) : Option Bytes := (readName message headerLen).map (·.1)

/-- An edit outside the question changes the question exactly when it changes the question's name: the
edited bytes may be ones that the name points to. -/
theorem question_edit {r out : Bytes} {ls : List Bytes} {e : Nat} {fields : Bytes}
    (hn : expand r headerLen = some (ls, e)) (hs : slice r e (e + 4) = some fields)
    (hagree : ∀ i, headerLen ≤ i → i < e + 4 → r[i]? = out[i]?) :
    question out = question r ↔ questionName out = questionName r := by
  have h12 : headerLen = 12 := rfl
  have hqr : question r = some (foldCase ls, fields) := by
    simp only [question, hn, hs, Option.bind_eq_bind, Option.bind_some]
  have hnr : questionName r = some (lowerAll ls.flatten) := by
    simp only [questionName, readName_eq, hn, Option.map_some]
  rw [hqr, hnr]
  constructor
  · intro heq
    obtain ⟨ls', e', hn', -, hfold⟩ := question_some heq
    simp only [questionName, readName_eq, hn', Option.map_some]
    rw [(lowerAll_flatten_inj (expand_ok hn').1 (expand_ok hn).1).2 hfold.symm]
  · intro heq
    simp only [questionName, readName_eq] at heq
    cases hn' : expand out headerLen with
    | none => rw [hn'] at heq; cases heq
    | some p =>
      rw [hn'] at heq
      simp only [Option.map_some, Option.some.injEq] at heq
      have he : p.2 = e := expand_local hn hn' fun i h1 h2 => hagree i h1 (by omega)
      have hlo := (expand_bounds hn).1
      have hfields : slice out p.2 (p.2 + 4) = some fields := by
        rw [he]
        exact slice_of_same hs (by omega) fun i h1 h2 => hagree i (by omega) h2
      simp only [question, hn', hfields, Option.bind_eq_bind, Option.bind_some]
      rw [(lowerAll_flatten_inj (expand_ok hn').1 (expand_ok hn).1).1 heq]

end DNSRivet.Wire
