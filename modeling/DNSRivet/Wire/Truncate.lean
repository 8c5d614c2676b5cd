/-
What `truncate_to` makes of a response that is too long: the header with TC set and the record counts
zeroed, then the question section where it still reads and fits, and no question where it does not
(`truncateTo_cases`). A name in the question may be spelled through bytes that are rewritten or cut off;
where it is spelled in bytes that are kept, the result still answers the query
(`truncation_keeps_question`).
-/
import DNSRivet.Wire.Records
import DNSRivet.Wire.Spelling

namespace DNSRivet.Wire

open DNSRivet.Base

variable {m q r : Bytes} {limit : Nat}

/-! ## The edited header -/

/-- The message with TC set and its record counts zeroed, before it is cut. -/
def withTc (message : Bytes) : Bytes := patch (patch message 2 [byteAt message 2 ||| 0x02]) 6 [0, 0, 0, 0, 0, 0]

theorem withTc_length (h : headerLen ≤ m.length) : (withTc m).length = m.length := by
  unfold headerLen at h
  have h2 : (patch m 2 [byteAt m 2 ||| 0x02]).length = m.length := patch_length (by simp; omega)
  unfold withTc
  rw [patch_length (by simp; omega), h2]

theorem withTc_other (h : headerLen ≤ m.length) {i : Nat} (h2 : i ≠ 2) (h6 : i < 6 ∨ 12 ≤ i) :
    (withTc m)[i]? = m[i]? := by
  unfold headerLen at h
  have hlen : (patch m 2 [byteAt m 2 ||| 0x02]).length = m.length := patch_length (by simp; omega)
  unfold withTc
  rw [patch_outside (by simp; omega) (by simp; omega), patch_outside (by simp; omega) (by simp; omega)]

theorem withTc_flags (h : headerLen ≤ m.length) : (withTc m)[2]? = some (byteAt m 2 ||| 0x02) := by
  unfold headerLen at h
  have hlen : (patch m 2 [byteAt m 2 ||| 0x02]).length = m.length := patch_length (by simp; omega)
  unfold withTc
  rw [patch_outside (by simp; omega) (by simp)]
  exact patch_inside (i := 0) (by simp; omega) (by simp)

theorem withTc_counts (h : headerLen ≤ m.length) {i : Nat} (hi : i < 6) : (withTc m)[6 + i]? = some 0 := by
  unfold headerLen at h
  have hlen : (patch m 2 [byteAt m 2 ||| 0x02]).length = m.length := patch_length (by simp; omega)
  unfold withTc
  rw [patch_inside (by simp; omega) (by simpa using hi)]
  obtain rfl | rfl | rfl | rfl | rfl | rfl : i = 0 ∨ i = 1 ∨ i = 2 ∨ i = 3 ∨ i = 4 ∨ i = 5 := by omega
  all_goals rfl

/-- What setting TC and zeroing the record counts writes. -/
def tcBytes (message : Bytes) (i : Nat) : Option UInt8 :=
  if i = 2 then some (byteAt message 2 ||| 0x02) else if 6 ≤ i ∧ i < 12 then some 0 else none

theorem withTc_edited (h : headerLen ≤ m.length) {stop : Nat} (hstop : stop ≤ m.length) :
    Edited (tcBytes m) stop m ((withTc m).take stop) := by
  refine ⟨?_, hstop, fun i hi b hb => ?_, fun i hi hnone => ?_⟩
  · rw [List.length_take, withTc_length h]
    omega
  · rw [List.getElem?_take_of_lt hi]
    unfold tcBytes at hb
    split at hb
    · rename_i h2
      rw [h2, withTc_flags h]
      exact hb
    · split at hb
      · rename_i h6
        obtain ⟨k, rfl⟩ := Nat.exists_eq_add_of_le h6.1
        rw [withTc_counts h (by omega)]
        exact hb
      · cases hb
  · rw [List.getElem?_take_of_lt hi]
    unfold tcBytes at hnone
    split at hnone
    · cases hnone
    · rename_i h2
      split at hnone
      · cases hnone
      · exact withTc_other h h2 (by omega)

/-! ## What is kept -/

/-- A message that is too long keeps its edited header and its questions, if they read and fit, else no
question. -/
theorem truncateTo_cases (h : headerLen ≤ m.length) (hlong : limit < m.length) :
    (∃ stop, questionsEnd (withTc m) = some stop ∧ stop ≤ limit ∧ truncateTo m limit = (withTc m).take stop) ∨
    (∀ stop, questionsEnd (withTc m) = some stop → limit < stop) ∧
      truncateTo m limit = (patch (withTc m) 4 [0, 0]).take headerLen := by
  unfold truncateTo
  rw [if_neg (by omega)]
  simp only [show patch (patch m 2 [byteAt m 2 ||| 0x02]) 6 [0, 0, 0, 0, 0, 0] = withTc m from rfl]
  cases hq : questionsEnd (withTc m) with
  | none => exact .inr ⟨by simp, rfl⟩
  | some stop =>
    by_cases hstop : stop ≤ limit
    · exact .inl ⟨stop, rfl, hstop, if_pos hstop⟩
    · refine .inr ⟨?_, if_neg hstop⟩
      rintro stop' h
      cases h
      omega

theorem questionsEnd_bounds {stop : Nat} (h : headerLen ≤ m.length) (hq : questionsEnd m = some stop) :
    headerLen ≤ stop ∧ stop ≤ m.length := by
  obtain ⟨count, -, hloop⟩ := Option.bind_eq_some_iff.1 hq
  exact questionsLoop_bounds count _ h hloop

/-- A bare header has no question. -/
theorem bareHeader (h : headerLen ≤ m.length) : ((patch m 4 [0, 0]).take headerLen).length = headerLen ∧
    readU16 ((patch m 4 [0, 0]).take headerLen) 4 = some 0 := by
  have h12 : headerLen = 12 := rfl
  have hp : (patch m 4 [0, 0]).length = m.length := patch_length (by simp; omega)
  have hzero : ∀ i < 2, ((patch m 4 [0, 0]).take headerLen)[4 + i]? = some 0 := by
    intro i hi
    rw [List.getElem?_take_of_lt (by omega), patch_inside (by simp; omega) (by simpa using hi)]
    obtain rfl | rfl : i = 0 ∨ i = 1 := by omega
    all_goals rfl
  constructor
  · rw [List.length_take]
    omega
  · unfold readU16
    rw [show (4 : Nat) = 4 + 0 from rfl, hzero 0 (by omega), hzero 1 (by omega)]
    rfl

/-- Whichever way it is cut, the header is the edited one; where no question is kept, QDCOUNT is zero. -/
theorem truncateTo_header (h : headerLen ≤ m.length) (hlong : limit < m.length) :
    headerLen ≤ (truncateTo m limit).length ∧
    ∀ i < headerLen, i ≠ 4 → i ≠ 5 → (truncateTo m limit)[i]? = (withTc m)[i]? := by
  have h12 : headerLen = 12 := rfl
  have hlen := withTc_length h
  rcases truncateTo_cases h hlong with ⟨stop, hq, -, heq⟩ | ⟨-, heq⟩
  · have hb := questionsEnd_bounds (by omega) hq
    rw [heq]
    refine ⟨by rw [List.length_take]; omega, fun i hi _ _ => ?_⟩
    exact List.getElem?_take_of_lt (by omega)
  · have hp : (patch (withTc m) 4 [0, 0]).length = (withTc m).length := patch_length (by simp; omega)
    rw [heq]
    refine ⟨by rw [List.length_take]; omega, fun i hi h4 h5 => ?_⟩
    rw [List.getElem?_take_of_lt hi]
    exact patch_outside (by simp; omega) (by simp; omega)

/-- What of a message every truncation keeps: the ID, the flags but for TC, and no records. -/
structure Truncated (m out : Bytes) : Prop where
  length : headerLen ≤ out.length
  ident : ∀ i < 2, out[i]? = m[i]?
  flags : byteAt out 2 = byteAt m 2 ||| 0x02
  counts : readU16 out 6 = some 0 ∧ readU16 out 8 = some 0 ∧ readU16 out 10 = some 0

theorem truncateTo_truncated (h : headerLen ≤ m.length) (hlong : limit < m.length) :
    Truncated m (truncateTo m limit) := by
  have h12 : headerLen = 12 := rfl
  obtain ⟨hlen, hhead⟩ := truncateTo_header h hlong
  have hcount : ∀ i < 6, (truncateTo m limit)[6 + i]? = some 0 := fun i hi => by
    rw [hhead (6 + i) (by omega) (by omega) (by omega), withTc_counts h hi]
  have hzero : ∀ i < 5, readU16 (truncateTo m limit) (6 + i) = some 0 := fun i hi => by
    unfold readU16
    rw [hcount i (by omega), Nat.add_assoc, hcount (i + 1) (by omega)]
    rfl
  refine ⟨hlen, fun i hi => ?_, ?_, hzero 0 (by omega), hzero 2 (by omega), hzero 4 (by omega)⟩
  · rw [hhead i (by omega) (by omega) (by omega), withTc_other h (by omega) (by omega)]
  · unfold byteAt
    rw [List.getD_eq_getElem?_getD, hhead 2 (by omega) (by omega) (by omega), withTc_flags h]
    rfl

/-- Truncation keeps the ID. -/
theorem truncateTo_ident (m : Bytes) (limit : Nat) : (truncateTo m limit).take 2 = m.take 2 := by
  by_cases hfit : m.length ≤ limit ∨ m.length < headerLen
  · unfold truncateTo
    rw [if_pos hfit]
  · have ht := truncateTo_truncated (show headerLen ≤ m.length by omega) (show limit < m.length by omega)
    apply List.ext_getElem?
    intro i
    by_cases hi : i < 2
    · rw [List.getElem?_take_of_lt hi, List.getElem?_take_of_lt hi, ht.ident i hi]
    · rw [List.getElem?_take_eq_none (by omega), List.getElem?_take_eq_none (by omega)]

theorem truncateTo_length (h : headerLen ≤ limit) (m : Bytes) : (truncateTo m limit).length ≤ limit ∨
    (truncateTo m limit).length < headerLen := by
  by_cases hfit : m.length ≤ limit ∨ m.length < headerLen
  · unfold truncateTo
    rw [if_pos hfit]
    exact hfit
  · have hlong : limit < m.length := by omega
    rcases truncateTo_cases (by omega) hlong with ⟨stop, -, hstop, heq⟩ | ⟨-, heq⟩
    · rw [heq, List.length_take]
      omega
    · rw [heq, List.length_take]
      omega

/-! ## The question of a truncated response -/

/-- The local bytes of a name are few: labels of at most 255 bytes and one pointer. -/
theorem expandLoop_short :
    ∀ (fuel cursor jumps nameLen : Nat) {ls : List Bytes} {e : Nat}, nameLen ≤ 254 →
      expandLoop m fuel cursor none jumps nameLen = some (ls, e) → e + nameLen ≤ cursor + 256
  | 0, _, _, _, _, _, _, h => by cases h
  | fuel + 1, cursor, jumps, nameLen, ls, e, hn, h => by
    rcases expandLoop_cases h with ⟨_, _, _, _, _, _, _, h⟩ | ⟨_, _, rfl⟩ | ⟨len, _, _, _, _, _, _, _, _, hlt, _, h⟩
    · have := expandLoop_stop fuel _ _ _ h
      simp only [Option.getD_none] at this
      omega
    · simp only [Option.getD_none]
      omega
    · have := expandLoop_short fuel _ _ _ (by omega) h
      omega

/-- The end of a single question. -/
theorem questionsEnd_single (hqd : readU16 m 4 = some 1) {stop : Nat} (h : questionsEnd m = some stop) :
    ∃ ls e, expand m headerLen = some (ls, e) ∧ stop = e + 4 ∧ e + 4 ≤ m.length ∧ e ≤ headerLen + 256 := by
  simp only [questionsEnd, hqd, Option.bind_eq_bind, Option.bind_some, questionsLoop, skipName_eq,
    Option.bind_eq_some_iff, Option.map_eq_some_iff] at h
  obtain ⟨e, ⟨⟨ls, e'⟩, hn, rfl⟩, h⟩ := h
  split at h
  · cases h
  · rename_i hin
    cases h
    have hshort := expandLoop_short _ _ _ _ (by omega) hn
    exact ⟨ls, e', hn, rfl, by omega, by omega⟩

/-- A single question that reads ends inside the message. -/
theorem questionsEnd_isSome (hqd : readU16 m 4 = some 1) (h : (question m).isSome) : (questionsEnd m).isSome := by
  obtain ⟨⟨labels, fields⟩, hq⟩ := Option.isSome_iff_exists.1 h
  obtain ⟨ls, e, hn, hs, -⟩ := question_some hq
  have hin := (slice_some hs).2.1
  simp only [questionsEnd, hqd, Option.bind_eq_bind, Option.bind_some, questionsLoop, skipName_eq, hn, Option.map_some]
  rw [if_neg (by omega)]
  rfl

/-- The questions end where they did before the header was edited, if they still read. -/
theorem questionsEnd_withTc (h : headerLen ≤ m.length) {stop stop' : Nat} (hq : questionsEnd m = some stop)
    (hq' : questionsEnd (withTc m) = some stop') : stop' = stop := by
  have h12 : headerLen = 12 := rfl
  have h4 : readU16 (withTc m) 4 = readU16 m 4 :=
    readU16_congr (withTc_other h (by omega) (by omega)) (withTc_other h (by omega) (by omega))
  simp only [questionsEnd, h4, Option.bind_eq_bind, Option.bind_eq_some_iff] at hq hq'
  obtain ⟨count, hc, hloop⟩ := hq
  obtain ⟨count', hc', hloop'⟩ := hq'
  rw [hc] at hc'
  cases hc'
  exact questionsLoop_local count headerLen h hloop hloop' fun i hi _ => (withTc_other h (by omega) (by omega)).symm

/-- What truncation promises of a response: unchanged if it fits, else a message within the limit with TC set,
no records and nothing after its questions, that has no question or still answers the query. -/
structure KeepsQuestion (q r : Bytes) (limit : Nat) : Prop where
  fits : r.length ≤ limit → truncateTo r limit = r
  length : limit < r.length → (truncateTo r limit).length ≤ limit
  tc : limit < r.length → byteAt (truncateTo r limit) 2 &&& 0x02 ≠ 0
  counts : limit < r.length → readU16 (truncateTo r limit) 6 = some 0 ∧ readU16 (truncateTo r limit) 8 = some 0 ∧
    readU16 (truncateTo r limit) 10 = some 0
  nothingAfter : limit < r.length → ∀ stop, questionsEnd (truncateTo r limit) = some stop →
    stop = (truncateTo r limit).length
  question : limit < r.length → (truncateTo r limit).length = headerLen ∧ readU16 (truncateTo r limit) 4 = some 0 ∨
    validateResponse q (truncateTo r limit) = .ok ()

set_option maxRecDepth 20000 in
theorem tcBits : ∀ b : Fin 256, (UInt8.ofNat b.val ||| 0x02) &&& 0x02 ≠ 0 ∧
    (UInt8.ofNat b.val ||| 0x02) &&& 0xf8 = UInt8.ofNat b.val &&& 0xf8 := by
  decide

/-- Setting TC sets TC and leaves QR and the opcode alone. -/
theorem setTc (b : UInt8) : (b ||| 0x02) &&& 0x02 ≠ 0 ∧ (b ||| 0x02) &&& 0xf8 = b &&& 0xf8 := by
  simpa using tcBits ⟨b.toNat, b.toNat_lt⟩

/-- Nothing follows the questions that are kept. -/
theorem truncateTo_end (h : headerLen ≤ r.length) (hlong : limit < r.length) {stop : Nat}
    (hq : questionsEnd (truncateTo r limit) = some stop) : stop = (truncateTo r limit).length := by
  have h12 : headerLen = 12 := rfl
  have hlen := withTc_length h
  rcases truncateTo_cases h hlong with ⟨stop0, hq0, -, heq⟩ | ⟨-, heq⟩
  · rw [heq] at hq ⊢
    have hb := questionsEnd_bounds (by omega) hq0
    have hkept : ∀ i < stop0, ((withTc r).take stop0)[i]? = (withTc r)[i]? := fun i hi => List.getElem?_take_of_lt hi
    have h4 : readU16 ((withTc r).take stop0) 4 = readU16 (withTc r) 4 :=
      readU16_congr (hkept 4 (by omega)) (hkept 5 (by omega))
    simp only [questionsEnd, h4, Option.bind_eq_bind, Option.bind_eq_some_iff] at hq hq0
    obtain ⟨count, hc, hloop⟩ := hq
    obtain ⟨count0, hc0, hloop0⟩ := hq0
    rw [hc] at hc0
    cases hc0
    have hstop := questionsLoop_local count headerLen (by omega) hloop0 hloop fun i _ hi => (hkept i hi).symm
    rw [hstop, List.length_take]
    omega
  · obtain ⟨hbare, hzero⟩ := bareHeader (m := withTc r) (by omega)
    rw [heq] at hq ⊢
    simp only [questionsEnd, hzero, Option.bind_eq_bind, Option.bind_some, questionsLoop, Option.some.injEq] at hq
    rw [hbare, hq]

/-- The questions that are kept answer the query as they did, but for the name of a single question. -/
theorem validateResponse_truncated {stop : Nat} (h : validateResponse q r = .ok ())
    (hq : questionsEnd (withTc r) = some stop) : validateResponse q ((withTc r).take stop) = .ok () ↔
      (readU16 r 4 = some 1 → questionName ((withTc r).take stop) = questionName r) := by
  have h12 : headerLen = 12 := rfl
  obtain ⟨-, hl, -, -, hqd, hquestion⟩ := (validateResponse_ok_iff q r).1 h
  have hlen := withTc_length hl
  have hb := questionsEnd_bounds (by omega) hq
  have hkept : ∀ i < stop, i ≠ 2 → (i < 6 ∨ 12 ≤ i) → r[i]? = ((withTc r).take stop)[i]? := by
    intro i hi h2 h6
    rw [List.getElem?_take_of_lt hi, withTc_other hl h2 h6]
  have hflags : byteAt ((withTc r).take stop) 2 &&& 0xf8 = byteAt r 2 &&& 0xf8 := by
    rw [← (setTc (byteAt r 2)).2]
    congr 1
    show ((withTc r).take stop).getD 2 0 = _
    rw [List.getD_eq_getElem?_getD, List.getElem?_take_of_lt (by omega), withTc_flags hl]
    rfl
  have h4 : readU16 ((withTc r).take stop) 4 = readU16 r 4 :=
    readU16_congr (hkept 4 (by omega) (by omega) (by omega)).symm (hkept 5 (by omega) (by omega) (by omega)).symm
  rw [validateResponse_edit h (by rw [List.length_take]; omega) hflags h4]
  refine forall_congr' fun hone => ?_
  obtain ⟨hsome, heq⟩ := hquestion (hqd ▸ hone)
  obtain ⟨⟨folded, fields⟩, hqr⟩ := Option.isSome_iff_exists.1 (heq ▸ hsome)
  obtain ⟨ls, e, hn, hs, -⟩ := question_some hqr
  -- the question ends where it ended before the edit
  have hone' : readU16 (withTc r) 4 = some 1 := by
    rw [← hone]
    exact readU16_congr (withTc_other hl (by omega) (by omega)) (withTc_other hl (by omega) (by omega))
  obtain ⟨ls', e', hn', rfl, -, -⟩ := questionsEnd_single hone' hq
  obtain rfl := expand_local hn hn' fun i h1 _ => (withTc_other hl (by omega) (by omega)).symm
  exact question_edit hn hs fun i h1 h2 => hkept i h2 (by omega) (by omega)

/-- A response to the query survives truncation as promised exactly when it fits, or has not one question, or
its question is dropped or keeps its name. -/
theorem keepsQuestion_iff (h : validateResponse q r = .ok ()) (hlimit : 512 ≤ limit) :
    KeepsQuestion q r limit ↔ (limit < r.length → readU16 r 4 = some 1 →
      ∀ stop, questionsEnd (withTc r) = some stop → questionName ((withTc r).take stop) = questionName r) := by
  have h12 : headerLen = 12 := rfl
  obtain ⟨-, hl, -⟩ := (validateResponse_ok_iff q r).1 h
  have hlen := withTc_length hl
  constructor
  · intro hkeeps hlong hone stop hq
    have hone' : readU16 (withTc r) 4 = some 1 := by
      rw [← hone]
      exact readU16_congr (withTc_other hl (by omega) (by omega)) (withTc_other hl (by omega) (by omega))
    obtain ⟨ls, e, -, rfl, -, hshort⟩ := questionsEnd_single hone' hq
    -- a single question always fits
    rcases truncateTo_cases hl hlong with ⟨stop', hq', -, heq⟩ | ⟨hmiss, -⟩
    · rw [hq] at hq'
      cases hq'
      rcases heq ▸ hkeeps.question hlong with ⟨-, hzero⟩ | hvalid
      · have hb := questionsEnd_bounds (by omega) hq
        have h4 : readU16 ((withTc r).take (e + 4)) 4 = readU16 (withTc r) 4 :=
          readU16_congr (List.getElem?_take_of_lt (by omega)) (List.getElem?_take_of_lt (by omega))
        rw [h4, hone'] at hzero
        cases hzero
      · exact (validateResponse_truncated h hq).1 hvalid hone
    · have := hmiss _ hq
      omega
  · intro hname
    have htrunc := fun hlong : limit < r.length => truncateTo_truncated hl hlong
    constructor
    case fits =>
      intro hfit
      unfold truncateTo
      rw [if_pos (.inl hfit)]
    case length =>
      intro hlong
      have := (htrunc hlong).length
      have := truncateTo_length (show headerLen ≤ limit by omega) r
      omega
    case tc =>
      intro hlong
      rw [(htrunc hlong).flags]
      exact (setTc _).1
    case counts => exact fun hlong => (htrunc hlong).counts
    case nothingAfter => exact fun hlong stop hq => truncateTo_end hl hlong hq
    case question =>
      intro hlong
      rcases truncateTo_cases hl hlong with ⟨stop, hq, -, heq⟩ | ⟨-, heq⟩
      · rw [heq]
        exact .inr ((validateResponse_truncated h hq).2 fun hone => hname hlong hone stop hq)
      · rw [heq]
        exact .inl (bareHeader (by omega))

/-- The question's name is spelled before the end of the questions, in bytes that setting TC and zeroing the
record counts leave the same. -/
structure SpelledInQuestion (message : Bytes) : Prop where
  before : ∀ stop, questionsEnd message = some stop → ∀ p ∈ uses message headerLen, p.1 < stop
  keeps : KeepsSpelling (tcBytes message) message

/-- A response to the query survives truncation as promised if it fits, or has not one question, or spells its
question's name in bytes that are kept; of the others where setting TC and zeroing the record counts leaves no
question that reads; and otherwise only where they send its name elsewhere. -/
theorem truncation_keeps_question (h : validateResponse q r = .ok ()) (hlimit : 512 ≤ limit) :
    ((limit < r.length → readU16 r 4 = some 1 → SpelledInQuestion r) → KeepsQuestion q r limit) ∧
    (questionsEnd (withTc r) = none → KeepsQuestion q r limit) ∧
    (KeepsQuestion q r limit → limit < r.length → readU16 r 4 = some 1 →
      SpelledInQuestion r ∨ questionsEnd (withTc r) = none ∨ RedirectsSpelling (tcBytes r) r) := by
  obtain ⟨-, hl, -, -, hqd, hquestion⟩ := (validateResponse_ok_iff q r).1 h
  have hasks : readU16 r 4 = some 1 → (question r).isSome := fun hone => by
    obtain ⟨hsome, heq⟩ := hquestion (hqd ▸ hone)
    rwa [heq]
  -- the questions end in the edited response where they end in the response
  have hend : readU16 r 4 = some 1 → ∀ stop, questionsEnd (withTc r) = some stop →
      questionsEnd r = some stop ∧ stop ≤ r.length := fun hone stop hq => by
    obtain ⟨stop0, hq0⟩ := Option.isSome_iff_exists.1 (questionsEnd_isSome hone (hasks hone))
    rw [questionsEnd_withTc hl hq0 hq]
    exact ⟨hq0, (questionsEnd_bounds hl hq0).2⟩
  refine ⟨?_, ?_, ?_⟩
  · intro hspelled
    refine (keepsQuestion_iff h hlimit).2 fun hlong hone stop hq => ?_
    obtain ⟨hq0, hle⟩ := hend hone stop hq
    have hs := hspelled hlong hone
    exact questionName_edited (questionName_isSome (hasks hone)) (withTc_edited hl hle) (hs.before stop hq0) hs.keeps
  · intro hnone
    refine (keepsQuestion_iff h hlimit).2 fun _ _ stop hq => ?_
    rw [hnone] at hq
    cases hq
  · intro hkeeps hlong hone
    cases hq : questionsEnd (withTc r) with
    | none => exact .inr (.inl rfl)
    | some stop =>
      obtain ⟨hq0, hle⟩ := hend hone stop hq
      have hname := (keepsQuestion_iff h hlimit).1 hkeeps hlong hone stop hq
      rcases keepsSpelling_of_questionName (questionName_isSome (hasks hone)) (withTc_edited hl hle) hname with
        ⟨hin, hsame⟩ | hred
      · refine .inl ⟨fun stop' hq' => ?_, hsame⟩
        rw [hq0] at hq'
        cases hq'
        exact hin
      · exact .inr (.inr hred)

/-- A query for the root's A records. -/
def rootA : Bytes := [0, 7, 1, 0, 0, 1, 0, 0, 0, 0, 0, 0, 0, 0, 1, 0, 1]

/-- A response to it with a record of 500 bytes, whose question spells the root as `name`. -/
def longResponse (name : Bytes) : Bytes := [0, 7, 0x81, 0x80, 0, 1, 0, 1, 0, 0, 0, 0] ++ name ++ [0, 1, 0, 1] ++
  [0, 0, 16, 0, 1, 0, 0, 1, 0, 1, 0xf4] ++ List.replicate 500 0

theorem truncation_keeps_question_plain : KeepsQuestion rootA (longResponse [0]) 512 := by
  have h : validateResponse rootA (longResponse [0]) = .ok () := by decide +kernel
  refine (truncation_keeps_question h (by decide)).1 fun _ _ => ⟨fun stop hq => ?_, by decide +kernel⟩
  rw [show questionsEnd (longResponse [0]) = some 17 by decide +kernel] at hq
  cases hq
  decide +kernel

/-- A question spelled by a pointer to the owner of the answer loses its name with the answer. -/
theorem truncation_loses_question : validateResponse rootA (longResponse [0xc0, 18]) = .ok () ∧
    ¬ KeepsQuestion rootA (longResponse [0xc0, 18]) 512 := by
  refine ⟨by decide +kernel, fun hkeeps => ?_⟩
  have hlong : 512 < (longResponse [0xc0, 18]).length := by decide +kernel
  rcases hkeeps.question hlong with ⟨hlen, -⟩ | hvalid
  · exact absurd hlen (by decide +kernel)
  · exact absurd hvalid (by decide +kernel)

end DNSRivet.Wire
