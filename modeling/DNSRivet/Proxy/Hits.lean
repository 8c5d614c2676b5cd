/-
What a cache hit means for the client that gets it. A hit hands out a response that another client's
query brought in; the key the two queries share decides whether it answers this one. The key holds
everything a query asks but the records of its answer and authority sections
(`key_fixes_question`), and the reissued bytes still echo the question unless the question's name
is spelled through bytes that reissuing rewrites (`hit_answers_asker`).
-/
import DNSRivet.Proxy.Aging
import DNSRivet.Wire.Asked
import DNSRivet.Wire.Spelling

namespace DNSRivet.Proxy

open DNSRivet.Base DNSRivet.Wire

variable {L : Lru QueryKey Entry}

/-! ## The bytes of a hit -/

/-- `response` under another ID, `age` seconds older. -/
def reissue (response : Bytes) (id : UInt8 × UInt8) (age : Nat) : Bytes :=
  match records response with
  | some rrs => ageRecords age rrs (setId response id)
  | none => setId response id

theorem Reissued.aged {r out : Bytes} {rrs : List ResourceRecord} {id : UInt8 × UInt8} {age : Nat}
    (hr : records r = some rrs) (h : Reissued r rrs id age out) : Aged rrs age (setId r id) out := by
  obtain ⟨offset, -, -, hl, ho, hc⟩ := records_some hr
  have h12 : headerLen = 12 := rfl
  refine ⟨by rw [h.length, setId_length hl], fun rr hrr hk => ⟨rr.ttl, ?_, h.ttl rr hrr hk⟩, fun i hi => ?_⟩
  · have hlo := (hc.ttl_bounds rr hrr).1
    rw [← (hc.ttl_bounds rr hrr).2.2.2]
    exact readU32_congr fun i _ => setId_other hl (by omega)
  · by_cases h2 : 2 ≤ i
    · rw [h.other i h2 hi, setId_other hl h2]
    · obtain rfl | rfl : i = 0 ∨ i = 1 := by omega
      · rw [h.ident.1, (setId_ident hl).1]
      · rw [h.ident.2, (setId_ident hl).2]

/-- A response is reissued in one way only. -/
theorem Reissued.eq_reissue {r out : Bytes} {rrs : List ResourceRecord} {id : UInt8 × UInt8} {age : Nat}
    (hr : records r = some rrs) (h : Reissued r rrs id age out) : out = reissue r id age := by
  obtain ⟨offset, -, -, hl, ho, hc⟩ := records_some hr
  have h12 : headerLen = 12 := rfl
  unfold reissue
  rw [hr]
  refine (h.aged hr).unique (ageRecords_aged hc ?_)
  exact (setId_agree id hl).mono fun i hi => by omega

/-! ## The question of a hit -/

/-- A reissued response asks the same question exactly when its question's name still reads the same:
the question itself lies before every rewritten byte but the ID, the bytes its name points to may not. -/
theorem question_reissued {r out : Bytes} {rrs : List ResourceRecord} {id : UInt8 × UInt8} {age : Nat}
    (hr : records r = some rrs) (hqd : readU16 r 4 = some 1) (hq : (question r).isSome)
    (h : Reissued r rrs id age out) : question out = question r ↔ questionName out = questionName r := by
  obtain ⟨⟨folded, fields⟩, hqr⟩ := Option.isSome_iff_exists.1 hq
  obtain ⟨ls, e, hn, hs, -⟩ := question_some hqr
  -- the question ends before the first record
  have hbefore : ∀ i, i < e + 4 → ¬ TtlByte rrs i := by
    obtain ⟨offset, hqe, -, hl, ho, hc⟩ := records_some hr
    rintro i hi ⟨rr, hrr, -, hlo, -⟩
    simp only [questionsEnd, hqd, Option.bind_eq_bind, Option.bind_some, questionsLoop, skipName_eq, hn,
      Option.map_some] at hqe
    have := (hc.ttl_bounds rr hrr).1
    split at hqe
    · cases hqe
    · cases hqe; omega
  exact question_edit hn hs fun i h1 h2 => (h.other i (by unfold headerLen at h1; omega) (hbefore i h2)).symm

/-- What reissuing a response writes: the ID, and the TTL of every record but OPT. -/
def reissuedBytes (rrs : List ResourceRecord) (id : UInt8 × UInt8) (age i : Nat) : Option UInt8 :=
  (idBytes id i).or <| rrs.findSome? fun rr =>
    if rr.kind ≠ typeOpt ∧ rr.ttlOffset ≤ i then (toBe32 (rr.ttl - age))[i - rr.ttlOffset]? else none

theorem Reissued.edited {r out : Bytes} {rrs : List ResourceRecord} {id : UInt8 × UInt8} {age : Nat}
    (h : Reissued r rrs id age out) : Edited (reissuedBytes rrs id age) r.length r out := by
  refine ⟨h.length, Nat.le_refl _, fun i _ b hb => ?_, fun i _ hi => ?_⟩
  · obtain hid | ⟨-, hb⟩ := Option.or_eq_some_iff.1 hb
    · match i, hid with
      | 0, hid => exact h.ident.1.trans hid
      | 1, hid => exact h.ident.2.trans hid
    · obtain ⟨rr, hrr, hb⟩ := List.exists_of_findSome?_eq_some hb
      split at hb
      · rename_i hk
        have hlt := lt_length_of_getElem? hb
        rw [toBe32_length] at hlt
        rw [← hb, ← readU32_byte (h.ttl rr hrr hk.1) hlt, Nat.add_sub_cancel' hk.2]
      · cases hb
  · obtain ⟨hid, httl⟩ := Option.or_eq_none_iff.1 hi
    rw [List.findSome?_eq_none_iff] at httl
    refine h.other i (List.getElem?_eq_none_iff.1 hid) ?_
    rintro ⟨rr, hrr, hk, hlo, hhi⟩
    have := httl rr hrr
    rw [if_pos ⟨hk, hlo⟩, List.getElem?_eq_none_iff, toBe32_length] at this
    omega

/-- A reissued response keeps the header bits and the counts of the original. -/
theorem Reissued.header {r out : Bytes} {rrs : List ResourceRecord} {id : UInt8 × UInt8} {age : Nat}
    (hr : records r = some rrs) (h : Reissued r rrs id age out) :
    byteAt out 2 = byteAt r 2 ∧ readU16 out 4 = readU16 r 4 := by
  have hhead : ∀ i, 2 ≤ i → i < 12 → out[i]? = r[i]? := fun i h1 h2 =>
    h.other i h1 fun hi => by have := ttlByte_ge hr hi; unfold headerLen at this; omega
  constructor
  · unfold byteAt
    rw [List.getD_eq_getElem?_getD, List.getD_eq_getElem?_getD, hhead 2 (by omega) (by omega)]
  · exact readU16_congr (hhead 4 (by omega) (by omega)) (hhead 5 (by omega) (by omega))

/-! ## Hits answer the asker -/

/-- Every response was taken in under the metadata of a query that it was accepted for. -/
def InsertsValidated (es : List (Nat × CacheEvent)) : Prop :=
  ∀ t qmeta r, (t, CacheEvent.insert qmeta r) ∈ es →
    ∃ q, parseQueryMeta q = some qmeta ∧ validateResponse q r = .ok ()

/-- A hit is the stored response under the asker's ID, aged by the whole seconds since it came in.
`validate_response` accepts it for the asker if those of the ID and TTL bytes of the stored response that spell
its question's name are rewritten as they are, letters up to ASCII case; and it accepts no other hit, but one
whose question a rewritten byte sends elsewhere. -/
theorem hit_answers_asker {es : List (Nat × CacheEvent)} {s : CacheState L} {t : Nat} {q : Bytes} {qmeta : QueryMeta}
    {id : UInt8 × UInt8} {buffer out : Bytes}
    (h : Run (cacheSystem L) (es ++ [(t, .get qmeta id buffer true out)]) s) (hins : InsertsValidated es)
    (hq : parseQueryMeta q = some qmeta) :
    ∃ st rrs, lastStored es qmeta.key = some st ∧ st.time ≤ t ∧ records st.response = some rrs ∧
      out = reissue st.response id ((t - st.time) / nanosPerSec) ∧ out[0]? = some id.1 ∧ out[1]? = some id.2 ∧
      (KeepsSpelling (reissuedBytes rrs id ((t - st.time) / nanosPerSec)) st.response →
        validateResponse q out = .ok ()) ∧
      (validateResponse q out = .ok () →
        KeepsSpelling (reissuedBytes rrs id ((t - st.time) / nanosPerSec)) st.response ∨
        RedirectsSpelling (reissuedBytes rrs id ((t - st.time) / nanosPerSec)) st.response) := by
  obtain ⟨st, rrs, hst, hle, hr, -, hre⟩ := hit_keeps h
  obtain ⟨hmem, hkey, -⟩ := lastStored_mem hst
  obtain ⟨q0, hq0, hval0⟩ := hins _ _ _ hmem
  -- the stored response was accepted for the asker too
  have hval : validateResponse q st.response = .ok () := by
    rw [validateResponse_of_key _ hq hq0 hkey.symm]; exact hval0
  obtain ⟨-, hl, -, -, hqd, hquestion⟩ := (validateResponse_ok_iff _ _).1 hval
  have hone := (parseQueryMeta_ok hq).qdcount
  have hrone : readU16 st.response 4 = some 1 := hqd.trans hone
  obtain ⟨hsome, heq⟩ := hquestion hone
  have hasks : (question st.response).isSome := by rw [heq]; exact hsome
  have haccepts : validateResponse q out = .ok () ↔ questionName out = questionName st.response := by
    obtain ⟨hb2, h4⟩ := hre.header hr
    rw [validateResponse_edit hval (hre.length ▸ hl) (by rw [hb2]) h4, ← question_reissued hr hrone hasks hre]
    exact ⟨fun hx => hx hrone, fun hx _ => hx⟩
  have hname := questionName_isSome hasks
  refine ⟨st, rrs, hst, hle, hr, hre.eq_reissue hr, hre.ident.1, hre.ident.2, fun hkeeps => ?_, fun haccepted => ?_⟩
  · exact haccepts.2 (questionName_edited hname hre.edited (uses_lt hname) hkeeps)
  · exact (keepsSpelling_of_questionName hname hre.edited (haccepts.1 haccepted)).imp_left And.right

/-- A plain query for the root's addresses. -/
def rootQuery (id : UInt8 × UInt8) : Bytes := [id.1, id.2, 1, 0, 0, 1, 0, 0, 0, 0, 0, 0, 0, 0, 1, 0, 1]

theorem rootQuery_validated {response : Bytes} (h : validateResponse (rootQuery (0, 0)) response = .ok ()) :
    InsertsValidated [(0, .insert rootMeta response)] := by
  intro t qmeta r hmem
  obtain ⟨rfl, hins⟩ := Prod.mk.inj (List.mem_singleton.1 hmem)
  cases hins
  exact ⟨rootQuery (0, 0), by decide, h⟩

theorem hit_answers_asker_root :
    validateResponse (rootQuery (1, 2)) (servedAfter (rootResponse [0])).2.1 = .ok () := by
  have hhit : (servedAfter (rootResponse [0])).1 = true := by decide
  have hins : InsertsValidated [(0, .insert rootMeta (rootResponse [0]))] := rootQuery_validated (by decide)
  have hq : parseQueryMeta (rootQuery (1, 2)) = some rootMeta := by decide
  obtain ⟨st, rrs, hst, -, hr, -, -, -, hkeeps, -⟩ := hit_answers_asker (servedAfter_hit hhit) hins hq
  rw [show lastStored [(0, .insert rootMeta (rootResponse [0]))] rootMeta.key =
    some ⟨0, rootMeta, rootResponse [0], 256⟩ by decide +kernel] at hst
  cases hst
  have hall : ∀ rrs ∈ records (rootResponse [0]), KeepsSpelling (reissuedBytes rrs (1, 2) 1) (rootResponse [0]) := by
    decide +kernel
  exact hkeeps (hall rrs hr)

/-- A response to the query with ID 0 whose question names the root by a pointer to the first ID byte. -/
def echoesItsId : Bytes :=
  [0, 0, 0x81, 0x80, 0, 1, 0, 1, 0, 0, 0, 0, 0xc0, 0, 0, 1, 0, 1, 0, 0, 1, 0, 1, 0, 0, 1, 0, 0, 0]

/-- Accepted for the query that brought it in, it is handed to a later asker whose ID spells another
name, for whom `validate_response` rejects it. -/
theorem hit_not_validated :
    ¬ ∀ (es : List (Nat × CacheEvent)) (s : CacheState (Lru.list QueryKey Entry)) (t : Nat) (q : Bytes)
      (qmeta : QueryMeta) (buffer out : Bytes),
      Run (cacheSystem (Lru.list QueryKey Entry))
        (es ++ [(t, .get qmeta (byteAt q 0, byteAt q 1) buffer true out)]) s →
      InsertsValidated es → parseQueryMeta q = some qmeta → validateResponse q out = .ok () := by
  intro h
  have hbad : validateResponse (rootQuery (1, 2)) (servedAfter echoesItsId).2.1 ≠ .ok () := by decide
  exact hbad (h _ _ _ (rootQuery (1, 2)) _ _ _ (servedAfter_hit (by decide)) (rootQuery_validated (by decide))
    (by decide))

/-! ## What the key fixes -/

/-- Queries with one key ask the same exactly when they carry the same answer and authority records;
so a hit hands out the response to a query that asks the same exactly when the asker's query carries
the answer and authority records of the query that brought the response in. -/
theorem key_fixes_question {q q' : Bytes} {qmeta qmeta' : QueryMeta} (h : parseQueryMeta q = some qmeta)
    (h' : parseQueryMeta q' = some qmeta') (hkey : qmeta.key = qmeta'.key) :
    (∃ a a', asked q = some a ∧ asked q' = some a' ∧
      (a = a' ↔ a.answers = a'.answers ∧ a.authorities = a'.authorities)) ∧
    (∀ (L : Lru QueryKey Entry) es s t id buffer out,
      Run (cacheSystem L) (es ++ [(t, .get qmeta id buffer true out)]) s →
      ∃ st, lastStored es qmeta.key = some st ∧ (st.time, .insert st.qmeta st.response) ∈ es ∧
        ∀ q0, parseQueryMeta q0 = some st.qmeta → ∃ a0 a, asked q0 = some a0 ∧ asked q = some a ∧
          (a0 = a ↔ a0.answers = a.answers ∧ a0.authorities = a.authorities)) := by
  constructor
  · exact asked_of_key h h' hkey
  · intro L es s t id buffer out hrun
    obtain ⟨st, -, hst, -⟩ := hit_keeps hrun
    obtain ⟨hmem, hstored, -⟩ := lastStored_mem hst
    exact ⟨st, hst, hmem, fun q0 hq0 => asked_of_key hq0 h hstored⟩

/-- A query for incremental zone transfer of `a` that carries the SOA record it starts from, with the
given serial (the other SOA fields zero). -/
def ixfrQuery (serial : UInt8) : Bytes :=
  [0, 1, 1, 0, 0, 1, 0, 0, 0, 1, 0, 0, 1, 97, 0, 0, 251, 0, 1,
    0xc0, 12, 0, 6, 0, 1, 0, 0, 0, 0, 0, 22, 0, 0, 0, 0, 0, serial, 0, 0, 0, 0, 0, 0, 0, 0, 0, 0, 0, 0, 0, 0, 0, 0]

theorem key_fixes_question_ixfr :
    (∃ a a', asked (ixfrQuery 1) = some a ∧ asked (ixfrQuery 2) = some a' ∧
      (a = a' ↔ a.answers = a'.answers ∧ a.authorities = a'.authorities)) ∧
    ∃ st, lastStored [(0, .insert rootMeta (rootResponse [0]))] rootMeta.key = some st ∧
      (st.time, .insert st.qmeta st.response) ∈ [(0, CacheEvent.insert rootMeta (rootResponse [0]))] ∧
      ∀ q0, parseQueryMeta q0 = some st.qmeta → ∃ a0 a, asked q0 = some a0 ∧ asked (rootQuery (1, 2)) = some a ∧
        (a0 = a ↔ a0.answers = a.answers ∧ a0.authorities = a.authorities) := by
  constructor
  · have h1 : parseQueryMeta (ixfrQuery 1) = some ⟨⟨[1, 97, 0], 251, 1, false, false, 0⟩, 512⟩ := by decide
    have h2 : parseQueryMeta (ixfrQuery 2) = some ⟨⟨[1, 97, 0], 251, 1, false, false, 0⟩, 512⟩ := by decide
    exact (key_fixes_question h1 h2 rfl).1
  · have h : parseQueryMeta (rootQuery (1, 2)) = some rootMeta := by decide
    exact (key_fixes_question h h rfl).2 _ _ _ _ _ _ _ (servedAfter_hit (by decide))

/-- Two such queries that start from different serials share a key. -/
theorem key_misses_authority : ∃ qmeta qmeta', parseQueryMeta (ixfrQuery 1) = some qmeta ∧
    parseQueryMeta (ixfrQuery 2) = some qmeta' ∧ qmeta.key = qmeta'.key ∧
    (asked (ixfrQuery 1)).isSome ∧ (asked (ixfrQuery 2)).isSome ∧ asked (ixfrQuery 1) ≠ asked (ixfrQuery 2) := by
  refine ⟨⟨⟨[1, 97, 0], 251, 1, false, false, 0⟩, 512⟩, ⟨⟨[1, 97, 0], 251, 1, false, false, 0⟩, 512⟩, ?_⟩
  decide

/-! ## What the key decides -/

/-- A response gets the same verdict, and the same error, for every query with one key; so the response behind
a hit gets for its asker the verdict it got for the query that brought it in. -/
theorem verdict_of_key {q q' : Bytes} {qmeta qmeta' : QueryMeta} (h : parseQueryMeta q = some qmeta)
    (h' : parseQueryMeta q' = some qmeta') (hkey : qmeta.key = qmeta'.key) :
    (∀ r, validateResponse q r = validateResponse q' r) ∧
    (∀ (L : Lru QueryKey Entry) es s t id buffer out,
      Run (cacheSystem L) (es ++ [(t, .get qmeta id buffer true out)]) s →
      ∃ st, lastStored es qmeta.key = some st ∧
        ∀ q0, parseQueryMeta q0 = some st.qmeta →
          validateResponse q st.response = validateResponse q0 st.response) := by
  constructor
  · exact fun r => validateResponse_of_key r h h' hkey
  · intro L es s t id buffer out hrun
    obtain ⟨st, -, hst, -⟩ := hit_keeps hrun
    obtain ⟨-, hstored, -⟩ := lastStored_mem hst
    exact ⟨st, hst, fun q0 hq0 => validateResponse_of_key _ h hq0 hstored.symm⟩

/-- A query for the addresses of `a`, its name as the given byte. -/
def letterQuery (letter : UInt8) (id : UInt8) : Bytes := [0, id, 1, 0, 0, 1, 0, 0, 0, 0, 0, 0, 1, letter, 0, 0, 1, 0, 1]

theorem verdict_of_key_letter :
    (∀ r, validateResponse (letterQuery 97 1) r = validateResponse (letterQuery 65 2) r) ∧
    ∃ st, lastStored [(0, .insert rootMeta (rootResponse [0]))] rootMeta.key = some st ∧
      ∀ q0, parseQueryMeta q0 = some st.qmeta →
        validateResponse (rootQuery (1, 2)) st.response = validateResponse q0 st.response := by
  constructor
  · have h1 : parseQueryMeta (letterQuery 97 1) = some ⟨⟨[1, 97, 0], 1, 1, false, false, 0⟩, 512⟩ := by decide
    have h2 : parseQueryMeta (letterQuery 65 2) = some ⟨⟨[1, 97, 0], 1, 1, false, false, 0⟩, 512⟩ := by decide
    exact (verdict_of_key h1 h2 rfl).1
  · have h : parseQueryMeta (rootQuery (1, 2)) = some rootMeta := by decide
    exact (verdict_of_key h h rfl).2 _ _ _ _ _ _ _ (servedAfter_hit (by decide))

end DNSRivet.Proxy
