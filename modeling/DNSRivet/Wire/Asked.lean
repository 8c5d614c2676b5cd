/-
What a query asks, read off its bytes independently of the cache metadata: the question, the
RD/AD/CD bits, the EDNS version and DO bit, and the records of its answer and authority sections.
The key of a query fixes all of it but those two sections (`asked_of_key`), and with it the verdict
of `validate_response` on any response (`validateResponse_of_key`).
-/
import DNSRivet.Wire.Records

namespace DNSRivet.Wire

open DNSRivet.Base

/-! ## What a message asks -/

/-- A resource record with its name expanded. -/
structure Record where
  owner : List Bytes
  kind : Nat
  «class» : Nat
  ttl : Nat
  rdata : Bytes
deriving DecidableEq, Repr

/-- What a query asks. -/
@[ext] structure Asked where
  /-- The labels of QNAME, case folded. -/
  name : List Bytes
  qtype : Nat
  qclass : Nat
  recursionDesired : Bool
  authenticData : Bool
  checkingDisabled : Bool
  /-- Version and DO bit of the first OPT record of the additional section. -/
  edns : Option (Nat × Bool)
  answers : List Record
  authorities : List Record
deriving DecidableEq, Repr

/-- The record at an offset, expanded, and the offset after it. -/
def readRecord (m : Bytes) (offset : Nat) : Option (Record × Nat) := do
  let (owner, _) ← expand m offset
  let rr ← parseRr m offset
  let rdata ← slice m rr.rdataOffset rr.end
  some (⟨owner, rr.kind, rr.class, rr.ttl, rdata⟩, rr.end)

def readRecords (m : Bytes) : Nat → Nat → Option (List Record × Nat)
  | 0, offset => some ([], offset)
  | n + 1, offset => do
    let (r, next) ← readRecord m offset
    let (rs, stop) ← readRecords m n next
    some (r :: rs, stop)

/-- Version and DO bit, as an OPT record keeps them in its TTL field. -/
def ednsOf (r : Record) : Nat × Bool := (r.ttl / 65536 % 256, r.ttl.testBit 15)

/-- What a single-question message asks. -/
def asked (m : Bytes) : Option Asked := do
  let flags ← readU16 m 2
  let (labels, stop) ← expand m headerLen
  let qtype ← readU16 m stop
  let qclass ← readU16 m (stop + 2)
  let (answers, offset) ← readRecords m (← readU16 m 6) (stop + 4)
  let (authorities, offset) ← readRecords m (← readU16 m 8) offset
  let (additionals, _) ← readRecords m (← readU16 m 10) offset
  some {
    name := foldCase labels, qtype, qclass
    recursionDesired := flags.testBit 8
    authenticData := flags.testBit 5
    checkingDisabled := flags.testBit 4
    edns := (additionals.find? fun r => r.kind == typeOpt).map ednsOf
    answers, authorities }

/-! ## Records -/

/-- Every record that parses can be read. -/
theorem readRecord_of_rr {m : Bytes} {offset : Nat} {rr : ResourceRecord} (h : parseRr m offset = some rr) :
    ∃ r, readRecord m offset = some (r, rr.end) ∧ r.kind = rr.kind ∧ r.ttl = rr.ttl := by
  have hrr := parseRr_some h
  obtain ⟨ls, nameEnd, hn, -⟩ := hrr.name
  have h1 := hrr.stop
  have h2 := hrr.rdataOffset
  have h3 := hrr.inside
  refine ⟨⟨ls, rr.kind, rr.class, rr.ttl, (m.drop rr.rdataOffset).take (rr.end - rr.rdataOffset)⟩, ?_, rfl, rfl⟩
  simp only [readRecord, hn, h, Option.bind_eq_bind, Option.bind_some, slice]
  rw [if_pos (by omega)]
  rfl

theorem readRecords_of_rrs {m : Bytes} :
    ∀ {n offset stop : Nat} {rrs : List ResourceRecord}, parseRrs m n offset = some (rrs, stop) →
      ∃ rs, readRecords m n offset = some (rs, stop)
  | 0, _, _, _, h => by cases h; exact ⟨[], rfl⟩
  | n + 1, offset, stop, rrs, h => by
    simp only [parseRrs, Option.bind_eq_bind, Option.bind_eq_some_iff, Option.some.injEq, Prod.mk.injEq,
      Prod.exists] at h
    obtain ⟨rr, hrr, rrs', stop', hrest, -, rfl⟩ := h
    obtain ⟨r, hr, -, -⟩ := readRecord_of_rr hrr
    obtain ⟨rs, hrs⟩ := readRecords_of_rrs hrest
    exact ⟨r :: rs, by simp only [readRecords, hr, hrs, Option.bind_eq_bind, Option.bind_some]⟩

/-! ## The additional section -/

theorem flag_testBit (n i : Nat) : decide (n &&& 2 ^ i ≠ 0) = n.testBit i := by
  rw [Bool.eq_iff_iff, decide_eq_true_iff]
  constructor
  · intro h
    by_contra hb
    refine h (Nat.eq_of_testBit_eq fun j => ?_)
    rw [Nat.testBit_and, Nat.testBit_two_pow, Nat.zero_testBit]
    by_cases hj : i = j
    · subst hj; simpa using hb
    · simp [hj]
  · intro hb h
    have := congrArg (Nat.testBit · i) h
    simp only [Nat.testBit_and, Nat.testBit_two_pow, Nat.zero_testBit, hb] at this
    simp at this

/-- The version byte of a four-byte field is its second. -/
theorem readU32_second {m : Bytes} {o n : Nat} {b : UInt8} (h : readU32 m o = some n) (hb : m[o + 1]? = some b) :
    n / 65536 % 256 = b.toNat := by
  obtain ⟨a, b', c, d, -, hb', -, -, rfl⟩ := readU32_some h
  rw [hb] at hb'
  cases hb'
  have := a.toNat_lt; have := b.toNat_lt; have := c.toNat_lt; have := d.toNat_lt
  unfold be32; omega

/-- An additional section the metadata accepts holds at most an OPT record of version 0, whose DO bit
is the one the metadata has. -/
theorem scanOpt_records {m : Bytes} {n offset : Nat} {size : Nat} {s : OptScan}
    (h : scanOpt m n ⟨offset, size, false, false⟩ = some s) :
    ∃ rs, readRecords m n offset = some (rs, s.offset) ∧
      (rs.find? fun r => r.kind == typeOpt).map ednsOf = if s.sawOpt then some (0, s.doBit) else none := by
  match n with
  | 0 =>
    cases h
    exact ⟨[], rfl, rfl⟩
  | n + 1 =>
    simp only [scanOpt, Option.bind_eq_bind, Option.bind_eq_some_iff] at h
    obtain ⟨rr, hrr, h⟩ := h
    split at h
    · cases h
    rename_i hkind
    split at h
    · cases h
    simp only [Option.bind_eq_some_iff] at h
    obtain ⟨version, hv, h⟩ := h
    split at h
    · cases h
    rename_i hzero
    obtain ⟨flags, hf, h⟩ := Option.bind_eq_some_iff.1 h
    simp only [ne_eq, not_or, not_not] at hkind hzero
    subst hzero
    match n with
    | 0 =>
      cases h
      obtain ⟨r, hr, hk, ht⟩ := readRecord_of_rr hrr
      have httl : rr.ttl = flags := by
        have := (parseRr_some hrr).ttl
        rw [hf] at this
        exact (Option.some.inj this).symm
      refine ⟨[r], by simp only [readRecords, hr, Option.bind_eq_bind, Option.bind_some], ?_⟩
      have hopt : (r.kind == typeOpt) = true := by rw [hk, hkind.1]; rfl
      simp only [List.find?_cons, hopt, Option.map_some, ednsOf, ht, httl, readU32_second hf hv, if_true]
      rw [← flag_testBit flags 15]
      rfl
    | n + 1 =>
      -- a second record finds the first OPT already seen
      simp only [scanOpt, Option.bind_eq_bind, Option.bind_eq_some_iff] at h
      obtain ⟨rr', -, h⟩ := h
      simp only [or_true, if_true] at h
      cases h

/-! ## The metadata -/

/-- What `parse_query_meta` accepts, and what it puts in the metadata. -/
structure MetaOk (m : Bytes) (qmeta : QueryMeta) : Prop where
  length : headerLen ≤ m.length
  flags : ∃ flags, readU16 m 2 = some flags ∧ flags &&& 0x8000 = 0 ∧ flags &&& 0x7800 = 0 ∧ flags &&& 0x0100 ≠ 0
  qdcount : readU16 m 4 = some 1
  question : ∃ labels stop, expand m headerLen = some (labels, stop) ∧ qmeta.key.qname = lowerAll labels.flatten ∧
    readU16 m stop = some qmeta.key.qtype ∧ readU16 m (stop + 2) = some qmeta.key.qclass ∧
    ∃ answers authorities additionals rrs offset s, readU16 m 6 = some answers ∧ readU16 m 8 = some authorities ∧
      readU16 m 10 = some additionals ∧ parseRrs m (answers + authorities) (stop + 4) = some (rrs, offset) ∧
      scanOpt m additionals ⟨offset, 512, false, false⟩ = some s ∧ s.offset = m.length ∧
      qmeta.key.doBit = s.doBit ∧ qmeta.key.edns = s.sawOpt ∧ qmeta.udpSize = s.udpSize
  bits : qmeta.key.dnssecHeaderBits = byteAt m 3 &&& 0x30

theorem parseQueryMeta_ok {m : Bytes} {qmeta : QueryMeta} (h : parseQueryMeta m = some qmeta) : MetaOk m qmeta := by
  unfold parseQueryMeta at h
  simp only [Option.bind_eq_bind] at h
  obtain ⟨hl, h⟩ := Option.ite_none_left_eq_some.1 h
  obtain ⟨flags, hf, h⟩ := Option.bind_eq_some_iff.1 h
  obtain ⟨hflags, h⟩ := Option.ite_none_left_eq_some.1 h
  obtain ⟨qd, hqd, h⟩ := Option.bind_eq_some_iff.1 h
  obtain ⟨hone, h⟩ := Option.ite_none_left_eq_some.1 h
  simp only [ne_eq, not_or, not_not] at hflags hone
  rw [hone] at hqd
  simp only [readName_eq, Option.bind_eq_some_iff, Option.map_eq_some_iff, skipRecords_eq] at h
  obtain ⟨-, ⟨p, hp, rfl⟩, qtype, hqt, qclass, hqc, an, han, ns, hns, -, ⟨rest, hrest, rfl⟩, ar, har, s, hs, h⟩ := h
  obtain ⟨hend, h⟩ := Option.ite_none_left_eq_some.1 h
  simp only [ne_eq, not_not] at hend
  cases h
  exact ⟨by omega, ⟨flags, hf, hflags.1, hflags.2.1, hflags.2.2⟩, hqd,
    ⟨p.1, p.2, hp, rfl, hqt, hqc, an, ns, ar, rest.1, rest.2, s, han, hns, har, hrest, hs, hend, rfl, rfl, rfl⟩, rfl⟩

/-- The low byte of the flags word holds the AD and CD bits. -/
theorem flags_low {m : Bytes} {flags : Nat} (h : readU16 m 2 = some flags) {i : Nat} (hi : i < 8) :
    flags.testBit i = (byteAt m 3).toNat.testBit i := by
  obtain ⟨a, b, -, hb, rfl⟩ := readU16_some h
  have hb3 : byteAt m 3 = b := by unfold byteAt; rw [List.getD_eq_getElem?_getD, hb]; rfl
  have hlow : be16 a b % 2 ^ 8 = b.toNat := by
    have := b.toNat_lt
    unfold be16; omega
  rw [hb3, ← hlow, Nat.testBit_mod_two_pow]
  simp [hi]

/-- Everything a query asks but its answer and authority records is in its key. -/
theorem asked_of_meta {m : Bytes} {qmeta : QueryMeta} (h : parseQueryMeta m = some qmeta) :
    ∃ labels a, NameOk labels ∧ qmeta.key.qname = lowerAll labels.flatten ∧ asked m = some a ∧ a =
      { name := foldCase labels, qtype := qmeta.key.qtype, qclass := qmeta.key.qclass, recursionDesired := true
        authenticData := qmeta.key.dnssecHeaderBits.toNat.testBit 5
        checkingDisabled := qmeta.key.dnssecHeaderBits.toNat.testBit 4
        edns := if qmeta.key.edns then some (0, qmeta.key.doBit) else none
        answers := a.answers, authorities := a.authorities } := by
  obtain ⟨-, ⟨flags, hf, -, -, hrd⟩, -, ⟨labels, stop, hn, hname, hqt, hqc, an, ns, ar, rrs, offset, s, han, hns,
    har, hrrs, hs, -, hdo, hedns, -⟩, hbits⟩ := parseQueryMeta_ok h
  rw [parseRrs_add] at hrrs
  simp only [Option.bind_eq_some_iff, Option.map_eq_some_iff, Prod.mk.injEq] at hrrs
  obtain ⟨p1, h1, p2, h2, -, rfl⟩ := hrrs
  obtain ⟨answers, hanswers⟩ := readRecords_of_rrs h1
  obtain ⟨authorities, hauthorities⟩ := readRecords_of_rrs h2
  obtain ⟨additionals, hadditionals, hopt⟩ := scanOpt_records hs
  have hbit : ∀ i, i = 4 ∨ i = 5 → flags.testBit i = qmeta.key.dnssecHeaderBits.toNat.testBit i := by
    intro i hi
    have hmask : Nat.testBit 0x30 i = true := by rcases hi with rfl | rfl <;> decide
    rw [flags_low hf (by omega), hbits, UInt8.toNat_and, Nat.testBit_and]
    show _ = (_ && Nat.testBit 0x30 i)
    rw [hmask, Bool.and_true]
  refine ⟨labels, ⟨foldCase labels, qmeta.key.qtype, qmeta.key.qclass, flags.testBit 8, flags.testBit 5,
    flags.testBit 4, (additionals.find? fun r => r.kind == typeOpt).map ednsOf, answers, authorities⟩, (expand_ok hn).1,
    hname, ?_, ?_⟩
  · simp only [asked, hf, hn, hqt, hqc, han, hns, har, hanswers, hauthorities, hadditionals, Option.bind_eq_bind,
      Option.bind_some]
  · have h8 : flags.testBit 8 = true := by
      rw [← flag_testBit flags 8]
      exact decide_eq_true hrd
    ext1 <;> simp only [h8, hbit 4 (.inl rfl), hbit 5 (.inr rfl), hopt, hedns, hdo]

/-- Queries with one key ask the same exactly when they carry the same answer and authority records. -/
theorem asked_of_key {m m' : Bytes} {qmeta qmeta' : QueryMeta} (h : parseQueryMeta m = some qmeta)
    (h' : parseQueryMeta m' = some qmeta') (hkey : qmeta.key = qmeta'.key) :
    ∃ a a', asked m = some a ∧ asked m' = some a' ∧
      (a = a' ↔ a.answers = a'.answers ∧ a.authorities = a'.authorities) := by
  obtain ⟨labels, a, hok, hname, ha, he⟩ := asked_of_meta h
  obtain ⟨labels', a', hok', hname', ha', he'⟩ := asked_of_meta h'
  have hfold : foldCase labels = foldCase labels' :=
    (lowerAll_flatten_inj hok hok').1 (by rw [← hname, ← hname', hkey])
  refine ⟨a, a', ha, ha', ?_⟩
  constructor
  · rintro rfl; exact ⟨rfl, rfl⟩
  · rintro ⟨h1, h2⟩
    rw [he, he', hkey, hfold, h1, h2]

/-! ## Validation under a key -/

theorem question_of_meta {m : Bytes} {qmeta : QueryMeta} (h : parseQueryMeta m = some qmeta) :
    ∃ labels a b c d, NameOk labels ∧ qmeta.key.qname = lowerAll labels.flatten ∧
      question m = some (foldCase labels, [a, b, c, d]) ∧ be16 a b = qmeta.key.qtype ∧ be16 c d = qmeta.key.qclass := by
  obtain ⟨-, -, -, ⟨labels, stop, hn, hname, hqt, hqc, -⟩, -⟩ := parseQueryMeta_ok h
  obtain ⟨a, b, ha, hb, hab⟩ := readU16_some hqt
  obtain ⟨c, d, hc, hd, hcd⟩ := readU16_some hqc
  have hlen := readU16_bound hqc
  have hs : slice m stop (stop + 4) = some ((m.drop stop).take (stop + 4 - stop)) := by
    unfold slice
    rw [if_pos (by omega)]
  have hbytes : (m.drop stop).take (stop + 4 - stop) = [a, b, c, d] := by
    apply List.ext_getElem?
    intro i
    by_cases hi : i < 4
    · rw [slice_getElem? hs (show i < stop + 4 - stop by omega)]
      obtain rfl | rfl | rfl | rfl : i = 0 ∨ i = 1 ∨ i = 2 ∨ i = 3 := by omega
      · exact ha
      · exact hb
      · exact hc
      · exact hd
    · rw [List.getElem?_eq_none (by rw [List.length_take]; omega), List.getElem?_eq_none (by simp; omega)]
  refine ⟨labels, a, b, c, d, (expand_ok hn).1, hname, ?_, hab.symm, hcd.symm⟩
  simp only [question, hn, hs, hbytes, Option.bind_eq_bind, Option.bind_some]

/-- The opcode of a query that may use the cache is QUERY. -/
theorem MetaOk.opcode {m : Bytes} {qmeta : QueryMeta} (h : MetaOk m qmeta) : byteAt m 2 &&& 0x78 = 0 := by
  obtain ⟨flags, hf, -, h78, -⟩ := h.flags
  obtain ⟨a, b, ha, -, rfl⟩ := readU16_some hf
  have ha2 : byteAt m 2 = a := by unfold byteAt; rw [List.getD_eq_getElem?_getD, ha]; rfl
  rw [ha2]
  apply UInt8.toNat_inj.1
  rw [UInt8.toNat_and]
  apply Nat.eq_of_testBit_eq
  intro i
  -- the flags word has the opcode eight bits higher
  have hi := congrArg (Nat.testBit · (i + 8)) h78
  simp only [Nat.testBit_and, Nat.zero_testBit] at hi ⊢
  have hhigh : be16 a b / 2 ^ 8 = a.toNat := by
    have := b.toNat_lt
    unfold be16; omega
  rw [← hhigh, Nat.testBit_div_two_pow]
  have hmask : Nat.testBit 0x7800 (i + 8) = Nat.testBit 0x78 i := by
    rw [← Nat.testBit_div_two_pow]
  rw [hmask] at hi
  simpa using hi

/-- A response gets the same verdict for every query with one key. -/
theorem validateResponse_of_key {q q' : Bytes} {qmeta qmeta' : QueryMeta} (r : Bytes)
    (h : parseQueryMeta q = some qmeta)
    (h' : parseQueryMeta q' = some qmeta') (hkey : qmeta.key = qmeta'.key) :
    validateResponse q r = validateResponse q' r := by
  have hok := parseQueryMeta_ok h
  have hok' := parseQueryMeta_ok h'
  refine validateResponse_congr_query r hok.length hok'.length ?_ (by rw [hok.qdcount, hok'.qdcount]) fun _ => ?_
  · rw [hok.opcode, hok'.opcode]
  · obtain ⟨labels, a, b, c, d, hn, hname, hq, hab, hcd⟩ := question_of_meta h
    obtain ⟨labels', a', b', c', d', hn', hname', hq', hab', hcd'⟩ := question_of_meta h'
    have hfold : foldCase labels = foldCase labels' :=
      (lowerAll_flatten_inj hn hn').1 (by rw [← hname, ← hname', hkey])
    obtain ⟨rfl, rfl⟩ := be16_inj (hab.trans ((congrArg QueryKey.qtype hkey).trans hab'.symm))
    obtain ⟨rfl, rfl⟩ := be16_inj (hcd.trans ((congrArg QueryKey.qclass hkey).trans hcd'.symm))
    rw [hq, hq', hfold]

end DNSRivet.Wire
