/-
What `cache_ttl` accepts and the time it gives: only complete messages, and the least of the TTLs it takes
into account (`cacheTtl_cases`). For a negative answer without a CNAME those are the SOA records' alone, so
the time is within the TTL of every answer record only if they are (`CacheTime.within_iff`).
-/
import DNSRivet.Wire.Records

namespace DNSRivet.Wire

open DNSRivet.Base

/-- The record loop of `cache_ttl` reads the records it passes. -/
theorem scanTtls_chain {m : Bytes} {queryType answers authorities : Nat} :
    ∀ {n index : Nat} {s s' : TtlScan}, scanTtls m queryType answers authorities n index s = some s' →
      ∃ rrs, parseRrs m n s.offset = some (rrs, s'.offset)
  | 0, _, s, s', h => by cases h; exact ⟨[], rfl⟩
  | n + 1, index, s, s', h => by
    simp only [scanTtls, Option.bind_eq_bind, Option.bind_eq_some_iff] at h
    obtain ⟨rr, hrr, soa, -, h⟩ := h
    obtain ⟨rrs, hrrs⟩ := scanTtls_chain h
    refine ⟨rr :: rrs, ?_⟩
    simp only [parseRrs, hrr, Option.bind_eq_bind, Option.bind_some]
    simp only at hrrs
    rw [hrrs]; rfl

/-- A cacheable message is complete: it holds its questions, exactly the records it counts, and
nothing after them. -/
theorem cacheTtl_records {m : Bytes} {queryType t : Nat} (h : cacheTtl m queryType = some t) :
    ∃ rrs, records m = some rrs := by
  simp only [cacheTtl, Option.bind_eq_bind] at h
  obtain ⟨-, h⟩ := Option.ite_none_left_eq_some.1 h
  obtain ⟨-, h⟩ := Option.ite_none_left_eq_some.1 h
  simp only [Option.bind_eq_some_iff] at h
  obtain ⟨answers, ha, authorities, hb, additionals, hc, offset, ho, s, hs, h⟩ := h
  obtain ⟨hend, -⟩ := Option.ite_none_left_eq_some.1 h
  simp only [ne_eq, not_not] at hend
  obtain ⟨rrs, hrrs⟩ := scanTtls_chain hs
  refine ⟨rrs, ?_⟩
  simp only [records, ho, totalRrCount, ha, hb, hc, Option.bind_eq_bind, Option.bind_some]
  simp only at hrrs
  rw [hrrs]
  simp only [Option.bind_some, hend, if_true]

/-! ## The sections of a message -/

structure Sections where
  answers : List ResourceRecord
  authorities : List ResourceRecord
  additionals : List ResourceRecord
deriving DecidableEq, Repr

def sections (m : Bytes) : Option Sections := do
  let offset ← questionsEnd m
  let (answers, offset) ← parseRrs m (← readU16 m 6) offset
  let (authorities, offset) ← parseRrs m (← readU16 m 8) offset
  let (additionals, _) ← parseRrs m (← readU16 m 10) offset
  some ⟨answers, authorities, additionals⟩

/-- How long an SOA record lets a negative answer be kept: the lesser of its TTL and its MINIMUM. -/
def negativeTtl (m : Bytes) (rr : ResourceRecord) : Nat := (soaMinimum m rr).elim rr.ttl (min rr.ttl)

namespace Sections

def ttls (s : Sections) : List Nat := (s.answers ++ s.authorities).map (·.ttl)

def soas (s : Sections) : List ResourceRecord := s.authorities.filter fun rr => rr.kind == typeSoa

def hasKind (s : Sections) (kind : Nat) : Bool := s.answers.any fun rr => rr.kind == kind

end Sections

/-! ## The running minima -/

theorem foldl_minWith_some (l : List Nat) : ∀ a, l.foldl minWith (some a) = some (l.foldl min a) := by
  induction l with
  | nil => exact fun _ => rfl
  | cons x l ih => exact fun a => ih (min a x)

theorem foldl_minWith (l : List Nat) : l.foldl minWith none = l.min? := by
  cases l with
  | nil => rfl
  | cons x l => exact foldl_minWith_some l x

/-- What scanning the records `rrs` makes of `s`, all of them in the answer section (`ans`), all in the
authority section (`auth`), or all behind both. -/
structure Scanned (m : Bytes) (queryType : Nat) (ans auth : Bool) (rrs : List ResourceRecord) (s s' : TtlScan) :
    Prop where
  positiveMin : s'.positiveMin = if ans || auth then (rrs.map (·.ttl)).foldl minWith s.positiveMin else s.positiveMin
  soaMin : s'.soaMin =
    if auth then ((rrs.filter fun rr => rr.kind == typeSoa).map (negativeTtl m)).foldl minWith s.soaMin else s.soaMin
  requested : s'.hasRequestedAnswer = (s.hasRequestedAnswer || (ans && rrs.any fun rr => rr.kind == queryType))
  cname : s'.hasCname = (s.hasCname || (ans && rrs.any fun rr => rr.kind == typeCname))

/-- The scan of one section. -/
theorem scanTtls_section {m : Bytes} {queryType answers authorities : Nat} (ans auth : Bool) :
    ∀ {n index : Nat} {s s' : TtlScan},
      (∀ i, index ≤ i → i < index + n →
        decide (i < answers) = ans ∧ decide (answers ≤ i ∧ i < answers + authorities) = auth) →
      scanTtls m queryType answers authorities n index s = some s' →
      ∃ rrs, parseRrs m n s.offset = some (rrs, s'.offset) ∧ Scanned m queryType ans auth rrs s s'
  | 0, _, s, s', _, h => by
    cases h
    exact ⟨[], rfl, by simp, by simp, by simp, by simp⟩
  | n + 1, index, s, s', hsec, h => by
    simp only [scanTtls, Option.bind_eq_bind, Option.bind_eq_some_iff] at h
    obtain ⟨rr, hrr, soa, hsoa, h⟩ := h
    obtain ⟨rrs, hrrs, hscan⟩ := scanTtls_section ans auth (fun i h1 h2 => hsec i (by omega) (by omega)) h
    obtain ⟨hans, hauth⟩ := hsec index (Nat.le_refl _) (by omega)
    simp only at hrrs
    refine ⟨rr :: rrs, by simp only [parseRrs, hrr, hrrs, Option.bind_eq_bind, Option.bind_some], ?_, ?_, ?_, ?_⟩
    · have hin : (index < answers ∨ answers ≤ index ∧ index < answers + authorities) ↔ (ans || auth) = true := by
        rw [← hans, ← hauth]
        simp
      rw [hscan.positiveMin]
      simp only [hin]
      split <;> rfl
    · have hin : (answers ≤ index ∧ index < answers + authorities) ↔ auth = true := by rw [← hauth]; simp
      simp only [hin] at hsoa
      rw [hscan.soaMin]
      cases auth with
      | false =>
        simp only [Bool.false_eq_true, false_and, if_false, Option.some.injEq] at hsoa ⊢
        exact hsoa.symm
      | true =>
        simp only [if_true]
        by_cases hkind : rr.kind = typeSoa
        · rw [if_pos ⟨rfl, hkind⟩] at hsoa
          obtain ⟨minimum, hmin, rfl⟩ := Option.map_eq_some_iff.1 hsoa
          rw [List.filter_cons_of_pos (by simpa using hkind), List.map_cons, List.foldl_cons]
          rw [show negativeTtl m rr = min rr.ttl minimum by unfold negativeTtl; rw [hmin]; rfl]
        · rw [if_neg (by simp [hkind])] at hsoa
          cases hsoa
          rw [List.filter_cons_of_neg (by simpa using hkind)]
    · rw [hscan.requested, hans, List.any_cons, Bool.or_assoc, Bool.and_or_distrib_left]
    · rw [hscan.cname, hans, List.any_cons, Bool.or_assoc, Bool.and_or_distrib_left]

theorem scanTtls_add (m : Bytes) (queryType answers authorities a b : Nat) : ∀ (index : Nat) (s : TtlScan),
    scanTtls m queryType answers authorities (a + b) index s =
      (scanTtls m queryType answers authorities a index s).bind
        (scanTtls m queryType answers authorities b (index + a)) := by
  induction a with
  | zero =>
    intro index s
    rw [Nat.zero_add]
    rfl
  | succ a ih =>
    intro index s
    rw [Nat.succ_add, show index + (a + 1) = index + 1 + a by omega]
    simp only [scanTtls, ih, Option.bind_eq_bind, Option.bind_assoc]

/-- A cacheable message has its sections, and the scan took both minima and both flags from them. -/
theorem scanTtls_sections {m : Bytes} {queryType offset answers authorities additionals : Nat} {s : TtlScan}
    (ho : questionsEnd m = some offset) (ha : readU16 m 6 = some answers) (hb : readU16 m 8 = some authorities)
    (hc : readU16 m 10 = some additionals)
    (h : scanTtls m queryType answers authorities (answers + authorities + additionals) 0
      ⟨offset, none, none, false, false⟩ = some s) :
    ∃ sec, sections m = some sec ∧ s.positiveMin = sec.ttls.min? ∧
      s.soaMin = (sec.soas.map (negativeTtl m)).min? ∧ s.hasRequestedAnswer = sec.hasKind queryType ∧
      s.hasCname = sec.hasKind typeCname := by
  rw [scanTtls_add, scanTtls_add, Option.bind_assoc] at h
  obtain ⟨s1, h1, h⟩ := Option.bind_eq_some_iff.1 h
  obtain ⟨s2, h2, h3⟩ := Option.bind_eq_some_iff.1 h
  obtain ⟨an, han, hs1⟩ := scanTtls_section true false (fun i _ _ => ⟨by simp; omega, by simp; omega⟩) h1
  obtain ⟨ns, hns, hs2⟩ := scanTtls_section false true (fun i _ _ => ⟨by simp; omega, by simp; omega⟩) h2
  obtain ⟨ar, har, hs3⟩ := scanTtls_section false false (fun i _ _ => ⟨by simp; omega, by simp; omega⟩) h3
  simp only at han
  refine ⟨⟨an, ns, ar⟩, ?_, ?_, ?_, ?_, ?_⟩
  · simp only [sections, ho, ha, hb, hc, han, hns, har, Option.bind_eq_bind, Option.bind_some]
  · rw [hs3.positiveMin, hs2.positiveMin, hs1.positiveMin]
    simp only [Bool.or_false, Bool.or_true, Bool.false_eq_true, if_true, if_false]
    rw [← List.foldl_append, ← List.map_append, foldl_minWith]
    rfl
  · rw [hs3.soaMin, hs2.soaMin, hs1.soaMin]
    simp only [Bool.false_eq_true, if_true, if_false]
    exact foldl_minWith _
  · rw [hs3.requested, hs2.requested, hs1.requested]
    simp [Sections.hasKind]
  · rw [hs3.cname, hs2.cname, hs1.cname]
    simp [Sections.hasKind]

/-! ## The time -/

/-- A message that `cache_ttl` takes for a negative answer: NXDOMAIN, or no answer of the type asked for and
an SOA record. -/
def Sections.negative (sec : Sections) (rcode : UInt8) (queryType : Nat) : Prop :=
  rcode = 3 ∨ sec.soas ≠ [] ∧ sec.hasKind queryType = false

/-- The time by cases, of a message with the sections `sec`. -/
inductive CacheTime (m : Bytes) (queryType : Nat) (sec : Sections) : Nat → Prop
  | positive {least : Nat} : ¬ sec.negative (byteAt m 3 &&& 0x0f) queryType → sec.ttls.min? = some least → 0 < least →
    CacheTime m queryType sec (min least 86400)
  | negative {least : Nat} : sec.negative (byteAt m 3 &&& 0x0f) queryType → sec.hasKind typeCname = false →
    (sec.soas.map (negativeTtl m)).min? = some least → 0 < least → CacheTime m queryType sec (min least 600)
  | viaCname {soa least : Nat} : sec.negative (byteAt m 3 &&& 0x0f) queryType → sec.hasKind typeCname = true →
    (sec.soas.map (negativeTtl m)).min? = some soa → sec.ttls.min? = some least → 0 < min soa least →
    CacheTime m queryType sec (min (min soa least) 600)

theorem capTtl_some {ttl cap t : Nat} (h : capTtl ttl cap = some t) : 0 < ttl ∧ t = min ttl cap := by
  unfold capTtl at h
  split at h
  · cases h
    exact ⟨by assumption, rfl⟩
  · cases h

theorem cacheTtl_cases {m : Bytes} {queryType t : Nat} (h : cacheTtl m queryType = some t) :
    ∃ sec, sections m = some sec ∧ CacheTime m queryType sec t := by
  simp only [cacheTtl, Option.bind_eq_bind] at h
  obtain ⟨-, h⟩ := Option.ite_none_left_eq_some.1 h
  obtain ⟨hrcode, h⟩ := Option.ite_none_left_eq_some.1 h
  simp only [Option.bind_eq_some_iff] at h
  obtain ⟨answers, ha, authorities, hb, additionals, hc, offset, ho, s, hs, h⟩ := h
  obtain ⟨-, h⟩ := Option.ite_none_left_eq_some.1 h
  obtain ⟨sec, hsec, hpos, hsoa, hreq, hcname⟩ := scanTtls_sections ho ha hb hc hs
  refine ⟨sec, hsec, ?_⟩
  have hneg : (byteAt m 3 &&& 0x0f = 3 ∨
      byteAt m 3 &&& 0x0f = 0 ∧ s.soaMin.isSome = true ∧ s.hasRequestedAnswer = false) ↔
      sec.negative (byteAt m 3 &&& 0x0f) queryType := by
    have hsome : s.soaMin.isSome = true ↔ sec.soas ≠ [] := by
      rw [hsoa, Option.isSome_iff_ne_none, ne_eq, List.min?_eq_none_iff, List.map_eq_nil_iff]
    unfold Sections.negative
    rw [hsome, hreq]
    constructor
    · rintro (h3 | ⟨-, h0⟩)
      · exact .inl h3
      · exact .inr h0
    · rintro (h3 | h0)
      · exact .inl h3
      · rcases not_not.1 hrcode with hz | h3
        · exact .inr ⟨hz, h0⟩
        · exact .inl h3
  by_cases hn : sec.negative (byteAt m 3 &&& 0x0f) queryType
  · rw [if_pos (hneg.2 hn)] at h
    obtain ⟨soa, hsoa', h⟩ := Option.bind_eq_some_iff.1 h
    rw [hsoa] at hsoa'
    split at h
    · rename_i hc
      obtain ⟨least, hleast, h⟩ := Option.bind_eq_some_iff.1 h
      obtain ⟨hlt, rfl⟩ := capTtl_some h
      exact .viaCname hn (hcname ▸ hc) hsoa' (hpos ▸ hleast) hlt
    · rename_i hc
      obtain ⟨hlt, rfl⟩ := capTtl_some h
      exact .negative hn (hcname ▸ Bool.eq_false_iff.2 hc) hsoa' hlt
  · rw [if_neg fun hx => hn (hneg.1 hx)] at h
    obtain ⟨least, hleast, h⟩ := Option.bind_eq_some_iff.1 h
    obtain ⟨hlt, rfl⟩ := capTtl_some h
    exact .positive hn (hpos ▸ hleast) hlt

/-! ## Time and TTLs -/

/-- A time for which every answer but OPT and every SOA record lives, at most 600 s for NXDOMAIN and a day
otherwise. -/
structure Within (m : Bytes) (sec : Sections) (t : Nat) : Prop where
  least : 1 ≤ t
  answers : ∀ rr ∈ sec.answers, rr.kind ≠ typeOpt → t ≤ rr.ttl
  soas : ∀ rr ∈ sec.soas, t ≤ rr.ttl
  cap : t ≤ if byteAt m 3 &&& 0x0f = 3 then 600 else 86400

/-- Where the SOA records decide the time alone, every answer but OPT lives for the time they give. -/
def Sections.soasSpare (sec : Sections) (m : Bytes) (queryType : Nat) : Prop :=
  sec.negative (byteAt m 3 &&& 0x0f) queryType → sec.hasKind typeCname = false →
    ∀ rr ∈ sec.answers, rr.kind ≠ typeOpt → 600 ≤ rr.ttl ∨ ∃ soa ∈ sec.soas, negativeTtl m soa ≤ rr.ttl

theorem negativeTtl_le (m : Bytes) (rr : ResourceRecord) : negativeTtl m rr ≤ rr.ttl := by
  unfold negativeTtl
  cases soaMinimum m rr with
  | none => exact Nat.le_refl _
  | some minimum => exact Nat.min_le_left _ _

/-- The least of the TTLs is within every one of them. -/
theorem Sections.ttls_le {sec : Sections} {least : Nat} (h : sec.ttls.min? = some least) :
    (∀ rr ∈ sec.answers, least ≤ rr.ttl) ∧ ∀ rr ∈ sec.authorities, least ≤ rr.ttl := by
  have hle := (List.min?_eq_some_iff.1 h).2
  constructor
  · intro rr hrr
    exact hle _ (List.mem_map.2 ⟨rr, List.mem_append_left _ hrr, rfl⟩)
  · intro rr hrr
    exact hle _ (List.mem_map.2 ⟨rr, List.mem_append_right _ hrr, rfl⟩)

/-- The time is within the TTLs exactly when the SOA records do not decide it alone against an answer. -/
theorem CacheTime.within_iff {m : Bytes} {queryType t : Nat} {sec : Sections} (h : CacheTime m queryType sec t) :
    Within m sec t ↔ sec.soasSpare m queryType := by
  have hcap : ∀ n, min n 600 ≤ if byteAt m 3 &&& 0x0f = 3 then 600 else 86400 := by
    intro n
    split <;> omega
  cases h with
  | positive hneg hmin hpos =>
    rename_i least
    obtain ⟨hans, hauth⟩ := Sections.ttls_le hmin
    refine ⟨fun _ hn => absurd hn hneg, fun _ => ⟨by omega, fun rr hrr _ => ?_, fun rr hrr => ?_, ?_⟩⟩
    · exact Nat.le_trans (Nat.min_le_left _ _) (hans rr hrr)
    · exact Nat.le_trans (Nat.min_le_left _ _) (hauth rr (List.mem_filter.1 hrr).1)
    · rw [if_neg fun h3 => hneg (.inl h3)]
      exact Nat.min_le_right _ _
  | viaCname hneg hcname hsoa hmin hpos =>
    rename_i soa least
    obtain ⟨hans, hauth⟩ := Sections.ttls_le hmin
    refine ⟨fun _ _ hno => absurd (hcname.symm.trans hno) (by simp),
      fun _ => ⟨by omega, fun rr hrr _ => ?_, fun rr hrr => ?_, hcap _⟩⟩
    · have := hans rr hrr
      omega
    · have := hauth rr (List.mem_filter.1 hrr).1
      omega
  | negative hneg hno hsoa hpos =>
    rename_i soa
    obtain ⟨hmem, hle⟩ := List.min?_eq_some_iff.1 hsoa
    obtain ⟨first, hfirst, hval⟩ := List.mem_map.1 hmem
    constructor
    · intro hw _ _ rr hrr hopt
      have := hw.answers rr hrr hopt
      by_cases h600 : 600 ≤ rr.ttl
      · exact .inl h600
      · exact .inr ⟨first, hfirst, by omega⟩
    · intro hspare
      refine ⟨by omega, fun rr hrr hopt => ?_, fun rr hrr => ?_, hcap _⟩
      · rcases hspare hneg hno rr hrr hopt with h600 | ⟨other, hother, hless⟩
        · omega
        · have := hle _ (List.mem_map.2 ⟨other, hother, rfl⟩)
          omega
      · have := hle _ (List.mem_map.2 ⟨rr, hrr, rfl⟩)
        have := negativeTtl_le m rr
        omega

end DNSRivet.Wire
