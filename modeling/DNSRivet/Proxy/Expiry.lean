/-
How long the cache serves an answer. The time `cache_ttl` gives a response is within the TTL of all its
answers unless it takes the response for a negative one and goes by its SOA records alone; while no such
response came in, no answer is served once its TTL has run out (`answers_expire`).
-/
import DNSRivet.Proxy.Aging

namespace DNSRivet.Proxy

open DNSRivet.Base DNSRivet.Wire

variable {L : Lru QueryKey Entry}

/-- No response of a run has answers that its SOA records alone outlast. -/
def InsertsSpare (es : List (Nat × CacheEvent)) : Prop :=
  ∀ t qmeta r, (t, CacheEvent.insert qmeta r) ∈ es → ∀ sec, sections r = some sec → sec.soasSpare r qmeta.key.qtype

/-- While no such response came in, an answer is served only while it lives. -/
theorem hit_alive {es : List (Nat × CacheEvent)} {s : CacheState L} {now : Nat} {qmeta : QueryMeta}
    {id : UInt8 × UInt8} {buffer out : Bytes} (h : Run (cacheSystem L) (es ++ [(now, .get qmeta id buffer true out)]) s)
    (hspare : InsertsSpare es) :
    ∃ st sec, lastStored es qmeta.key = some st ∧ sections st.response = some sec ∧
      ∀ rr ∈ sec.answers, rr.kind ≠ typeOpt → now - st.time < rr.ttl * nanosPerSec := by
  obtain ⟨st, rrs, hst, -, -, hage, -⟩ := hit_keeps h
  obtain ⟨hmem, hkey, httl⟩ := lastStored_mem hst
  obtain ⟨sec, hsec, htime⟩ := cacheTtl_cases httl
  have hwithin := htime.within_iff.2 (hkey ▸ hspare _ _ _ hmem sec hsec)
  refine ⟨st, sec, hst, hsec, fun rr hrr hopt => ?_⟩
  have hle := hwithin.answers rr hrr hopt
  exact (Nat.div_lt_iff_lt_mul (by unfold nanosPerSec; omega)).1 (by omega)

/-- The time of a cacheable response is within its TTLs and the caps exactly when its SOA records do not
decide it alone against an answer; in a run in which every response taken in is like that, no answer is
served once its TTL has run out. -/
theorem answers_expire (L : Lru QueryKey Entry) :
    (∀ m queryType t, cacheTtl m queryType = some t →
      ∃ sec, sections m = some sec ∧ (Within m sec t ↔ sec.soasSpare m queryType)) ∧
    ∀ es s now qmeta id buffer out, Run (cacheSystem L) (es ++ [(now, .get qmeta id buffer true out)]) s →
      InsertsSpare es → ∃ st sec, lastStored es qmeta.key = some st ∧ sections st.response = some sec ∧
        ∀ rr ∈ sec.answers, rr.kind ≠ typeOpt → now - st.time < rr.ttl * nanosPerSec := by
  constructor
  · intro m queryType t h
    obtain ⟨sec, hsec, htime⟩ := cacheTtl_cases h
    exact ⟨sec, hsec, htime.within_iff⟩
  · intro es s now qmeta id buffer out h hspare
    exact hit_alive h hspare

theorem answers_expire_root :
    (∃ sec, sections (rootResponse [0]) = some sec ∧
      (Within (rootResponse [0]) sec 256 ↔ sec.soasSpare (rootResponse [0]) 1)) ∧
    ∃ st sec, lastStored [(0, .insert rootMeta (rootResponse [0]))] rootMeta.key = some st ∧
      sections st.response = some sec ∧
      ∀ rr ∈ sec.answers, rr.kind ≠ typeOpt → 1500000000 - st.time < rr.ttl * nanosPerSec := by
  refine ⟨(answers_expire (Lru.list QueryKey Entry)).1 _ _ _ (by decide),
    (answers_expire _).2 _ _ _ _ _ _ _ (servedAfter_hit (by decide)) ?_⟩
  intro t qmeta r hmem sec hsec hneg
  cases List.mem_singleton.1 hmem
  have hsoas : (sections (rootResponse [0])).map Sections.soas = some [] := by decide
  rw [hsec, Option.map_some, Option.some.injEq] at hsoas
  rcases hneg with h3 | ⟨hne, -⟩
  · exact absurd h3 (by decide)
  · exact absurd hsoas hne

/-- An answer to ANY: an address record of 5 s, and an SOA record of 600 s in the authority section. -/
def anyAnswer : Bytes :=
  [0, 7, 0x81, 0x80, 0, 1, 0, 1, 0, 1, 0, 0, 0, 0, 255, 0, 1, 0, 0, 1, 0, 1, 0, 0, 0, 5, 0, 4, 192, 0, 2, 1] ++
    [0, 0, 6, 0, 1, 0, 0, 2, 88, 0, 22, 0, 0, 0, 0, 0, 1, 0, 0, 0, 1, 0, 0, 0, 1, 0, 0, 0, 1, 0, 0, 2, 88]

def anyMeta : QueryMeta := ⟨⟨[0], 255, 1, false, false, 0⟩, 512⟩

def anyTaken : Cache (Lru.list QueryKey Entry) := (Cache.new _ true 4).insert 0 anyMeta anyAnswer

/-- The get of that answer 6 s later. -/
def anyServed : Bool × Bytes × Cache (Lru.list QueryKey Entry) := anyTaken.getInto 6000000000 anyMeta (1, 2) []

/-- No record has type ANY, so the answer is taken for a negative one and served past its TTL. -/
theorem answer_outlives_ttl : cacheTtl anyAnswer 255 = some 600 ∧
    (∃ sec rr, sections anyAnswer = some sec ∧ rr ∈ sec.answers ∧ rr.kind ≠ typeOpt ∧ rr.ttl = 5) ∧
    Run (cacheSystem (Lru.list QueryKey Entry)) [(0, .insert anyMeta anyAnswer),
      (6000000000, .get anyMeta (1, 2) [] true anyServed.2.1)] ⟨6000000000, anyServed.2.2⟩ := by
  refine ⟨by decide +kernel, ?_, ?_⟩
  · have hsec : (sections anyAnswer).map (·.answers) = some [⟨1, 1, 5, 22, 28, 4, 32⟩] := by decide +kernel
    obtain ⟨sec, hsec, hans⟩ := Option.map_eq_some_iff.1 hsec
    exact ⟨sec, _, hsec, hans ▸ List.mem_singleton_self _, by decide, rfl⟩
  · have hhit : anyServed.1 = true := by decide +kernel
    have h0 : Run (cacheSystem (Lru.list QueryKey Entry)) [] ⟨0, Cache.new _ true 4⟩ := .start ⟨true, 4, rfl⟩
    have s1 : (cacheSystem (Lru.list QueryKey Entry)).step ⟨0, Cache.new _ true 4⟩ (0, .insert anyMeta anyAnswer)
        ⟨0, anyTaken⟩ := by
      refine ⟨Nat.le_refl 0, rfl, ?_⟩
      unfold anyTaken
      rfl
    have s2 : (cacheSystem (Lru.list QueryKey Entry)).step ⟨0, anyTaken⟩
        (6000000000, .get anyMeta (1, 2) [] anyServed.1 anyServed.2.1) ⟨6000000000, anyServed.2.2⟩ := by
      refine ⟨Nat.zero_le _, rfl, ?_⟩
      simp only [Prod.mk.eta]
      unfold anyServed
      rfl
    rw [hhit] at s2
    exact (h0.snoc s1).snoc s2

end DNSRivet.Proxy
