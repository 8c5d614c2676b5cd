/-
What a cache hit hands out. The stored copy of a response is aged in place by every hit that finds
whole seconds passed, from a base that moves with it; `Keeps` says what it holds at any moment: the
response with its ID zeroed and its TTLs decreased by the seconds between the insert and the base.
-/
import DNSRivet.Proxy.Cache
import DNSRivet.Wire.CacheTtl

namespace DNSRivet.Proxy

open DNSRivet.Base DNSRivet.Wire

/-! ## Reissued responses -/

/-- `out` is `r` under another ID with every non-OPT TTL decreased by `age` (at least zero) and every
other byte kept. -/
structure Reissued (r : Bytes) (rrs : List ResourceRecord) (id : UInt8 × UInt8) (age : Nat) (out : Bytes) : Prop where
  length : out.length = r.length
  ident : out[0]? = some id.1 ∧ out[1]? = some id.2
  ttl : ∀ rr ∈ rrs, rr.kind ≠ typeOpt → readU32 out rr.ttlOffset = some (rr.ttl - age)
  other : ∀ i, 2 ≤ i → ¬ TtlByte rrs i → out[i]? = r[i]?

/-- Ageing and setting the ID write different bytes, in either order. -/
theorem reissued_of_aged {r m : Bytes} {rrs : List ResourceRecord} {id0 : UInt8 × UInt8} (id : UInt8 × UInt8)
    {age : Nat}
    (hr : records r = some rrs) (h : Aged rrs age (setId r id0) m) :
    Reissued r rrs id age (setId m id) := by
  obtain ⟨offset, -, -, hl, ho, hc⟩ := records_some hr
  have hm : headerLen ≤ m.length := by rw [h.length, setId_length hl]; exact hl
  refine ⟨?_, setId_ident hm, fun rr hrr hk => ?_, fun i hi hb => ?_⟩
  · rw [setId_length hm, h.length, setId_length hl]
  · have hlo := (hc.ttl_bounds rr hrr).1
    have ht := (hc.ttl_bounds rr hrr).2.2.2
    have h12 : headerLen = 12 := rfl
    obtain ⟨t, ht0, ht1⟩ := h.ttl rr hrr hk
    have h0 : readU32 (setId r id0) rr.ttlOffset = readU32 r rr.ttlOffset :=
      readU32_congr fun i _ => setId_other hl (by omega)
    have h1 : readU32 (setId m id) rr.ttlOffset = readU32 m rr.ttlOffset :=
      readU32_congr fun i _ => setId_other hm (by omega)
    rw [h0, ht] at ht0
    cases ht0
    rw [h1, ht1]
  · rw [setId_other hm hi, h.other i hb, setId_other hl hi]

/-! ## What the stored copy holds -/

/-- `entry` holds the response last taken in, aged by `age` seconds. -/
structure Keeps (st : Stored) (age : Nat) (entry : Entry) : Prop where
  aged : ∃ rrs, records st.response = some rrs ∧ Aged rrs age (setId st.response (0, 0)) entry.response
  agedAt : entry.agedAt = st.time + age * nanosPerSec
  ttl : entry.ttl + age = st.ttl

theorem keeps_insert {st : Stored} {queryType : Nat} (h : cacheTtl st.response queryType = some st.ttl) :
    Keeps st 0 ⟨setId st.response (0, 0), st.time, st.ttl⟩ := by
  obtain ⟨rrs, hr⟩ := cacheTtl_records h
  obtain ⟨offset, -, -, hl, ho, hc⟩ := records_some hr
  have h12 : headerLen = 12 := rfl
  refine ⟨⟨rrs, hr, Aged.zero fun rr hrr _ => ⟨rr.ttl, ?_⟩⟩, by simp, rfl⟩
  rw [← (hc.ttl_bounds rr hrr).2.2.2]
  have := (hc.ttl_bounds rr hrr).1
  exact readU32_congr fun i _ => setId_other hl (by omega)

/-- What a hit makes of the entry it finds after `elapsed` whole seconds. -/
structure Ages (entry : Entry) (elapsed : Nat) (entry' : Entry) : Prop where
  lt : elapsed < entry.ttl
  bytes : elapsed = 0 ∧ entry'.response = entry.response ∨ adjustTtls entry.response elapsed = (true, entry'.response)
  agedAt : entry'.agedAt = entry.agedAt + elapsed * nanosPerSec
  ttl : entry'.ttl = entry.ttl - elapsed

theorem Keeps.ages {st : Stored} {age elapsed : Nat} {entry entry' : Entry} (h : Keeps st age entry)
    (ha : Ages entry elapsed entry') : Keeps st (age + elapsed) entry' := by
  obtain ⟨⟨rrs, hr, hag⟩, hat, htt⟩ := h
  have hlt := ha.lt
  refine ⟨⟨rrs, hr, ?_⟩, ?_, ?_⟩
  · rcases ha.bytes with ⟨rfl, hb⟩ | hb
    · rw [hb]; exact hag
    · obtain ⟨-, -, -, hl, -, -⟩ := records_some hr
      refine hag.trans (adjustTtls_aged hr ?_ hb)
      exact ((setId_agree (0, 0) hl).mono fun i hi => hi.1).trans (hag.agree.mono fun i hi => hi.2)
  · rw [ha.agedAt, hat, Nat.add_mul, Nat.add_assoc]
  · rw [ha.ttl]; omega

/-! ## One operation -/

variable {L : Lru QueryKey Entry}

/-- What a get can do: miss, drop the entry of its key, or hit and age it. -/
inductive GetOutcome (cache : Cache L) (now : Nat) (qmeta : QueryMeta) (id : UInt8 × UInt8) (buffer : Bytes) :
    Bool → Bytes → Cache L → Prop
  | absent : (∀ entries, cache.entries = some entries → L.peek entries qmeta.key = none) →
      GetOutcome cache now qmeta id buffer false buffer cache
  | dropped {entries entries' : L.Carrier} : cache.entries = some entries → L.peek entries' qmeta.key = none →
      (∀ k, k ≠ qmeta.key → L.peek entries' k = L.peek entries k) →
      GetOutcome cache now qmeta id buffer false buffer ⟨some entries'⟩
  | hit {entries entries' : L.Carrier} {entry entry' : Entry} : cache.entries = some entries →
      L.peek entries qmeta.key = some entry → Ages entry ((now - entry.agedAt) / nanosPerSec) entry' →
      L.peek entries' qmeta.key = some entry' → (∀ k, k ≠ qmeta.key → L.peek entries' k = L.peek entries k) →
      GetOutcome cache now qmeta id buffer true (setId entry'.response id) ⟨some entries'⟩

theorem getInto_outcome {cache cache' : Cache L} {now : Nat} {qmeta : QueryMeta} {id : UInt8 × UInt8}
    {buffer out : Bytes} {hit : Bool} (h : cache.getInto now qmeta id buffer = (hit, out, cache')) :
    GetOutcome cache now qmeta id buffer hit out cache' := by
  unfold Cache.getInto at h
  split at h
  · rename_i hoff
    cases h
    exact .absent fun entries he => by rw [hoff] at he; cases he
  · rename_i entries hon
    split at h
    · rename_i hnone
      cases h
      refine .absent fun entries' he => ?_
      rw [hon] at he
      cases he
      exact (L.getMut_none _ _).1 hnone
    · rename_i entry write hsome
      obtain ⟨hpeek, hwrite⟩ := L.getMut_some _ _ _ _ hsome
      simp only at h
      split at h
      · cases h
        exact .dropped hon (L.peek_pop _ _).1 (L.peek_pop _ _).2
      · rename_i hlt
        split at h
        · split at h
          · rename_i hok
            cases h
            have hages : Ages entry ((now - entry.agedAt) / nanosPerSec)
                ⟨(adjustTtls entry.response ((now - entry.agedAt) / nanosPerSec)).2,
                  entry.agedAt + (now - entry.agedAt) / nanosPerSec * nanosPerSec,
                  entry.ttl - (now - entry.agedAt) / nanosPerSec⟩ :=
              ⟨by omega, .inr (Prod.ext hok rfl), rfl, rfl⟩
            exact .hit hon hpeek hages (hwrite _).1 (hwrite _).2
          · cases h
            refine .dropped hon (L.peek_pop _ _).1 fun k hk => ?_
            rw [(L.peek_pop _ _).2 k hk, (hwrite _).2 k hk]
        · rename_i hz
          have h0 : (now - entry.agedAt) / nanosPerSec = 0 := Nat.eq_zero_of_not_pos hz
          cases h
          have hages : Ages entry ((now - entry.agedAt) / nanosPerSec) entry :=
            ⟨by omega, .inl ⟨h0, rfl⟩, by rw [h0]; simp, by rw [h0]; rfl⟩
          exact .hit hon hpeek hages (hwrite _).1 (hwrite _).2

/-! ## Every run -/

/-- Every entry of the cache keeps the response last taken in under its key, aged up to a moment that
has passed. -/
def CacheOk (es : List (Nat × CacheEvent)) (s : CacheState L) : Prop :=
  ∀ entries, s.cache.entries = some entries → ∀ key entry, L.peek entries key = some entry →
    ∃ st age, lastStored es key = some st ∧ Keeps st age entry ∧ entry.agedAt ≤ s.clock

theorem cacheOk_insert {es : List (Nat × CacheEvent)} {s s' : CacheState L} {t : Nat} {qmeta : QueryMeta}
    {response : Bytes} (hi : CacheOk es s) (h : (cacheSystem L).step s (t, .insert qmeta response) s') :
    CacheOk (es ++ [(t, .insert qmeta response)]) s' := by
  obtain ⟨hclock, hnow, hstep⟩ := h
  simp only at hclock hnow hstep
  intro entries' he' key entry hpeek
  rw [lastStored_snoc]
  rw [hstep] at he'
  unfold Cache.insert at he'
  split at he'
  · rename_i hoff
    rw [hoff] at he'; cases he'
  · rename_i entries hon
    have hold : key ≠ qmeta.key ∨ cacheTtl response qmeta.key.qtype = none → L.peek entries key = some entry →
        ∃ st age, stores key (lastStored es key) (t, .insert qmeta response) = some st ∧ Keeps st age entry ∧
          entry.agedAt ≤ s'.clock := by
      intro hne hp
      obtain ⟨st, age, hst, hk, hat⟩ := hi entries hon key entry hp
      refine ⟨st, age, ?_, hk, by omega⟩
      simp only [stores]
      split
      · rename_i hk'
        subst hk'
        rcases hne with hne | hnone
        · exact absurd rfl hne
        · rw [hnone]; exact hst
      · exact hst
    split at he'
    · rename_i hnone
      rw [hon] at he'
      cases he'
      exact hold (.inr hnone) hpeek
    · rename_i ttl httl
      cases he'
      by_cases hk : key = qmeta.key
      · subst hk
        have hv := (L.peek_put _ _ _).1 _ hpeek
        subst hv
        refine ⟨⟨t, qmeta, response, ttl⟩, 0, ?_, keeps_insert httl, ?_⟩
        · simp only [stores, if_true, httl]
        · simp only [hnow]; exact Nat.le_refl _
      · exact hold (.inl hk) ((L.peek_put _ _ _).2 _ _ hk hpeek)

theorem cacheOk_get {es : List (Nat × CacheEvent)} {s s' : CacheState L} {t : Nat} {qmeta : QueryMeta}
    {id : UInt8 × UInt8} {buffer out : Bytes} {hit : Bool} (hi : CacheOk es s)
    (h : (cacheSystem L).step s (t, .get qmeta id buffer hit out) s') :
    CacheOk (es ++ [(t, .get qmeta id buffer hit out)]) s' := by
  obtain ⟨hclock, hnow, hstep⟩ := h
  simp only at hclock hnow hstep
  intro entries' he' key entry' hpeek'
  rw [lastStored_snoc]
  show ∃ st age, lastStored es key = some st ∧ Keeps st age entry' ∧ entry'.agedAt ≤ s'.clock
  have hold : ∀ entries, s.cache.entries = some entries → L.peek entries key = some entry' →
      ∃ st age, lastStored es key = some st ∧ Keeps st age entry' ∧ entry'.agedAt ≤ s'.clock := by
    intro entries hon hp
    obtain ⟨st, age, hst, hk, hat⟩ := hi entries hon key entry' hp
    exact ⟨st, age, hst, hk, by omega⟩
  have hout := getInto_outcome hstep
  generalize s'.cache = c' at hout he'
  cases hout with
  | absent => exact hold _ he' hpeek'
  | dropped hon hgone hothers =>
    cases he'
    by_cases hk : key = qmeta.key
    · subst hk; rw [hgone] at hpeek'; cases hpeek'
    · exact hold _ hon (by rw [← hothers key hk]; exact hpeek')
  | hit hon hpeek hages hnew hothers =>
    rename_i entries entries'' entry entry''
    cases he'
    by_cases hk : key = qmeta.key
    · subst hk
      rw [hnew] at hpeek'
      cases hpeek'
      obtain ⟨st, age, hst, hkeep, hat⟩ := hi entries hon qmeta.key entry hpeek
      refine ⟨st, _, hst, hkeep.ages hages, ?_⟩
      have := Nat.div_mul_le_self (t - entry.agedAt) nanosPerSec
      rw [hages.agedAt]; omega
    · exact hold _ hon (by rw [← hothers key hk]; exact hpeek')

theorem cacheOk {es : List (Nat × CacheEvent)} {s : CacheState L} (h : Run (cacheSystem L) es s) : CacheOk es s := by
  refine Run.invariant (I := CacheOk) ?_ ?_ h
  · rintro s ⟨enabled, capacity, hc⟩ entries he key entry hpeek
    rw [hc] at he
    unfold Cache.new at he
    simp only at he
    split at he
    · cases he; rw [L.peek_new] at hpeek; cases hpeek
    · cases he
  · rintro es s ⟨t, ev⟩ s' - hi hstep
    cases ev with
    | insert => exact cacheOk_insert hi hstep
    | get => exact cacheOk_get hi hstep

/-- A hit hands out the response last taken in under its key, aged by the whole seconds since. -/
theorem hit_keeps {es : List (Nat × CacheEvent)} {s : CacheState L} {t : Nat} {qmeta : QueryMeta} {id : UInt8 × UInt8}
    {buffer out : Bytes} (h : Run (cacheSystem L) (es ++ [(t, .get qmeta id buffer true out)]) s) :
    ∃ st rrs, lastStored es qmeta.key = some st ∧ st.time ≤ t ∧ records st.response = some rrs ∧
      (t - st.time) / nanosPerSec < st.ttl ∧ Reissued st.response rrs id ((t - st.time) / nanosPerSec) out := by
  obtain ⟨s0, hrun, hclock, -, hstep⟩ := h.last
  simp only at hclock hstep
  have hout := getInto_outcome hstep
  generalize s.cache = c' at hout
  cases hout with
  | hit hon hpeek hages hnew hothers =>
    rename_i entries entries' entry entry'
    obtain ⟨st, age, hst, hkeep, hat⟩ := cacheOk hrun entries hon qmeta.key entry hpeek
    obtain ⟨rrs, hr, haged⟩ := (hkeep.ages hages).aged
    have hage : (t - st.time) / nanosPerSec = age + (t - entry.agedAt) / nanosPerSec := by
      have hat' := hkeep.agedAt
      rw [show t - st.time = (t - entry.agedAt) + age * nanosPerSec by omega,
        Nat.add_mul_div_right _ _ (by unfold nanosPerSec; omega), Nat.add_comm]
    refine ⟨st, rrs, hst, ?_, hr, ?_, ?_⟩
    · have := hkeep.agedAt; omega
    · have := hages.lt; have := hkeep.ttl; omega
    · rw [hage]; exact reissued_of_aged id hr haged

/-- Cache aging is exact and path-independent. A hit at time `t` on the response taken in at `t0` with
cache TTL `T` happens only while fewer than `T` whole seconds have passed, and its bytes are that
response under the asker's ID, every non-OPT TTL decreased by those seconds, every other byte kept,
whatever gets came in between. A stored copy whose aging fails part-way is dropped, not served. -/
theorem cache_aging_exact (L : Lru QueryKey Entry) :
    (∀ es s t qmeta id buffer out, Run (cacheSystem L) (es ++ [(t, .get qmeta id buffer true out)]) s →
      ∃ st rrs, lastStored es qmeta.key = some st ∧ st.time ≤ t ∧ records st.response = some rrs ∧
        (t - st.time) / nanosPerSec < st.ttl ∧ Reissued st.response rrs id ((t - st.time) / nanosPerSec) out) ∧
    (∀ es s s' t qmeta id buffer hit out entries entry, Run (cacheSystem L) es s →
      (cacheSystem L).step s (t, .get qmeta id buffer hit out) s' → s.cache.entries = some entries →
      L.peek entries qmeta.key = some entry → 0 < (t - entry.agedAt) / nanosPerSec →
      (adjustTtls entry.response ((t - entry.agedAt) / nanosPerSec)).1 = false →
      hit = false ∧ out = buffer ∧
        ∀ entries', s'.cache.entries = some entries' → L.peek entries' qmeta.key = none) := by
  constructor
  · intro es s t qmeta id buffer out h
    exact hit_keeps h
  · intro es s s' t qmeta id buffer hit out entries entry _ hstep hon hpeek hpos hfail
    have hout := getInto_outcome hstep.2.2
    generalize s'.cache = c' at hout
    cases hout with
    | absent hnone => rw [hnone entries hon] at hpeek; cases hpeek
    | dropped _ hgone _ =>
      refine ⟨rfl, rfl, fun entries' he => ?_⟩
      cases he; exact hgone
    | hit hon' hpeek' hages _ _ =>
      rw [hon] at hon'
      cases hon'
      rw [hpeek] at hpeek'
      cases hpeek'
      rcases hages.bytes with ⟨hz, -⟩ | hb
      · exact absurd hz (Nat.ne_of_gt hpos)
      · rw [hb] at hfail; cases hfail

/-- The metadata of a plain query for the root's addresses. -/
def rootMeta : QueryMeta := ⟨⟨[0], 1, 1, false, false, 0⟩, 512⟩

/-- Two root address records of 256 s each, the second with its name written as `name`. -/
def rootResponse (name : Bytes) : Bytes :=
  [0, 7, 0x81, 0x80, 0, 1, 0, 2, 0, 0, 0, 0, 0, 0, 1, 0, 1, 0, 0, 1, 0, 1, 0, 0, 1, 0, 0, 0] ++ name ++
    [0, 1, 0, 1, 0, 0, 1, 0, 0, 0]

/-- A cache that took a response to that query in at time 0. -/
def takenIn (response : Bytes) : CacheState (Lru.list QueryKey Entry) :=
  ⟨0, (Cache.new (Lru.list QueryKey Entry) true 4).insert 0 rootMeta response⟩

theorem takenIn_run (response : Bytes) :
    Run (cacheSystem (Lru.list QueryKey Entry)) [(0, .insert rootMeta response)] (takenIn response) := by
  have h0 : Run (cacheSystem (Lru.list QueryKey Entry)) [] ⟨0, Cache.new _ true 4⟩ := .start ⟨true, 4, rfl⟩
  exact h0.snoc ⟨Nat.le_refl 0, rfl, rfl⟩

/-- The get of that cache 1.5 s after the insert. -/
def servedAfter (response : Bytes) : Bool × Bytes × Cache (Lru.list QueryKey Entry) :=
  (takenIn response).cache.getInto 1500000000 rootMeta (1, 2) []

theorem servedAfter_step (response : Bytes) : (cacheSystem (Lru.list QueryKey Entry)).step (takenIn response)
    (1500000000, .get rootMeta (1, 2) [] (servedAfter response).1 (servedAfter response).2.1)
    ⟨1500000000, (servedAfter response).2.2⟩ :=
  ⟨Nat.zero_le _, rfl, rfl⟩

theorem servedAfter_hit {response : Bytes} (h : (servedAfter response).1 = true) :
    Run (cacheSystem (Lru.list QueryKey Entry)) ([(0, .insert rootMeta response)] ++
      [(1500000000, .get rootMeta (1, 2) [] true (servedAfter response).2.1)])
      ⟨1500000000, (servedAfter response).2.2⟩ := by
  have hstep := servedAfter_step response
  rw [h] at hstep
  exact (takenIn_run response).snoc hstep

/-- The stored copy of the response whose second name is a pointer to the last TTL byte of the first record. -/
def tangledEntry : Entry := ⟨setId (rootResponse [0xc0, 25]) (0, 0), 0, 256⟩

theorem tangled_entries : (takenIn (rootResponse [0xc0, 25])).cache.entries =
    some (LruList.mk [(rootMeta.key, tangledEntry)] 4) := by
  have httl : cacheTtl (rootResponse [0xc0, 25]) rootMeta.key.qtype = some 256 := by decide
  simp only [takenIn, Cache.new, Cache.insert, if_true, httl]
  rfl

/-- With the second name written out it is served, one second older; with the second name a pointer to
the last TTL byte of the first record, which that second turns from a root label into a wild pointer,
it is dropped. -/
theorem cache_aging_exact_root :
    (∃ st rrs, lastStored [(0, .insert rootMeta (rootResponse [0]))] rootMeta.key = some st ∧ st.time ≤ 1500000000 ∧
      records st.response = some rrs ∧ (1500000000 - st.time) / nanosPerSec < st.ttl ∧
      Reissued st.response rrs (1, 2) ((1500000000 - st.time) / nanosPerSec) (servedAfter (rootResponse [0])).2.1) ∧
    (servedAfter (rootResponse [0xc0, 25])).1 = false := by
  constructor
  · exact (cache_aging_exact _).1 _ _ _ _ _ _ _ (servedAfter_hit (by decide))
  · exact ((cache_aging_exact _).2 _ _ _ _ _ _ _ _ _ _ tangledEntry (takenIn_run _) (servedAfter_step _)
      tangled_entries rfl (by decide) (by decide)).1

end DNSRivet.Proxy
