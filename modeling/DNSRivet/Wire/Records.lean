/-
The records of a message and their aging. `RrAt` says what `parse_rr` reads; `Chain` is a run of
records laid end to end; `records` are those of a complete message. `Aged` is the meaning of TTL
aging: the TTL field of every non-OPT record decreased (at least zero), every other byte kept.
Successive agings add up, and a successful `adjust_ttls` on any copy of a message that differs
from it in the ID and in TTL fields only is an aging of that copy (`adjustTtls_aged`), also where
compressed names point into the edited bytes: an edit may make a name unreadable, which fails the
call, but never moves a record boundary.
-/
import DNSRivet.Wire.Question

namespace DNSRivet.Wire

open DNSRivet.Base

/-! ## One record -/

/-- `rr` is the record at `offset`: its name ends at `nameEnd`, its fields follow. -/
structure RrAt (m : Bytes) (offset : Nat) (rr : ResourceRecord) : Prop where
  name : ∃ ls nameEnd, expand m offset = some (ls, nameEnd) ∧ rr.ttlOffset = nameEnd + 4
  kind : readU16 m (rr.ttlOffset - 4) = some rr.kind
  cls : readU16 m (rr.ttlOffset - 2) = some rr.class
  ttl : readU32 m rr.ttlOffset = some rr.ttl
  rdlen : readU16 m (rr.ttlOffset + 4) = some rr.rdlen
  rdataOffset : rr.rdataOffset = rr.ttlOffset + 6
  stop : rr.end = rr.ttlOffset + 6 + rr.rdlen
  inside : rr.end ≤ m.length

theorem RrAt.lt {m : Bytes} {offset : Nat} {rr : ResourceRecord} (h : RrAt m offset rr) :
    offset + 4 < rr.ttlOffset ∧ rr.ttlOffset + 6 ≤ rr.end := by
  obtain ⟨ls, nameEnd, hn, ht⟩ := h.name
  have := (expand_bounds hn).1
  have := h.stop
  omega

theorem parseRr_some {m : Bytes} {offset : Nat} {rr : ResourceRecord} (h : parseRr m offset = some rr) :
    RrAt m offset rr := by
  simp only [parseRr, skipName_eq, Option.bind_eq_bind, Option.bind_eq_some_iff, Option.map_eq_some_iff] at h
  obtain ⟨nameEnd, ⟨p, hp, rfl⟩, kind, hk, cls, hc, ttl, ht, rdlen, hr, h⟩ := h
  split at h
  · rename_i hin
    cases h
    exact ⟨⟨p.1, p.2, hp, rfl⟩, by simpa using hk, by simpa using hc, ht, by simpa [Nat.add_assoc] using hr,
      rfl, rfl, hin⟩
  · cases h

theorem parseRr_of_rrAt {m : Bytes} {offset : Nat} {rr : ResourceRecord} (h : RrAt m offset rr) :
    parseRr m offset = some rr := by
  obtain ⟨ls, nameEnd, hn, ht⟩ := h.name
  obtain ⟨kind, cls, ttl, ttlOffset, rdataOffset, rdlen, stop⟩ := rr
  obtain ⟨-, hk, hc, htt, hr, hro, hs, hin⟩ := h
  simp only at *
  subst ht
  rw [show nameEnd + 4 - 4 = nameEnd by omega] at hk
  rw [show nameEnd + 4 - 2 = nameEnd + 2 by omega] at hc
  rw [show nameEnd + 4 + 4 = nameEnd + 8 by omega] at hr
  subst hro hs
  simp only [parseRr, skipName_eq, hn, Option.map_some, Option.bind_eq_bind, Option.bind_some, hk, hc, htt, hr]
  rw [if_pos (by omega)]

/-- The same record in a copy that keeps the record's bytes other than its TTL field has the same
fields other than its TTL, whenever it still parses there. -/
theorem RrAt.local {m m' : Bytes} {offset : Nat} {rr rr' : ResourceRecord} (h : RrAt m offset rr)
    (h' : RrAt m' offset rr')
    (ha : AgreeOn (fun i => offset ≤ i ∧ i < rr.end ∧ ¬ (rr.ttlOffset ≤ i ∧ i < rr.ttlOffset + 4)) m m') :
    rr' = { rr with ttl := rr'.ttl } := by
  obtain ⟨ls, nameEnd, hn, ht⟩ := h.name
  obtain ⟨ls', nameEnd', hn', ht'⟩ := h'.name
  have hlt := h.lt
  have hs := h.stop
  have he : nameEnd' = nameEnd := expand_local hn hn' fun i h1 h2 => ha.byte i ⟨h1, by omega, by omega⟩
  subst he
  have htt : rr'.ttlOffset = rr.ttlOffset := by omega
  have hk : rr'.kind = rr.kind := by
    have := ha.readU16 (o := rr.ttlOffset - 4) ⟨by omega, by omega, by omega⟩ ⟨by omega, by omega, by omega⟩
    rw [h.kind, ← htt, h'.kind] at this
    exact (Option.some.inj this).symm
  have hc : rr'.class = rr.class := by
    have := ha.readU16 (o := rr.ttlOffset - 2) ⟨by omega, by omega, by omega⟩ ⟨by omega, by omega, by omega⟩
    rw [h.cls, ← htt, h'.cls] at this
    exact (Option.some.inj this).symm
  have hr : rr'.rdlen = rr.rdlen := by
    have := ha.readU16 (o := rr.ttlOffset + 4) ⟨by omega, by omega, by omega⟩ ⟨by omega, by omega, by omega⟩
    rw [h.rdlen, ← htt, h'.rdlen] at this
    exact (Option.some.inj this).symm
  have h1 := h'.stop
  have h2 := h'.rdataOffset
  have h3 := h.rdataOffset
  exact ResourceRecord.ext hk hc rfl htt (by simp only; omega) hr (by simp only; omega)

/-! ## Runs of records -/

/-- Records laid end to end from `offset`. -/
inductive Chain (m : Bytes) : Nat → List ResourceRecord → Nat → Prop
  | nil (offset : Nat) : Chain m offset [] offset
  | cons {offset stop : Nat} {rr : ResourceRecord} {rrs : List ResourceRecord} :
      RrAt m offset rr → Chain m rr.end rrs stop → Chain m offset (rr :: rrs) stop

/-- The `n` records from `offset` on, and the offset after them. -/
def parseRrs (m : Bytes) : Nat → Nat → Option (List ResourceRecord × Nat)
  | 0, offset => some ([], offset)
  | n + 1, offset => do
    let rr ← parseRr m offset
    let (rrs, stop) ← parseRrs m n rr.end
    some (rr :: rrs, stop)

theorem parseRrs_iff {m : Bytes} :
    ∀ {n offset : Nat} {rrs : List ResourceRecord} {stop : Nat},
      parseRrs m n offset = some (rrs, stop) ↔ Chain m offset rrs stop ∧ rrs.length = n
  | 0, offset, rrs, stop => by
    simp only [parseRrs, Option.some.injEq, Prod.mk.injEq]
    constructor
    · rintro ⟨rfl, rfl⟩; exact ⟨.nil _, rfl⟩
    · rintro ⟨h, hl⟩
      cases h with
      | nil => exact ⟨rfl, rfl⟩
      | cons _ _ => cases hl
  | n + 1, offset, rrs, stop => by
    simp only [parseRrs, Option.bind_eq_bind, Option.bind_eq_some_iff, Option.some.injEq, Prod.mk.injEq, Prod.exists]
    constructor
    · rintro ⟨rr, hrr, rrs', stop', h, rfl, rfl⟩
      obtain ⟨hc, hl⟩ := parseRrs_iff.1 h
      exact ⟨.cons (parseRr_some hrr) hc, by simpa using hl⟩
    · rintro ⟨h, hl⟩
      cases h with
      | nil => cases hl
      | cons hrr hc =>
        exact ⟨_, parseRr_of_rrAt hrr, _, _, parseRrs_iff.2 ⟨hc, by simpa using hl⟩, rfl, rfl⟩

theorem Chain.le {m : Bytes} {offset stop : Nat} {rrs : List ResourceRecord} (h : Chain m offset rrs stop) :
    offset ≤ stop := by
  induction h with
  | nil => exact Nat.le_refl _
  | cons hrr _ ih => have := hrr.lt; omega

/-- Every TTL field of a run lies inside the run. -/
theorem Chain.ttl_bounds {m : Bytes} {offset stop : Nat} {rrs : List ResourceRecord} (h : Chain m offset rrs stop) :
    ∀ rr ∈ rrs, offset + 4 < rr.ttlOffset ∧ rr.ttlOffset + 6 ≤ stop ∧ rr.ttlOffset + 4 ≤ m.length ∧
      readU32 m rr.ttlOffset = some rr.ttl := by
  induction h with
  | nil => simp
  | cons hrr hc ih =>
    intro x hx
    have hlt := hrr.lt
    have hin := hrr.inside
    have hle := hc.le
    rcases List.mem_cons.1 hx with rfl | hx
    · exact ⟨hlt.1, by omega, by omega, hrr.ttl⟩
    · obtain ⟨h1, h2, h3, h4⟩ := ih x hx
      exact ⟨by omega, h2, h3, h4⟩

theorem skipRecords_eq (m : Bytes) :
    ∀ (n offset : Nat), skipRecords m n offset = (parseRrs m n offset).map (·.2)
  | 0, _ => rfl
  | n + 1, offset => by
    simp only [skipRecords, parseRrs, Option.bind_eq_bind]
    cases parseRr m offset with
    | none => rfl
    | some rr =>
      simp only [Option.bind_some]
      rw [skipRecords_eq m n]
      cases parseRrs m n rr.end <;> rfl

theorem parseRrs_add (m : Bytes) (a b offset : Nat) :
    parseRrs m (a + b) offset = (parseRrs m a offset).bind fun p =>
      (parseRrs m b p.2).map fun p' => (p.1 ++ p'.1, p'.2) := by
  induction a generalizing offset with
  | zero =>
    rw [Nat.zero_add]
    simp only [parseRrs, Option.bind_some, List.nil_append]
    cases parseRrs m b offset <;> rfl
  | succ a ih =>
    rw [Nat.succ_add]
    simp only [parseRrs, Option.bind_eq_bind]
    cases parseRr m offset with
    | none => rfl
    | some rr =>
      simp only [Option.bind_some, ih]
      cases parseRrs m a rr.end with
      | none => rfl
      | some p =>
        simp only [Option.bind_some]
        cases parseRrs m b p.2 <;> rfl

/-! ## Complete messages -/

theorem questionsLoop_bounds {m : Bytes} :
    ∀ (n offset : Nat) {stop : Nat}, offset ≤ m.length → questionsLoop m n offset = some stop →
      offset ≤ stop ∧ stop ≤ m.length
  | 0, offset, stop, hl, h => by cases h; exact ⟨Nat.le_refl _, hl⟩
  | n + 1, offset, stop, hl, h => by
    simp only [questionsLoop, skipName_eq, Option.bind_eq_bind, Option.bind_eq_some_iff, Option.map_eq_some_iff] at h
    obtain ⟨e, ⟨p, hp, rfl⟩, h⟩ := h
    have := (expand_bounds hp).1
    split at h
    · cases h
    · have := questionsLoop_bounds n _ (by omega) h
      omega

theorem questionsLoop_local {m m' : Bytes} :
    ∀ (n offset : Nat) {stop stop' : Nat}, offset ≤ m.length → questionsLoop m n offset = some stop →
      questionsLoop m' n offset = some stop' → (∀ i, offset ≤ i → i < stop → m[i]? = m'[i]?) → stop' = stop
  | 0, _, _, _, _, h, h', _ => by cases h; cases h'; rfl
  | n + 1, offset, stop, stop', hl, h, h', ha => by
    simp only [questionsLoop, skipName_eq, Option.bind_eq_bind, Option.bind_eq_some_iff, Option.map_eq_some_iff] at h h'
    obtain ⟨e, ⟨p, hp, rfl⟩, h⟩ := h
    obtain ⟨e', ⟨p', hp', rfl⟩, h'⟩ := h'
    split at h
    · cases h
    split at h'
    · cases h'
    have hb := expand_bounds hp
    have hq := questionsLoop_bounds n _ (by omega) h
    have he : p'.2 = p.2 := expand_local hp hp' fun i h1 h2 => ha i h1 (by omega)
    rw [he] at h'
    exact questionsLoop_local n _ (by omega) h h' fun i h1 h2 => ha i (by omega) h2

/-- The records of a message that holds its questions, exactly the records it counts, and nothing
after them. -/
def records (m : Bytes) : Option (List ResourceRecord) := do
  let offset ← questionsEnd m
  let (rrs, stop) ← parseRrs m (← totalRrCount m) offset
  if stop = m.length then some rrs else none

theorem records_some {m : Bytes} {rrs : List ResourceRecord} (h : records m = some rrs) :
    ∃ offset, questionsEnd m = some offset ∧ totalRrCount m = some rrs.length ∧ headerLen ≤ m.length ∧
      headerLen ≤ offset ∧ Chain m offset rrs m.length := by
  simp only [records, Option.bind_eq_bind, Option.bind_eq_some_iff] at h
  obtain ⟨offset, ho, count, hc, ⟨rrs', stop⟩, hp, h⟩ := h
  split at h
  · rename_i hs
    cases h
    obtain ⟨hch, hlen⟩ := parseRrs_iff.1 hp
    have hl : headerLen ≤ m.length := by
      simp only [totalRrCount, Option.bind_eq_bind, Option.bind_eq_some_iff] at hc
      obtain ⟨a, -, b, -, c, hc, -⟩ := hc
      exact readU16_bound hc
    refine ⟨offset, ho, by rw [hlen]; exact hc, hl, ?_, by rw [← hs]; exact hch⟩
    simp only [questionsEnd, Option.bind_eq_bind, Option.bind_eq_some_iff] at ho
    obtain ⟨n, -, ho⟩ := ho
    exact (questionsLoop_bounds n _ hl ho).1
  · cases h

/-- `i` is a byte of the TTL field of a non-OPT record. -/
def TtlByte (rrs : List ResourceRecord) (i : Nat) : Prop :=
  ∃ rr ∈ rrs, rr.kind ≠ typeOpt ∧ rr.ttlOffset ≤ i ∧ i < rr.ttlOffset + 4

theorem ttlByte_ge {m : Bytes} {rrs : List ResourceRecord} (h : records m = some rrs) {i : Nat}
    (hi : TtlByte rrs i) : headerLen + 4 < i := by
  obtain ⟨offset, -, -, -, ho, hc⟩ := records_some h
  obtain ⟨rr, hrr, -, h1, -⟩ := hi
  have := (hc.ttl_bounds rr hrr).1
  omega

/-! ## Aging -/

/-- `m'` is `m` with every non-OPT TTL field decreased by `elapsed` (at least zero) and every other
byte kept. -/
structure Aged (rrs : List ResourceRecord) (elapsed : Nat) (m m' : Bytes) : Prop where
  length : m'.length = m.length
  ttl : ∀ rr ∈ rrs, rr.kind ≠ typeOpt →
    ∃ t, readU32 m rr.ttlOffset = some t ∧ readU32 m' rr.ttlOffset = some (t - elapsed)
  other : ∀ i, ¬ TtlByte rrs i → m'[i]? = m[i]?

namespace Aged

variable {rrs : List ResourceRecord} {a b : Nat} {m m' m'' : Bytes}

theorem agree (h : Aged rrs a m m') : AgreeOn (fun i => ¬ TtlByte rrs i) m m' :=
  ⟨h.length.symm, fun i hi => (h.other i hi).symm⟩

theorem zero (h : ∀ rr ∈ rrs, rr.kind ≠ typeOpt → ∃ t, readU32 m rr.ttlOffset = some t) : Aged rrs 0 m m :=
  ⟨rfl, fun rr hrr hk => (h rr hrr hk).imp fun t ht => ⟨ht, by simpa using ht⟩, fun _ _ => rfl⟩

/-- Two agings in a row are one aging by the sum. -/
theorem trans (h : Aged rrs a m m') (h' : Aged rrs b m' m'') : Aged rrs (a + b) m m'' := by
  refine ⟨h'.length.trans h.length, fun rr hrr hk => ?_, fun i hi => (h'.other i hi).trans (h.other i hi)⟩
  obtain ⟨t, ht, ht'⟩ := h.ttl rr hrr hk
  obtain ⟨t', hs, hs'⟩ := h'.ttl rr hrr hk
  rw [ht'] at hs
  cases hs
  exact ⟨t, ht, by rw [hs', Nat.sub_sub]⟩

/-- The aged message is determined. -/
theorem unique (h : Aged rrs a m m') (h' : Aged rrs a m m'') : m' = m'' := by
  apply List.ext_getElem?
  intro i
  by_cases hi : TtlByte rrs i
  · obtain ⟨rr, hrr, hk, h1, h2⟩ := hi
    obtain ⟨t, ht, hx⟩ := h.ttl rr hrr hk
    obtain ⟨t', ht', hy⟩ := h'.ttl rr hrr hk
    rw [ht] at ht'
    cases ht'
    obtain ⟨k, rfl⟩ := Nat.exists_eq_add_of_le h1
    rw [readU32_byte hx (by omega), readU32_byte hy (by omega)]
  · rw [h.other i hi, h'.other i hi]

end Aged

/-- The write `adjust_ttls` makes for one record. -/
def ageRecord (elapsed : Nat) (rr : ResourceRecord) (m : Bytes) : Bytes :=
  if rr.kind ≠ typeOpt then patch m rr.ttlOffset (toBe32 (rr.ttl - elapsed)) else m

/-- Ageing one record and then the records after it ages them all. -/
theorem Aged.cons {r m m1 m' : Bytes} {offset stop elapsed t : Nat} {rr : ResourceRecord} {rrs : List ResourceRecord}
    (hrr : RrAt r offset rr) (hc : Chain r rr.end rrs stop) (hl : m.length = r.length)
    (ht : readU32 m rr.ttlOffset = some t) (h1 : m1 = ageRecord elapsed { rr with ttl := t } m)
    (h : Aged rrs elapsed m1 m') : Aged (rr :: rrs) elapsed m m' := by
  have hlt := hrr.lt
  have hin := hrr.inside
  have hafter : ∀ x ∈ rrs, rr.end + 4 < x.ttlOffset := fun x hx => (hc.ttl_bounds x hx).1
  -- the write leaves every byte outside the record's own TTL field alone
  have hm1 : m1.length = m.length ∧ ∀ i, ¬ (rr.kind ≠ typeOpt ∧ rr.ttlOffset ≤ i ∧ i < rr.ttlOffset + 4) →
      m1[i]? = m[i]? := by
    subst h1
    unfold ageRecord
    simp only
    split
    · rename_i hk
      refine ⟨patch_length (by simp only [toBe32_length]; omega), fun i hi => ?_⟩
      refine patch_outside (by simp only [toBe32_length]; omega) ?_
      simp only [toBe32_length]
      by_cases h1 : i < rr.ttlOffset
      · exact .inl h1
      · exact .inr (by by_contra hc; exact hi ⟨hk, by omega, by omega⟩)
    · exact ⟨rfl, fun _ _ => rfl⟩
  have hown : ∀ i, rr.ttlOffset ≤ i → i < rr.ttlOffset + 4 → ¬ TtlByte rrs i := by
    rintro i h1 h2 ⟨x, hx, -, h3, -⟩
    have := hafter x hx; omega
  refine ⟨h.length.trans hm1.1, fun x hx hk => ?_, fun i hi => ?_⟩
  · rcases List.mem_cons.1 hx with rfl | hx
    · refine ⟨t, ht, ?_⟩
      have hsame : readU32 m' x.ttlOffset = readU32 m1 x.ttlOffset :=
        readU32_congr fun i hi => h.other _ (hown _ (by omega) (by omega))
      have hlt32 := readU32_lt ht
      rw [hsame, h1, ageRecord, if_pos hk, readU32_patch (by simp only; omega) (by simp only; omega)]
    · obtain ⟨t', ht', hs⟩ := h.ttl x hx hk
      have := hafter x hx
      refine ⟨t', ?_, hs⟩
      rw [← ht']
      exact readU32_congr fun i hi => (hm1.2 _ (by omega)).symm
  · have h1 : ¬ TtlByte rrs i := fun ⟨x, hx, hk⟩ => hi ⟨x, List.mem_cons_of_mem _ hx, hk⟩
    rw [h.other i h1]
    exact hm1.2 i fun ⟨hk, h2, h3⟩ => hi ⟨rr, List.mem_cons_self .., hk, h2, h3⟩

/-- The writes of a successful `adjust_ttls`, one record after the other. -/
def ageRecords (elapsed : Nat) (rrs : List ResourceRecord) (m : Bytes) : Bytes :=
  rrs.foldl (fun m rr => ageRecord elapsed rr m) m

theorem ageRecord_agree {r m : Bytes} {offset elapsed : Nat} {rr : ResourceRecord} (hrr : RrAt r offset rr)
    (ha : AgreeOn (fun i => offset ≤ i) r m) : AgreeOn (fun i => rr.end ≤ i) r (ageRecord elapsed rr m) := by
  have hlt := hrr.lt
  have hin := hrr.inside
  have hl := ha.length
  unfold ageRecord
  split
  · refine (ha.mono fun i hi => by omega : AgreeOn (fun i => rr.end ≤ i) r m).trans ?_
    refine (agreeOn_patch ?_).mono fun i hi => .inr ?_
    · simp only [toBe32_length]; omega
    · simp only [toBe32_length]; omega
  · exact ha.mono fun i hi => by omega

theorem ageRecords_aged {r : Bytes} {elapsed : Nat} :
    ∀ {rrs : List ResourceRecord} {offset stop : Nat} {m : Bytes}, Chain r offset rrs stop →
      AgreeOn (fun i => offset ≤ i) r m → Aged rrs elapsed m (ageRecords elapsed rrs m)
  | [], _, _, _, _, _ => ⟨rfl, fun _ h => (List.not_mem_nil h).elim, fun _ _ => rfl⟩
  | rr :: rrs, offset, stop, m, .cons hrr hc, ha => by
    have hlt := hrr.lt
    have ht : readU32 m rr.ttlOffset = some rr.ttl := by
      rw [← hrr.ttl]
      exact readU32_congr fun i hi => (ha.byte _ (by omega)).symm
    exact Aged.cons hrr hc ha.length.symm ht rfl (ageRecords_aged hc (ageRecord_agree hrr ha))

/-- A successful record loop ages the records it passes, on any copy of `r` that differs from it
outside the run and in TTL fields only. -/
theorem adjustLoop_aged {r : Bytes} {elapsed : Nat} (he : elapsed ≤ 4294967295) :
    ∀ {rrs : List ResourceRecord} {offset stop : Nat} {m m' : Bytes}, Chain r offset rrs stop →
      AgreeOn (fun i => offset ≤ i ∧ ¬ TtlByte rrs i) r m →
      adjustLoop elapsed rrs.length m offset = (true, m') → Aged rrs elapsed m m'
  | [], offset, stop, m, m', _, _, h => by
    simp only [List.length_nil, adjustLoop, Prod.mk.injEq] at h
    obtain ⟨-, rfl⟩ := h
    exact ⟨rfl, fun _ h => (List.not_mem_nil h).elim, fun _ _ => rfl⟩
  | rr :: rrs, offset, stop, m, m', .cons hrr hc, ha, h => by
    simp only [List.length_cons, adjustLoop] at h
    cases hp : parseRr m offset with
    | none => rw [hp] at h; cases h
    | some rr' =>
      rw [hp] at h
      simp only at h
      have hrr' := parseRr_some hp
      have hlt := hrr.lt
      have hafter : ∀ x ∈ rrs, rr.end + 4 < x.ttlOffset := fun x hx => (hc.ttl_bounds x hx).1
      have hsame : rr' = { rr with ttl := rr'.ttl } := by
        refine hrr.local hrr' (ha.mono fun i hi => ⟨hi.1, ?_⟩)
        rintro ⟨x, hx, hk, h1, h2⟩
        rcases List.mem_cons.1 hx with rfl | hx
        · exact hi.2.2 ⟨h1, h2⟩
        · have := hafter x hx; omega
      have ht : readU32 m rr.ttlOffset = some rr'.ttl := by
        have := hrr'.ttl
        rw [hsame] at this
        exact this
      have hend : rr'.end = rr.end := by rw [hsame]
      rw [hend] at h
      have hin := hrr.inside
      refine Aged.cons hrr hc ha.length.symm ht rfl (adjustLoop_aged he hc ⟨?_, fun i hi => ?_⟩ ?_)
      · exact ha.length.trans (by
          unfold ageRecord; split
          · exact (patch_length (by have := ha.length; simp only [toBe32_length]; omega)).symm
          · rfl)
      · have hi' : ¬ TtlByte (rr :: rrs) i := by
          rintro ⟨x, hx, hk, h1, h2⟩
          rcases List.mem_cons.1 hx with rfl | hx
          · omega
          · exact hi.2 ⟨x, hx, hk, h1, h2⟩
        rw [ha.byte i ⟨by omega, hi'⟩]
        unfold ageRecord
        split
        · refine (patch_outside (by have := ha.length; simp only [toBe32_length]; omega) (.inr ?_)).symm
          simp only [toBe32_length]; omega
        · rfl
      · rw [← h, hsame]; rfl

/-- A successful `adjust_ttls`, on a copy of a complete message that differs from it in the ID and
in TTL fields only, is an aging of the copy. -/
theorem adjustTtls_aged {r m m' : Bytes} {rrs : List ResourceRecord} {elapsed : Nat} (hr : records r = some rrs)
    (ha : AgreeOn (fun i => 2 ≤ i ∧ ¬ TtlByte rrs i) r m) (h : adjustTtls m elapsed = (true, m')) :
    Aged rrs elapsed m m' := by
  obtain ⟨offset, hq, hcount, hl, ho, hc⟩ := records_some hr
  have hhead : ∀ i, 2 ≤ i → i < headerLen → 2 ≤ i ∧ ¬ TtlByte rrs i := fun i h1 h2 =>
    ⟨h1, fun hi => by have := ttlByte_ge hr hi; omega⟩
  have h12 : headerLen = 12 := rfl
  have h4 := ha.readU16 (o := 4) (hhead _ (by omega) (by omega)) (hhead _ (by omega) (by omega))
  have h6 := ha.readU16 (o := 6) (hhead _ (by omega) (by omega)) (hhead _ (by omega) (by omega))
  have h8 := ha.readU16 (o := 8) (hhead _ (by omega) (by omega)) (hhead _ (by omega) (by omega))
  have h10 := ha.readU16 (o := 10) (hhead _ (by omega) (by omega)) (hhead _ (by omega) (by omega))
  unfold adjustTtls at h
  rw [if_neg (by rw [← ha.length]; omega)] at h
  cases hq' : questionsEnd m with
  | none => rw [hq'] at h; cases h
  | some offset' =>
    rw [hq'] at h
    simp only at h
    have hcount' : totalRrCount m = some rrs.length := by
      rw [← hcount]; unfold totalRrCount; rw [h6, h8, h10]
    rw [hcount'] at h
    simp only at h
    have hoff : offset' = offset := by
      simp only [questionsEnd, Option.bind_eq_bind, Option.bind_eq_some_iff] at hq hq'
      obtain ⟨n, hn, hq⟩ := hq
      obtain ⟨n', hn', hq'⟩ := hq'
      rw [← h4, hn] at hn'
      cases hn'
      refine questionsLoop_local n _ hl hq hq' fun i _ _ => ha.byte i ⟨by omega, ?_⟩
      rintro ⟨x, hx, -, h1, -⟩
      have := (hc.ttl_bounds x hx).1
      omega
    rw [hoff] at h
    have hag := adjustLoop_aged (Nat.min_le_right ..) hc
      (ha.mono fun i hi => ⟨by omega, hi.2⟩ : AgreeOn (fun i => offset ≤ i ∧ ¬ TtlByte rrs i) r m) h
    refine ⟨hag.length, fun rr hrr hk => ?_, hag.other⟩
    obtain ⟨t, ht, ht'⟩ := hag.ttl rr hrr hk
    have := readU32_lt ht
    exact ⟨t, ht, by rw [ht']; congr 1; omega⟩

end DNSRivet.Wire
