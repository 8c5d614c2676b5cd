/-
The UDP payload size a client advertised, as `udp_payload_size` finds it for every message and as
`parse_query_meta` finds it for a query that may use the cache. Both are the clamped size of the first OPT
record of the additional section (`advertised`), and 512 without one.
-/
import DNSRivet.Wire.Asked

namespace DNSRivet.Wire

open DNSRivet.Base

variable {m : Bytes}

/-! ## The OPT record of a message -/

/-- The records that read one after another from an offset, at most `n` of them. -/
def readable (m : Bytes) : Nat → Nat → List ResourceRecord
  | 0, _ => []
  | n + 1, offset => (parseRr m offset).elim [] fun rr => rr :: readable m n rr.end

/-- Where the additional section starts, if all before it reads, and the records it counts. -/
def additionalSection (m : Bytes) : Option (Nat × Nat) := do
  let offset ← questionsEnd m
  let answers ← readU16 m 6
  let authorities ← readU16 m 8
  let (_, offset) ← parseRrs m (answers + authorities) offset
  some (offset, ← readU16 m 10)

/-- The first OPT record of the additional section. -/
def optRecord (m : Bytes) : Option ResourceRecord := do
  let (offset, additionals) ← additionalSection m
  (readable m additionals offset).find? fun rr => rr.kind == typeOpt

/-- The payload size the OPT record holds, clamped to 512..4096; 512 without an OPT record. -/
def advertised (m : Bytes) : Nat := (optRecord m).elim 512 fun rr => clampUdp rr.class

theorem advertised_bounds (m : Bytes) : 512 ≤ advertised m ∧ advertised m ≤ 4096 := by
  unfold advertised
  cases optRecord m with
  | none => decide
  | some rr =>
    simp only [Option.elim_some, clampUdp]
    omega

/-! ## `udp_payload_size` -/

theorem udpPayloadLoop_eq (m : Bytes) : ∀ (n offset : Nat), udpPayloadLoop m n offset =
    ((readable m n offset).find? fun rr => rr.kind == typeOpt).elim 512 fun rr => clampUdp rr.class
  | 0, _ => rfl
  | n + 1, offset => by
    simp only [udpPayloadLoop, readable]
    cases parseRr m offset with
    | none => rfl
    | some rr =>
      simp only [Option.elim_some, List.find?_cons]
      by_cases hopt : rr.kind = typeOpt
      · simp only [if_pos hopt, beq_iff_eq.2 hopt, Option.elim_some]
      · simp only [if_neg hopt, beq_eq_false_iff_ne.2 hopt]
        exact udpPayloadLoop_eq m n rr.end

theorem udpPayloadSize_eq (m : Bytes) : udpPayloadSize m = advertised m := by
  unfold udpPayloadSize advertised optRecord additionalSection
  cases questionsEnd m with
  | none => rfl
  | some offset =>
    cases readU16 m 6 with
    | none => rfl
    | some answers =>
      cases readU16 m 8 with
      | none => rfl
      | some authorities =>
        simp only [Option.bind_eq_bind, Option.bind_some, skipRecords_eq]
        cases parseRrs m (answers + authorities) offset with
        | none => rfl
        | some p =>
          cases readU16 m 10 with
          | none => rfl
          | some additionals => exact udpPayloadLoop_eq m additionals p.2

/-! ## `parse_query_meta` -/

/-- The additional section the metadata accepts is empty or one OPT record, whose size it has. -/
theorem scanOpt_size {n offset : Nat} {s : OptScan} (h : scanOpt m n ⟨offset, 512, false, false⟩ = some s) :
    s.udpSize = udpPayloadLoop m n offset := by
  cases n with
  | zero => cases h; rfl
  | succ n =>
    simp only [scanOpt, Option.bind_eq_bind, Option.bind_eq_some_iff] at h
    obtain ⟨rr, hrr, h⟩ := h
    obtain ⟨hkind, h⟩ := Option.ite_none_left_eq_some.1 h
    obtain ⟨-, h⟩ := Option.ite_none_left_eq_some.1 h
    obtain ⟨version, -, h⟩ := Option.bind_eq_some_iff.1 h
    obtain ⟨-, h⟩ := Option.ite_none_left_eq_some.1 h
    obtain ⟨flags, -, h⟩ := Option.bind_eq_some_iff.1 h
    simp only [ne_eq, not_or, not_not] at hkind
    simp only [udpPayloadLoop, hrr, if_pos hkind.1]
    cases n with
    | zero => cases h; rfl
    | succ n =>
      -- a second record finds the first OPT already seen
      simp only [scanOpt, Option.bind_eq_bind, Option.bind_eq_some_iff, or_true, if_true] at h
      obtain ⟨_, -, h⟩ := h
      cases h

/-- A single question ends four bytes after its name, if it fits. -/
theorem questionsEnd_one (hqd : readU16 m 4 = some 1) {labels : List Bytes} {stop : Nat}
    (hn : expand m headerLen = some (labels, stop)) (hfit : stop + 4 ≤ m.length) :
    questionsEnd m = some (stop + 4) := by
  simp only [questionsEnd, hqd, Option.bind_eq_bind, Option.bind_some, questionsLoop, skipName_eq, hn, Option.map_some]
  rw [if_neg (by omega)]

theorem udpSize_of_meta {qmeta : QueryMeta} (h : parseQueryMeta m = some qmeta) : qmeta.udpSize = advertised m := by
  obtain ⟨-, -, hqd, ⟨labels, stop, hn, -, -, hqc, an, ns, ar, rrs, offset, s, han, hns, har, hrrs, hs, -, -, -, hsize⟩,
    -⟩ := parseQueryMeta_ok h
  have hq := questionsEnd_one hqd hn (by have := readU16_bound hqc; omega)
  rw [hsize, scanOpt_size hs, ← udpPayloadSize_eq]
  simp only [udpPayloadSize, hq, han, hns, skipRecords_eq, hrrs, Option.map_some, har]

end DNSRivet.Wire
