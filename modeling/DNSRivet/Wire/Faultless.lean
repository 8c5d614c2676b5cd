/-
No message can crash or hang the wire code. A walk from any offset of any message ends within its
fuel, takes at most 128 jumps and passes labels of at most 255 bytes in total to its visitor, also
when it rejects the name; every offset the code goes on from is one it has read at, so it stays
inside the message and sums with it stay in range. Each function of `Wire.Faults` therefore meets
no fault and returns what the function of the same name computes on unbounded offsets.
-/
import DNSRivet.Wire.Faults

namespace DNSRivet.Wire.Faults

open DNSRivet.Base Checked Attempt

variable {m : Bytes} (hm : m.length ≤ isizeMax)

include hm

theorem readU16_finishes (o : Nat) : Finishes (readU16 m o) (Base.readU16 m o) := by
  unfold readU16 Base.readU16
  apply (Finishes.ofOption _).bind
  intro a ha
  have := lt_length_of_getElem? ha
  apply Finishes.step (add_ok hm (by omega))
  apply (Finishes.ofOption _).bind
  intro b _
  exact Finishes.pure _

theorem readU32_finishes (o : Nat) : Finishes (readU32 m o) (Base.readU32 m o) := by
  unfold readU32 Base.readU32
  apply (Finishes.ofOption _).bind
  intro a ha
  have := lt_length_of_getElem? ha
  apply Finishes.step (add_ok hm (by omega))
  apply (Finishes.ofOption _).bind
  intro b _
  apply Finishes.step (add_ok hm (by omega))
  apply (Finishes.ofOption _).bind
  intro c _
  apply Finishes.step (add_ok hm (by omega))
  apply (Finishes.ofOption _).bind
  intro d _
  exact Finishes.pure _

omit hm

/-! ## One pass of the walk -/

/-- A pass on unbounded offsets. -/
def passAt (m : Bytes) (walk : Walk) : Option Pass := do
  let len ← m[walk.cursor]?
  if len &&& 0xc0 = 0xc0 then
    let next ← m[walk.cursor + 1]?
    let pointer := ((len &&& 0x3f).toNat <<< 8) ||| next.toNat
    if m.length ≤ pointer ∨ 128 ≤ walk.jumps then none
    else some (.jump ⟨pointer, some (walk.stop.getD (walk.cursor + 2)), walk.jumps + 1, walk.nameLen⟩)
  else if len &&& 0xc0 ≠ 0 ∨ 63 < len then none
  else if len = 0 then some (.root [len] (walk.stop.getD (walk.cursor + 1)))
  else
    let label ← slice m walk.cursor (walk.cursor + 1 + len.toNat)
    let nameLen := walk.nameLen + (1 + len.toNat)
    if 255 ≤ nameLen then none
    else some (.label label ⟨walk.cursor + 1 + len.toNat, walk.stop, walk.jumps, nameLen⟩)

include hm in
/-- A pass meets no fault. -/
theorem walkPass_finishes {walk : Walk} (hj : walk.jumps ≤ 128) (hn : walk.nameLen ≤ 254) :
    Finishes (walkPass m walk) (passAt m walk) := by
  unfold walkPass passAt
  apply (Finishes.ofOption _).bind
  intro len hlen
  have hin := lt_length_of_getElem? hlen
  have hlt := len.toNat_lt
  apply Finishes.ite
  · intro _
    apply Finishes.step (add_ok hm (by omega))
    apply (Finishes.ofOption _).bind
    intro next _
    refine .ite (fun _ => .ofOption _) fun _ => ?_
    apply Finishes.step (add_ok hm (by omega))
    apply Finishes.step (add_ok hm (by omega))
    exact .pure _
  · intro _
    refine .ite (fun _ => .ofOption _) fun _ => ?_
    apply Finishes.step (add_ok hm (by omega))
    apply Finishes.ite
    · intro _
      have hroot : (m.drop walk.cursor).take (walk.cursor + 1 - walk.cursor) = [len] := by
        rw [Nat.add_sub_cancel_left, List.take_one, List.head?_drop, hlen]
        rfl
      apply Finishes.step (sub_ok (by omega))
      apply Finishes.step (range_ok (by omega) (by omega))
      rw [Nat.add_sub_cancel, hroot]
      exact .pure _
    · intro _
      apply Finishes.bind_some (checkedAdd_finishes hm (by omega))
      apply Finishes.step (sub_ok (by omega))
      apply (Finishes.ofOption _).bind
      intro label _
      apply Finishes.step (add_ok hm (by omega))
      apply Finishes.step (add_ok hm (by omega))
      exact .ite (fun _ => .ofOption _) fun _ => .pure _

/-- The expanded name from the variables of the walk on. -/
def expandFrom (m : Bytes) (fuel : Nat) (walk : Walk) : Option (List Bytes × Nat) :=
  expandLoop m fuel walk.cursor walk.stop walk.jumps walk.nameLen

/-- What a pass leaves of the expanded name. -/
theorem expandFrom_succ (m : Bytes) (fuel : Nat) (walk : Walk) :
    expandFrom m (fuel + 1) walk = (passAt m walk).bind fun
      | .jump next => expandFrom m fuel next
      | .label label next => (expandFrom m fuel next).map fun p => (label :: p.1, p.2)
      | .root label stop => some ([label], stop) := by
  simp only [expandFrom, expandLoop, passAt, Option.bind_eq_bind]
  cases m[walk.cursor]? with
  | none => rfl
  | some len =>
    simp only [Option.bind_some]
    split
    · cases m[walk.cursor + 1]? with
      | none => rfl
      | some next =>
        simp only [Option.bind_some]
        split <;> rfl
    · split
      · rfl
      · split
        · rfl
        · cases slice m walk.cursor (walk.cursor + 1 + len.toNat) with
          | none => rfl
          | some label =>
            simp only [Option.bind_some]
            split
            · rfl
            · simp only [Option.bind_some, Option.map_eq_bind]
              rfl

/-- What a pass adds to the jumps and to the bytes visited. -/
inductive PassOk (walk : Walk) : Pass → Prop
  | jump {next : Walk} : next.jumps = walk.jumps + 1 → next.jumps ≤ 128 → next.nameLen = walk.nameLen →
      PassOk walk (.jump next)
  | label {label : Bytes} {next : Walk} : 0 < label.length → next.jumps = walk.jumps →
      next.nameLen = walk.nameLen + label.length → next.nameLen ≤ 254 → PassOk walk (.label label next)
  | root {label : Bytes} {stop : Nat} : label.length = 1 → PassOk walk (.root label stop)

theorem passAt_ok {m : Bytes} {walk : Walk} {pass : Pass} (h : passAt m walk = some pass) : PassOk walk pass := by
  simp only [passAt, Option.bind_eq_bind, Option.bind_eq_some_iff] at h
  obtain ⟨len, _, h⟩ := h
  split at h
  · obtain ⟨next, _, h⟩ := Option.bind_eq_some_iff.1 h
    split at h
    · cases h
    · cases h
      exact .jump rfl (by simp only; omega) rfl
  · split at h
    · cases h
    · split at h
      · cases h
        exact .root rfl
      · obtain ⟨label, hslice, h⟩ := Option.bind_eq_some_iff.1 h
        have := (slice_some hslice).2.2.2
        split at h
        · cases h
        · cases h
          exact .label (by omega) rfl (by simp only; omega) (by simp only; omega)

/-! ## A whole walk -/

/-- From `walk` on, the loop passes `labels` to its visitor, whatever the visitor does with them,
ends after `jumps` jumps in all and returns `result`. -/
structure Visits (m : Bytes) (fuel : Nat) (walk : Walk) (labels : List Bytes) (jumps : Nat) (result : Option Nat) :
    Prop where
  jumps_le : jumps ≤ 128
  bytes_le : walk.nameLen + labels.flatten.length ≤ 255
  expand : expandFrom m fuel walk = result.map fun stop => (labels, stop)
  run : ∀ (σ : Type) (visit : σ → Bytes → Checked σ) (s : σ), walkLoop m visit fuel walk s = do
    let s ← labels.foldlM visit s
    return (s, jumps, result)

include hm in
/-- The loop ends: one unit of fuel for each jump and each byte still allowed is enough. -/
theorem walkLoop_visits :
    ∀ (fuel : Nat) (walk : Walk), walk.jumps ≤ 128 → walk.nameLen ≤ 254 →
      (128 - walk.jumps) + (254 - walk.nameLen) < fuel → ∃ labels jumps result, Visits m fuel walk labels jumps result
  | 0, _, _, _, hf => by omega
  | fuel + 1, walk, hj, hn, hf => by
    have hrun : (walkPass m walk).run = .ok (passAt m walk) := walkPass_finishes hm hj hn
    have hexp := expandFrom_succ m fuel walk
    cases hp : passAt m walk with
    | none =>
      rw [hp] at hrun hexp
      refine ⟨[], walk.jumps, none, hj, by simp; omega, hexp, fun σ visit s => ?_⟩
      rw [walkLoop, hrun]
      rfl
    | some pass =>
      rw [hp] at hrun hexp
      cases passAt_ok hp with
      | @jump next hjumps hle hlen =>
        obtain ⟨labels, jumps, result, h⟩ := walkLoop_visits fuel next hle (by omega) (by omega)
        refine ⟨labels, jumps, result, h.jumps_le, by have := h.bytes_le; omega, hexp.trans h.expand,
          fun σ visit s => ?_⟩
        rw [walkLoop, hrun]
        exact h.run σ visit s
      | @label label next hpos hjumps hlen hle =>
        obtain ⟨labels, jumps, result, h⟩ := walkLoop_visits fuel next (by omega) hle (by omega)
        refine ⟨label :: labels, jumps, result, h.jumps_le, ?_, hexp.trans ?_, fun σ visit s => ?_⟩
        · have := h.bytes_le
          rw [List.flatten_cons, List.length_append]
          omega
        · rw [Option.bind_some]
          simp only
          rw [h.expand, Option.map_map]
          rfl
        · rw [walkLoop, hrun, List.foldlM_cons, bind_assoc]
          exact congrArg (visit s label >>= ·) (funext fun s => h.run σ visit s)
      | @root label stop hlen =>
        refine ⟨[label], walk.jumps, some stop, hj, by simp; omega, hexp, fun σ visit s => ?_⟩
        rw [walkLoop, hrun, List.foldlM_cons, bind_assoc]
        rfl

include hm in
theorem walk_visits (start : Nat) :
    ∃ labels jumps result, Visits m walkFuel { cursor := start, stop := none, jumps := 0, nameLen := 0 } labels jumps
      result :=
  walkLoop_visits hm _ _ (by simp) (by simp) (by simp [walkFuel])

include hm in
/-- A walk whose visitor meets no fault on 255 bytes meets none. -/
theorem walkName_finishes {σ : Type} (visit : σ → Bytes → Checked σ) (s : σ) (f : List Bytes → σ) (start : Nat)
    (hv : ∀ labels : List Bytes, labels.flatten.length ≤ 255 → labels.foldlM visit s = .ok (f labels)) :
    Finishes (walkName m start visit s) ((expand m start).map fun p => (f p.1, p.2)) := by
  obtain ⟨labels, jumps, result, h⟩ := walk_visits hm start
  have hrun : walk m start visit s = .ok (f labels, jumps, result) := by
    refine (h.run σ visit s).trans ?_
    rw [hv labels (by have := h.bytes_le; omega)]
    rfl
  have hexp : expand m start = result.map fun stop => (labels, stop) := h.expand
  unfold walkName
  apply Finishes.step hrun
  rw [hexp, Option.map_map]
  exact (Finishes.ofOption result).map _

include hm in
theorem skipName_finishes (o : Nat) : Finishes (skipName m o) (Wire.skipName m o) := by
  have hunit : ∀ labels : List Bytes, labels.foldlM (fun _ _ => (return () : Checked Unit)) () = .ok () := by
    intro labels
    induction labels with
    | nil => rfl
    | cons label labels ih => exact ih
  have h := (walkName_finishes hm _ () (fun _ => ()) o fun labels _ => hunit labels).map (·.2)
  rw [Option.map_map] at h
  rw [skipName_eq]
  exact h

/-! ## The name buffer -/

/-- The buffer with `bytes` appended to its name. -/
def NameBuf.write (buf : NameBuf) (bytes : Bytes) : NameBuf :=
  { name := patch buf.name buf.nameLen bytes, nameLen := buf.nameLen + bytes.length }

/-- A label that leaves the name within the buffer is written inside it. -/
theorem push_ok {buf : NameBuf} {label : Bytes} (hsize : buf.name.length = 255)
    (h : buf.nameLen + label.length ≤ 255) : buf.push label = .ok (buf.write label) := by
  have hsum : add buf.nameLen label.length = .ok (buf.nameLen + label.length) :=
    add_ok (Nat.zero_le _) (by omega)
  unfold NameBuf.push
  simp only [hsum, bind, Except.bind]
  rw [copyInto_ok rfl (by omega)]
  rfl

@[simp] theorem write_size {buf : NameBuf} {bytes : Bytes} (h : buf.nameLen + bytes.length ≤ buf.name.length) :
    (buf.write bytes).name.length = buf.name.length :=
  patch_length h

theorem write_write {buf : NameBuf} {a b : Bytes} (h : buf.nameLen ≤ buf.name.length) :
    (buf.write a).write b = buf.write (a ++ b) := by
  simp only [NameBuf.write, patch_patch h, List.length_append, Nat.add_assoc]

/-- Labels of at most 255 bytes in total are written inside the buffer, one after the other. -/
theorem foldlM_push :
    ∀ (labels : List Bytes) (buf : NameBuf), buf.name.length = 255 → buf.nameLen + labels.flatten.length ≤ 255 →
      labels.foldlM NameBuf.push buf = .ok (buf.write labels.flatten)
  | [], buf, _, _ => by
    simp [NameBuf.write, patch]
    rfl
  | label :: labels, buf, hsize, h => by
    rw [List.flatten_cons, List.length_append] at h
    have hwrite : (buf.write label).name.length = 255 := (write_size (by omega)).trans hsize
    rw [List.foldlM_cons, push_ok hsize (by omega), List.flatten_cons, ← write_write (by omega)]
    exact foldlM_push labels (buf.write label) hwrite (by simp only [NameBuf.write]; omega)

/-- A new buffer after a name was written to it. -/
theorem write_new {bytes : Bytes} (h : bytes.length ≤ 255) :
    (NameBuf.new.write bytes).name.length = 255 ∧ (NameBuf.new.write bytes).nameLen = bytes.length ∧
      (NameBuf.new.write bytes).name.take bytes.length = bytes := by
  have hnew : NameBuf.new.name.length = 255 := List.length_replicate ..
  have hlen : NameBuf.new.nameLen = 0 := rfl
  refine ⟨(write_size (by omega)).trans hnew, Nat.zero_add _, ?_⟩
  simp only [NameBuf.write, hlen, patch, List.take_zero, List.nil_append]
  exact List.take_left' rfl

include hm in
/-- A walk that writes to a new name buffer. -/
theorem walkName_push_finishes (start : Nat) :
    Finishes (walkName m start NameBuf.push .new)
      ((expand m start).map fun p => (NameBuf.new.write p.1.flatten, p.2)) := by
  apply walkName_finishes hm NameBuf.push .new fun labels => NameBuf.new.write labels.flatten
  intro labels h
  exact foldlM_push labels .new (List.length_replicate ..) (by have : NameBuf.new.nameLen = 0 := rfl; omega)

include hm in
theorem readName_finishes (start : Nat) : Finishes (readName m start) (Wire.readName m start) := by
  rw [readName_eq]
  have h := walkName_push_finishes hm start
  cases hexp : expand m start with
  | none =>
    rw [hexp] at h
    exact .bind_none h
  | some p =>
    rw [hexp] at h
    have hp := (expand_ok hexp).2
    obtain ⟨hsize, hlen, htake⟩ := write_new hp
    apply Finishes.bind_some h
    simp only [hlen]
    apply Finishes.step (range_ok (Nat.zero_le _) (by omega))
    rw [List.drop_zero, Nat.sub_zero, htake]
    apply Finishes.step (copyInto_ok (by rw [lowerAll_length, Nat.zero_add]) (by omega))
    apply Finishes.step (range_ok (Nat.zero_le _) (by simp))
    rw [List.drop_zero, Nat.sub_zero, List.take_zero, List.nil_append, List.take_left' (lowerAll_length _)]
    exact .pure _

/-! ## Records -/

/-- Header bytes are inside a message that has a header. -/
theorem index_byteAt {m : Bytes} {i : Nat} (h : ¬ m.length < headerLen) (hi : i < headerLen) :
    index m i = .ok (byteAt m i) := by
  have hlt : i < m.length := by omega
  apply index_ok
  rw [byteAt, List.getD_eq_getElem?_getD, List.getElem?_eq_getElem hlt]
  rfl

theorem skipName_le {m : Bytes} {o stop : Nat} (h : Wire.skipName m o = some stop) : stop ≤ m.length := by
  rw [skipName_eq] at h
  obtain ⟨p, hp, rfl⟩ := Option.map_eq_some_iff.1 h
  exact (expand_bounds hp).2

include hm in
theorem parseRr_finishes (o : Nat) : Finishes (parseRr m o) (Wire.parseRr m o) := by
  unfold parseRr Wire.parseRr
  apply (skipName_finishes hm o).bind
  intro offset hoffset
  have := skipName_le hoffset
  apply (readU16_finishes hm offset).bind
  intro kind _
  apply Finishes.step (add_ok hm (by omega))
  apply (readU16_finishes hm _).bind
  intro cls _
  apply Finishes.bind_some (checkedAdd_finishes hm (by omega))
  apply (readU32_finishes hm _).bind
  intro ttl _
  apply Finishes.step (add_ok hm (by omega))
  apply (readU16_finishes hm _).bind
  intro rdlen hrdlen
  have := readU16_lt hrdlen
  apply Finishes.bind_some (checkedAdd_finishes hm (by omega))
  apply Finishes.bind_some (checkedAdd_finishes hm (by omega))
  exact .ite (fun _ => .pure _) fun _ => .ofOption _

include hm in
theorem questionsLoop_finishes :
    ∀ n offset : Nat, Finishes (questionsLoop m n offset) (Wire.questionsLoop m n offset)
  | 0, offset => .pure offset
  | n + 1, offset => by
    unfold questionsLoop Wire.questionsLoop
    apply (skipName_finishes hm offset).bind
    intro stop hstop
    have := skipName_le hstop
    apply Finishes.bind_some (checkedAdd_finishes hm (by omega))
    exact .ite (fun _ => .ofOption _) fun _ => questionsLoop_finishes n (stop + 4)

include hm in
theorem questionsEnd_finishes : Finishes (questionsEnd m) (Wire.questionsEnd m) := by
  unfold questionsEnd Wire.questionsEnd
  apply (readU16_finishes hm 4).bind
  intro count _
  exact questionsLoop_finishes hm count headerLen

include hm in
theorem totalRrCount_finishes : Finishes (totalRrCount m) (Wire.totalRrCount m) := by
  unfold totalRrCount Wire.totalRrCount
  apply (readU16_finishes hm 6).bind
  intro answers h6
  have := readU16_lt h6
  apply (readU16_finishes hm 8).bind
  intro authorities h8
  have := readU16_lt h8
  apply Finishes.step (add_ok hm (by omega))
  apply (readU16_finishes hm 10).bind
  intro additionals h10
  have := readU16_lt h10
  exact .lift (add_ok hm (by omega))

include hm in
theorem soaMinimum_finishes {rr : ResourceRecord} (hrr : rr.rdataOffset + rr.rdlen ≤ m.length) :
    Finishes (soaMinimum m rr) (Wire.soaMinimum m rr) := by
  unfold soaMinimum Wire.soaMinimum
  apply Finishes.bind_some (checkedAdd_finishes hm (by omega))
  apply (skipName_finishes hm _).bind
  intro offset _
  refine .ite (fun _ => .ofOption _) fun _ => ?_
  apply (skipName_finishes hm _).bind
  intro offset hoffset
  have := skipName_le hoffset
  apply Finishes.bind_some (checkedAdd_finishes hm (by omega))
  refine .ite (fun _ => .ofOption _) fun _ => ?_
  apply Finishes.step (add_ok hm (by omega))
  exact readU32_finishes hm _

include hm in
theorem skipRecords_finishes : ∀ n offset : Nat, Finishes (skipRecords m n offset) (Wire.skipRecords m n offset)
  | 0, offset => .pure offset
  | n + 1, offset => by
    unfold skipRecords Wire.skipRecords
    apply (parseRr_finishes hm offset).bind
    intro rr _
    exact skipRecords_finishes n rr.end

/-! ## Cache metadata of a query -/

include hm in
theorem scanOpt_finishes : ∀ (n : Nat) (s : OptScan), Finishes (scanOpt m n s) (Wire.scanOpt m n s)
  | 0, s => .pure s
  | n + 1, s => by
    unfold scanOpt Wire.scanOpt
    apply (parseRr_finishes hm s.offset).bind
    intro rr hrr
    have hlt := (parseRr_some hrr).lt
    have hin := (parseRr_some hrr).inside
    refine .ite (fun _ => .ofOption _) fun _ => ?_
    refine .ite (fun _ => .ofOption _) fun _ => ?_
    apply Finishes.step (add_ok hm (by omega))
    apply (Finishes.ofOption _).bind
    intro version _
    refine .ite (fun _ => .ofOption _) fun _ => ?_
    apply (readU32_finishes hm _).bind
    intro flags _
    exact scanOpt_finishes n _

include hm in
theorem parseQueryMeta_finishes : Finishes (parseQueryMeta m) (Wire.parseQueryMeta m) := by
  unfold parseQueryMeta Wire.parseQueryMeta
  refine .ite (fun _ => .ofOption _) fun hhead => ?_
  apply (readU16_finishes hm 2).bind
  intro flags _
  refine .ite (fun _ => .ofOption _) fun _ => ?_
  apply (readU16_finishes hm 4).bind
  intro questions _
  refine .ite (fun _ => .ofOption _) fun _ => ?_
  apply (readName_finishes hm headerLen).bind
  rintro ⟨qname, offset⟩ _
  apply (readU16_finishes hm offset).bind
  intro qtype hqtype
  have := readU16_bound hqtype
  apply Finishes.step (add_ok hm (by omega))
  apply (readU16_finishes hm _).bind
  intro qclass _
  apply Finishes.step (add_ok hm (by omega))
  apply (readU16_finishes hm 6).bind
  intro answerCount h6
  have := readU16_lt h6
  apply (readU16_finishes hm 8).bind
  intro authorityCount h8
  have := readU16_lt h8
  apply Finishes.step (add_ok hm (by omega))
  apply (skipRecords_finishes hm _ _).bind
  intro offset _
  apply (readU16_finishes hm 10).bind
  intro additionalCount _
  apply (scanOpt_finishes hm _ _).bind
  intro s _
  refine .ite (fun _ => .ofOption _) fun _ => ?_
  apply Finishes.step (index_byteAt hhead (by decide))
  exact .pure _

include hm in
theorem udpPayloadLoop_ok : ∀ n offset : Nat, udpPayloadLoop m n offset = .ok (Wire.udpPayloadLoop m n offset)
  | 0, _ => rfl
  | n + 1, offset => by
    have hrr : (parseRr m offset).run = .ok (Wire.parseRr m offset) := parseRr_finishes hm offset
    unfold udpPayloadLoop Wire.udpPayloadLoop
    rw [hrr]
    cases Wire.parseRr m offset with
    | none => rfl
    | some rr =>
      simp only [bind, Except.bind]
      split
      · rfl
      · exact udpPayloadLoop_ok n rr.end

include hm in
theorem udpPayloadSize_ok : udpPayloadSize m = .ok (Wire.udpPayloadSize m) := by
  have hend : (questionsEnd m).run = .ok (Wire.questionsEnd m) := questionsEnd_finishes hm
  have hcount (o : Nat) : (readU16 m o).run = .ok (Base.readU16 m o) := readU16_finishes hm o
  have hskip (n o : Nat) : (skipRecords m n o).run = .ok (Wire.skipRecords m n o) := skipRecords_finishes hm n o
  unfold udpPayloadSize Wire.udpPayloadSize
  simp only [hend, hcount, bind, Except.bind]
  cases Wire.questionsEnd m with
  | none => rfl
  | some offset =>
    cases h6 : Base.readU16 m 6 with
    | none => rfl
    | some answerCount =>
      cases h8 : Base.readU16 m 8 with
      | none => rfl
      | some authorityCount =>
        have := readU16_lt h6
        have := readU16_lt h8
        simp only [add_ok hm (show answerCount + authorityCount ≤ m.length + 1048576 by omega), hskip]
        cases Wire.skipRecords m (answerCount + authorityCount) offset with
        | none => rfl
        | some offset =>
          cases Base.readU16 m 10 with
          | none => rfl
          | some additionalCount => exact udpPayloadLoop_ok hm additionalCount offset

/-! ## TTL aging -/

theorem adjustLoop_ok (elapsed : Nat) :
    ∀ (n : Nat) (m : Bytes) (offset : Nat), m.length ≤ isizeMax →
      adjustLoop elapsed n m offset = .ok (Wire.adjustLoop elapsed n m offset)
  | 0, _, _, _ => rfl
  | n + 1, m, offset, hm => by
    have hrr : (parseRr m offset).run = .ok (Wire.parseRr m offset) := parseRr_finishes hm offset
    unfold adjustLoop Wire.adjustLoop
    rw [hrr]
    cases hp : Wire.parseRr m offset with
    | none => rfl
    | some rr =>
      have hlt := (parseRr_some hp).lt
      have hin := (parseRr_some hp).inside
      simp only [bind, Except.bind]
      by_cases hk : rr.kind ≠ typeOpt
      · -- the TTL field lies inside the record, and the write keeps the length
        have hfield : rr.ttlOffset + (toBe32 (rr.ttl - elapsed)).length ≤ m.length := by
          rw [toBe32_length]; omega
        have hcopy : copyInto m rr.ttlOffset (rr.ttlOffset + 4) (toBe32 (rr.ttl - elapsed)) =
            .ok (patch m rr.ttlOffset (toBe32 (rr.ttl - elapsed))) :=
          copyInto_ok rfl hfield
        rw [if_pos hk, if_pos hk, add_ok hm (by omega)]
        simp only [hcopy]
        exact adjustLoop_ok elapsed n _ rr.end (le_of_eq_of_le (patch_length hfield) hm)
      · rw [if_neg hk, if_neg hk]
        exact adjustLoop_ok elapsed n m rr.end hm

include hm in
theorem adjustTtls_ok (elapsed : Nat) : adjustTtls m elapsed = .ok (Wire.adjustTtls m elapsed) := by
  have hend : (questionsEnd m).run = .ok (Wire.questionsEnd m) := questionsEnd_finishes hm
  have hcount : (totalRrCount m).run = .ok (Wire.totalRrCount m) := totalRrCount_finishes hm
  unfold adjustTtls Wire.adjustTtls
  split
  · rfl
  · simp only [hend, hcount, bind, Except.bind]
    cases Wire.questionsEnd m with
    | none => rfl
    | some offset =>
      cases Wire.totalRrCount m with
      | none => rfl
      | some count => exact adjustLoop_ok _ count m offset hm

/-! ## Cacheability -/

include hm in
theorem scanTtls_finishes {queryType answers authorities : Nat} (hcount : answers + authorities ≤ 131070) :
    ∀ (n index : Nat) (s : TtlScan),
      Finishes (scanTtls m queryType answers authorities n index s)
        (Wire.scanTtls m queryType answers authorities n index s)
  | 0, _, s => .pure s
  | n + 1, index, s => by
    unfold scanTtls Wire.scanTtls
    apply (parseRr_finishes hm s.offset).bind
    intro rr hrr
    have hstop := (parseRr_some hrr).stop
    have hrdata := (parseRr_some hrr).rdataOffset
    have hin := (parseRr_some hrr).inside
    -- the sum is computed for records after the answers only
    have hend : ∃ e, Finishes (if answers ≤ index then liftM (add answers authorities) else pure index) (some e) ∧
        ((answers ≤ index ∧ index < e) ↔ (answers ≤ index ∧ index < answers + authorities)) := by
      by_cases ha : answers ≤ index
      · rw [if_pos ha]
        exact ⟨_, .lift (add_ok hm (by omega)), Iff.rfl⟩
      · rw [if_neg ha]
        exact ⟨_, .pure index, ⟨fun h => absurd h.1 ha, fun h => absurd h.1 ha⟩⟩
    obtain ⟨e, he, hiff⟩ := hend
    apply Finishes.bind_some he
    simp only [hiff]
    by_cases hsoa : (answers ≤ index ∧ index < answers + authorities) ∧ rr.kind = typeSoa
    · rw [if_pos hsoa]
      simp only [if_pos hsoa, Option.bind_eq_bind, Option.bind_map]
      apply (soaMinimum_finishes hm (by omega)).bind
      intro minimum _
      exact scanTtls_finishes hcount n (index + 1) _
    · rw [if_neg hsoa]
      simp only [if_neg hsoa]
      exact scanTtls_finishes hcount n (index + 1) _

include hm in
theorem cacheTtl_finishes (queryType : Nat) : Finishes (cacheTtl m queryType) (Wire.cacheTtl m queryType) := by
  unfold cacheTtl Wire.cacheTtl
  by_cases hhead : m.length < headerLen
  · rw [if_pos hhead, if_pos (.inl hhead)]
    exact .ofOption _
  have hhigh := index_byteAt hhead (i := 2) (by decide)
  rw [if_neg hhead]
  apply Finishes.step hhigh
  by_cases hqr : byteAt m 2 &&& 0x80 = 0
  · rw [if_pos hqr, if_pos (.inr (.inl hqr))]
    exact .ofOption _
  rw [if_neg hqr]
  apply Finishes.step hhigh
  by_cases htc : byteAt m 2 &&& 0x02 ≠ 0
  · rw [if_pos htc, if_pos (.inr (.inr htc))]
    exact .ofOption _
  rw [if_neg htc, if_neg (by simp only [not_or]; exact ⟨hhead, hqr, htc⟩)]
  apply Finishes.step (index_byteAt hhead (by decide))
  refine .ite (fun _ => .ofOption _) fun _ => ?_
  apply (readU16_finishes hm 6).bind
  intro answers h6
  have := readU16_lt h6
  apply (readU16_finishes hm 8).bind
  intro authorities h8
  have := readU16_lt h8
  apply (readU16_finishes hm 10).bind
  intro additionals h10
  have := readU16_lt h10
  apply (questionsEnd_finishes hm).bind
  intro offset _
  apply Finishes.step (add_ok hm (by omega))
  apply Finishes.step (add_ok hm (by omega))
  apply (scanTtls_finishes hm (by omega) _ _ _).bind
  intro s _
  refine .ite (fun _ => .ofOption _) fun _ => ?_
  apply Finishes.ite
  · intro _
    apply (Finishes.ofOption _).bind
    intro ttl _
    refine .ite (fun _ => ?_) fun _ => .ofOption _
    apply (Finishes.ofOption _).bind
    intro positive _
    exact .ofOption _
  · intro _
    apply (Finishes.ofOption _).bind
    intro ttl _
    exact .ofOption _

/-! ## Truncation -/

theorem fill_patch {m bs : Bytes} {start stop : Nat} (hbs : bs = List.replicate (stop - start) 0)
    (h : start ≤ stop) (h' : stop ≤ m.length) : fill m start stop 0 = .ok (patch m start bs) := by
  subst hbs
  have hlen : start + (List.replicate (stop - start) (0 : UInt8)).length = stop := by
    rw [List.length_replicate]; omega
  rw [fill_ok h h', patch, hlen]

theorem store_patch {m : Bytes} {i : Nat} {b : UInt8} (h : i < m.length) : store m i b = .ok (patch m i [b]) := by
  rw [store_ok h, List.set_eq_take_append_cons_drop, if_pos h]
  simp [patch]

include hm in
theorem truncateTo_ok (limit : Nat) : truncateTo m limit = .ok (Wire.truncateTo m limit) := by
  unfold truncateTo Wire.truncateTo
  split
  · rfl
  · rename_i hlong
    have hhead : ¬ m.length < headerLen := fun h => hlong (.inr h)
    have h12 : 12 ≤ m.length := Nat.le_of_not_lt hhead
    -- every edit keeps the length
    have hlen1 : (patch m 2 [byteAt m 2 ||| 0x02]).length = m.length :=
      patch_length (by simp only [List.length_singleton]; omega)
    have hlen2 : (patch (patch m 2 [byteAt m 2 ||| 0x02]) 6 [0, 0, 0, 0, 0, 0]).length = m.length :=
      (patch_length (by simp only [List.length_cons, List.length_nil]; omega)).trans hlen1
    have hend := questionsEnd_finishes (le_of_eq_of_le hlen2 hm)
    unfold Finishes at hend
    have hcounts : fill (patch m 2 [byteAt m 2 ||| 0x02]) 6 12 0 =
        .ok (patch (patch m 2 [byteAt m 2 ||| 0x02]) 6 [0, 0, 0, 0, 0, 0]) :=
      fill_patch rfl (by decide) (by omega)
    have hquestions : fill (patch (patch m 2 [byteAt m 2 ||| 0x02]) 6 [0, 0, 0, 0, 0, 0]) 4 6 0 =
        .ok (patch (patch (patch m 2 [byteAt m 2 ||| 0x02]) 6 [0, 0, 0, 0, 0, 0]) 4 [0, 0]) :=
      fill_patch rfl (by decide) (by omega)
    rw [bind_ok (index_byteAt hhead (by decide)), bind_ok (store_patch (by omega)), bind_ok hcounts, bind_ok hend]
    simp only [hquestions]
    cases Wire.questionsEnd (patch (patch m 2 [byteAt m 2 ||| 0x02]) 6 [0, 0, 0, 0, 0, 0]) with
    | none => rfl
    | some stop =>
      simp only
      split <;> rfl

/-! ## Response validation -/

/-- The labels of a walk, compared with the name in the buffer one after the other. -/
theorem foldlM_echoVisit {buf : NameBuf} {name : Bytes} (hsize : buf.nameLen ≤ buf.name.length)
    (hname : buf.name.take buf.nameLen = name) :
    ∀ (labels : List Bytes) (s : Nat × Bool), s.1 + labels.flatten.length ≤ 255 →
      labels.foldlM (echoVisit buf) s = .ok (labels.foldl (Wire.echoVisit name) s)
  | [], _, _ => rfl
  | label :: labels, s, h => by
    rw [List.flatten_cons, List.length_append] at h
    have hsum : add s.1 label.length = .ok (s.1 + label.length) := add_ok (Nat.zero_le _) (by omega)
    have hstep : echoVisit buf s label = .ok (Wire.echoVisit name s label) := by
      unfold echoVisit
      rw [bind_ok (range_ok (Nat.zero_le _) hsize), bind_ok hsum, bind_ok hsum, List.drop_zero, Nat.sub_zero, hname]
      rfl
    rw [List.foldlM_cons, bind_ok hstep, List.foldl_cons]
    exact foldlM_echoVisit hsize hname labels _ (by simp only [Wire.echoVisit]; omega)

theorem questionsMatch_finishes {query response : Bytes} (hq : query.length ≤ isizeMax)
    (hr : response.length ≤ isizeMax) :
    Finishes (questionsMatch query response) (Wire.questionsMatch query response) := by
  have hsent := walkName_push_finishes hq headerLen
  unfold questionsMatch Wire.questionsMatch
  rw [walkName_eq query]
  cases hexp : expand query headerLen with
  | none =>
    rw [hexp] at hsent
    exact .bind_none hsent
  | some p =>
    rw [hexp] at hsent
    have hp := (expand_ok hexp).2
    have hpe := (expand_bounds hexp).2
    obtain ⟨hsize, hlen, htake⟩ := write_new hp
    apply Finishes.bind_some hsent
    simp only [Option.map_some, Option.bind_eq_bind, Option.bind_some, foldl_append_flatten, List.nil_append]
    apply Finishes.step (add_ok hq (by omega))
    apply (Finishes.ofOption _).bind
    intro sentFields _
    have hechoed := walkName_finishes hr (echoVisit (NameBuf.new.write p.1.flatten)) (0, true) _ headerLen
      fun labels h => foldlM_echoVisit (by omega) (hlen ▸ htake) labels (0, true) (by simpa using h)
    rw [← walkName_eq] at hechoed
    apply hechoed.bind
    rintro ⟨⟨echoedLen, isMatch⟩, responseEnd⟩ h
    rw [walkName_eq] at h
    obtain ⟨p', hp', h⟩ := Option.map_eq_some_iff.1 h
    have hpe' := (expand_bounds hp').2
    have hend : p'.2 = responseEnd := congrArg (·.2) h
    apply Finishes.step (add_ok hr (by omega))
    apply (Finishes.ofOption _).bind
    intro echoedFields _
    rw [hlen]
    exact .pure _

theorem validateResponse_ok {query response : Bytes} (hq : query.length ≤ isizeMax)
    (hr : response.length ≤ isizeMax) :
    validateResponse query response = .ok (Wire.validateResponse query response) := by
  unfold validateResponse Wire.validateResponse
  split
  · rfl
  rename_i hhead
  have hquery : ¬ query.length < headerLen := fun h => hhead (.inl h)
  have hresponse : ¬ response.length < headerLen := fun h => hhead (.inr h)
  rw [bind_ok (index_byteAt hresponse (by decide))]
  split
  · rfl
  rw [bind_ok (index_byteAt hquery (by decide)), bind_ok (index_byteAt hresponse (by decide))]
  split
  · rfl
  have hsent : (readU16 query 4).run = .ok (Base.readU16 query 4) := readU16_finishes hq 4
  have hechoed : (readU16 response 4).run = .ok (Base.readU16 response 4) := readU16_finishes hr 4
  have hmatch : (questionsMatch query response).run = .ok (Wire.questionsMatch query response) :=
    questionsMatch_finishes hq hr
  simp only [hsent, hechoed, hmatch, bind, Except.bind]
  cases Base.readU16 query 4 with
  | none => rfl
  | some qdQuery =>
    cases Base.readU16 response 4 with
    | none => rfl
    | some qdResponse =>
      simp only
      split
      · rfl
      split
      · rfl
      cases Wire.questionsMatch query response with
      | none => rfl
      | some b => cases b <;> rfl

/-! ## No message can crash or hang -/

/-- Every walk ends after at most 128 jumps with at most 255 bytes passed to its visitor, and the
functions over whole messages meet no fault. -/
theorem wire_faultless (message : Slice UInt8) :
    (∀ start, ∃ (labels : List Bytes) (jumps : Nat) (result : Option Nat), jumps ≤ 128 ∧ labels.flatten.length ≤ 255 ∧
      ∀ (σ : Type) (visit : σ → Bytes → Checked σ) (s : σ), walk message.list start visit s = do
        let s ← labels.foldlM visit s
        return (s, jumps, result)) ∧
    (parseQueryMeta message.list).run = .ok (Wire.parseQueryMeta message.list) ∧
    udpPayloadSize message.list = .ok (Wire.udpPayloadSize message.list) ∧
    (∀ elapsed, adjustTtls message.list elapsed = .ok (Wire.adjustTtls message.list elapsed)) ∧
    (∀ queryType, (cacheTtl message.list queryType).run = .ok (Wire.cacheTtl message.list queryType)) ∧
    (∀ limit, truncateTo message.list limit = .ok (Wire.truncateTo message.list limit)) ∧
    ∀ response : Slice UInt8,
      validateResponse message.list response.list = .ok (Wire.validateResponse message.list response.list) := by
  have hm := message.length_le
  refine ⟨fun start => ?_, parseQueryMeta_finishes hm, udpPayloadSize_ok hm, adjustTtls_ok hm, cacheTtl_finishes hm,
    truncateTo_ok hm, fun response => validateResponse_ok hm response.length_le⟩
  obtain ⟨labels, jumps, result, h⟩ := walk_visits hm start
  exact ⟨labels, jumps, result, h.jumps_le, by have := h.bytes_le; omega, h.run⟩

end DNSRivet.Wire.Faults
