/-
Canonical names. The canonical form of a name is its uncompressed wire form in lower case. Lower
case alters no length byte and merges no two names, so `read_name` gives two encodings one result
exactly when their labels are equal up to ASCII case, and reading a result again gives it back.
Every name within the limits of the protocol therefore has one canonical form, which `read_name`
reaches from each of its encodings of at most 128 pointers (`readName_canonical`).
-/
import DNSRivet.Wire.Reference

namespace DNSRivet.Wire

open DNSRivet.Base

/-! ## Names within the limits -/

/-- A label has 1 to 63 bytes. -/
def LabelsOk (labels : List Bytes) : Prop := ∀ label ∈ labels, 1 ≤ label.length ∧ label.length ≤ 63

instance (labels : List Bytes) : Decidable (LabelsOk labels) :=
  inferInstanceAs (Decidable (∀ label ∈ labels, 1 ≤ label.length ∧ label.length ≤ 63))

/-- A name within the limits of the protocol. -/
structure Name where
  labels : List Bytes
  labels_ok : LabelsOk labels
  wireLen_le : wireLen labels ≤ 255

theorem labelsOk_cons {label : Bytes} {labels : List Bytes} :
    LabelsOk (label :: labels) ↔ (1 ≤ label.length ∧ label.length ≤ 63) ∧ LabelsOk labels :=
  List.forall_mem_cons

theorem NameAt.labelsOk {m : Bytes} {start jumps stop : Nat} {labels : List Bytes}
    (h : NameAt m start labels jumps stop) : LabelsOk labels := by
  induction h with
  | root => exact fun _ h => (List.not_mem_nil h).elim
  | label _ hpos h63 hs _ ih =>
    have := (slice_some hs).2.2.2
    exact labelsOk_cons.2 ⟨⟨by omega, by omega⟩, ih⟩
  | pointer _ _ _ _ ih => exact ih

theorem toNat_length {label : Bytes} (h : label.length ≤ 63) : (UInt8.ofNat label.length).toNat = label.length := by
  rw [UInt8.toNat_ofNat']
  exact Nat.mod_eq_of_lt (by omega)

theorem nameOk_wireForm : ∀ {labels : List Bytes}, LabelsOk labels → NameOk (wireForm labels)
  | [], _ => .root
  | label :: labels, h => by
    obtain ⟨⟨hpos, h63⟩, hrest⟩ := labelsOk_cons.1 h
    have hlen := toNat_length h63
    rw [wireForm_cons]
    exact .cons ⟨_, label, rfl, hlen.symm, by omega, by omega⟩ (nameOk_wireForm hrest)

/-! ## The canonical form -/

/-- The wire form of a name in lower case. -/
def canonicalForm (labels : List Bytes) : Bytes := lowerAll (wireForm labels).flatten

theorem canonicalForm_length (labels : List Bytes) : (canonicalForm labels).length = wireLen labels :=
  lowerAll_length _

/-- `read_name` reads the names within the limits, each as its canonical form. -/
theorem readName_iff {m n : Bytes} {start stop : Nat} :
    readName m start = some (n, stop) ↔ ∃ labels, Expands m start labels stop ∧ n = canonicalForm labels := by
  rw [readName_eq, Option.map_eq_some_iff]
  constructor
  · rintro ⟨⟨ls, e⟩, hp, h⟩
    obtain ⟨rfl, rfl⟩ := Prod.mk.inj h
    obtain ⟨labels, hlabels, rfl⟩ := expand_iff.1 hp
    exact ⟨labels, hlabels, rfl⟩
  · rintro ⟨labels, hlabels, rfl⟩
    exact ⟨(wireForm labels, stop), expand_iff.2 ⟨labels, hlabels, rfl⟩, rfl⟩

/-- Names share a canonical form exactly when they are equal up to ASCII case. -/
theorem canonicalForm_eq_iff {labels labels' : List Bytes} (h : LabelsOk labels) (h' : LabelsOk labels') :
    canonicalForm labels = canonicalForm labels' ↔ SameName labels labels' :=
  (lowerAll_flatten_inj (nameOk_wireForm h) (nameOk_wireForm h')).trans foldCase_wireForm

/-! ## Reading a canonical form -/

theorem lower_lower (b : UInt8) : lower (lower b) = lower b := by
  unfold lower
  split
  · rename_i h
    have h1 := UInt8.le_iff_toNat_le.1 h.1
    have h2 := UInt8.le_iff_toNat_le.1 h.2
    rw [if_neg]
    rintro ⟨-, h3⟩
    have h3 := UInt8.le_iff_toNat_le.1 h3
    rw [UInt8.toNat_add] at h3
    simp only [UInt8.reduceToNat] at h1 h2 h3
    omega
  · rfl

theorem lowerAll_lowerAll (m : Bytes) : lowerAll (lowerAll m) = lowerAll m := by
  unfold lowerAll
  rw [List.map_map]
  exact List.map_congr_left fun b _ => lower_lower b

/-- Lower case keeps the length bytes: it is the wire form of the labels in lower case. -/
theorem canonicalForm_eq_wireForm :
    ∀ {labels : List Bytes}, LabelsOk labels → canonicalForm labels = (wireForm (foldCase labels)).flatten
  | [], _ => rfl
  | label :: labels, h => by
    obtain ⟨⟨hpos, h63⟩, hrest⟩ := labelsOk_cons.1 h
    have hlen : lower (UInt8.ofNat label.length) = UInt8.ofNat label.length :=
      lower_of_lt (by rw [toNat_length h63]; omega)
    have ih : lowerAll (wireForm labels).flatten = (wireForm (foldCase labels)).flatten :=
      canonicalForm_eq_wireForm hrest
    have hfold : foldCase (label :: labels) = lowerAll label :: foldCase labels := rfl
    rw [canonicalForm, hfold, wireForm_cons, wireForm_cons, List.flatten_cons, List.flatten_cons, lowerAll_append,
      lowerAll_cons, hlen, ih, lowerAll_length]

theorem labelsOk_foldCase {labels : List Bytes} (h : LabelsOk labels) : LabelsOk (foldCase labels) := by
  intro label hlabel
  obtain ⟨l, hl, rfl⟩ := List.mem_map.1 hlabel
  rw [lowerAll_length]
  exact h l hl

theorem slice_middle (before middle after : Bytes) :
    slice (before ++ (middle ++ after)) before.length (before.length + middle.length) = some middle := by
  unfold slice
  rw [if_pos ⟨by omega, by simp only [List.length_append]; omega⟩, List.drop_left, Nat.add_sub_cancel_left,
    List.take_left]

/-- The uncompressed wire form of a name, behind any bytes, is an encoding of it. -/
theorem nameAt_wireForm :
    ∀ {labels : List Bytes} (before : Bytes), LabelsOk labels →
      NameAt (before ++ (wireForm labels).flatten) before.length labels 0 (before.length + wireLen labels)
  | [], before, _ => by
    apply NameAt.root
    rw [List.getElem?_append_right (Nat.le_refl _), Nat.sub_self]
    rfl
  | label :: labels, before, h => by
    obtain ⟨⟨hpos, h63⟩, hrest⟩ := labelsOk_cons.1 h
    have hlen := toNat_length h63
    have hnext := nameAt_wireForm (before ++ UInt8.ofNat label.length :: label) hrest
    have hcursor : (before ++ UInt8.ofNat label.length :: label).length =
        before.length + 1 + (UInt8.ofNat label.length).toNat := by
      rw [List.length_append, List.length_cons, hlen]; omega
    have hstop : before.length + wireLen (label :: labels) =
        before.length + 1 + (UInt8.ofNat label.length).toNat + wireLen labels := by
      rw [wireLen_cons, hlen]; omega
    rw [hcursor, List.append_assoc, List.cons_append] at hnext
    rw [wireForm_cons, List.flatten_cons, List.cons_append, hstop]
    have hbyte : (before ++ UInt8.ofNat label.length :: (label ++ (wireForm labels).flatten))[before.length]? =
        some (UInt8.ofNat label.length) := by
      rw [List.getElem?_append_right (Nat.le_refl _), Nat.sub_self]
      rfl
    have hslice : slice (before ++ UInt8.ofNat label.length :: (label ++ (wireForm labels).flatten)) (before.length + 1)
        (before.length + 1 + (UInt8.ofNat label.length).toNat) = some label := by
      have h := slice_middle (before ++ [UInt8.ofNat label.length]) label (wireForm labels).flatten
      rw [List.length_append, List.length_singleton, List.append_assoc, List.singleton_append] at h
      rw [hlen]
      exact h
    exact .label hbyte (by omega) (by omega) hslice hnext

/-- Reading a canonical form gives it back. -/
theorem readName_canonicalForm {labels : List Bytes} (h : LabelsOk labels) (hlen : wireLen labels ≤ 255) :
    readName (canonicalForm labels) 0 = some (canonicalForm labels, (canonicalForm labels).length) := by
  have hfold : canonicalForm (foldCase labels) = canonicalForm labels := by
    rw [canonicalForm, ← canonicalForm_eq_wireForm h, canonicalForm, lowerAll_lowerAll]
  have hwire : wireLen (foldCase labels) = wireLen labels := by
    rw [← canonicalForm_length, hfold, canonicalForm_length]
  have hname := nameAt_wireForm [] (labelsOk_foldCase h)
  rw [List.nil_append, ← canonicalForm_eq_wireForm h, hwire, List.length_nil, Nat.zero_add,
    ← canonicalForm_length] at hname
  exact readName_iff.2 ⟨foldCase labels, ⟨0, by omega, hname, by omega⟩, hfold.symm⟩

/-! ## Canonical names are faithful -/

theorem readName_inj {m m' n n' : Bytes} {start stop start' stop' : Nat} {labels labels' : List Bytes}
    (h : readName m start = some (n, stop)) (h' : readName m' start' = some (n', stop'))
    (hlabels : Expands m start labels stop) (hlabels' : Expands m' start' labels' stop') :
    n = n' ↔ SameName labels labels' := by
  have hn := h.symm.trans (readName_iff.2 ⟨labels, hlabels, rfl⟩)
  have hn' := h'.symm.trans (readName_iff.2 ⟨labels', hlabels', rfl⟩)
  obtain ⟨jumps, -, hname, -⟩ := hlabels
  obtain ⟨jumps', -, hname', -⟩ := hlabels'
  obtain ⟨rfl, -⟩ := Prod.mk.inj (Option.some.inj hn)
  obtain ⟨rfl, -⟩ := Prod.mk.inj (Option.some.inj hn')
  exact canonicalForm_eq_iff hname.labelsOk hname'.labelsOk

theorem readName_again {m n : Bytes} {start stop : Nat} (h : readName m start = some (n, stop)) :
    readName n 0 = some (n, n.length) := by
  obtain ⟨labels, ⟨jumps, -, hname, hlen⟩, rfl⟩ := readName_iff.1 h
  exact readName_canonicalForm hname.labelsOk hlen

/-- Every encoding of a name is read as its canonical form. -/
theorem Name.reads_canonicalForm (name : Name) :
    ∀ m start jumps stop, jumps ≤ 128 → NameAt m start name.labels jumps stop →
      readName m start = some (canonicalForm name.labels, stop) := by
  intro m start jumps stop hj hname
  apply readName_iff.2
  exact ⟨name.labels, ⟨jumps, hj, hname, name.wireLen_le⟩, rfl⟩

/-- No other bytes are what every encoding of a name is read as, its uncompressed one among them. -/
theorem Name.canonicalForm_unique (name : Name) {n : Bytes}
    (hn : ∀ m start jumps stop, jumps ≤ 128 → NameAt m start name.labels jumps stop →
      readName m start = some (n, stop)) : n = canonicalForm name.labels := by
  have hflat := nameAt_wireForm [] name.labels_ok
  have h := (hn _ _ _ _ (Nat.zero_le _) hflat).symm.trans (name.reads_canonicalForm _ _ _ _ (Nat.zero_le _) hflat)
  exact congrArg Prod.fst (Option.some.inj h)

/-- Two results of `read_name` are equal exactly when the names read are, up to ASCII case; a result
read again is itself; and each name has one canonical form, which every encoding of it is read as. -/
theorem readName_canonical :
    (∀ m start n stop, readName m start = some (n, stop) → ∃ labels, Expands m start labels stop) ∧
    (∀ m start n stop m' start' n' stop' labels labels', readName m start = some (n, stop) →
      readName m' start' = some (n', stop') → Expands m start labels stop → Expands m' start' labels' stop' →
      (n = n' ↔ SameName labels labels')) ∧
    (∀ m start n stop, readName m start = some (n, stop) → readName n 0 = some (n, n.length)) ∧
    ∀ name : Name, ∃! n, ∀ m start jumps stop, jumps ≤ 128 → NameAt m start name.labels jumps stop →
      readName m start = some (n, stop) := by
  refine ⟨?_, ?_, ?_, ?_⟩
  · intro m start n stop h
    obtain ⟨labels, hlabels, -⟩ := readName_iff.1 h
    exact ⟨labels, hlabels⟩
  · intro m start n stop m' start' n' stop' labels labels' h h' hlabels hlabels'
    exact readName_inj h h' hlabels hlabels'
  · intro m start n stop h
    exact readName_again h
  · intro name
    exact ⟨canonicalForm name.labels, name.reads_canonicalForm, fun n hn => name.canonicalForm_unique hn⟩

/-- The name `WWW`, and a pointer to it. -/
def shouted : Bytes := [3, 87, 87, 87, 0, 192, 0]

theorem shouted_nameAt : NameAt shouted 5 [[87, 87, 87]] 1 7 :=
  have hroot : NameAt shouted 4 [] 0 5 := .root rfl
  have hlabel : NameAt shouted 0 [[87, 87, 87]] 0 5 :=
    @NameAt.label shouted 0 0 5 3 [87, 87, 87] [] rfl (by decide) (by decide) rfl hroot
  @NameAt.pointer shouted 5 0 5 192 0 [[87, 87, 87]] rfl (by decide) rfl hlabel

theorem readName_canonical_shouted :
    (∃ labels, Expands shouted 5 labels 7) ∧ SameName [[87, 87, 87]] [[119, 119, 119]] ∧
    readName [3, 119, 119, 119, 0] 0 = some ([3, 119, 119, 119, 0], 5) ∧ ∃ n, readName shouted 5 = some (n, 7) :=
  have hread : readName shouted 5 = some ([3, 119, 119, 119, 0], 7) := by decide +kernel
  have hagain : readName [3, 119, 119, 119, 0] 0 = some ([3, 119, 119, 119, 0], 5) :=
    readName_canonical.2.2.1 shouted 5 _ 7 hread
  have hwww : NameAt [3, 119, 119, 119, 0] 0 [[119, 119, 119]] 0 5 :=
    @nameAt_wireForm [[119, 119, 119]] [] (by decide)
  have hone := readName_canonical.2.2.2 ⟨[[87, 87, 87]], by decide, by decide⟩
  ⟨readName_canonical.1 shouted 5 _ 7 hread,
    (readName_canonical.2.1 shouted 5 _ 7 _ 0 _ 5 _ _ hread hagain ⟨1, by decide, shouted_nameAt, by decide⟩
      ⟨0, by decide, hwww, by decide⟩).1 rfl,
    hagain, hone.exists.imp fun _ hn => hn shouted 5 1 7 (by decide) shouted_nameAt⟩

end DNSRivet.Wire
