/-
`wire.rs`, names: `walk_name`, `skip_name` and `read_name`, and what they mean. `expand` is the
sequence of wire labels (each with its length byte, the root label last) that a walk from an
offset visits, with the offset after the name; every visitor of `walk_name` is a fold over it.
The laws below are those the record and question layers use: the offset after a name depends on
its local bytes only, every expanded name is a sequence of well-formed labels of at most 255
bytes in total, and lower-casing a whole expanded name loses nothing but letter case.
-/
import DNSRivet.Base.Bytes

namespace DNSRivet.Wire

open DNSRivet.Base

/-! ## The walk -/

def headerLen : Nat := 12

/-- More passes than a walk can make: 128 jumps, 127 labels and the root label. -/
def walkFuel : Nat := 383

/-- The loop of `walk_name`. Its variables are the visitor's state, `cursor`, `end`, `jumps` and
`name_len`; the fuel is no part of the source (`walkLoop_fuel`). -/
def walkLoop {σ : Type} (message : Bytes) (visit : σ → Bytes → σ) :
    Nat → σ → Nat → Option Nat → Nat → Nat → Option (σ × Nat)
  | 0, _, _, _, _, _ => none
  | fuel + 1, s, cursor, stop, jumps, nameLen => do
    let len ← message[cursor]?
    if len &&& 0xc0 = 0xc0 then
      let next ← message[cursor + 1]?
      let pointer := ((len &&& 0x3f).toNat <<< 8) ||| next.toNat
      if message.length ≤ pointer ∨ 128 ≤ jumps then none
      else walkLoop message visit fuel s pointer (some (stop.getD (cursor + 2))) (jumps + 1) nameLen
    else if len &&& 0xc0 ≠ 0 ∨ 63 < len then none
    else if len = 0 then some (visit s [len], stop.getD (cursor + 1))
    else
      let label ← slice message cursor (cursor + 1 + len.toNat)
      -- the expanded name must leave one byte for its terminating root label
      if 255 ≤ nameLen + (1 + len.toNat) then none
      else walkLoop message visit fuel (visit s label) (cursor + 1 + len.toNat) stop jumps (nameLen + (1 + len.toNat))

/-- Validate the full expanded name, visiting each wire label (length included). -/
def walkName {σ : Type} (message : Bytes) (start : Nat) (visit : σ → Bytes → σ) (s : σ) : Option (σ × Nat) :=
  walkLoop message visit walkFuel s start none 0 0

def skipName (message : Bytes) (offset : Nat) : Option Nat :=
  (walkName message offset (fun _ _ => ()) ()).map (·.2)

/-- Decode a possibly-compressed name into canonical lowercase wire form. -/
def readName (message : Bytes) (start : Nat) : Option (Bytes × Nat) := do
  let (name, stop) ← walkName message start (fun name label => name ++ label) []
  some (lowerAll name, stop)

/-! ## Expanded names -/

/-- The labels a walk visits, in order, and the offset after the name. -/
def expandLoop (message : Bytes) : Nat → Nat → Option Nat → Nat → Nat → Option (List Bytes × Nat)
  | 0, _, _, _, _ => none
  | fuel + 1, cursor, stop, jumps, nameLen => do
    let len ← message[cursor]?
    if len &&& 0xc0 = 0xc0 then
      let next ← message[cursor + 1]?
      let pointer := ((len &&& 0x3f).toNat <<< 8) ||| next.toNat
      if message.length ≤ pointer ∨ 128 ≤ jumps then none
      else expandLoop message fuel pointer (some (stop.getD (cursor + 2))) (jumps + 1) nameLen
    else if len &&& 0xc0 ≠ 0 ∨ 63 < len then none
    else if len = 0 then some ([[len]], stop.getD (cursor + 1))
    else
      let label ← slice message cursor (cursor + 1 + len.toNat)
      if 255 ≤ nameLen + (1 + len.toNat) then none
      else
        let (labels, e) ← expandLoop message fuel (cursor + 1 + len.toNat) stop jumps (nameLen + (1 + len.toNat))
        some (label :: labels, e)

/-- The expanded name at an offset: its labels and the offset after it. -/
def expand (message : Bytes) (start : Nat) : Option (List Bytes × Nat) :=
  expandLoop message walkFuel start none 0 0

/-- A visitor of the walk is a fold over the expanded labels. -/
theorem walkLoop_eq_expand {σ : Type} (m : Bytes) (visit : σ → Bytes → σ) :
    ∀ (fuel : Nat) (s : σ) (cursor : Nat) (stop : Option Nat) (jumps nameLen : Nat),
      walkLoop m visit fuel s cursor stop jumps nameLen =
        (expandLoop m fuel cursor stop jumps nameLen).map fun p => (p.1.foldl visit s, p.2)
  | 0, _, _, _, _, _ => rfl
  | fuel + 1, s, cursor, stop, jumps, nameLen => by
    simp only [walkLoop, expandLoop, Option.bind_eq_bind]
    cases m[cursor]? with
    | none => rfl
    | some len =>
      simp only [Option.bind_some]
      split
      · cases m[cursor + 1]? with
        | none => rfl
        | some next =>
          simp only [Option.bind_some]
          split
          · rfl
          · exact walkLoop_eq_expand m visit fuel ..
      · split
        · rfl
        · split
          · rfl
          · cases slice m cursor (cursor + 1 + len.toNat) with
            | none => rfl
            | some label =>
              simp only [Option.bind_some]
              split
              · rfl
              · rw [walkLoop_eq_expand m visit fuel]
                cases expandLoop m fuel (cursor + 1 + len.toNat) stop jumps (nameLen + (1 + len.toNat)) <;> rfl

theorem walkName_eq {σ : Type} (m : Bytes) (start : Nat) (visit : σ → Bytes → σ) (s : σ) :
    walkName m start visit s = (expand m start).map fun p => (p.1.foldl visit s, p.2) :=
  walkLoop_eq_expand m visit walkFuel s start none 0 0

theorem skipName_eq (m : Bytes) (start : Nat) : skipName m start = (expand m start).map (·.2) := by
  unfold skipName
  rw [walkName_eq, Option.map_map]
  rfl

theorem foldl_append_flatten (ls : List Bytes) (acc : Bytes) :
    ls.foldl (fun name label => name ++ label) acc = acc ++ ls.flatten := by
  induction ls generalizing acc with
  | nil => simp
  | cons l ls ih => rw [List.foldl_cons, ih, List.flatten_cons, List.append_assoc]

theorem readName_eq (m : Bytes) (start : Nat) :
    readName m start = (expand m start).map fun p => (lowerAll p.1.flatten, p.2) := by
  unfold readName
  rw [walkName_eq]
  cases expand m start with
  | none => rfl
  | some p => simp [foldl_append_flatten]

/-! ## One pass of the walk -/

/-- What a pass of the walk that leads to a name can be: a jump, the root label, or a label. -/
theorem expandLoop_cases {m : Bytes} {fuel cursor jumps nameLen : Nat} {stop : Option Nat} {ls : List Bytes} {e : Nat}
    (h : expandLoop m (fuel + 1) cursor stop jumps nameLen = some (ls, e)) :
    (∃ len next, m[cursor]? = some len ∧ len &&& 0xc0 = 0xc0 ∧ m[cursor + 1]? = some next ∧
      ((len &&& 0x3f).toNat <<< 8) ||| next.toNat < m.length ∧ jumps < 128 ∧
      expandLoop m fuel (((len &&& 0x3f).toNat <<< 8) ||| next.toNat) (some (stop.getD (cursor + 2)))
        (jumps + 1) nameLen = some (ls, e)) ∨
    (m[cursor]? = some 0 ∧ ls = [[0]] ∧ e = stop.getD (cursor + 1)) ∨
    (∃ len label ls', m[cursor]? = some len ∧ ¬ len &&& 0xc0 = 0xc0 ∧ len &&& 0xc0 = 0 ∧ len ≤ 63 ∧ len ≠ 0 ∧
      slice m cursor (cursor + 1 + len.toNat) = some label ∧ nameLen + (1 + len.toNat) < 255 ∧ ls = label :: ls' ∧
      expandLoop m fuel (cursor + 1 + len.toNat) stop jumps (nameLen + (1 + len.toNat)) = some (ls', e)) := by
  simp only [expandLoop, Option.bind_eq_bind, Option.bind_eq_some_iff] at h
  obtain ⟨len, hlen, h⟩ := h
  split at h
  · rename_i hptr
    obtain ⟨next, hnext, h⟩ := Option.bind_eq_some_iff.1 h
    split at h
    · cases h
    · rename_i hb
      exact .inl ⟨len, next, hlen, hptr, hnext, by omega, by omega, h⟩
  · rename_i hptr
    split at h
    · cases h
    · rename_i hshort
      split at h
      · rename_i hz
        subst hz; cases h
        exact .inr (.inl ⟨hlen, rfl, rfl⟩)
      · rename_i hz
        obtain ⟨label, hlabel, h⟩ := Option.bind_eq_some_iff.1 h
        split at h
        · cases h
        · rename_i hn
          obtain ⟨p, hp, h⟩ := Option.bind_eq_some_iff.1 h
          cases h
          simp only [not_or, not_not, UInt8.not_lt] at hshort
          exact .inr (.inr ⟨len, label, p.1, hlen, hptr, hshort.1, hshort.2, hz, hlabel, by omega, rfl, hp⟩)

/-- The fuel of a walk never runs out: with one unit for each jump and each byte still allowed,
more fuel gives the same outcome. -/
theorem expandLoop_fuel (m : Bytes) :
    ∀ (fuel k cursor : Nat) (stop : Option Nat) (jumps nameLen : Nat), jumps ≤ 128 → nameLen ≤ 254 →
      (128 - jumps) + (254 - nameLen) < fuel →
      expandLoop m (fuel + k) cursor stop jumps nameLen = expandLoop m fuel cursor stop jumps nameLen
  | 0, _, _, _, _, _, _, _, h => by omega
  | fuel + 1, k, cursor, stop, jumps, nameLen, hj, hn, hf => by
    rw [show fuel + 1 + k = fuel + k + 1 by omega]
    simp only [expandLoop, Option.bind_eq_bind]
    cases m[cursor]? with
    | none => rfl
    | some len =>
      simp only [Option.bind_some]
      split
      · cases m[cursor + 1]? with
        | none => rfl
        | some next =>
          simp only [Option.bind_some]
          split
          · rfl
          · exact expandLoop_fuel m fuel k _ _ _ _ (by omega) hn (by omega)
      · split
        · rfl
        · split
          · rfl
          · cases slice m cursor (cursor + 1 + len.toNat) with
            | none => rfl
            | some label =>
              simp only [Option.bind_some]
              split
              · rfl
              · rw [expandLoop_fuel m fuel k _ _ _ _ hj (by omega) (by omega)]

/-- The fuel of `walk_name` is enough: any larger fuel gives the same outcome. -/
theorem walkLoop_fuel {σ : Type} (m : Bytes) (visit : σ → Bytes → σ) (k start : Nat) (s : σ) :
    walkLoop m visit (walkFuel + k) s start none 0 0 = walkName m start visit s := by
  unfold walkName
  rw [walkLoop_eq_expand, walkLoop_eq_expand,
    expandLoop_fuel m walkFuel k start none 0 0 (by omega) (by omega) (by unfold walkFuel; omega)]

/-! ## The offset after a name -/

/-- Once a jump was taken the offset after the name is fixed. -/
theorem expandLoop_stop {m : Bytes} {x : Nat} :
    ∀ (fuel cursor jumps nameLen : Nat) {ls : List Bytes} {e : Nat},
      expandLoop m fuel cursor (some x) jumps nameLen = some (ls, e) → e = x
  | 0, _, _, _, _, _, h => by cases h
  | fuel + 1, cursor, jumps, nameLen, ls, e, h => by
    rcases expandLoop_cases h with ⟨_, _, _, _, _, _, _, h⟩ | ⟨_, _, rfl⟩ | ⟨_, _, _, _, _, _, _, _, _, _, _, h⟩
    · exact expandLoop_stop fuel _ _ _ h
    · rfl
    · exact expandLoop_stop fuel _ _ _ h

/-- A name takes at least one byte, all inside the message. -/
theorem expandLoop_bounds {m : Bytes} :
    ∀ (fuel cursor jumps nameLen : Nat) {ls : List Bytes} {e : Nat},
      expandLoop m fuel cursor none jumps nameLen = some (ls, e) → cursor < e ∧ e ≤ m.length
  | 0, _, _, _, _, _, h => by cases h
  | fuel + 1, cursor, jumps, nameLen, ls, e, h => by
    rcases expandLoop_cases h with ⟨_, _, _, _, hn, _, _, h⟩ | ⟨h0, _, rfl⟩ | ⟨len, _, _, _, _, _, _, _, hs, _, _, h⟩
    · have := expandLoop_stop fuel _ _ _ h
      have := lt_length_of_getElem? hn
      simp only [Option.getD_none] at *; omega
    · have := lt_length_of_getElem? h0
      simp only [Option.getD_none]; omega
    · have := expandLoop_bounds fuel _ _ _ h
      omega

theorem expand_bounds {m : Bytes} {start e : Nat} {ls : List Bytes} (h : expand m start = some (ls, e)) :
    start < e ∧ e ≤ m.length :=
  expandLoop_bounds _ _ _ _ h

/-- The offset after a name depends on its local bytes only: two messages that agree from `cursor` up to
the end of the name in the first agree on where the name ends, whenever the name expands in both. -/
theorem expandLoop_local {m m' : Bytes} {fuel' jumps' nameLen' : Nat} :
    ∀ (fuel cursor jumps nameLen : Nat) {ls ls' : List Bytes} {e e' : Nat},
      expandLoop m fuel cursor none jumps nameLen = some (ls, e) →
      expandLoop m' fuel' cursor none jumps' nameLen' = some (ls', e') →
      (∀ i, cursor ≤ i → i < e → m[i]? = m'[i]?) → e' = e
  | 0, _, _, _, _, _, _, _, h, _, _ => by cases h
  | fuel + 1, cursor, jumps, nameLen, ls, ls', e, e', h, h', ha => by
    obtain _ | fuel' := fuel'
    · cases h'
    have hb := expandLoop_bounds _ _ _ _ h
    have hc : m[cursor]? = m'[cursor]? := ha cursor (Nat.le_refl _) hb.1
    rcases expandLoop_cases h with
      ⟨len, _, hl, hp, _, _, _, h⟩ | ⟨hl, _, rfl⟩ | ⟨len, _, _, hl, hp, _, _, hz, _, _, _, h⟩
    · have he := expandLoop_stop fuel _ _ _ h
      rcases expandLoop_cases h' with
        ⟨_, _, _, _, _, _, _, h'⟩ | ⟨hl', _, _⟩ | ⟨len', _, _, hl', hp', _, _, _, _, _, _, _⟩
      · rw [expandLoop_stop fuel' _ _ _ h', he]
      · rw [← hc, hl] at hl'; cases hl'; exact absurd hp (by decide)
      · rw [← hc, hl] at hl'; cases hl'; exact absurd hp hp'
    · rcases expandLoop_cases h' with
        ⟨_, _, hl', hp', _, _, _, _⟩ | ⟨_, _, rfl⟩ | ⟨len', _, _, hl', _, _, _, hz', _, _, _, _⟩
      · rw [← hc, hl] at hl'; cases hl'; exact absurd hp' (by decide)
      · rfl
      · rw [← hc, hl] at hl'; cases hl'; exact absurd rfl hz'
    · rcases expandLoop_cases h' with
        ⟨_, _, hl', hp', _, _, _, _⟩ | ⟨hl', _, _⟩ | ⟨len', _, _, hl', _, _, _, _, _, _, _, h'⟩
      · rw [← hc, hl] at hl'; cases hl'; exact absurd hp' hp
      · rw [← hc, hl] at hl'; cases hl'; exact absurd rfl hz
      · rw [← hc, hl] at hl'; cases hl'
        have hb' := expandLoop_bounds _ _ _ _ h
        exact expandLoop_local fuel _ _ _ h h' fun i h1 h2 => ha i (by omega) h2

theorem expand_local {m m' : Bytes} {start e e' : Nat} {ls ls' : List Bytes}
    (h : expand m start = some (ls, e)) (h' : expand m' start = some (ls', e'))
    (ha : ∀ i, start ≤ i → i < e → m[i]? = m'[i]?) : e' = e :=
  expandLoop_local _ _ _ _ h h' ha

/-! ## Well-formed labels -/

/-- A wire label of a name other than the root: a length byte from 1 to 63 and that many bytes. -/
structure LabelOk (l : Bytes) : Prop where
  form : ∃ n payload, l = n :: payload ∧ payload.length = n.toNat ∧ 1 ≤ n.toNat ∧ n.toNat ≤ 63

/-- A name: labels, then the root label. -/
inductive NameOk : List Bytes → Prop
  | root : NameOk [[0]]
  | cons {l : Bytes} {ls : List Bytes} : LabelOk l → NameOk ls → NameOk (l :: ls)

theorem label_ok {m label : Bytes} {cursor : Nat} {len : UInt8} (hl : m[cursor]? = some len)
    (h63 : len ≤ 63) (hz : len ≠ 0) (hs : slice m cursor (cursor + 1 + len.toNat) = some label) :
    LabelOk label ∧ label.length = 1 + len.toNat := by
  obtain ⟨-, -, -, hlen⟩ := slice_some hs
  have h0 := slice_getElem? hs (i := 0) (by omega)
  rw [Nat.add_zero, hl] at h0
  cases label with
  | nil => simp at h0
  | cons n payload =>
    simp only [List.getElem?_cons_zero, Option.some.injEq] at h0
    subst h0
    simp only [List.length_cons] at hlen ⊢
    have h1 := UInt8.le_iff_toNat_le.1 h63
    have h63' : (63 : UInt8).toNat = 63 := rfl
    have h2 : n.toNat ≠ 0 := fun h => hz (UInt8.toNat_inj.1 h)
    exact ⟨⟨n, payload, rfl, by omega, by omega, by omega⟩, by omega⟩

/-- Every expanded name is a sequence of well-formed labels of at most 255 bytes in total. -/
theorem expandLoop_ok {m : Bytes} :
    ∀ (fuel cursor : Nat) (stop : Option Nat) (jumps nameLen : Nat) {ls : List Bytes} {e : Nat}, nameLen ≤ 254 →
      expandLoop m fuel cursor stop jumps nameLen = some (ls, e) → NameOk ls ∧ nameLen + ls.flatten.length ≤ 255
  | 0, _, _, _, _, _, _, _, h => by cases h
  | fuel + 1, cursor, stop, jumps, nameLen, ls, e, hn, h => by
    rcases expandLoop_cases h with
      ⟨_, _, _, _, _, _, _, h⟩ | ⟨_, rfl, _⟩ | ⟨len, label, ls', hl, _, _, h63, hz, hs, hlt, rfl, hr⟩
    · exact expandLoop_ok fuel _ _ _ _ hn h
    · exact ⟨.root, by simp; omega⟩
    · obtain ⟨ih, hlen⟩ := expandLoop_ok fuel _ _ _ _ (by omega) hr
      obtain ⟨hok, hll⟩ := label_ok hl h63 hz hs
      refine ⟨.cons hok ih, ?_⟩
      rw [List.flatten_cons, List.length_append]; omega

theorem expand_ok {m : Bytes} {start e : Nat} {ls : List Bytes} (h : expand m start = some (ls, e)) :
    NameOk ls ∧ ls.flatten.length ≤ 255 := by
  have := expandLoop_ok _ _ _ _ _ (by omega) h
  simpa using this

theorem NameOk.ne_nil {ls : List Bytes} (h : NameOk ls) : ∀ l ∈ ls, l ≠ [] := by
  induction h with
  | root => simp
  | cons hl _ ih =>
    obtain ⟨n, payload, rfl, -⟩ := hl.form
    intro x hx
    rcases List.mem_cons.1 hx with rfl | hx
    · simp
    · exact ih x hx

/-! ## Letter case -/

/-- The labels of a name with ASCII case folded. -/
def foldCase (ls : List Bytes) : List Bytes := ls.map lowerAll

theorem lowerAll_flatten (ls : List Bytes) : lowerAll ls.flatten = (foldCase ls).flatten := by
  unfold foldCase lowerAll
  rw [List.map_flatten]

/-- Folding the case of a whole expanded name never alters a length byte and never merges two
names: names with the same folded bytes have the same folded labels. -/
theorem foldCase_eq_of_lowerAll {ls ls' : List Bytes} (h : NameOk ls) (h' : NameOk ls')
    (he : lowerAll ls.flatten = lowerAll ls'.flatten) : foldCase ls = foldCase ls' := by
  induction h generalizing ls' with
  | root =>
    cases h' with
    | root => rfl
    | cons hl hls =>
      obtain ⟨n, payload, rfl, -, h1, h2⟩ := hl.form
      simp only [List.flatten_cons, List.cons_append, lowerAll_cons, List.cons.injEq] at he
      have := lower_eq_of_lt he.1 (by omega)
      subst this; exact absurd h1 (by decide)
  | cons hl hls ih =>
    obtain ⟨n, payload, rfl, hp, h1, h2⟩ := hl.form
    cases h' with
    | root =>
      simp only [List.flatten_cons, List.cons_append, lowerAll_cons, List.cons.injEq] at he
      have := lower_eq_of_lt (b := 0) he.1 (by decide)
      subst this; exact absurd h1 (by decide)
    | cons hl' hls' =>
      obtain ⟨n', payload', rfl, hp', h1', h2'⟩ := hl'.form
      simp only [List.flatten_cons, List.cons_append, lowerAll_cons, lowerAll_append, List.cons.injEq] at he
      have hn := lower_eq_of_lt he.1 (by omega)
      subst hn
      obtain ⟨e1, e2⟩ := List.append_inj he.2 (by simp; omega)
      have := ih hls' e2
      simp only [foldCase, List.map_cons, lowerAll_cons, e1, List.cons.injEq, true_and] at this ⊢
      exact this

theorem lowerAll_flatten_inj {ls ls' : List Bytes} (h : NameOk ls) (h' : NameOk ls') :
    lowerAll ls.flatten = lowerAll ls'.flatten ↔ foldCase ls = foldCase ls' := by
  refine ⟨foldCase_eq_of_lowerAll h h', fun he => ?_⟩
  rw [lowerAll_flatten, lowerAll_flatten, he]

end DNSRivet.Wire
