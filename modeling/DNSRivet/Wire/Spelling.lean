/-
Which bytes spell a name. `uses` lists the offsets that the walk of a name reads and what each byte is to
it: a length, a part of a pointer, a letter. A message with the same bytes there, letters up to ASCII case,
has the same name (`expandLoop_spelled`); a message with the same name has the same bytes there unless a
changed byte sends the walk elsewhere (`spelled_or_redirected`). For an edit that is known offset by offset
this decides what becomes of the question's name from the message before the edit alone
(`questionName_edited`).
-/
import DNSRivet.Wire.Question

namespace DNSRivet.Wire

open DNSRivet.Base

variable {m m' : Bytes}

/-! ## The bytes a walk reads -/

/-- What a byte is to the walk that reads it. -/
inductive Use
  | length
  | pointer
  | letter
deriving DecidableEq, Repr

/-- The offsets the walk reads from `cursor` on, in order. -/
def usesLoop (message : Bytes) : Nat → Nat → List (Nat × Use)
  | 0, _ => []
  | fuel + 1, cursor =>
    let len := byteAt message cursor
    if len &&& 0xc0 = 0xc0 then
      let pointer := ((len &&& 0x3f).toNat <<< 8) ||| (byteAt message (cursor + 1)).toNat
      (cursor, .pointer) :: (cursor + 1, .pointer) :: usesLoop message fuel pointer
    else if len = 0 then [(cursor, .length)]
    else
      (cursor, .length) :: (List.range len.toNat).map (fun i => (cursor + 1 + i, .letter)) ++
        usesLoop message fuel (cursor + 1 + len.toNat)

/-- The offsets that spell the name at `start`. -/
def uses (message : Bytes) (start : Nat) : List (Nat × Use) := usesLoop message walkFuel start

/-- Two bytes are the same to a walk: equal, or letters that differ in ASCII case only. -/
def Use.Same : Use → UInt8 → UInt8 → Prop
  | .letter, b, b' => lower b = lower b'
  | _, b, b' => b = b'

/-- The second byte in place of the first sends the walk elsewhere: it changes a pointer, or makes a
length one. -/
def Use.Redirects : Use → UInt8 → UInt8 → Prop
  | .length, b, b' => b ≠ b' ∧ b' &&& 0xc0 = 0xc0
  | .pointer, b, b' => b ≠ b'
  | .letter, _, _ => False

instance (u : Use) (b b' : UInt8) : Decidable (u.Same b b') := by
  cases u <;> exact inferInstanceAs (Decidable (_ = _))

@[simp] theorem Use.same_refl (u : Use) (b : UInt8) : u.Same b b := by cases u <;> rfl

@[simp] theorem Use.not_redirects_self (u : Use) (b : UInt8) : ¬ u.Redirects b b := by
  cases u <;> simp [Use.Redirects]

/-- The second message has at the offset a byte that is the same to the walk. -/
def Spelled (m m' : Bytes) (p : Nat × Use) : Prop := ∃ b b', m[p.1]? = some b ∧ m'[p.1]? = some b' ∧ p.2.Same b b'

/-- The second message has at the offset a byte that sends the walk elsewhere. -/
def Redirected (m m' : Bytes) (p : Nat × Use) : Prop :=
  ∃ b b', m[p.1]? = some b ∧ m'[p.1]? = some b' ∧ p.2.Redirects b b'

theorem byteAt_some {i : Nat} {b : UInt8} (h : m[i]? = some b) : byteAt m i = b := by
  unfold byteAt
  rw [List.getD_eq_getElem?_getD, h]
  rfl

variable {fuel cursor : Nat} {len next : UInt8}

theorem usesLoop_pointer (hl : m[cursor]? = some len) (hp : len &&& 0xc0 = 0xc0) (hn : m[cursor + 1]? = some next) :
    usesLoop m (fuel + 1) cursor = (cursor, .pointer) :: (cursor + 1, .pointer) ::
      usesLoop m fuel (((len &&& 0x3f).toNat <<< 8) ||| next.toNat) := by
  simp only [usesLoop, byteAt_some hl, byteAt_some hn, if_pos hp]

theorem usesLoop_root (hl : m[cursor]? = some 0) : usesLoop m (fuel + 1) cursor = [(cursor, .length)] := by
  simp only [usesLoop, byteAt_some hl]
  rfl

theorem usesLoop_label (hl : m[cursor]? = some len) (hp : ¬ len &&& 0xc0 = 0xc0) (hz : len ≠ 0) :
    usesLoop m (fuel + 1) cursor = (cursor, .length) ::
      (List.range len.toNat).map (fun i => (cursor + 1 + i, .letter)) ++
      usesLoop m fuel (cursor + 1 + len.toNat) := by
  simp only [usesLoop, byteAt_some hl, if_neg hp, if_neg hz]

/-! ## Slices up to ASCII case -/

theorem slice_lowerAll (m : Bytes) (a b : Nat) : slice (lowerAll m) a b = (slice m a b).map lowerAll := by
  unfold slice
  rw [lowerAll_length]
  split
  · simp only [lowerAll, List.map_take, List.map_drop, Option.map_some]
  · rfl

/-- A label with the same length byte and the same letters, in ASCII case, reads as a label that is the same. -/
theorem label_spelled {label : Bytes} (hs : slice m cursor (cursor + 1 + len.toNat) = some label)
    (h0 : m'[cursor]? = m[cursor]?) (h : ∀ i < len.toNat, Spelled m m' (cursor + 1 + i, .letter)) :
    ∃ label', slice m' cursor (cursor + 1 + len.toNat) = some label' ∧ lowerAll label' = lowerAll label := by
  have hl : slice (lowerAll m) cursor (cursor + 1 + len.toNat) = some (lowerAll label) := by
    rw [slice_lowerAll, hs]
    rfl
  have hl' : slice (lowerAll m') cursor (cursor + 1 + len.toNat) = some (lowerAll label) := by
    refine slice_of_same hl (by omega) fun i h1 h2 => ?_
    unfold lowerAll
    rw [List.getElem?_map, List.getElem?_map]
    obtain rfl | hi : i = cursor ∨ cursor + 1 ≤ i := by omega
    · rw [h0]
    · obtain ⟨b, b', hb, hb', hsame⟩ := h (i - (cursor + 1)) (by omega)
      simp only [show cursor + 1 + (i - (cursor + 1)) = i by omega] at hb hb'
      rw [hb, hb', Option.map_some, Option.map_some, show lower b = lower b' from hsame]
  rw [slice_lowerAll] at hl'
  obtain ⟨label', hs', heq⟩ := Option.map_eq_some_iff.1 hl'
  exact ⟨label', hs', heq⟩

/-- Labels of one length that are the same in ASCII case have the same letters. -/
theorem spelled_label {label label' : Bytes} (hs : slice m cursor (cursor + 1 + len.toNat) = some label)
    (hs' : slice m' cursor (cursor + 1 + len.toNat) = some label') (heq : lowerAll label = lowerAll label') :
    ∀ i < len.toNat, Spelled m m' (cursor + 1 + i, .letter) := by
  intro i hi
  have hl : slice (lowerAll m) cursor (cursor + 1 + len.toNat) = some (lowerAll label) := by
    rw [slice_lowerAll, hs]
    rfl
  have hl' : slice (lowerAll m') cursor (cursor + 1 + len.toNat) = some (lowerAll label) := by
    rw [slice_lowerAll, hs', heq]
    rfl
  have hb := slice_getElem? hl (i := 1 + i) (by omega)
  have hb' := slice_getElem? hl' (i := 1 + i) (by omega)
  obtain ⟨-, h1, -⟩ := slice_some hs
  obtain ⟨-, h2, -⟩ := slice_some hs'
  rw [hb] at hb'
  unfold lowerAll at hb'
  rw [List.getElem?_map, List.getElem?_map, ← Nat.add_assoc, List.getElem?_eq_getElem (by omega),
    List.getElem?_eq_getElem (by omega), Option.map_some, Option.map_some, Option.some.injEq] at hb'
  exact ⟨_, _, List.getElem?_eq_getElem (by omega), List.getElem?_eq_getElem (by omega), hb'⟩

/-! ## Names spelled the same -/

/-- A byte that is no letter to the walk is there in the other message too. -/
theorem Spelled.byte {i : Nat} {u : Use} {b : UInt8} (h : Spelled m m' (i, u)) (hu : u ≠ .letter)
    (hb : m[i]? = some b) : m'[i]? = some b := by
  obtain ⟨c, c', hc, hc', hsame⟩ := h
  rw [hb] at hc
  cases hc
  cases u with
  | letter => exact absurd rfl hu
  | length => exact hc'.trans (congrArg some hsame.symm)
  | pointer => exact hc'.trans (congrArg some hsame.symm)

theorem expandLoop_inside {fuel cursor jumps nameLen : Nat} {stop : Option Nat} {r : List Bytes × Nat}
    (h : expandLoop m fuel cursor stop jumps nameLen = some r) : cursor < m.length := by
  cases fuel with
  | zero => cases h
  | succ fuel =>
    obtain ⟨ls, e⟩ := r
    rcases expandLoop_cases h with ⟨_, _, hl, _⟩ | ⟨hl, _⟩ | ⟨_, _, _, hl, _⟩ <;> exact lt_length_of_getElem? hl

/-- At a pointer a walk goes on where it points. -/
theorem expandLoop_pointer {jumps nameLen : Nat} {stop : Option Nat} {ls : List Bytes} {e : Nat}
    (h : expandLoop m (fuel + 1) cursor stop jumps nameLen = some (ls, e)) (hl : m[cursor]? = some len)
    (hp : len &&& 0xc0 = 0xc0) : ∃ next, m[cursor + 1]? = some next ∧ ∃ stop' jumps',
      expandLoop m fuel (((len &&& 0x3f).toNat <<< 8) ||| next.toNat) stop' jumps' nameLen = some (ls, e) := by
  rcases expandLoop_cases h with ⟨_, next, hl', -, hn, -, -, hr⟩ | ⟨hl', -⟩ | ⟨_, _, _, hl', hp', -⟩
  · cases hl.symm.trans hl'
    exact ⟨next, hn, _, _, hr⟩
  · cases hl.symm.trans hl'
    exact absurd hp (by decide)
  · cases hl.symm.trans hl'
    exact absurd hp hp'

/-- A message that spells a name the same reads the same name there, up to ASCII case. -/
theorem expandLoop_spelled :
    ∀ (fuel cursor : Nat) (stop : Option Nat) (jumps nameLen : Nat) {ls : List Bytes} {e : Nat},
      expandLoop m fuel cursor stop jumps nameLen = some (ls, e) →
      (∀ p ∈ usesLoop m fuel cursor, Spelled m m' p) →
      ∃ ls', expandLoop m' fuel cursor stop jumps nameLen = some (ls', e) ∧ foldCase ls' = foldCase ls
  | 0, _, _, _, _, _, _, h, _ => by cases h
  | fuel + 1, cursor, stop, jumps, nameLen, ls, e, h, hspell => by
    rcases expandLoop_cases h with
      ⟨len, next, hl, hp, hn, -, hj, h⟩ | ⟨hl, rfl, rfl⟩ | ⟨len, label, ls, hl, hp, htop, h63, hz, hs, hlt, rfl, hr⟩
    · rw [usesLoop_pointer hl hp hn] at hspell
      simp only [List.forall_mem_cons] at hspell
      obtain ⟨h0, h1, hrest⟩ := hspell
      obtain ⟨ls', hls', hfold⟩ := expandLoop_spelled fuel _ _ _ _ h hrest
      have hin := expandLoop_inside hls'
      refine ⟨ls', ?_, hfold⟩
      simp only [expandLoop, h0.byte (by decide) hl, h1.byte (by decide) hn, Option.bind_eq_bind, Option.bind_some,
        if_pos hp]
      rw [if_neg (by omega)]
      exact hls'
    · rw [usesLoop_root hl] at hspell
      refine ⟨[[0]], ?_, rfl⟩
      simp only [expandLoop, (hspell _ (List.mem_singleton_self _)).byte (by decide) hl, Option.bind_eq_bind,
        Option.bind_some]
      rfl
    · rw [usesLoop_label hl hp hz] at hspell
      simp only [List.cons_append, List.forall_mem_cons, List.forall_mem_append, List.forall_mem_map, List.mem_range]
        at hspell
      obtain ⟨h0, hletters, hrest⟩ := hspell
      have hl' := h0.byte (by decide) hl
      obtain ⟨label', hs', hlabel⟩ := label_spelled hs (hl'.trans hl.symm) hletters
      obtain ⟨ls', hls', hfold⟩ := expandLoop_spelled fuel _ _ _ _ hr hrest
      refine ⟨label' :: ls', ?_, ?_⟩
      · simp only [expandLoop, hl', hs', hls', Option.bind_eq_bind, Option.bind_some, if_neg hp, if_neg hz]
        rw [if_neg (by simpa [htop] using h63), if_neg (by omega)]
      · unfold foldCase at hfold ⊢
        rw [List.map_cons, List.map_cons, hlabel, hfold]

/-- The label of a pass and the root label never fold to the same. -/
theorem label_ne_root {label : Bytes} {n : UInt8} (hlen : label.length = 1 + n.toNat) (hz : n ≠ 0) :
    lowerAll label ≠ [0] := by
  intro h
  have := congrArg List.length h
  have hn : n.toNat ≠ 0 := fun hn => hz (UInt8.toNat_inj.1 hn)
  simp only [lowerAll_length, List.length_cons, List.length_nil] at this
  omega

/-- A message that reads the same name there, up to ASCII case, spells it the same or sends the walk
elsewhere on the way. -/
theorem spelled_or_redirected {fuel' jumps' nameLen' : Nat} {stop' : Option Nat} :
    ∀ (fuel cursor : Nat) (stop : Option Nat) (jumps nameLen : Nat) {ls ls' : List Bytes} {e e' : Nat},
      expandLoop m fuel cursor stop jumps nameLen = some (ls, e) →
      expandLoop m' fuel' cursor stop' jumps' nameLen' = some (ls', e') → foldCase ls' = foldCase ls →
      (∀ p ∈ usesLoop m fuel cursor, Spelled m m' p) ∨ ∃ p ∈ usesLoop m fuel cursor, Redirected m m' p
  | 0, _, _, _, _, _, _, _, _, h, _, _ => by cases h
  | fuel + 1, cursor, stop, jumps, nameLen, ls, ls', e, e', h, h', hfold => by
    obtain _ | fuel' := fuel'
    · cases h'
    rcases expandLoop_cases h with
      ⟨len, next, hl, hp, hn, -, -, hr⟩ | ⟨hl, rfl, -⟩ | ⟨len, label, ls, hl, hp, -, h63, hz, hs, -, rfl, hr⟩
    · rw [usesLoop_pointer hl hp hn]
      obtain ⟨len', hl'⟩ : ∃ len', m'[cursor]? = some len' :=
        ⟨_, List.getElem?_eq_getElem (expandLoop_inside h')⟩
      by_cases hsame : len = len'
      · subst hsame
        obtain ⟨next', hn', _, _, hr'⟩ := expandLoop_pointer h' hl' hp
        by_cases hnext : next = next'
        · subst hnext
          rcases spelled_or_redirected fuel _ _ _ _ hr hr' hfold with hall | ⟨p, hp, hred⟩
          · simp only [List.forall_mem_cons]
            exact .inl ⟨⟨len, len, hl, hl', rfl⟩, ⟨next, next, hn, hn', rfl⟩, hall⟩
          · exact .inr ⟨p, .tail _ (.tail _ hp), hred⟩
        · exact .inr ⟨_, .tail _ (.head _), next, next', hn, hn', hnext⟩
      · exact .inr ⟨_, .head _, len, len', hl, hl', hsame⟩
    · rw [usesLoop_root hl]
      rcases expandLoop_cases h' with
        ⟨_, _, hl', hp', _⟩ | ⟨hl', _⟩ | ⟨_, label', _, hl', _, _, h63', hz', hs', _, rfl, _⟩
      · exact .inr ⟨_, .head _, _, _, hl, hl', fun he => absurd (he ▸ hp') (by decide), hp'⟩
      · simp only [List.forall_mem_singleton]
        exact .inl ⟨0, 0, hl, hl', rfl⟩
      · simp only [foldCase, List.map_cons, List.cons.injEq] at hfold
        exact absurd hfold.1 (label_ne_root (label_ok hl' h63' hz' hs').2 hz')
    · rw [usesLoop_label hl hp hz]
      have hlen := (label_ok hl h63 hz hs).2
      rcases expandLoop_cases h' with
        ⟨_, _, hl', hp', _⟩ | ⟨_, rfl, _⟩ | ⟨len', label', ls', hl', _, _, h63', hz', hs', _, rfl, hr'⟩
      · exact .inr ⟨_, .head _, _, _, hl, hl', fun he => hp (he ▸ hp'), hp'⟩
      · simp only [foldCase, List.map_cons, List.cons.injEq] at hfold
        exact absurd hfold.1.symm (label_ne_root hlen hz)
      · have hlen' := (label_ok hl' h63' hz' hs').2
        simp only [foldCase, List.map_cons, List.cons.injEq] at hfold
        obtain rfl : len' = len := by
          have := congrArg List.length hfold.1
          simp only [lowerAll_length] at this
          exact UInt8.toNat_inj.1 (by omega)
        rcases spelled_or_redirected fuel _ _ _ _ hr hr' hfold.2 with hall | ⟨p, hp, hred⟩
        · simp only [List.cons_append, List.forall_mem_cons, List.forall_mem_append, List.forall_mem_map,
            List.mem_range]
          exact .inl ⟨⟨len', len', hl, hl', rfl⟩, spelled_label hs hs' hfold.1.symm, hall⟩
        · exact .inr ⟨p, List.mem_append_right _ hp, hred⟩

/-- A walk that ends reads inside the message. -/
theorem usesLoop_lt :
    ∀ (fuel cursor : Nat) (stop : Option Nat) (jumps nameLen : Nat) {ls : List Bytes} {e : Nat},
      expandLoop m fuel cursor stop jumps nameLen = some (ls, e) → ∀ p ∈ usesLoop m fuel cursor, p.1 < m.length
  | 0, _, _, _, _, _, _, h => by cases h
  | fuel + 1, cursor, stop, jumps, nameLen, ls, e, h => by
    rcases expandLoop_cases h with
      ⟨len, next, hl, hp, hn, -, -, hr⟩ | ⟨hl, rfl, -⟩ | ⟨len, label, ls, hl, hp, -, -, hz, hs, -, rfl, hr⟩
    · rw [usesLoop_pointer hl hp hn]
      simp only [List.forall_mem_cons]
      exact ⟨lt_length_of_getElem? hl, lt_length_of_getElem? hn, usesLoop_lt fuel _ _ _ _ hr⟩
    · rw [usesLoop_root hl]
      simp only [List.forall_mem_singleton]
      exact lt_length_of_getElem? hl
    · rw [usesLoop_label hl hp hz]
      simp only [List.cons_append, List.forall_mem_cons, List.forall_mem_append, List.forall_mem_map, List.mem_range]
      have hin := (slice_some hs).2.1
      exact ⟨lt_length_of_getElem? hl, fun i hi => by omega, usesLoop_lt fuel _ _ _ _ hr⟩

/-! ## The question's name after an edit -/

/-- `m'` is `m` up to `stop`, with the bytes that `edit` gives written over it. -/
structure Edited (edit : Nat → Option UInt8) (stop : Nat) (m m' : Bytes) : Prop where
  length : m'.length = stop
  le : stop ≤ m.length
  written : ∀ i < stop, ∀ b ∈ edit i, m'[i]? = some b
  kept : ∀ i < stop, edit i = none → m'[i]? = m[i]?

/-- The edit leaves every byte that spells the question's name the same to the walk. -/
def KeepsSpelling (edit : Nat → Option UInt8) (message : Bytes) : Prop :=
  ∀ p ∈ uses message headerLen, ∀ b ∈ edit p.1, p.2.Same (byteAt message p.1) b

/-- The edit makes a byte that spells the question's name one that sends the walk elsewhere. -/
def RedirectsSpelling (edit : Nat → Option UInt8) (message : Bytes) : Prop :=
  ∃ p ∈ uses message headerLen, ∃ b ∈ edit p.1, p.2.Redirects (byteAt message p.1) b

instance (edit : Nat → Option UInt8) (message : Bytes) : Decidable (KeepsSpelling edit message) :=
  inferInstanceAs (Decidable (∀ p ∈ uses message headerLen, ∀ b ∈ edit p.1, p.2.Same (byteAt message p.1) b))

variable {edit : Nat → Option UInt8} {stop : Nat}

theorem questionName_some (h : (questionName m).isSome) : ∃ ls e, expand m headerLen = some (ls, e) := by
  unfold questionName at h
  rw [readName_eq] at h
  cases hn : expand m headerLen with
  | none => rw [hn] at h; cases h
  | some r => exact ⟨r.1, r.2, rfl⟩

/-- The bytes that spell a name that reads lie inside the message. -/
theorem uses_lt (h : (questionName m).isSome) : ∀ p ∈ uses m headerLen, p.1 < m.length := by
  obtain ⟨ls, e, hn⟩ := questionName_some h
  exact usesLoop_lt _ _ _ _ _ hn

/-- Two messages have the same question's name when their names fold to the same labels. -/
theorem questionName_eq_iff {ls ls' : List Bytes} {e e' : Nat} (hn : expand m headerLen = some (ls, e))
    (hn' : expand m' headerLen = some (ls', e')) : questionName m' = questionName m ↔ foldCase ls' = foldCase ls := by
  simp only [questionName, readName_eq, hn, hn', Option.map_some, Option.some.injEq]
  exact lowerAll_flatten_inj (expand_ok hn').1 (expand_ok hn).1

/-- An edit that leaves the bytes that spell the question's name the same leaves its name. -/
theorem questionName_edited (h : (questionName m).isSome) (hedit : Edited edit stop m m')
    (hin : ∀ p ∈ uses m headerLen, p.1 < stop) (hkeeps : KeepsSpelling edit m) :
    questionName m' = questionName m := by
  obtain ⟨ls, e, hn⟩ := questionName_some h
  have hspell : ∀ p ∈ uses m headerLen, Spelled m m' p := by
    intro p hp
    have hb := List.getElem?_eq_getElem (uses_lt h p hp)
    cases hw : edit p.1 with
    | none => exact ⟨_, _, hb, (hedit.kept _ (hin p hp) hw).trans hb, p.2.same_refl _⟩
    | some b => exact ⟨_, b, hb, hedit.written _ (hin p hp) b hw, byteAt_some hb ▸ hkeeps p hp b hw⟩
  obtain ⟨ls', hn', hfold⟩ := expandLoop_spelled _ _ _ _ _ hn hspell
  exact (questionName_eq_iff hn hn').2 hfold

/-- An edit that leaves the question's name leaves the bytes that spell it the same, or sends its walk
elsewhere. -/
theorem keepsSpelling_of_questionName (h : (questionName m).isSome) (hedit : Edited edit stop m m')
    (hname : questionName m' = questionName m) :
    (∀ p ∈ uses m headerLen, p.1 < stop) ∧ KeepsSpelling edit m ∨ RedirectsSpelling edit m := by
  obtain ⟨ls, e, hn⟩ := questionName_some h
  obtain ⟨ls', e', hn'⟩ := questionName_some (hname ▸ h)
  rcases spelled_or_redirected _ _ _ _ _ hn hn' ((questionName_eq_iff hn hn').1 hname) with
    hall | ⟨p, hp, b, b', hb, hb', hr⟩
  · have hin : ∀ p ∈ uses m headerLen, p.1 < stop := by
      intro p hp
      obtain ⟨_, _, -, hb', -⟩ := hall p hp
      rw [← hedit.length]
      exact lt_length_of_getElem? hb'
    refine .inl ⟨hin, fun p hp b hb => ?_⟩
    obtain ⟨c, c', hc, hc', hsame⟩ := hall p hp
    rw [hedit.written _ (hin p hp) b hb] at hc'
    cases hc'
    rwa [byteAt_some hc]
  · have hlt : p.1 < stop := by
      rw [← hedit.length]
      exact lt_length_of_getElem? hb'
    cases hw : edit p.1 with
    | none =>
      -- a byte that is kept sends the walk nowhere else
      rw [hedit.kept _ hlt hw, hb] at hb'
      cases hb'
      exact absurd hr (p.2.not_redirects_self b)
    | some c =>
      rw [hedit.written _ hlt c hw] at hb'
      cases hb'
      exact .inr ⟨p, hp, _, hw, by rwa [byteAt_some hb]⟩

theorem questionName_isSome (h : (question m).isSome) : (questionName m).isSome := by
  obtain ⟨⟨labels, fields⟩, hq⟩ := Option.isSome_iff_exists.1 h
  obtain ⟨ls, e, hn, -⟩ := question_some hq
  simp only [questionName, readName_eq, hn, Option.map_some, Option.isSome_some]

/-! ## A new ID -/

/-- What setting the ID of a message writes. -/
def idBytes (id : UInt8 × UInt8) (i : Nat) : Option UInt8 := [id.1, id.2][i]?

theorem setId_edited (h : headerLen ≤ m.length) (id : UInt8 × UInt8) :
    Edited (idBytes id) m.length m (setId m id) := by
  refine ⟨setId_length h, Nat.le_refl _, fun i _ b hb => ?_, fun i _ hi => ?_⟩
  · match i, hb with
    | 0, hb => exact (setId_ident h).1.trans hb
    | 1, hb => exact (setId_ident h).2.trans hb
  · exact setId_other h (List.getElem?_eq_none_iff.1 hi)

end DNSRivet.Wire
