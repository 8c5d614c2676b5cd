/-
Address literals: what `Display` writes the parser reads back, and a text that parses as an IPv6 address has
two colons at least and no brackets. The parser also reads socket addresses; their `Display` form of an
address leaves the scope out.
-/
import DNSRivet.Net.Text

namespace DNSRivet.Net

/-! ## Numerals -/

/-- `ds` is how the number `n` is written. -/
structure Numeral (radix n : Nat) (ds : List Char) : Prop where
  ne_nil : ds ≠ []
  digits : ∀ c ∈ ds, (toDigit radix c).isSome = true
  value : digitsValue radix ds = n
  head : ds.head? = some '0' → n = 0
  zero : n = 0 → ds.length = 1
  length : ∀ k, 0 < k → n < radix ^ k → ds.length ≤ k

/-- The text ends here, or goes on with something that is no digit. -/
def Stops (radix : Nat) (s : List Char) : Prop := ∀ c ∈ s.head?, toDigit radix c = none

variable {radix : Nat}

theorem toDigit_digitChar {k : Nat} (hk : k < radix) (hr : radix ≤ 16) : toDigit radix (digitChar k) = some k := by
  have h16 : ∀ k < 16, toDigit 16 (digitChar k) = some k := by decide
  have h := h16 k (by omega)
  unfold toDigit at h ⊢
  obtain ⟨hd, -⟩ := Option.filter_eq_some_iff.1 h
  exact Option.filter_eq_some_iff.2 ⟨hd, by simpa using hk⟩

theorem digitChar_ne_zero {k : Nat} (hk : k < 16) (h0 : 0 < k) : digitChar k ≠ '0' := by
  have h16 : ∀ k < 16, 0 < k → digitChar k ≠ '0' := by decide
  exact h16 k hk h0

theorem digitsValue_snoc (ds : List Char) (c : Char) :
    digitsValue radix (ds ++ [c]) = digitsValue radix ds * radix + (toDigit radix c).getD 0 := by
  simp [digitsValue]

theorem numeral_digit {n : Nat} (hn : n < radix) (hr : radix ≤ 16) : Numeral radix n [digitChar n] := by
  have hd := toDigit_digitChar hn hr
  refine ⟨by simp, by simp [hd], by simp [digitsValue, hd], fun h => ?_, by simp, fun k hk _ => hk⟩
  by_contra h0
  exact digitChar_ne_zero (by omega) (Nat.pos_of_ne_zero h0) (by simpa using h)

/-- One more digit. -/
theorem Numeral.snoc {n : Nat} {ds : List Char} (h : Numeral radix (n / radix) ds) (hn : radix ≤ n)
    (hr2 : 2 ≤ radix) (hr : radix ≤ 16) : Numeral radix n (ds ++ [digitChar (n % radix)]) := by
  have hd := toDigit_digitChar (Nat.mod_lt n (by omega : 0 < radix)) hr
  have hpos : 0 < n / radix := Nat.div_pos hn (by omega)
  refine ⟨by simp, fun c hc => ?_, ?_, fun h0 => ?_, by omega, fun k hk hlt => ?_⟩
  · rcases List.mem_append.1 hc with hc | hc
    · exact h.digits c hc
    · rw [List.mem_singleton.1 hc, hd]; rfl
  · rw [digitsValue_snoc, h.value, hd]
    exact Nat.div_add_mod' n radix
  · rw [List.head?_append_of_ne_nil _ h.ne_nil] at h0
    have := h.head h0
    omega
  · obtain ⟨k, rfl⟩ : ∃ j, k = j + 1 := ⟨k - 1, by omega⟩
    have hlt' : n / radix < radix ^ k := Nat.div_lt_of_lt_mul (by rw [pow_succ] at hlt; linarith)
    have hk : 0 < k := by
      rcases Nat.eq_zero_or_pos k with rfl | hk
      · simp only [Nat.zero_add, pow_one] at hlt
        omega
      · exact hk
    have := h.length k hk hlt'
    simpa using this

theorem digitsLoop_append (fuel n : Nat) (acc : List Char) :
    digitsLoop radix fuel n acc = digitsLoop radix fuel n [] ++ acc := by
  induction fuel generalizing n acc with
  | zero => rfl
  | succ fuel ih =>
    simp only [digitsLoop]
    split_ifs with h
    · rfl
    · rw [ih, ih _ [_], List.append_assoc, List.singleton_append]

theorem numeral_digitsLoop {fuel n : Nat} (h : n < radix ^ fuel) (hf : 0 < fuel) (hr2 : 2 ≤ radix) (hr : radix ≤ 16) :
    Numeral radix n (digitsLoop radix fuel n []) := by
  induction fuel generalizing n with
  | zero => exact absurd hf (lt_irrefl 0)
  | succ fuel ih =>
    simp only [digitsLoop]
    split_ifs with hn
    · exact numeral_digit hn hr
    · rw [digitsLoop_append]
      have hlt : n / radix < radix ^ fuel := Nat.div_lt_of_lt_mul (by rw [pow_succ] at h; linarith)
      have hfuel : 0 < fuel := by
        rcases Nat.eq_zero_or_pos fuel with rfl | hfuel
        · simp only [Nat.zero_add, pow_one] at h
          omega
        · exact hfuel
      exact (ih hlt hfuel).snoc (by omega) hr2 hr

theorem numeral_digits {n : Nat} (h : n < radix ^ 10) (hr2 : 2 ≤ radix) (hr : radix ≤ 16) :
    Numeral radix n (digits radix n) := numeral_digitsLoop h (by decide) hr2 hr

/-- The standard decimal text of a number. -/
theorem numeral_toDigits (n : Nat) : Numeral 10 n (Nat.toDigits 10 n) := by
  have hchar : ∀ k < 10, Nat.digitChar k = digitChar k := by decide
  induction n using Nat.strong_induction_on with
  | _ n ih =>
    rw [Nat.toDigits_eq_if (by decide)]
    split_ifs with hn
    · rw [hchar n hn]
      exact numeral_digit hn (by decide)
    · rw [hchar _ (Nat.mod_lt n (by decide))]
      exact (ih (n / 10) (by omega)).snoc (by omega) (by decide) (by decide)

theorem span_digits {ds rest : List Char} (hds : ∀ c ∈ ds, (toDigit radix c).isSome = true) (hrest : Stops radix rest) :
    ((ds ++ rest).takeWhile fun c => (toDigit radix c).isSome) = ds ∧
      ((ds ++ rest).dropWhile fun c => (toDigit radix c).isSome) = rest := by
  have htake : (rest.takeWhile fun c => (toDigit radix c).isSome) = [] := by
    cases rest with
    | nil => rfl
    | cons c rest => exact List.takeWhile_cons_of_neg (by simp [hrest c rfl])
  have hdrop : (rest.dropWhile fun c => (toDigit radix c).isSome) = rest := by
    cases rest with
    | nil => rfl
    | cons c rest => exact List.dropWhile_cons_of_neg (by simp [hrest c rfl])
  rw [List.takeWhile_append_of_pos hds, List.dropWhile_append_of_pos hds, htake, hdrop, List.append_nil]
  exact ⟨rfl, rfl⟩

theorem readNumber_numeral {n maxDigits limit : Nat} {allowZeroPrefix : Bool} {ds rest : List Char}
    (h : Numeral radix n ds) (hmax : ds.length ≤ maxDigits) (hlim : n ≤ limit) (hrest : Stops radix rest) :
    readNumber radix maxDigits limit allowZeroPrefix (ds ++ rest) = some (n, rest) := by
  obtain ⟨htake, hdrop⟩ := span_digits h.digits hrest
  have hlen : ds.length ≠ 0 := fun h0 => h.ne_nil (List.length_eq_zero_iff.1 h0)
  have hzero : (!allowZeroPrefix && ds.head? == some '0' && decide (1 < ds.length)) = false := by
    by_cases h0 : ds.head? = some '0'
    · simp [h.zero (h.head h0)]
    · simp [h0]
  simp only [readNumber, htake, hdrop, h.value]
  rw [if_neg (by omega), if_neg (by simp [hzero]), if_pos hlim]

/-- `str::parse` of an unsigned integer type: an optional plus sign and digits. -/
def parseUnsigned (max : Nat) (s : List Char) : Option Nat :=
  let ds := if s.head? = some '+' then s.tail else s
  if ds.isEmpty || ds.any (fun c => (toDigit 10 c).isNone) then none
  else if digitsValue 10 ds ≤ max then some (digitsValue 10 ds)
  else none

/-- The digits of a number that fits, with or without a sign. -/
theorem parseUnsigned_eq_some_iff {max n : Nat} {s : List Char} :
    parseUnsigned max s = some n ↔ ∃ ds, (s = ds ∨ s = '+' :: ds) ∧ ds ≠ [] ∧
      (∀ c ∈ ds, (toDigit 10 c).isSome = true) ∧ digitsValue 10 ds = n ∧ n ≤ max := by
  unfold parseUnsigned
  constructor
  · intro h
    dsimp only at h
    generalize hds : (if s.head? = some '+' then s.tail else s) = ds at h
    split_ifs at h with hbad hle
    simp only [Bool.or_eq_true, List.isEmpty_iff, List.any_eq_true, not_or, not_exists, not_and,
      Option.isNone_iff_eq_none] at hbad
    cases h
    refine ⟨ds, ?_, hbad.1, fun c hc => Option.isSome_iff_ne_none.2 (hbad.2 c hc), rfl, hle⟩
    split_ifs at hds with hplus
    · obtain ⟨t, rfl⟩ := List.head?_eq_some_iff.1 hplus
      exact .inr (by rw [← hds]; rfl)
    · exact .inl hds
  · rintro ⟨ds, hs, hne, hdigits, rfl, hle⟩
    have hstrip : (if s.head? = some '+' then s.tail else s) = ds := by
      rcases hs with rfl | rfl
      · refine if_neg fun hplus => ?_
        have := hdigits '+' (List.mem_of_mem_head? hplus)
        exact absurd this (by decide)
      · rfl
    have hbad : (ds.isEmpty || ds.any fun c => (toDigit 10 c).isNone) = false := by
      simp only [Bool.or_eq_false_iff, List.isEmpty_eq_false_iff, List.any_eq_false]
      exact ⟨hne, fun c hc => by simp [Option.isSome_iff_ne_none.1 (hdigits c hc)]⟩
    dsimp only
    rw [hstrip, hbad, if_neg (by simp), if_pos hle]

/-! ## What a reader takes -/

/-- The characters of address literals. -/
def LiteralChar (c : Char) : Prop := (toDigit 16 c).isSome = true ∨ c = ':' ∨ c = '.'

/-- A reader takes characters of a literal off the front and leaves the rest. -/
def Takes (s rest : List Char) : Prop := ∃ taken, s = taken ++ rest ∧ ∀ c ∈ taken, LiteralChar c

theorem Takes.refl (s : List Char) : Takes s s := ⟨[], rfl, by simp⟩

theorem Takes.trans {s t u : List Char} (h : Takes s t) (h' : Takes t u) : Takes s u := by
  obtain ⟨pre, rfl, hpre⟩ := h
  obtain ⟨mid, rfl, hmid⟩ := h'
  refine ⟨pre ++ mid, (List.append_assoc ..).symm, fun c hc => ?_⟩
  exact (List.mem_append.1 hc).elim (hpre c) (hmid c)

theorem Takes.suffix {s rest : List Char} (h : Takes s rest) : rest <:+ s := by
  obtain ⟨taken, rfl, -⟩ := h
  exact List.suffix_append taken rest

theorem readGivenChar_eq_some {target : Char} {s rest : List Char} (h : readGivenChar target s = some rest) :
    s = target :: rest := by
  cases s with
  | nil => cases h
  | cons c s =>
    obtain ⟨rfl, rfl⟩ : c = target ∧ s = rest := by simpa [readGivenChar] using h
    rfl

theorem takes_givenChar {target : Char} {s rest : List Char} (ht : LiteralChar target)
    (h : readGivenChar target s = some rest) : Takes s rest :=
  ⟨[target], readGivenChar_eq_some h, by simpa using ht⟩

theorem toDigit_mono (hr : radix ≤ 16) {c : Char} (h : (toDigit radix c).isSome = true) :
    (toDigit 16 c).isSome = true := by
  obtain ⟨d, hd⟩ := Option.isSome_iff_exists.1 h
  unfold toDigit at hd ⊢
  obtain ⟨hd, hlt⟩ := Option.filter_eq_some_iff.1 hd
  have hlt : d < 16 := lt_of_lt_of_le (by simpa using hlt) hr
  exact Option.isSome_iff_exists.2 ⟨d, Option.filter_eq_some_iff.2 ⟨hd, by simpa using hlt⟩⟩

theorem takes_number (hr : radix ≤ 16) {maxDigits limit n : Nat} {allowZeroPrefix : Bool} {s rest : List Char}
    (h : readNumber radix maxDigits limit allowZeroPrefix s = some (n, rest)) : Takes s rest := by
  unfold readNumber at h
  dsimp only at h
  split_ifs at h
  cases h
  refine ⟨_, List.takeWhile_append_dropWhile.symm, fun c hc => .inl (toDigit_mono hr ?_)⟩
  simpa using List.mem_takeWhile_imp hc

theorem takes_octet {s rest : List Char} {a : UInt8} (h : readOctet s = some (a, rest)) : Takes s rest := by
  obtain ⟨⟨v, r⟩, hr, he⟩ := Option.map_eq_some_iff.1 h
  cases he
  exact takes_number (by decide) hr

theorem takes_group {s rest : List Char} {g : UInt16} (h : readGroup s = some (g, rest)) : Takes s rest := by
  obtain ⟨⟨v, r⟩, hr, he⟩ := Option.map_eq_some_iff.1 h
  cases he
  exact takes_number (by decide) hr

theorem takes_ipv4Addr {s rest : List Char} {ip : Ipv4Addr} (h : readIpv4Addr s = some (ip, rest)) : Takes s rest := by
  have hdot : LiteralChar '.' := .inr (.inr rfl)
  simp only [readIpv4Addr, Option.bind_eq_bind, Option.bind_eq_some_iff, Prod.exists, Option.some.injEq,
    Prod.mk.injEq] at h
  obtain ⟨a, s₁, h₁, s₂, h₂, b, s₃, h₃, s₄, h₄, c, s₅, h₅, s₆, h₆, d, s₇, h₇, -, rfl⟩ := h
  exact (takes_octet h₁).trans ((takes_givenChar hdot h₂).trans ((takes_octet h₃).trans ((takes_givenChar hdot h₄).trans
    ((takes_octet h₅).trans ((takes_givenChar hdot h₆).trans (takes_octet h₇))))))

theorem takes_separator {α : Type} {index : Nat} {inner : List Char → Option (α × List Char)} {s rest : List Char}
    {a : α} (hinner : ∀ {s rest a}, inner s = some (a, rest) → Takes s rest)
    (h : readSeparator ':' index inner s = some (a, rest)) : Takes s rest := by
  unfold readSeparator at h
  split_ifs at h
  · obtain ⟨s', hs', h⟩ := Option.bind_eq_some_iff.1 h
    exact (takes_givenChar (.inr (.inl rfl)) hs').trans (hinner h)
  · exact hinner h

theorem takes_groups {n : Nat} {groups groups' : List UInt16} {s rest : List Char} {v4 : Bool}
    (h : readGroups n groups s = (groups', v4, rest)) : Takes s rest := by
  induction n generalizing groups s with
  | zero =>
    cases h
    exact Takes.refl _
  | succ n ih =>
    unfold readGroups at h
    split at h
    · rename_i ip r hv4
      cases h
      split_ifs at hv4
      exact takes_separator takes_ipv4Addr hv4
    · split at h
      · rename_i g r hg
        exact (takes_separator takes_group hg).trans (ih h)
      · cases h
        exact Takes.refl _

theorem takes_ipv6Addr {s rest : List Char} {ip : Ipv6Addr} (h : readIpv6Addr s = some (ip, rest)) : Takes s rest := by
  have hcolon : LiteralChar ':' := .inr (.inl rfl)
  unfold readIpv6Addr at h
  rcases hhead : readGroups 8 [] s with ⟨head, v4, s₁⟩
  simp only [hhead] at h
  split_ifs at h
  · obtain ⟨ip, -, he⟩ := Option.map_eq_some_iff.1 h
    cases he
    exact takes_groups hhead
  · simp only [Option.bind_eq_bind, Option.bind_eq_some_iff, Option.map_eq_some_iff, Prod.mk.injEq] at h
    obtain ⟨s₂, h₂, s₃, h₃, ip, -, -, rfl⟩ := h
    exact (takes_groups hhead).trans ((takes_givenChar hcolon h₂).trans ((takes_givenChar hcolon h₃).trans
      (takes_groups rfl)))

/-! ## Reading IPv4 addresses back -/

theorem stops_cons {c : Char} {s : List Char} (h : toDigit radix c = none) : Stops radix (c :: s) := by
  rintro _ ⟨⟩
  exact h

theorem stops_nil : Stops radix [] := by
  rintro _ ⟨⟩

theorem readOctet_digits (a : UInt8) {rest : List Char} (hrest : Stops 10 rest) :
    readOctet (digits 10 a.toNat ++ rest) = some (a, rest) := by
  have ha : a.toNat < 256 := a.toNat_lt
  have h : Numeral 10 a.toNat (digits 10 a.toNat) := numeral_digits (by omega) (by decide) (by decide)
  rw [readOctet, readNumber_numeral h (h.length 3 (by decide) (by omega)) (by omega) hrest]
  simp

theorem readIpv4Addr_chars (ip : Ipv4Addr) {rest : List Char} (hrest : Stops 10 rest) :
    readIpv4Addr (ip.chars ++ rest) = some (ip, rest) := by
  have hdot : ∀ {s}, Stops 10 ('.' :: s) := stops_cons (by decide)
  simp only [readIpv4Addr, Ipv4Addr.chars, List.append_assoc, List.cons_append, readOctet_digits _ hdot,
    readOctet_digits _ hrest, readGivenChar, if_true, Option.bind_eq_bind, Option.bind_some]

/-- The text of an IPv4 address has a dot. -/
theorem readIpv4Addr_eq_none {s : List Char} (h : '.' ∉ s) : readIpv4Addr s = none := by
  cases ho : readOctet s with
  | none => simp only [readIpv4Addr, ho, Option.bind_eq_bind, Option.bind_none]
  | some p =>
    obtain ⟨a, rest⟩ := p
    have hrest : '.' ∉ rest := fun hc => h ((takes_octet ho).suffix.subset hc)
    have hgiven : readGivenChar '.' rest = none := by
      cases rest with
      | nil => rfl
      | cons c rest => exact if_neg fun hc => hrest (by simp [hc])
    simp only [readIpv4Addr, ho, hgiven, Option.bind_eq_bind, Option.bind_some, Option.bind_none]

/-! ## Reading IPv6 addresses back -/

/-- Segments behind the first of a colon-separated part. -/
def moreSegments (ss : List UInt16) : List Char := ss.flatMap fun segment => ':' :: digits 16 segment.toNat

theorem fmtSubslice_cons (segment : UInt16) (ss : List UInt16) :
    fmtSubslice (segment :: ss) = digits 16 segment.toNat ++ moreSegments ss := by
  induction ss generalizing segment with
  | nil => simp [fmtSubslice, moreSegments]
  | cons s ss ih =>
    have h := ih s
    simp only [fmtSubslice, moreSegments, List.map_cons, List.flatMap_cons] at h ⊢
    rw [List.intersperse_cons_cons, List.flatten_cons, List.flatten_cons, h]
    simp

theorem numeral_segment (segment : UInt16) : Numeral 16 segment.toNat (digits 16 segment.toNat) := by
  have hs : segment.toNat < 65536 := segment.toNat_lt
  exact numeral_digits (by omega) (by decide) (by decide)

theorem dot_notMem_digits (segment : UInt16) : '.' ∉ digits 16 segment.toNat := by
  intro h
  have hdot := (numeral_segment segment).digits _ h
  exact absurd hdot (by decide)

theorem dot_notMem_moreSegments (ss : List UInt16) : '.' ∉ moreSegments ss := by
  simp only [moreSegments, List.mem_flatMap, not_exists, not_and]
  intro s _ h
  rcases List.mem_cons.1 h with h | h
  · exact absurd h (by decide)
  · exact dot_notMem_digits s h

theorem dot_notMem_fmtSubslice (ss : List UInt16) : '.' ∉ fmtSubslice ss := by
  cases ss with
  | nil => simp [fmtSubslice]
  | cons s ss =>
    rw [fmtSubslice_cons, List.mem_append, not_or]
    exact ⟨dot_notMem_digits s, dot_notMem_moreSegments ss⟩

theorem readGroup_digits (segment : UInt16) {rest : List Char} (hrest : Stops 16 rest) :
    readGroup (digits 16 segment.toNat ++ rest) = some (segment, rest) := by
  have hs : segment.toNat < 65536 := segment.toNat_lt
  have h := numeral_segment segment
  rw [readGroup, readNumber_numeral h (h.length 4 (by decide) (by omega)) (by omega) hrest]
  simp

theorem readGroup_colon (s : List Char) : readGroup (':' :: s) = none := by
  have h : toDigit 16 ':' = none := by decide
  simp [readGroup, readNumber, h]

/-- The groups end with the text or in front of a `::`. -/
def GroupsEnd (s : List Char) : Prop := s = [] ∨ ∃ t, s = ':' :: ':' :: t

theorem GroupsEnd.stops {s : List Char} (h : GroupsEnd s) : Stops 16 s := by
  rcases h with rfl | ⟨t, rfl⟩
  · exact stops_nil
  · exact stops_cons (by decide)

theorem stops_moreSegments (ss : List UInt16) {rest : List Char} (hrest : GroupsEnd rest) :
    Stops 16 (moreSegments ss ++ rest) := by
  cases ss with
  | nil => exact hrest.stops
  | cons => exact stops_cons (by decide)

theorem dot_notMem_groups (s : UInt16) (ss : List UInt16) {rest : List Char} (hdot : '.' ∉ rest) :
    '.' ∉ digits 16 s.toNat ++ (moreSegments ss ++ rest) := by
  simp only [List.mem_append, not_or]
  exact ⟨dot_notMem_digits s, dot_notMem_moreSegments ss, hdot⟩

theorem readIpv4Addr_colon (s : List Char) : readIpv4Addr (':' :: s) = none := by
  have h : toDigit 10 ':' = none := by decide
  simp [readIpv4Addr, readOctet, readNumber, h]

theorem readGroups_end {n : Nat} {groups : List UInt16} {s : List Char} (h : GroupsEnd s) :
    readGroups n groups s = (groups, false, s) := by
  have hempty : readGroup [] = none := by decide
  cases n with
  | zero => rfl
  | succ n =>
    unfold readGroups readSeparator
    rcases h with rfl | ⟨t, rfl⟩
    · simp [readIpv4Addr_eq_none, readGivenChar, hempty]
    · simp [readGivenChar, readIpv4Addr_colon, readGroup_colon]

/-- The groups behind the first are read one by one. -/
theorem readGroups_moreSegments {ss groups : List UInt16} {n : Nat} {rest : List Char} (hg : groups ≠ [])
    (hn : ss.length ≤ n) (hrest : GroupsEnd rest) (hdot : '.' ∉ rest) :
    readGroups n groups (moreSegments ss ++ rest) = (groups ++ ss, false, rest) := by
  induction ss generalizing n groups with
  | nil => rw [List.append_nil]; exact readGroups_end hrest
  | cons s ss ih =>
    obtain ⟨n, rfl⟩ : ∃ m, n = m + 1 := ⟨n - 1, by simp only [List.length_cons] at hn; omega⟩
    have hstop := stops_moreSegments ss hrest
    have hnodot := dot_notMem_groups s ss hdot
    have htext : moreSegments (s :: ss) ++ rest = ':' :: (digits 16 s.toNat ++ (moreSegments ss ++ rest)) := by
      simp [moreSegments]
    have hpos : 0 < groups.length := List.length_pos_iff.2 hg
    rw [htext]
    unfold readGroups
    simp only [readSeparator, if_pos hpos, readGivenChar, if_true, Option.bind_some, readIpv4Addr_eq_none hnodot,
      ite_self, readGroup_digits s hstop]
    rw [ih (by simp) (by simpa using hn), List.append_assoc, List.singleton_append]

theorem readGroups_fmtSubslice {ss : List UInt16} {n : Nat} {rest : List Char} (hn : ss.length ≤ n)
    (hrest : GroupsEnd rest) (hdot : '.' ∉ rest) :
    readGroups n [] (fmtSubslice ss ++ rest) = (ss, false, rest) := by
  cases ss with
  | nil => exact readGroups_end hrest
  | cons s ss =>
    obtain ⟨n, rfl⟩ : ∃ m, n = m + 1 := ⟨n - 1, by simp only [List.length_cons] at hn; omega⟩
    have hstop := stops_moreSegments ss hrest
    have hnodot := dot_notMem_groups s ss hdot
    rw [fmtSubslice_cons, List.append_assoc]
    unfold readGroups
    simp only [readSeparator, List.length_nil, lt_irrefl, if_false, readIpv4Addr_eq_none hnodot, ite_self,
      readGroup_digits s hstop, List.nil_append]
    exact readGroups_moreSegments (by simp) (by simpa using hn) hrest hdot

/-- The segments of the run are zero. -/
def Span.Zero (all : List UInt16) (z : Span) : Prop := ∀ j, z.start ≤ j → j < z.start + z.len → all[j]? = some 0

theorem longestZeroes_zero {all rest : List UInt16} {i : Nat} {current longest : Span} (hrest : all.drop i = rest)
    (hend : current.len ≠ 0 → current.start + current.len = i) (hc : current.Zero all) (hl : longest.Zero all) :
    (longestZeroes rest i current longest).Zero all := by
  induction rest generalizing i current longest with
  | nil => exact hl
  | cons segment rest ih =>
    have hnext : all.drop (i + 1) = rest := by rw [← List.drop_drop, hrest]; rfl
    have hi : all[i]? = some segment := by rw [← List.head?_drop, hrest]; rfl
    unfold longestZeroes
    by_cases h0 : segment = 0
    · rw [if_pos h0]
      generalize hcur : (⟨if current.len = 0 then i else current.start, current.len + 1⟩ : Span) = current'
      have hend' : current'.start + current'.len = i + 1 := by
        subst hcur
        dsimp only
        split_ifs <;> omega
      have hc' : current'.Zero all := by
        intro j hj hj'
        rcases Nat.lt_or_ge j i with hji | hji
        · subst hcur
          dsimp only at hj
          split_ifs at hj
          · omega
          · exact hc j hj (by omega)
        · obtain rfl : j = i := by omega
          rw [hi, h0]
      apply ih hnext (fun _ => hend') hc'
      split_ifs
      · exact hc'
      · exact hl
    · rw [if_neg h0]
      exact ih hnext (fun h => absurd rfl h) (fun j hj hj' => absurd hj' (by simp)) hl

/-- A run of zero segments is what `::` stands for. -/
theorem Span.Zero.split {all : List UInt16} {z : Span} (h : z.Zero all) (hpos : 0 < z.len) :
    z.start + z.len ≤ all.length ∧
      all = all.take z.start ++ List.replicate z.len 0 ++ all.drop (z.start + z.len) := by
  have hle : z.start + z.len ≤ all.length := by
    have hlast := h (z.start + z.len - 1) (by omega) (by omega)
    have := (List.getElem?_eq_some_iff.1 hlast).1
    omega
  refine ⟨hle, ?_⟩
  have hrun : (all.drop z.start).take z.len = List.replicate z.len 0 := by
    apply List.ext_getElem?
    intro j
    rcases Nat.lt_or_ge j z.len with hj | hj
    · rw [List.getElem?_take_of_lt hj, List.getElem?_drop, h _ (by omega) (by omega), List.getElem?_replicate,
        if_pos hj]
    · rw [List.getElem?_eq_none (by simp; omega), List.getElem?_eq_none (by simpa using hj)]
  conv_lhs => rw [← List.take_append_drop z.start all, ← List.take_append_drop z.len (all.drop z.start), hrun,
    List.drop_drop]
  rw [List.append_assoc]

theorem segmentOf_octets (s : UInt16) : segmentOf (Ipv6Addr.octets s).1 (Ipv6Addr.octets s).2 = s := by
  apply UInt16.toNat_inj.1
  have hs : s.toNat < 65536 := s.toNat_lt
  have h8 : UInt16.toNat 8 % 16 = 8 := rfl
  have hhi : s.toNat >>> 8 % 2 ^ 8 = s.toNat / 256 := by
    rw [Nat.shiftRight_eq_div_pow]
    exact Nat.mod_eq_of_lt (by omega)
  have hshift : (s.toNat / 256) <<< 8 % 2 ^ 16 = (s.toNat / 256) <<< 8 := by
    rw [Nat.shiftLeft_eq]
    exact Nat.mod_eq_of_lt (by omega)
  simp only [segmentOf, Ipv6Addr.octets, UInt16.toNat_or, UInt16.toNat_shiftLeft, UInt8.toNat_toUInt16,
    UInt16.toNat_toUInt8, UInt16.toNat_shiftRight, h8, hhi, hshift]
  rw [← Nat.shiftLeft_add_eq_or_of_lt (Nat.mod_lt _ (by decide)), Nat.shiftLeft_eq]
  exact Nat.div_add_mod' s.toNat 256

/-- The groups of an IPv4-mapped address: the embedded IPv4 address makes the last two. -/
theorem readGroups_mapped (mapped : Ipv4Addr) :
    readGroups 7 [] (['f', 'f', 'f', 'f', ':'] ++ mapped.chars) =
      ([0xffff, segmentOf mapped.a mapped.b, segmentOf mapped.c mapped.d], true, []) := by
  have hip : readIpv4Addr (['f', 'f', 'f', 'f', ':'] ++ mapped.chars) = none := by
    have h : toDigit 10 'f' = none := by decide
    simp [readIpv4Addr, readOctet, readNumber, h]
  have hgroup : readGroup (['f', 'f', 'f', 'f', ':'] ++ mapped.chars) = some (0xffff, ':' :: mapped.chars) :=
    readGroup_digits 0xffff (stops_cons (by decide))
  have hrest : readIpv4Addr mapped.chars = some (mapped, []) := by
    simpa only [List.append_nil] using readIpv4Addr_chars mapped stops_nil
  rw [readGroups]
  simp only [readSeparator, List.length_nil, lt_irrefl, if_false, hip, ite_self, hgroup]
  rw [readGroups]
  simp [readSeparator, readGivenChar, hrest]

theorem readIpv6Addr_chars (ip : Ipv6Addr) : readIpv6Addr ip.chars = some (ip, []) := by
  have hlen := ip.length_eq
  have hof : Ipv6Addr.ofSegments ip.segments = some ip := by simp [Ipv6Addr.ofSegments, hlen]
  unfold Ipv6Addr.chars
  cases hm : ip.toIpv4Mapped with
  | some mapped =>
    obtain ⟨g, h, hs⟩ := toIpv4Mapped_segments hm
    obtain rfl : mapped = ⟨(Ipv6Addr.octets g).1, (Ipv6Addr.octets g).2, (Ipv6Addr.octets h).1,
      (Ipv6Addr.octets h).2⟩ := by
      simpa [Ipv6Addr.toIpv4Mapped, hs] using hm.symm
    have hend : GroupsEnd ([':', ':', 'f', 'f', 'f', 'f', ':'] ++ Ipv4Addr.chars ⟨(Ipv6Addr.octets g).1,
        (Ipv6Addr.octets g).2, (Ipv6Addr.octets h).1, (Ipv6Addr.octets h).2⟩) := .inr ⟨_, rfl⟩
    have htail := readGroups_mapped ⟨(Ipv6Addr.octets g).1, (Ipv6Addr.octets g).2, (Ipv6Addr.octets h).1,
      (Ipv6Addr.octets h).2⟩
    simp only [segmentOf_octets] at htail
    unfold readIpv6Addr
    simp only [readGroups_end hend]
    simp only [List.cons_append, List.nil_append] at htail ⊢
    simp [readGivenChar, htail, ← hs, hof]
  | none =>
    dsimp only
    have hz : (longestZeroes ip.segments 0 ⟨0, 0⟩ ⟨0, 0⟩).Zero ip.segments :=
      longestZeroes_zero rfl (fun h => absurd rfl h) (fun j _ hj => absurd hj (by simp)) fun j _ hj =>
        absurd hj (by simp)
    generalize longestZeroes ip.segments 0 ⟨0, 0⟩ ⟨0, 0⟩ = z at hz
    split_ifs with hz1
    · -- the groups in front of `::`, then those behind it
      obtain ⟨hle, hsplit⟩ := hz.split (by omega)
      have hhead : readGroups 8 [] (fmtSubslice (ip.segments.take z.start) ++ [':', ':'] ++
          fmtSubslice (ip.segments.drop (z.start + z.len))) =
          (ip.segments.take z.start, false, ':' :: ':' :: fmtSubslice (ip.segments.drop (z.start + z.len))) := by
        rw [List.append_assoc]
        apply readGroups_fmtSubslice
        · simp; omega
        · exact .inr ⟨_, rfl⟩
        · simpa using dot_notMem_fmtSubslice _
      have htail : readGroups (8 - ((ip.segments.take z.start).length + 1)) []
          (fmtSubslice (ip.segments.drop (z.start + z.len)) ++ []) = (ip.segments.drop (z.start + z.len), false, []) :=
        readGroups_fmtSubslice (by simp; omega) (.inl rfl) (by simp)
      rw [List.append_nil] at htail
      have hgap : 8 - (ip.segments.take z.start).length - (ip.segments.drop (z.start + z.len)).length = z.len := by
        simp only [List.length_take, List.length_drop, hlen] at *
        omega
      unfold readIpv6Addr
      simp only [hhead, htail, readGivenChar, if_true, Option.bind_eq_bind, Option.bind_some, hgap, ← hsplit, hof]
      rw [if_neg (by simp; omega)]
      simp
    · have h : readGroups 8 [] (fmtSubslice ip.segments ++ []) = (ip.segments, false, []) :=
        readGroups_fmtSubslice (by omega) (.inl rfl) (by simp)
      rw [List.append_nil] at h
      unfold readIpv6Addr
      simp only [h, hlen, if_true, hof, Option.map_some]

/-- `str::parse` reads back what `Display` writes. -/
theorem parseIpAddr_display (ip : IpAddr) : parseIpAddr ip.display = some ip := by
  cases ip with
  | v4 ip =>
    have h : readIpv4Addr ip.chars = some (ip, []) := by
      simpa only [List.append_nil] using readIpv4Addr_chars ip stops_nil
    simp [parseIpAddr, parseWith, IpAddr.display, readIpAddr, h]
  | v6 ip =>
    have h4 : readIpv4Addr ip.chars = none := by
      unfold Ipv6Addr.chars
      cases ip.toIpv4Mapped with
      | some mapped => exact readIpv4Addr_colon _
      | none =>
        dsimp only
        split_ifs
        · exact readIpv4Addr_eq_none (by simp [dot_notMem_fmtSubslice])
        · exact readIpv4Addr_eq_none (dot_notMem_fmtSubslice _)
    simp [parseIpAddr, parseWith, IpAddr.display, readIpAddr, h4, readIpv6Addr_chars]

/-! ## The text of an IPv6 literal -/

/-- Every group behind the first costs a colon, the two of an embedded IPv4 address apart. -/
theorem readGroups_colons {n : Nat} {groups groups' : List UInt16} {s rest : List Char} {v4 : Bool}
    (h : readGroups n groups s = (groups', v4, rest)) (hg : groups ≠ []) :
    groups'.length ≤ groups.length + s.count ':' + 2 := by
  induction n generalizing groups s with
  | zero => cases h; omega
  | succ n ih =>
    unfold readGroups at h
    split at h
    · cases h
      simp only [List.length_append, List.length_cons, List.length_nil]
      omega
    · split at h
      · rename_i g r hread
        have hcount : r.count ':' < s.count ':' := by
          rw [readSeparator, if_pos (List.length_pos_iff.2 hg)] at hread
          obtain ⟨s', hs', hread⟩ := Option.bind_eq_some_iff.1 hread
          have := (takes_group hread).suffix.sublist.count_le ':'
          rw [readGivenChar_eq_some hs', List.count_cons_self]
          omega
        have := ih h (by simp)
        simp only [List.length_append, List.length_cons, List.length_nil] at this
        omega
      · cases h; omega

theorem readIpv6Addr_colons {s rest : List Char} {ip : Ipv6Addr} (h : readIpv6Addr s = some (ip, rest)) :
    2 ≤ s.count ':' := by
  unfold readIpv6Addr at h
  rcases hhead : readGroups 8 [] s with ⟨head, v4, s₁⟩
  simp only [hhead] at h
  split_ifs at h with h8
  · -- eight groups
    unfold readGroups at hhead
    split at hhead
    · cases hhead
      simp at h8
    · split at hhead
      · rename_i g r hread
        have hcolons := readGroups_colons hhead (by simp)
        have := (takes_separator takes_group hread).suffix.sublist.count_le ':'
        simp only [List.nil_append, List.length_cons, List.length_nil] at hcolons
        omega
      · cases hhead
        simp at h8
  · -- a `::`
    simp only [Option.bind_eq_bind, Option.bind_eq_some_iff] at h
    obtain ⟨s₂, h₂, s₃, h₃, -⟩ := h
    have hcount := (takes_groups hhead).suffix.sublist.count_le ':'
    rw [readGivenChar_eq_some h₂, readGivenChar_eq_some h₃, List.count_cons_self, List.count_cons_self] at hcount
    omega

/-- A text that the parser takes for an IPv6 address. -/
def IsIpv6 (s : List Char) : Prop := ∃ ip, readIpv6Addr s = some (ip, [])

theorem IsIpv6.literalChar {s : List Char} (h : IsIpv6 s) : ∀ c ∈ s, LiteralChar c := by
  obtain ⟨ip, h⟩ := h
  obtain ⟨taken, htaken, hchars⟩ := takes_ipv6Addr h
  rw [List.append_nil] at htaken
  exact htaken ▸ hchars

theorem IsIpv6.colons {s : List Char} (h : IsIpv6 s) : 2 ≤ s.count ':' := by
  obtain ⟨ip, h⟩ := h
  exact readIpv6Addr_colons h

/-! ## Socket addresses -/

/-- `read_number` without a limit on the digits. -/
def readUnlimited (limit : Nat) (s : List Char) : Option (Nat × List Char) := readNumber 10 s.length limit true s

def readPort (s : List Char) : Option (Nat × List Char) := (readGivenChar ':' s).bind (readUnlimited 65535)

def readScopeId (s : List Char) : Option (Nat × List Char) := (readGivenChar '%' s).bind (readUnlimited 4294967295)

def readSocketAddrV4 (s : List Char) : Option (SocketAddr × List Char) := do
  let (ip, s) ← readIpv4Addr s
  let (port, s) ← readPort s
  some (.v4 ip port, s)

def readSocketAddrV6 (s : List Char) : Option (SocketAddr × List Char) := do
  let s ← readGivenChar '[' s
  let (ip, s) ← readIpv6Addr s
  let (scopeId, s) := (readScopeId s).getD (0, s)
  let s ← readGivenChar ']' s
  let (port, s) ← readPort s
  some (.v6 ip port 0 scopeId, s)

def readSocketAddr (s : List Char) : Option (SocketAddr × List Char) := (readSocketAddrV4 s).or (readSocketAddrV6 s)

/-- `str::parse::<SocketAddr>`. -/
def parseSocketAddr (s : String) : Option SocketAddr := parseWith readSocketAddr s

def SocketAddr.scopeId : SocketAddr → Nat
  | .v4 _ _ => 0
  | .v6 _ _ _ scopeId => scopeId

theorem readPort_le {s rest : List Char} {port : Nat} (h : readPort s = some (port, rest)) : port ≤ 65535 := by
  obtain ⟨s', -, h⟩ := Option.bind_eq_some_iff.1 h
  simp only [readUnlimited, readNumber] at h
  split_ifs at h with _ _ hle
  cases h
  exact hle

/-- An address that was parsed is its IP address and its port, the scope apart. -/
theorem parseSocketAddr_ok {s : String} {addr : SocketAddr} (h : parseSocketAddr s = some addr) :
    addr.port ≤ 65535 ∧ (SocketAddr.new addr.ip addr.port = addr ↔ addr.scopeId = 0) := by
  simp only [parseSocketAddr, parseWith, Option.bind_eq_bind, Option.bind_eq_some_iff, Prod.exists] at h
  obtain ⟨addr, rest, hread, h⟩ := h
  split_ifs at h
  cases h
  rcases Option.or_eq_some_iff.1 hread with h4 | ⟨-, h6⟩
  · simp only [readSocketAddrV4, Option.bind_eq_bind, Option.bind_eq_some_iff, Prod.exists, Option.some.injEq,
      Prod.mk.injEq] at h4
    obtain ⟨ip, s₁, -, port, s₂, hport, rfl, -⟩ := h4
    exact ⟨readPort_le hport, by simp [SocketAddr.new, SocketAddr.ip, SocketAddr.port, SocketAddr.scopeId]⟩
  · simp only [readSocketAddrV6, Option.bind_eq_bind, Option.bind_eq_some_iff, Prod.exists, Option.some.injEq,
      Prod.mk.injEq] at h6
    obtain ⟨s₁, -, ip, s₂, -, s₃, -, port, s₄, hport, rfl, -⟩ := h6
    refine ⟨readPort_le hport, ?_⟩
    simp [SocketAddr.new, SocketAddr.ip, SocketAddr.port, SocketAddr.scopeId, eq_comm]

example : parseSocketAddr "[fe80::1%7]:53" = (parseIpv6Addr "fe80::1").map fun ip => .v6 ip 53 0 7 := by decide +kernel

end DNSRivet.Net
