/-
Byte strings: big-endian fields, range reads, in-place range writes, and agreement of two byte
strings on a set of positions. The write lemmas say what a range write changes (the bytes of the
range) and what it keeps (every other byte, and the length).
-/
import Mathlib

namespace DNSRivet.Base

/-- A byte string. -/
abbrev Bytes := List UInt8

/-! ## Slices -/

def isizeMax : Nat := 9223372036854775807

/-- A slice or a vector in memory: it has at most `isize::MAX` elements. -/
structure Slice (α : Type) where
  list : List α
  length_le : list.length ≤ isizeMax

/-! ## Big-endian fields -/

def be16 (a b : UInt8) : Nat := a.toNat * 256 + b.toNat

def be32 (a b c d : UInt8) : Nat := ((a.toNat * 256 + b.toNat) * 256 + c.toNat) * 256 + d.toNat

/-- The four bytes of `n`, most significant first. -/
def toBe32 (n : Nat) : Bytes :=
  [UInt8.ofNat (n / 256 / 256 / 256), UInt8.ofNat (n / 256 / 256), UInt8.ofNat (n / 256), UInt8.ofNat n]

@[simp] theorem toBe32_length (n : Nat) : (toBe32 n).length = 4 := rfl

theorem be32_lt (a b c d : UInt8) : be32 a b c d < 4294967296 := by
  have := a.toNat_lt; have := b.toNat_lt; have := c.toNat_lt; have := d.toNat_lt
  unfold be32; omega

theorem toBe32_be32 (a b c d : UInt8) : toBe32 (be32 a b c d) = [a, b, c, d] := by
  have := a.toNat_lt; have := b.toNat_lt; have := c.toNat_lt; have := d.toNat_lt
  simp only [toBe32, be32, List.cons.injEq, and_true, ← UInt8.toNat_inj, UInt8.toNat_ofNat']
  refine ⟨?_, ?_, ?_, ?_⟩ <;> omega

theorem be16_lt (a b : UInt8) : be16 a b < 65536 := by
  have := a.toNat_lt; have := b.toNat_lt
  unfold be16; omega

theorem be16_inj {a b c d : UInt8} (h : be16 a b = be16 c d) : a = c ∧ b = d := by
  have := a.toNat_lt; have := b.toNat_lt; have := c.toNat_lt; have := d.toNat_lt
  unfold be16 at h
  constructor <;> apply UInt8.toNat_inj.1 <;> omega

/-- Two bytes agree on the bits of a mask when their difference has none of them. -/
theorem xor_and_eq_zero {a b mask : UInt8} : (a ^^^ b) &&& mask = 0 ↔ a &&& mask = b &&& mask := by
  have hdist : (a ^^^ b) &&& mask = (a &&& mask) ^^^ (b &&& mask) := by
    apply UInt8.toNat_inj.1
    simp only [UInt8.toNat_and, UInt8.toNat_xor, Nat.and_xor_distrib_right]
  rw [hdist, UInt8.xor_eq_zero_iff]

/-- The two-byte field at `offset`. -/
def readU16 (m : Bytes) (offset : Nat) : Option Nat := do
  let a ← m[offset]?
  let b ← m[offset + 1]?
  some (be16 a b)

/-- The four-byte field at `offset`. -/
def readU32 (m : Bytes) (offset : Nat) : Option Nat := do
  let a ← m[offset]?
  let b ← m[offset + 1]?
  let c ← m[offset + 2]?
  let d ← m[offset + 3]?
  some (be32 a b c d)

theorem readU16_some {m : Bytes} {o n : Nat} (h : readU16 m o = some n) :
    ∃ a b, m[o]? = some a ∧ m[o + 1]? = some b ∧ n = be16 a b := by
  simp only [readU16, Option.bind_eq_bind, Option.bind_eq_some_iff, Option.some.injEq] at h
  obtain ⟨a, ha, b, hb, rfl⟩ := h
  exact ⟨a, b, ha, hb, rfl⟩

theorem readU32_some {m : Bytes} {o n : Nat} (h : readU32 m o = some n) :
    ∃ a b c d, m[o]? = some a ∧ m[o + 1]? = some b ∧ m[o + 2]? = some c ∧ m[o + 3]? = some d ∧
      n = be32 a b c d := by
  simp only [readU32, Option.bind_eq_bind, Option.bind_eq_some_iff, Option.some.injEq] at h
  obtain ⟨a, ha, b, hb, c, hc, d, hd, rfl⟩ := h
  exact ⟨a, b, c, d, ha, hb, hc, hd, rfl⟩

/-- The bytes of a field are those of its value. -/
theorem readU32_byte {m : Bytes} {o n k : Nat} (h : readU32 m o = some n) (hk : k < 4) : m[o + k]? =
    (toBe32 n)[k]? := by
  obtain ⟨a, b, c, d, ha, hb, hc, hd, rfl⟩ := readU32_some h
  rw [toBe32_be32]
  obtain rfl | rfl | rfl | rfl : k = 0 ∨ k = 1 ∨ k = 2 ∨ k = 3 := by omega
  · exact ha
  · exact hb
  · exact hc
  · exact hd

theorem lt_length_of_getElem? {m : Bytes} {i : Nat} {b : UInt8} (h : m[i]? = some b) : i < m.length :=
  (List.getElem?_eq_some_iff.1 h).1

theorem readU32_lt {m : Bytes} {o n : Nat} (h : readU32 m o = some n) : n < 4294967296 := by
  obtain ⟨a, b, c, d, -, -, -, -, rfl⟩ := readU32_some h
  exact be32_lt a b c d

theorem readU16_lt {m : Bytes} {o n : Nat} (h : readU16 m o = some n) : n < 65536 := by
  obtain ⟨a, b, -, -, rfl⟩ := readU16_some h
  exact be16_lt a b

theorem readU16_bound {m : Bytes} {o n : Nat} (h : readU16 m o = some n) : o + 2 ≤ m.length := by
  obtain ⟨a, b, -, hb, -⟩ := readU16_some h
  have := lt_length_of_getElem? hb; omega

theorem readU16_isSome {m : Bytes} {o : Nat} (h : o + 2 ≤ m.length) : ∃ n, readU16 m o = some n := by
  refine ⟨be16 m[o] m[o + 1], ?_⟩
  simp only [readU16, List.getElem?_eq_getElem (show o < m.length by omega),
    List.getElem?_eq_getElem (show o + 1 < m.length by omega), Option.bind_eq_bind, Option.bind_some]

theorem readU16_congr {m m' : Bytes} {o : Nat} (h0 : m[o]? = m'[o]?) (h1 : m[o + 1]? = m'[o + 1]?) :
    readU16 m o = readU16 m' o := by
  unfold readU16; rw [h0, h1]

theorem readU32_congr {m m' : Bytes} {o : Nat} (h : ∀ i, i < 4 → m[o + i]? = m'[o + i]?) :
    readU32 m o = readU32 m' o := by
  have h0 := h 0 (by omega); have h1 := h 1 (by omega); have h2 := h 2 (by omega); have h3 := h 3 (by omega)
  simp only [Nat.add_zero] at h0
  unfold readU32; rw [h0, h1, h2, h3]

/-! ## Ranges -/

/-- The bytes of `start..stop`, when the range lies inside the string. -/
def slice (m : Bytes) (start stop : Nat) : Option Bytes :=
  if start ≤ stop ∧ stop ≤ m.length then some ((m.drop start).take (stop - start)) else none

theorem slice_some {m s : Bytes} {a b : Nat} (h : slice m a b = some s) :
    a ≤ b ∧ b ≤ m.length ∧ s = (m.drop a).take (b - a) ∧ s.length = b - a := by
  unfold slice at h
  split at h
  · rename_i hab
    cases h
    refine ⟨hab.1, hab.2, rfl, ?_⟩
    rw [List.length_take, List.length_drop]; omega
  · cases h

theorem slice_getElem? {m s : Bytes} {a b i : Nat} (h : slice m a b = some s) (hi : i < b - a) :
    s[i]? = m[a + i]? := by
  obtain ⟨-, -, rfl, -⟩ := slice_some h
  rw [List.getElem?_take_of_lt hi, List.getElem?_drop]

/-- A range that reads in one string reads the same in a string with the same bytes there. -/
theorem slice_of_same {m m' s : Bytes} {a b : Nat} (h : slice m a b = some s) (hab : a < b)
    (hsame : ∀ i, a ≤ i → i < b → m[i]? = m'[i]?) : slice m' a b = some s := by
  obtain ⟨-, hb, rfl, hlen⟩ := slice_some h
  have hlast : b - 1 < m'.length := by
    have := hsame (b - 1) (by omega) (by omega)
    rw [List.getElem?_eq_getElem (show b - 1 < m.length by omega)] at this
    exact lt_length_of_getElem? this.symm
  unfold slice
  rw [if_pos ⟨by omega, by omega⟩]
  congr 1
  apply List.ext_getElem?
  intro i
  by_cases hi : i < b - a
  · rw [List.getElem?_take_of_lt hi, List.getElem?_take_of_lt hi, List.getElem?_drop, List.getElem?_drop]
    exact (hsame (a + i) (by omega) (by omega)).symm
  · rw [List.getElem?_eq_none (by rw [List.length_take]; omega),
      List.getElem?_eq_none (by rw [List.length_take]; omega)]

/-- Overwrite the bytes from `offset` on with `bs`. -/
def patch (m : Bytes) (offset : Nat) (bs : Bytes) : Bytes :=
  m.take offset ++ bs ++ m.drop (offset + bs.length)

theorem patch_length {m bs : Bytes} {o : Nat} (h : o + bs.length ≤ m.length) : (patch m o bs).length = m.length := by
  simp only [patch, List.length_append, List.length_take, List.length_drop]; omega

/-- A write changes no byte outside its range. -/
theorem patch_outside {m bs : Bytes} {o i : Nat} (h : o + bs.length ≤ m.length) (hi : i < o ∨ o + bs.length ≤ i) :
    (patch m o bs)[i]? = m[i]? := by
  unfold patch
  rcases hi with hi | hi
  · rw [List.append_assoc, List.getElem?_append_left (by rw [List.length_take]; omega), List.getElem?_take_of_lt hi]
  · have hl : (m.take o ++ bs).length = o + bs.length := by
      rw [List.length_append, List.length_take]; omega
    rw [List.getElem?_append_right (by rw [hl]; exact hi), hl, List.getElem?_drop]
    congr 1; omega

/-- A write puts its bytes into its range. -/
theorem patch_inside {m bs : Bytes} {o i : Nat} (h : o + bs.length ≤ m.length) (hi : i < bs.length) :
    (patch m o bs)[o + i]? = bs[i]? := by
  unfold patch
  have hl : (m.take o).length = o := by rw [List.length_take]; omega
  rw [List.append_assoc, List.getElem?_append_right (by omega), hl, Nat.add_sub_cancel_left,
    List.getElem?_append_left hi]

/-- A write right after a write is one write. -/
theorem patch_patch {m a b : Bytes} {o : Nat} (h : o ≤ m.length) :
    patch (patch m o a) (o + a.length) b = patch m o (a ++ b) := by
  have hl : (m.take o ++ a).length = o + a.length := by
    rw [List.length_append, List.length_take]; omega
  unfold patch
  rw [← hl, List.take_left' rfl, ← List.drop_drop, List.drop_left' rfl, List.drop_drop, hl, List.length_append]
  simp only [List.append_assoc, Nat.add_assoc]

theorem readU32_patch {m : Bytes} {o n : Nat} (h : o + 4 ≤ m.length) (hn : n < 4294967296) :
    readU32 (patch m o (toBe32 n)) o = some n := by
  have hin : ∀ i, i < 4 → (patch m o (toBe32 n))[o + i]? = (toBe32 n)[i]? :=
    fun i hi => patch_inside (by simpa using h) (by simpa using hi)
  have h0 : (patch m o (toBe32 n))[o]? = (toBe32 n)[0]? := hin 0 (by omega)
  unfold readU32
  rw [h0, hin 1 (by omega), hin 2 (by omega), hin 3 (by omega)]
  simp only [toBe32, List.getElem?_cons_zero, List.getElem?_cons_succ, Option.bind_eq_bind, Option.bind_some, be32,
    UInt8.toNat_ofNat']
  congr 1; omega

/-- The two strings have one length and the same bytes at every position in `P`. -/
structure AgreeOn (P : Nat → Prop) (m m' : Bytes) : Prop where
  length : m.length = m'.length
  byte : ∀ i, P i → m[i]? = m'[i]?

namespace AgreeOn

variable {P Q : Nat → Prop} {m m' m'' : Bytes}

theorem trans (h : AgreeOn P m m') (h' : AgreeOn P m' m'') : AgreeOn P m m'' :=
  ⟨h.length.trans h'.length, fun i hi => (h.byte i hi).trans (h'.byte i hi)⟩

theorem mono (h : AgreeOn P m m') (hq : ∀ i, Q i → P i) : AgreeOn Q m m' :=
  ⟨h.length, fun i hi => h.byte i (hq i hi)⟩

theorem readU16 (h : AgreeOn P m m') {o : Nat} (h0 : P o) (h1 : P (o + 1)) :
    Base.readU16 m o = Base.readU16 m' o :=
  readU16_congr (h.byte _ h0) (h.byte _ h1)

end AgreeOn

theorem agreeOn_patch {m bs : Bytes} {o : Nat} (h : o + bs.length ≤ m.length) :
    AgreeOn (fun i => i < o ∨ o + bs.length ≤ i) m (patch m o bs) :=
  ⟨(patch_length h).symm, fun _ hi => (patch_outside h hi).symm⟩

/-! ## ASCII case -/

/-- `to_ascii_lowercase` on one byte. -/
def lower (b : UInt8) : UInt8 := if 65 ≤ b ∧ b ≤ 90 then b + 32 else b

/-- `make_ascii_lowercase` on a byte string. -/
def lowerAll (m : Bytes) : Bytes := m.map lower

@[simp] theorem lowerAll_length (m : Bytes) : (lowerAll m).length = m.length := List.length_map ..

@[simp] theorem lowerAll_append (a b : Bytes) : lowerAll (a ++ b) = lowerAll a ++ lowerAll b := List.map_append

@[simp] theorem lowerAll_cons (b : UInt8) (m : Bytes) : lowerAll (b :: m) = lower b :: lowerAll m := rfl

@[simp] theorem lowerAll_nil : lowerAll [] = [] := rfl

/-- Bytes below `'A'` are not letters. -/
theorem lower_of_lt {b : UInt8} (h : b.toNat < 65) : lower b = b := by
  unfold lower
  rw [if_neg]
  rintro ⟨h1, -⟩
  have := UInt8.le_iff_toNat_le.1 h1
  have h65 : (65 : UInt8).toNat = 65 := rfl
  omega

/-- A byte that lower-cases to a byte below `'A'` is that byte. -/
theorem lower_eq_of_lt {a b : UInt8} (h : lower a = lower b) (hb : b.toNat < 65) : a = b := by
  rw [lower_of_lt hb] at h
  unfold lower at h
  split at h
  · rename_i hc
    have h1 := UInt8.le_iff_toNat_le.1 hc.1
    have h2 := UInt8.le_iff_toNat_le.1 hc.2
    have h65 : (65 : UInt8).toNat = 65 := rfl
    have h90 : (90 : UInt8).toNat = 90 := rfl
    have h32 : (32 : UInt8).toNat = 32 := rfl
    have := congrArg UInt8.toNat h
    rw [UInt8.toNat_add, h32] at this
    omega
  · exact h

end DNSRivet.Base
