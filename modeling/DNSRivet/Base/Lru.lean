/-
A bounded map that forgets its least recently used key. The interface states what its user relies
on: the value under a key is the last one put or written there, and an entry disappears only when
it is popped or a `put` makes room. `Lru.list` is the implementation by a list, most recent first.
-/
import Mathlib

namespace DNSRivet.Base

/-- An LRU map from `K` to `V`, with the laws of its operations in terms of `peek`, the value under
a key. `getMut` gives the value under a key and what writing a new value there leads to. -/
structure Lru (K V : Type) where
  Carrier : Type
  new : Nat → Carrier
  peek : Carrier → K → Option V
  getMut : Carrier → K → Option (V × (V → Carrier))
  pop : Carrier → K → Carrier
  put : Carrier → K → V → Carrier
  peek_new : ∀ n k, peek (new n) k = none
  getMut_none : ∀ c k, getMut c k = none ↔ peek c k = none
  getMut_some : ∀ c k v write, getMut c k = some (v, write) →
    peek c k = some v ∧ ∀ w, peek (write w) k = some w ∧ ∀ k', k' ≠ k → peek (write w) k' = peek c k'
  peek_pop : ∀ c k, peek (pop c k) k = none ∧ ∀ k', k' ≠ k → peek (pop c k) k' = peek c k'
  peek_put : ∀ c k v, (∀ w, peek (put c k v) k = some w → w = v) ∧
    ∀ k' w, k' ≠ k → peek (put c k v) k' = some w → peek c k' = some w

/-! ## The list implementation -/

variable {K V : Type} [DecidableEq K]

/-- The entries, most recently used first, and how many may be kept. -/
structure LruList (K V : Type) where
  entries : List (K × V)
  capacity : Nat

namespace LruList

/-- The entries under other keys. -/
def others (es : List (K × V)) (k : K) : List (K × V) := es.filter fun p => p.1 ≠ k

theorem lookup_others_self (es : List (K × V)) (k : K) : (others es k).lookup k = none := by
  rw [List.lookup_eq_none_iff]
  rintro p hp
  have := (List.mem_filter.1 hp).2
  simp only [ne_eq, decide_not, Bool.not_eq_true', decide_eq_false_iff_not] at this
  exact bne_iff_ne.2 fun h => this h.symm

theorem lookup_others (es : List (K × V)) {k k' : K} (h : k' ≠ k) : (others es k).lookup k' = es.lookup k' := by
  induction es with
  | nil => rfl
  | cons p es ih =>
    obtain ⟨a, v⟩ := p
    unfold others at ih ⊢
    by_cases ha : a = k
    · have hk : (k' == a) = false := beq_eq_false_iff_ne.2 fun he => h (he.trans ha)
      rw [List.filter_cons_of_neg (by simpa using ha), List.lookup_cons, hk, ih]
    · rw [List.filter_cons_of_pos (by simpa using ha), List.lookup_cons, List.lookup_cons, ih]

/-- A value found among the first entries is the one found among all. -/
theorem lookup_take {n : Nat} {k : K} {v : V} :
    ∀ {es : List (K × V)}, (es.take n).lookup k = some v → es.lookup k = some v := by
  induction n with
  | zero => intro es h; cases es <;> cases h
  | succ n ih =>
    intro es h
    cases es with
    | nil => cases h
    | cons p es =>
      rw [List.take_succ_cons, List.lookup_cons] at h
      rw [List.lookup_cons]
      split at h
      · exact h
      · exact ih h

end LruList

open LruList in
/-- An LRU map kept as a list, most recently used first. -/
def Lru.list (K V : Type) [DecidableEq K] : Lru K V where
  Carrier := LruList K V
  new := fun n => ⟨[], n⟩
  peek := fun c k => c.entries.lookup k
  getMut := fun c k => (c.entries.lookup k).map fun v => (v, fun w => ⟨(k, w) :: others c.entries k, c.capacity⟩)
  pop := fun c k => ⟨others c.entries k, c.capacity⟩
  put := fun c k v => ⟨((k, v) :: others c.entries k).take c.capacity, c.capacity⟩
  peek_new := fun _ _ => rfl
  getMut_none := fun c k => Option.map_eq_none_iff
  getMut_some := by
    intro c k v write h
    obtain ⟨v', hv, h⟩ := Option.map_eq_some_iff.1 h
    cases h
    refine ⟨hv, fun w => ⟨List.lookup_cons_self, fun k' hk => ?_⟩⟩
    have : (k' == k) = false := beq_eq_false_iff_ne.2 hk
    rw [List.lookup_cons, this]
    exact lookup_others _ hk
  peek_pop := fun c k => ⟨lookup_others_self _ _, fun _ hk => lookup_others _ hk⟩
  peek_put := by
    intro c k v
    constructor
    · intro w h
      have := lookup_take h
      rw [List.lookup_cons_self] at this
      exact (Option.some.inj this).symm
    · intro k' w hk h
      have h' := lookup_take h
      have : (k' == k) = false := beq_eq_false_iff_ne.2 hk
      rw [List.lookup_cons, this, lookup_others _ hk] at h'
      exact h'

end DNSRivet.Base
