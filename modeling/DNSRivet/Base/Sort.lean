/-
Stable sorting by a key, dropping repeated neighbours, and maps as sorted lists. A stable sort keeps the
elements of one key in their order, so what neighbour deduplication leaves behind can be read off the
unsorted list.
-/
import Mathlib

namespace DNSRivet.Base

open scoped List

variable {α κ : Type} [LinearOrder κ] {key : α → κ} {l : List α}

instance totalKey : Std.Total fun a b : α => key a ≤ key b := ⟨fun a b => le_total (key a) (key b)⟩

instance transKey : IsTrans α fun a b => key a ≤ key b := ⟨fun _ _ _ => le_trans⟩

/-- A stable sort, ascending in the key. -/
def sortByKey (key : α → κ) (l : List α) : List α := l.insertionSort fun a b => key a ≤ key b

theorem sortByKey_perm (key : α → κ) (l : List α) : (sortByKey key l).Perm l := List.perm_insertionSort _ l

@[simp] theorem mem_sortByKey {a : α} : a ∈ sortByKey key l ↔ a ∈ l := (sortByKey_perm key l).mem_iff

theorem sortByKey_pairwise (key : α → κ) (l : List α) : (sortByKey key l).Pairwise fun a b => key a ≤ key b :=
  List.pairwise_insertionSort _ l

/-- The sort is stable: the elements of one key stay in their order. -/
theorem sortByKey_filter (key : α → κ) (l : List α) (k : κ) :
    (sortByKey key l).filter (key · = k) = l.filter (key · = k) := by
  have hk : (l.filter (key · = k)).Pairwise fun a b => key a ≤ key b := by
    refine List.pairwise_of_forall_mem_list fun a ha b hb => ?_
    have ha := (List.mem_filter.1 ha).2
    have hb := (List.mem_filter.1 hb).2
    simp only [decide_eq_true_eq] at ha hb
    rw [ha, hb]
  have hsub : l.filter (key · = k) <+ sortByKey key l := List.sublist_insertionSort hk List.filter_sublist
  have hsub := hsub.filter (key · = k)
  rw [List.filter_filter] at hsub
  simp only [Bool.and_self] at hsub
  exact (hsub.eq_of_length ((sortByKey_perm key l).filter _).length_eq.symm).symm

/-- A stable sort by a flag moves the flagged elements behind the others. -/
theorem sortByKey_bool (b : α → Bool) (l : List α) : sortByKey b l = l.filter (!b ·) ++ l.filter b := by
  have hsplit : ∀ {s : List α}, (s.Pairwise fun x y => b x ≤ b y) → s = s.filter (!b ·) ++ s.filter b := by
    intro s
    induction s with
    | nil => exact fun _ => rfl
    | cons x s ih =>
      intro hs
      obtain ⟨hx, hs⟩ := List.pairwise_cons.1 hs
      cases hb : b x with
      | false => simpa [List.filter_cons, hb] using ih hs
      | true =>
        have hall : ∀ y ∈ s, b y = true := fun y hy => Bool.le_iff_imp.1 (hx y hy) hb
        have hnone : s.filter (!b ·) = [] := List.filter_eq_nil_iff.2 fun y hy => by simp [hall y hy]
        simp [hb, hnone, List.filter_eq_self.2 hall]
  have htrue := sortByKey_filter b l true
  have hfalse := sortByKey_filter b l false
  simp only [Bool.decide_eq_true, Bool.decide_eq_false] at htrue hfalse
  rw [hsplit (sortByKey_pairwise b l), htrue, hfalse]

/-- A list in strict order of the key is the only one with its elements. -/
theorem sortByKey_eq {s : List α} (hp : s.Perm l) (hs : s.Pairwise fun a b => key a < key b) :
    sortByKey key l = s := by
  have : Std.Symm fun a b : α => key a ≠ key b := ⟨fun _ _ h => h.symm⟩
  have hne : s.Pairwise fun a b => key a ≠ key b := hs.imp fun h => h.ne
  have hperm := (sortByKey_perm key l).trans hp.symm
  refine hperm.eq_of_pairwise (fun a b ha hb hab hba => ?_) (sortByKey_pairwise key l) (hs.imp fun h => h.le)
  by_contra hab'
  exact hne.forall (hperm.mem_iff.1 ha) hb hab' (le_antisymm hab hba)

/-! ## Repeated neighbours -/

/-- A repeated element among differing neighbours has another one in between. -/
theorem exists_between {x : α} :
    ∀ {m : List α}, m.IsChain (· ≠ ·) → [x, x] <+ m → ∃ y, x ≠ y ∧ [x, y, x] <+ m
  | a :: m, hm, h => by
    cases h with
    | cons _ h =>
      obtain ⟨y, hne, hsub⟩ := exists_between hm.tail h
      exact ⟨y, hne, hsub.cons a⟩
    | cons_cons _ h =>
      cases m with
      | nil => cases h
      | cons b m =>
        have hne : x ≠ b := (List.isChain_cons_cons.1 hm).1
        have hx : x ∈ m := by
          rcases List.mem_cons.1 (List.singleton_sublist.1 h) with rfl | hx
          · exact absurd rfl hne
          · exact hx
        exact ⟨b, hne, ((List.singleton_sublist.2 hx).cons_cons b).cons_cons x⟩

section Dedup

variable [DecidableEq α]

/-- A list whose neighbours differ survives the deduplication of every list it is taken from. -/
theorem sublist_destutter' {s : List α} (hs : s.IsChain (· ≠ ·)) :
    ∀ {l : List α} {a : α}, s <+ a :: l → s <+ l.destutter' (· ≠ ·) a
  | [], a, h => h
  | b :: l, a, h => by
    by_cases hab : a = b
    · subst hab
      rw [List.destutter'_cons_neg _ (by simp)]
      apply sublist_destutter' hs
      cases h with
      | cons _ h => exact h
      | cons_cons _ h =>
        rename_i s
        cases h with
        | cons _ h => exact h.cons_cons a
        | cons_cons _ h => exact absurd rfl (List.isChain_cons_cons.1 hs).1
    · rw [List.destutter'_cons_pos _ hab]
      cases h with
      | cons _ h => exact (sublist_destutter' hs h).cons a
      | cons_cons _ h => exact (sublist_destutter' hs.tail h).cons_cons a

theorem sublist_destutter_iff {s : List α} (hs : s.IsChain (· ≠ ·)) : s <+ l.destutter (· ≠ ·) ↔ s <+ l := by
  refine ⟨fun h => h.trans (List.destutter_sublist _ l), fun h => ?_⟩
  cases l with
  | nil => exact h
  | cons a l => exact sublist_destutter' hs h

/-- Neighbour deduplication removes every repetition exactly when nothing comes back after something else. -/
theorem nodup_destutter_iff : (l.destutter (· ≠ ·)).Nodup ↔ ∀ x y, x ≠ y → ¬[x, y, x] <+ l := by
  constructor
  · intro hn x y hne h
    have h : [x, y, x] <+ l.destutter (· ≠ ·) := (sublist_destutter_iff (by simp [hne, hne.symm])).2 h
    exact List.nodup_iff_sublist.1 hn x ((List.Sublist.cons_cons x ((List.Sublist.refl [x]).cons y)).trans h)
  · intro hl
    refine List.nodup_iff_sublist.2 fun x hx => ?_
    obtain ⟨y, hne, h⟩ := exists_between (List.isChain_destutter _ l) hx
    exact hl x y hne (h.trans (List.destutter_sublist _ l))

/-- Sorting first only brings the elements of different keys apart: what matters is what comes back after
something else of its own key. -/
theorem nodup_destutter_sortByKey_iff :
    ((sortByKey key l).destutter (· ≠ ·)).Nodup ↔ ∀ x y, x ≠ y → key x = key y → ¬[x, y, x] <+ l := by
  have hkeep : ∀ {x y : α} {m m' : List α}, key y = key x → m.filter (key · = key x) = m'.filter (key · = key x) →
      [x, y, x] <+ m → [x, y, x] <+ m' := by
    intro x y m m' hk hm h
    have h := h.filter (key · = key x)
    rw [hm] at h
    simp only [List.filter_cons, List.filter_nil, hk, decide_true, if_true] at h
    exact h.trans List.filter_sublist
  rw [nodup_destutter_iff]
  constructor
  · intro h x y hne hk hl
    exact h x y hne (hkeep hk.symm (sortByKey_filter key l (key x)).symm hl)
  · intro h x y hne hs
    have hp := (sortByKey_pairwise key l).sublist hs
    simp only [List.pairwise_cons, List.mem_cons, List.not_mem_nil, or_false, forall_eq_or_imp, forall_eq] at hp
    have hk : key x = key y := le_antisymm hp.1.1 hp.2.1
    exact h x y hne hk (hkeep hk.symm (sortByKey_filter key l (key x)) hs)

end Dedup

/-! ## Ordered maps -/

/-- `BTreeMap::insert`, on the entries in ascending order of their keys. -/
def insertEntry {β : Type} (k : κ) (b : β) : List (κ × β) → List (κ × β)
  | [] => [(k, b)]
  | e :: map =>
    if k < e.1 then (k, b) :: e :: map
    else if k = e.1 then (k, b) :: map
    else e :: insertEntry k b map

theorem insertEntry_perm {β : Type} {k : κ} {b : β} :
    ∀ {map : List (κ × β)}, (∀ e ∈ map, e.1 ≠ k) → (insertEntry k b map).Perm ((k, b) :: map)
  | [], _ => List.Perm.refl _
  | e :: map, h => by
    obtain ⟨he, hmap⟩ := List.forall_mem_cons.1 h
    unfold insertEntry
    split_ifs with hlt heq
    · exact List.Perm.refl _
    · exact absurd heq.symm he
    · exact ((insertEntry_perm hmap).cons e).trans (List.Perm.swap ..)

end DNSRivet.Base
