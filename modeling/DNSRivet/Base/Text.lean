/-
Cutting a text at a separator. A text is a list of characters.
-/
import Mathlib

namespace DNSRivet.Base

/-- `split_once`: the parts around the first `sep`. -/
def splitOnce (sep : Char) (s : List Char) : Option (List Char × List Char) :=
  match s.dropWhile (· ≠ sep) with
  | _ :: after => some (s.takeWhile (· ≠ sep), after)
  | [] => none

/-- `split_once` with a text in between. -/
def splitOnceText (sep : List Char) : List Char → Option (List Char × List Char)
  | [] => none
  | c :: s =>
    if sep.isPrefixOf (c :: s) then some ([], (c :: s).drop sep.length)
    else (splitOnceText sep s).map fun p => (c :: p.1, p.2)

variable {sep : Char} {s before after : List Char}

theorem splitOnce_append (h : sep ∉ before) : splitOnce sep (before ++ sep :: after) = some (before, after) := by
  have hb : ∀ c ∈ before, decide (c ≠ sep) = true := by
    intro c hc
    simpa using fun he : c = sep => h (he ▸ hc)
  rw [splitOnce, List.dropWhile_append_of_pos hb, List.takeWhile_append_of_pos hb,
    List.dropWhile_cons_of_neg (by simp), List.takeWhile_cons_of_neg (by simp), List.append_nil]

theorem splitOnce_eq_some_iff : splitOnce sep s = some (before, after) ↔ s = before ++ sep :: after ∧ sep ∉ before := by
  refine ⟨fun h => ?_, fun ⟨hs, hb⟩ => hs ▸ splitOnce_append hb⟩
  unfold splitOnce at h
  split at h
  · rename_i c rest hdrop
    cases h
    have hc : c = sep := by
      have := List.head?_dropWhile_not (fun x => decide (x ≠ sep)) s
      rw [hdrop] at this
      simpa using this
    subst hc
    refine ⟨?_, fun hmem => by simpa using List.mem_takeWhile_imp hmem⟩
    rw [← hdrop, List.takeWhile_append_dropWhile]
  · cases h

theorem splitOnce_eq_none_iff : splitOnce sep s = none ↔ sep ∉ s := by
  constructor
  · intro h hmem
    obtain ⟨before, after, rfl, hb⟩ := List.eq_append_cons_of_mem hmem
    rw [splitOnce_append hb] at h
    cases h
  · intro h
    cases hs : splitOnce sep s with
    | none => rfl
    | some p =>
      obtain ⟨hs, -⟩ := splitOnce_eq_some_iff.1 hs
      exact absurd (by rw [hs]; simp) h

end DNSRivet.Base
