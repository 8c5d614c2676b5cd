/-
Paths of files, kept as their components: two paths are equal when their components are.
-/
import Mathlib

namespace DNSRivet.Base

@[ext] structure FilePath where
  absolute : Bool
  components : List String
deriving DecidableEq, Repr

namespace FilePath

def display (path : FilePath) : String :=
  (if path.absolute then "/" else "") ++ "/".intercalate path.components

/-- `Path::parent`: neither the root nor the empty path has one. -/
def parent (path : FilePath) : Option FilePath :=
  if path.components.isEmpty then none else some { path with components := path.components.dropLast }

/-- `Path::join` with one file name. -/
def join (path : FilePath) (name : String) : FilePath := { path with components := path.components ++ [name] }

/-- The path is `other` or above it. -/
def Above (path other : FilePath) : Prop := path.absolute = other.absolute ∧ path.components <+: other.components

/-- A path is not above its parent. -/
theorem not_above_parent {path dir : FilePath} (h : path.parent = some dir) : ¬ path.Above dir := by
  rintro ⟨-, hpre⟩
  unfold parent at h
  split at h
  · cases h
  · rename_i hne
    cases h
    have hlen := hpre.length_le
    rw [List.length_dropLast] at hlen
    have := List.length_pos_iff.2 (by simpa using hne : path.components ≠ [])
    omega

end FilePath

end DNSRivet.Base
