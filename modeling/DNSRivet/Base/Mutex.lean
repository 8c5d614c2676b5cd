/-
A fair asynchronous mutex, seen from outside: the party that holds it and the parties that wait, in the order
in which they asked. Given back, it goes to the first of them at once, so it is free only while nobody waits.
Whatever the other parties do, the holder keeps it.
-/
import Mathlib

namespace DNSRivet.Base

structure Mutex (ι : Type) where
  holder : Option ι
  queue : List ι
  fair : holder = none → queue = []

namespace Mutex

variable {ι : Type}

def unlocked : Mutex ι := ⟨none, [], fun _ => rfl⟩

/-- Take the mutex if it is free. -/
def tryLock (m : Mutex ι) (i : ι) : Option (Mutex ι) :=
  match m.holder with
  | none => some ⟨some i, m.queue, by simp⟩
  | some _ => none

/-- Take the mutex if it is free, else wait for it behind the others. -/
def lock (m : Mutex ι) (i : ι) : Mutex ι :=
  match m.holder with
  | none => ⟨some i, m.queue, by simp⟩
  | some j => ⟨some j, m.queue ++ [i], by simp⟩

/-- Give the mutex back: it passes to the first party that waits. -/
def unlock (m : Mutex ι) : Mutex ι :=
  match m.queue with
  | [] => ⟨none, [], fun _ => rfl⟩
  | j :: rest => ⟨some j, rest, by simp⟩

/-- A party goes away: it gives the mutex back, or stops waiting for it. -/
def leave [DecidableEq ι] (m : Mutex ι) (i : ι) : Mutex ι :=
  if m.holder = some i then m.unlock else ⟨m.holder, m.queue.erase i, fun h => by rw [m.fair h]; rfl⟩

variable {m m' : Mutex ι} {i j : ι}

/-- Only a free mutex is taken. -/
theorem tryLock_some (h : m.tryLock i = some m') : m.holder = none ∧ m'.holder = some i := by
  unfold tryLock at h
  split at h
  · rename_i hfree
    cases h
    exact ⟨hfree, rfl⟩
  · cases h

/-- Asking for it takes it from nobody. -/
theorem lock_holder (h : m.holder = some j) (i : ι) : (m.lock i).holder = some j := by
  unfold lock
  rw [h]

/-- Another party that goes away leaves it where it is. -/
theorem leave_holder [DecidableEq ι] (h : m.holder = some j) (hne : i ≠ j) : (m.leave i).holder = some j := by
  unfold leave
  rw [if_neg fun hx => hne (Option.some.inj (hx.symm.trans h))]
  exact h

end Mutex

end DNSRivet.Base
