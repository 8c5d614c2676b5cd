/-
Labelled transition systems. A run lists the events of the steps taken, first one first; the
invariant rules are induction on it, with the events so far in scope.
-/
import Mathlib

namespace DNSRivet.Base

/-- A transition system over states `σ` whose steps are labelled by events `ε`. -/
structure System (σ ε : Type) where
  init : σ → Prop
  step : σ → ε → σ → Prop

variable {σ ε : Type} {S : System σ ε}

/-- The events of a run from an initial state, and the state it reaches. -/
inductive Run (S : System σ ε) : List ε → σ → Prop
  | start {s : σ} : S.init s → Run S [] s
  | snoc {es : List ε} {s s' : σ} {e : ε} : Run S es s → S.step s e s' → Run S (es ++ [e]) s'

namespace Run

/-- The last step of a run. -/
theorem last {es : List ε} {e : ε} {s' : σ} (h : Run S (es ++ [e]) s') : ∃ s, Run S es s ∧ S.step s e s' := by
  generalize he : es ++ [e] = l at h
  cases h with
  | start => exact absurd he (by simp)
  | snoc hr hs =>
    obtain ⟨rfl, h1⟩ := List.append_inj' he rfl
    cases h1
    exact ⟨_, hr, hs⟩

/-- Any step of a run, and the run before it. -/
theorem split {es es' : List ε} {e : ε} {s' : σ} (h : Run S (es ++ e :: es') s') :
    ∃ s0 s1, Run S es s0 ∧ S.step s0 e s1 := by
  induction es' using List.reverseRecOn generalizing s' with
  | nil =>
    obtain ⟨s0, hr, hs⟩ := h.last
    exact ⟨s0, s', hr, hs⟩
  | append_singleton es' e' ih =>
    rw [← List.cons_append, ← List.append_assoc] at h
    obtain ⟨s0, hr, -⟩ := h.last
    exact ih hr

/-- A property of the events so far and the state that holds initially and that every step keeps
holds of every run. -/
theorem invariant {I : List ε → σ → Prop} (hinit : ∀ s, S.init s → I [] s)
    (hstep : ∀ es s e s', Run S es s → I es s → S.step s e s' → I (es ++ [e]) s') {es : List ε} {s : σ}
    (h : Run S es s) : I es s := by
  induction h with
  | start h => exact hinit _ h
  | snoc hr hs ih => exact hstep _ _ _ _ hr ih hs

/-- The rule for a property of the state alone. -/
theorem invariant_state {I : σ → Prop} (hinit : ∀ s, S.init s → I s)
    (hstep : ∀ s e s', I s → S.step s e s' → I s') {es : List ε} {s : σ} (h : Run S es s) : I s :=
  invariant (I := fun _ => I) hinit (fun _ _ _ _ _ hi hs => hstep _ _ _ hi hs) h

end Run

/-- The steps that are taken only where `K` allows them. -/
def System.restrict (S : System σ ε) (K : σ → ε → Prop) : System σ ε where
  init := S.init
  step := fun s e s' => S.step s e s' ∧ K s e

/-- Steps from a state to another that all lead to states in `K`. -/
inductive Steps (S : System σ ε) (K : σ → Prop) : σ → σ → Prop
  | refl (s : σ) : Steps S K s s
  | snoc {s s1 s2 : σ} {e : ε} : Steps S K s s1 → S.step s1 e s2 → K s2 → Steps S K s s2

/-- What every step keeps, every later state has. -/
theorem Steps.invariant {K I : σ → Prop} (hstep : ∀ s e s', I s → S.step s e s' → I s') {s s' : σ}
    (h : Steps S K s s') (hi : I s) : I s' := by
  induction h with
  | refl => exact hi
  | snoc _ hs _ ih => exact hstep _ _ _ ih hs

end DNSRivet.Base
