/-
Programs that call operations of their environment, as trees: a program ends with a value, or calls
an operation and goes on with the reply. A handler says which replies an operation can get in a state
and which states it can lead to; `Sat` is the weakest precondition over a handler that may also fail
and stop anywhere: besides the postcondition it demands, at every call, the contract's precondition,
and across every call the contract's guarantee. `run` executes a program under an environment that
answers in one way, and `calls` lists the operations it calls on its way. `ExceptT` programs get the
same rules, with a postcondition for each outcome.
-/
import Mathlib

namespace DNSRivet.Base

/-- A program over operations `Op`, where `op` is answered by a `Reply op`. -/
inductive Prog (Op : Type) (Reply : Op → Type) (α : Type) : Type
  | ret (a : α) : Prog Op Reply α
  | call (op : Op) (k : Reply op → Prog Op Reply α) : Prog Op Reply α

namespace Prog

variable {Op : Type} {Reply : Op → Type} {α β σ ε : Type}

protected def bind : Prog Op Reply α → (α → Prog Op Reply β) → Prog Op Reply β
  | .ret a, f => f a
  | .call op k, f => .call op fun r => (k r).bind f

instance : Monad (Prog Op Reply) where
  pure := .ret
  bind := Prog.bind

/-- Call one operation. -/
def perform (op : Op) : Prog Op Reply (Reply op) := .call op .ret

@[simp] theorem pure_eq (a : α) : (pure a : Prog Op Reply α) = .ret a := rfl

@[simp] theorem ret_bind (a : α) (f : α → Prog Op Reply β) : (.ret a >>= f) = f a := rfl

@[simp] theorem call_bind (op : Op) (k : Reply op → Prog Op Reply α) (f : α → Prog Op Reply β) :
    (.call op k >>= f) = .call op fun r => k r >>= f := rfl

/-! ## Execution under one environment -/

/-- Run a program where every call is answered by `h`. -/
def run (h : σ → (op : Op) → Reply op × σ) : Prog Op Reply α → σ → α × σ
  | .ret a, s => (a, s)
  | .call op k, s => (k (h s op).1).run h (h s op).2

variable {h : σ → (op : Op) → Reply op × σ}

@[simp] theorem run_ret (a : α) (s : σ) : (ret a : Prog Op Reply α).run h s = (a, s) := rfl

@[simp] theorem run_perform (op : Op) (s : σ) : (perform op : Prog Op Reply (Reply op)).run h s = h s op := rfl

@[simp] theorem run_bind (p : Prog Op Reply α) (f : α → Prog Op Reply β) (s : σ) :
    (p >>= f).run h s = (f (p.run h s).1).run h (p.run h s).2 := by
  induction p generalizing s with
  | ret a => rfl
  | call op k ih => exact ih _ _

/-! ## Weakest preconditions -/

/-- What a program must respect on its way: a precondition of each call, and what each call does to the
state. -/
structure Contract (σ Op : Type) where
  pre : σ → Op → Prop
  guar : σ → σ → Prop

/-- `H s op r s'`: in state `s` the operation can be answered by `r`, leading to `s'`. -/
abbrev Handler (σ Op : Type) (Reply : Op → Type) := σ → (op : Op) → Reply op → σ → Prop

/-- Started in `s`, the program respects the contract at every call and ends in `Q` if it ends. -/
def Sat (C : Contract σ Op) (H : Handler σ Op Reply) : Prog Op Reply α → σ → (α → σ → Prop) → Prop
  | .ret a, s, Q => Q a s
  | .call op k, s, Q => C.pre s op ∧ ∀ r s', H s op r s' → C.guar s s' ∧ (k r).Sat C H s' Q

variable {C : Contract σ Op} {H : Handler σ Op Reply}

theorem Sat.mono {p : Prog Op Reply α} {s : σ} {Q Q' : α → σ → Prop} (h : p.Sat C H s Q)
    (hq : ∀ a s', Q a s' → Q' a s') : p.Sat C H s Q' := by
  induction p generalizing s with
  | ret a => exact hq a s h
  | call op k ih => exact ⟨h.1, fun r s' hs => ⟨(h.2 r s' hs).1, ih r (h.2 r s' hs).2⟩⟩

theorem Sat.bind {p : Prog Op Reply α} {f : α → Prog Op Reply β} {s : σ} {Q : β → σ → Prop}
    (h : p.Sat C H s fun a s' => (f a).Sat C H s' Q) : (p >>= f).Sat C H s Q := by
  induction p generalizing s with
  | ret a => exact h
  | call op k ih => exact ⟨h.1, fun r s' hs => ⟨(h.2 r s' hs).1, ih r (h.2 r s' hs).2⟩⟩

/-! ## Programs that can fail -/

/-- `Sat` with a postcondition for the value and one for the error. -/
def SatE (C : Contract σ Op) (H : Handler σ Op Reply) (x : ExceptT ε (Prog Op Reply) α) (s : σ)
    (Q : α → σ → Prop) (E : ε → σ → Prop) : Prop :=
  Prog.Sat C H x.run s fun r s' =>
    match r with
    | .ok a => Q a s'
    | .error e => E e s'

/-- Run a failing part and look at its outcome. -/
def attempt (x : ExceptT ε (Prog Op Reply) α) : ExceptT ε (Prog Op Reply) (Except ε α) :=
  ExceptT.mk (x.run >>= fun r => .ret (.ok r))

/-- Rewording an error makes no value. -/
theorem mapError_eq_ok {ε' : Type} {r : Except ε α} {g : ε → ε'} {a : α} : r.mapError g = .ok a ↔ r = .ok a := by
  cases r <;> simp [Except.mapError]

/-- Call an operation that answers with a value or an error. -/
def performE (op : Op) (f : Reply op → Except ε α) : ExceptT ε (Prog Op Reply) α :=
  ExceptT.mk (.call op fun r => .ret (f r))

variable {x : ExceptT ε (Prog Op Reply) α} {f : α → ExceptT ε (Prog Op Reply) β} {s : σ} {Q Q' : α → σ → Prop}
  {E E' : ε → σ → Prop}

theorem satE_pure {a : α} (h : Q a s) : SatE C H (pure a) s Q E := h

theorem satE_throw {e : ε} (h : E e s) : SatE C H (throw e) s Q E := h

theorem SatE.mono (h : SatE C H x s Q E) (hq : ∀ a s', Q a s' → Q' a s') (he : ∀ e s', E e s' → E' e s') :
    SatE C H x s Q' E' :=
  Sat.mono h fun r s' hr => by
    cases r with
    | ok a => exact hq a s' hr
    | error e => exact he e s' hr

theorem satE_bind {R : β → σ → Prop} (h : SatE C H x s (fun a s' => SatE C H (f a) s' R E) E) :
    SatE C H (x >>= f) s R E :=
  Sat.bind (Sat.mono h fun r s' hr => by
    cases r with
    | ok a => exact hr
    | error e => exact hr)

/-- One part after the other. -/
theorem SatE.seq {R : β → σ → Prop} (h : SatE C H x s Q E') (hq : ∀ a s', Q a s' → SatE C H (f a) s' R E)
    (he : ∀ e s', E' e s' → E e s') : SatE C H (x >>= f) s R E :=
  satE_bind (h.mono hq he)

theorem satE_attempt {R : Except ε α → σ → Prop}
    (h : SatE C H x s (fun a s' => R (.ok a) s') (fun e s' => R (.error e) s')) :
    SatE C H (attempt x) s R E :=
  Sat.bind (Sat.mono h fun r s' hr => by
    cases r with
    | ok a => exact hr
    | error e => exact hr)

theorem satE_performE {op : Op} {g : Reply op → Except ε α} (hpre : C.pre s op)
    (h : ∀ r s', H s op r s' → C.guar s s' ∧ match g r with | .ok a => Q a s' | .error e => E e s') :
    SatE C H (performE op g) s Q E :=
  ⟨hpre, fun r s' hs => h r s' hs⟩

/-! ## Records of the calls -/

/-- One operation and what it was answered. -/
abbrev Exchange (Op : Type) (Reply : Op → Type) := (op : Op) × Reply op

/-- The handler that also records every operation with its reply, first one first. -/
def recorded (H : Handler σ Op Reply) : Handler (σ × List (Exchange Op Reply)) Op Reply := fun s op r s' =>
  H s.1 op r s'.1 ∧ s'.2 = s.2 ++ [⟨op, r⟩]

/-- Nothing is demanded on the way. -/
def Contract.free (σ Op : Type) : Contract σ Op := ⟨fun _ _ => True, fun _ _ => True⟩

theorem satE_recorded {op : Op} {g : Reply op → Except ε α} {s : σ × List (Exchange Op Reply)}
    {Q : α → σ × List (Exchange Op Reply) → Prop} {E : ε → σ × List (Exchange Op Reply) → Prop}
    (h : ∀ r t, H s.1 op r t →
      match g r with
      | .ok a => Q a (t, s.2 ++ [⟨op, r⟩])
      | .error e => E e (t, s.2 ++ [⟨op, r⟩])) :
    SatE (Contract.free _ Op) (recorded H) (performE op g) s Q E := by
  refine satE_performE trivial fun r s' hs => ⟨trivial, ?_⟩
  obtain ⟨t, log⟩ := s'
  obtain ⟨ht, rfl⟩ := hs
  exact h r t ht

/-! ## Execution of programs that can fail -/

/-- Run a program that can fail where every call is answered by `h`. -/
def runE (h : σ → (op : Op) → Reply op × σ) (x : ExceptT ε (Prog Op Reply) α) (s : σ) : Except ε α × σ :=
  Prog.run h x.run s

@[simp] theorem runE_pure (a : α) (s : σ) : runE h (pure a : ExceptT ε (Prog Op Reply) α) s = (.ok a, s) := rfl

@[simp] theorem runE_throw (e : ε) (s : σ) : runE h (throw e : ExceptT ε (Prog Op Reply) α) s = (.error e, s) := rfl

theorem runE_bind (x : ExceptT ε (Prog Op Reply) α) (f : α → ExceptT ε (Prog Op Reply) β) (s : σ) :
    runE h (x >>= f) s =
      match (runE h x s).1 with
      | .ok a => runE h (f a) (runE h x s).2
      | .error e => (.error e, (runE h x s).2) := by
  show Prog.run h (x.run >>= ExceptT.bindCont f) s = _
  rw [run_bind]
  show Prog.run h (ExceptT.bindCont f (runE h x s).1) (runE h x s).2 = _
  cases (runE h x s).1 <;> rfl

/-- A part that succeeds hands its value on. -/
theorem runE_bind_ok {x : ExceptT ε (Prog Op Reply) α} {a : α} {s t : σ} (f : α → ExceptT ε (Prog Op Reply) β)
    (hx : runE h x s = (.ok a, t)) : runE h (x >>= f) s = runE h (f a) t := by
  rw [runE_bind, hx]

/-- What a successful run went through. -/
theorem runE_bind_eq_ok {x : ExceptT ε (Prog Op Reply) α} {f : α → ExceptT ε (Prog Op Reply) β} {b : β} {s s' : σ}
    (hb : runE h (x >>= f) s = (.ok b, s')) : ∃ a s1, runE h x s = (.ok a, s1) ∧ runE h (f a) s1 = (.ok b, s') := by
  rw [runE_bind] at hb
  cases hx : runE h x s with
  | mk r s1 =>
    rw [hx] at hb
    cases r with
    | ok a => exact ⟨a, s1, rfl, hb⟩
    | error e => cases hb

@[simp] theorem runE_attempt (x : ExceptT ε (Prog Op Reply) α) (s : σ) :
    runE h (attempt x) s = (.ok (runE h x s).1, (runE h x s).2) := by
  unfold runE attempt
  exact run_bind x.run _ s

@[simp] theorem runE_performE (op : Op) (g : Reply op → Except ε α) (s : σ) :
    runE h (performE op g) s = (g (h s op).1, (h s op).2) := rfl

/-! ## Calls -/

/-- The operations a program calls when every call is answered by `h`. -/
def calls (h : σ → (op : Op) → Reply op × σ) : Prog Op Reply α → σ → List Op
  | .ret _, _ => []
  | .call op k, s => op :: (k (h s op).1).calls h (h s op).2

theorem calls_bind (p : Prog Op Reply α) (f : α → Prog Op Reply β) (s : σ) :
    (p >>= f).calls h s = p.calls h s ++ (f (p.run h s).1).calls h (p.run h s).2 := by
  induction p generalizing s with
  | ret a => rfl
  | call op k ih => exact congrArg (op :: ·) (ih _ _)

/-- The program ends with `a`, leaves the state as it was, and calls no operation in `W`. -/
structure Observes (h : σ → (op : Op) → Reply op × σ) (W : Op → Prop) (x : ExceptT ε (Prog Op Reply) α) (a : α)
    (s : σ) : Prop where
  result : runE h x s = (.ok a, s)
  calls : ∀ op ∈ Prog.calls h x.run s, ¬ W op

variable {W : Op → Prop}

theorem observes_pure (a : α) (s : σ) : Observes h W (pure a : ExceptT ε (Prog Op Reply) α) a s :=
  ⟨rfl, fun _ hop => absurd hop List.not_mem_nil⟩

theorem observes_performE {op : Op} {g : Reply op → Except ε α} {a : α} {s : σ} (hop : ¬ W op) (hstate : (h s op).2 = s)
    (hreply : g (h s op).1 = .ok a) : Observes h W (performE op g) a s := by
  constructor
  · rw [runE_performE, hstate, hreply]
  · intro op' hmem
    rw [List.mem_singleton.1 hmem]
    exact hop

/-- One part that only looks, then the rest. -/
theorem Observes.bind {x : ExceptT ε (Prog Op Reply) α} {f : α → ExceptT ε (Prog Op Reply) β} {a : α} {b : β} {s : σ}
    (hx : Observes h W x a s) (hf : Observes h W (f a) b s) : Observes h W (x >>= f) b s := by
  constructor
  · rw [runE_bind_ok f hx.result]
    exact hf.result
  · intro op hop
    have hcalls : Prog.calls h (x >>= f).run s = Prog.calls h x.run s ++ Prog.calls h (f a).run s := by
      show Prog.calls h (x.run >>= ExceptT.bindCont f) s = _
      rw [calls_bind, show x.run.run h s = (.ok a, s) from hx.result]
      rfl
    rw [hcalls] at hop
    rcases List.mem_append.1 hop with hop | hop
    · exact hx.calls op hop
    · exact hf.calls op hop

/-- Looking at the outcome of one operation that cannot change anything, whatever it is. -/
theorem observes_attempt_performE {op : Op} {g : Reply op → Except ε α} {s : σ} (hop : ¬ W op)
    (hstate : (h s op).2 = s) :
    Observes h W (attempt (performE op g)) (g (h s op).1) s := by
  constructor
  · rw [runE_attempt, runE_performE, hstate]
  · intro op' hmem
    have : op' = op := by simpa [attempt, performE, ExceptT.run_mk, Prog.calls] using hmem
    rw [this]
    exact hop

end Prog

end DNSRivet.Base
