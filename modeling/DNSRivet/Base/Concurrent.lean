/-
Processes over a shared state, and rely-guarantee reasoning about them. A process runs a program and
calls one operation at a time; it may end or die between any two calls, and the world outside may
move the state as well. What a process may rely on is a relation: every step of another process, every
departure and every move from outside is inside it. A program is then checked alone, against a handler
in which the others move the state after every call, and `disciplined` puts the processes together.
-/
import DNSRivet.Base.Program
import DNSRivet.Base.System

namespace DNSRivet.Base

open Prog

/-- A shared state and, for each running process, its task and the rest of its program. -/
structure Pool (σ Op : Type) (Reply : Op → Type) (ι κ β : Type) where
  shared : σ
  running : ι → Option (κ × Prog Op Reply β)

inductive PoolEvent (ι κ : Type)
  | start (i : ι) (task : κ)
  | step (i : ι)
  /-- The process ended or died. -/
  | gone (i : ι)
  | outside

/-- What the processes run on: `leave i` is what is cleared when process `i` is gone. -/
structure Host (σ Op : Type) (Reply : Op → Type) (ι κ β : Type) where
  init : σ → Prop
  program : κ → Prog Op Reply β
  answer : ι → Handler σ Op Reply
  leave : ι → σ → σ
  outside : σ → σ → Prop

variable {σ Op ι κ β : Type} {Reply : Op → Type} {α α' ε : Type}

/-- Any number of processes, which run any tasks, one step at a time. -/
def Host.pool [DecidableEq ι] (M : Host σ Op Reply ι κ β) : System (Pool σ Op Reply ι κ β) (PoolEvent ι κ) where
  init := fun c => M.init c.shared ∧ ∀ i, c.running i = none
  step := fun c e c' =>
    match e with
    | .start i task =>
      c.running i = none ∧ c' = ⟨c.shared, Function.update c.running i (some (task, M.program task))⟩
    | .step i =>
      ∃ task op k r s', c.running i = some (task, .call op k) ∧ M.answer i c.shared op r s' ∧
        c' = ⟨s', Function.update c.running i (some (task, k r))⟩
    | .gone i =>
      (c.running i).isSome ∧ c' = ⟨M.leave i c.shared, Function.update c.running i none⟩
    | .outside => ∃ s', M.outside c.shared s' ∧ c' = ⟨s', c.running⟩

/-- Where a program is after `n` answers of an environment. -/
def Prog.advance (h : σ → (op : Op) → Reply op × σ) : Nat → Prog Op Reply α → σ → Prog Op Reply α × σ
  | n + 1, .call op k, s => (k (h s op).1).advance h n (h s op).2
  | _, p, s => (p, s)

/-- One process of a run goes on alone, with answers it can get. -/
theorem Host.run_advance [DecidableEq ι] {M : Host σ Op Reply ι κ β} {i : ι} {h : σ → (op : Op) → Reply op × σ}
    (hanswer : ∀ s op, M.answer i s op (h s op).1 (h s op).2) {task : κ} (n : Nat) {p : Prog Op Reply β}
    {es : List (PoolEvent ι κ)} {s : σ} {running : ι → Option (κ × Prog Op Reply β)}
    (hrun : Run M.pool es ⟨s, Function.update running i (some (task, p))⟩) :
    ∃ es', Run M.pool es' ⟨(p.advance h n s).2, Function.update running i (some (task, (p.advance h n s).1))⟩ := by
  induction n generalizing p s es with
  | zero => exact ⟨es, by simpa [Prog.advance] using hrun⟩
  | succ n ih =>
    cases p with
    | ret b => exact ⟨es, hrun⟩
    | call op k =>
      have hstep : M.pool.step ⟨s, Function.update running i (some (task, .call op k))⟩ (.step i)
          ⟨(h s op).2, Function.update running i (some (task, k (h s op).1))⟩ :=
        ⟨task, op, k, _, _, by simp, hanswer s op, by simp⟩
      exact ih (hrun.snoc hstep)

/-! ## Interference -/

/-- The handler where, after each answer, the state moves on by `R`. -/
def interfered (R : σ → σ → Prop) (H : Handler σ Op Reply) : Handler σ Op Reply := fun s op r s' =>
  ∃ t, H s op r t ∧ R t s'

/-- What holds of the shared state, what each process may rely on the others for, and what it must check
before it calls an operation; `idle` is what a process finds when it starts. -/
structure Discipline (M : Host σ Op Reply ι κ β) where
  inv : σ → Prop
  rely : ι → σ → σ → Prop
  pre : ι → σ → Op → Prop
  idle : ι → σ → Prop
  init : ∀ s, M.init s → inv s ∧ ∀ i, idle i s
  rely_refl : ∀ i s, rely i s s
  rely_trans : ∀ i s t u, rely i s t → rely i t u → rely i s u
  rely_inv : ∀ i s t, inv s → rely i s t → inv t
  rely_idle : ∀ i s t, idle i s → rely i s t → idle i t
  step : ∀ i s op r t, inv s → pre i s op → M.answer i s op r t → inv t ∧ ∀ j, j ≠ i → rely j s t
  leave : ∀ i s, inv s → inv (M.leave i s) ∧ idle i (M.leave i s) ∧ ∀ j, j ≠ i → rely j s (M.leave i s)
  outside : ∀ s t, inv s → M.outside s t → inv t ∧ ∀ i, rely i s t

namespace Discipline

variable {M : Host σ Op Reply ι κ β} (D : Discipline M)

/-- The contract of a process: the check before each call. -/
def contract (i : ι) : Contract σ Op := ⟨D.pre i, fun _ _ => True⟩

/-- The answers a process gets while the others run. -/
def answers (i : ι) : Handler σ Op Reply := interfered (D.rely i) (M.answer i)

/-- The program of process `i`, started in `s` while the others run, checks before each call and ends in `Q`. -/
abbrev Safe (i : ι) (p : Prog Op Reply α) (s : σ) (Q : α → σ → Prop) : Prop := p.Sat (D.contract i) (D.answers i) s Q

/-- `Safe` for a program that can fail. -/
abbrev SafeE (i : ι) (x : ExceptT ε (Prog Op Reply) α) (s : σ) (Q : α → σ → Prop) (E : ε → σ → Prop) : Prop :=
  Prog.SatE (D.contract i) (D.answers i) x s Q E

/-- What holds of the pool between any two steps, with what each task ends in: the rest of every program is
safe, wherever the others take the state before it goes on. -/
structure Ok (post : ι → κ → β → σ → Prop) (c : Pool σ Op Reply ι κ β) : Prop where
  inv : D.inv c.shared
  idle : ∀ i, c.running i = none → D.idle i c.shared
  ready : ∀ i task p, c.running i = some (task, p) → ∀ s, D.rely i c.shared s → D.Safe i p s (post i task)

variable {D} {post : ι → κ → β → σ → Prop} {i : ι} {s t : σ}

/-- A move that the other processes rely on keeps what they are ready for. -/
theorem Ok.moved {c : Pool σ Op Reply ι κ β} (h : D.Ok post c) {j : ι} (hj : D.rely j c.shared s) :
    (c.running j = none → D.idle j s) ∧
      ∀ task p, c.running j = some (task, p) → ∀ t, D.rely j s t → D.Safe j p t (post j task) := by
  constructor
  · intro hnone
    exact D.rely_idle j _ _ (h.idle j hnone) hj
  · intro task p hp t ht
    exact h.ready j task p hp t (D.rely_trans j _ _ _ hj ht)

/-- Every process that is about to call an operation has its precondition. -/
theorem Ok.pre {c : Pool σ Op Reply ι κ β} (h : D.Ok post c) {task : κ} {op : Op} {k : Reply op → Prog Op Reply β}
    (hrun : c.running i = some (task, .call op k)) : D.pre i c.shared op :=
  (h.ready i _ _ hrun _ (D.rely_refl i _)).1

/-- Every task that has ended has its postcondition, as long as its process is there. -/
theorem Ok.ended {c : Pool σ Op Reply ι κ β} (h : D.Ok post c) {task : κ} {b : β}
    (hrun : c.running i = some (task, .ret b)) : post i task b c.shared :=
  h.ready i _ _ hrun _ (D.rely_refl i _)

section Runs

variable [DecidableEq ι]

/-- A step of anything else is one that the process relies on. -/
theorem Ok.others {c c' : Pool σ Op Reply ι κ β} {e : PoolEvent ι κ} (h : D.Ok post c) (hs : M.pool.step c e c')
    (hstep : e ≠ .step i) (hgone : e ≠ .gone i) : D.rely i c.shared c'.shared := by
  cases e with
  | start j task =>
    obtain ⟨-, rfl⟩ := hs
    exact D.rely_refl i _
  | step j =>
    obtain ⟨task, op, k, r, t, hrun, hanswer, rfl⟩ := hs
    refine (D.step j _ op r t h.inv (h.pre hrun) hanswer).2 i ?_
    rintro rfl
    exact hstep rfl
  | gone j =>
    obtain ⟨-, rfl⟩ := hs
    refine (D.leave j _ h.inv).2.2 i ?_
    rintro rfl
    exact hgone rfl
  | outside =>
    obtain ⟨t, hout, rfl⟩ := hs
    exact (D.outside _ t h.inv hout).2 i

/-- Every step keeps `Ok`, when every task is safe from wherever it may start. -/
theorem ok_step (hsafe : ∀ i task s, D.inv s → D.idle i s → D.Safe i (M.program task) s (post i task))
    {c c' : Pool σ Op Reply ι κ β} {e : PoolEvent ι κ} (h : D.Ok post c) (hs : M.pool.step c e c') : D.Ok post c' := by
  cases e with
  | start i task =>
    obtain ⟨hnone, rfl⟩ := hs
    constructor
    · exact h.inv
    · intro j hj
      by_cases hij : j = i
      · rw [hij]
        exact h.idle i hnone
      · exact h.idle j (by simpa [hij] using hj)
    · intro j task' p hp s hrely
      by_cases hij : j = i
      · subst hij
        obtain ⟨rfl, rfl⟩ : task = task' ∧ M.program task = p := by simpa using hp
        exact hsafe j task s (D.rely_inv j _ _ h.inv hrely) (D.rely_idle j _ _ (h.idle j hnone) hrely)
      · exact h.ready j task' p (by simpa [hij] using hp) s hrely
  | step i =>
    obtain ⟨task, op, k, r, t, hrun, hanswer, rfl⟩ := hs
    have hnow := h.ready i _ _ hrun _ (D.rely_refl i _)
    obtain ⟨hinv, hothers⟩ := D.step i _ op r t h.inv hnow.1 hanswer
    constructor
    · exact hinv
    · intro j hj
      by_cases hij : j = i
      · subst hij
        simp at hj
      · exact (h.moved (hothers j hij)).1 (by simpa [hij] using hj)
    · intro j task' p hp s hrely
      by_cases hij : j = i
      · subst hij
        obtain ⟨rfl, rfl⟩ : task = task' ∧ k r = p := by simpa using hp
        -- the others' moves after the answer are part of the handler
        exact (hnow.2 r s ⟨t, hanswer, hrely⟩).2
      · exact (h.moved (hothers j hij)).2 task' p (by simpa [hij] using hp) s hrely
  | gone i =>
    obtain ⟨-, rfl⟩ := hs
    obtain ⟨hinv, hidle, hothers⟩ := D.leave i _ h.inv
    constructor
    · exact hinv
    · intro j hj
      by_cases hij : j = i
      · rw [hij]
        exact hidle
      · exact (h.moved (hothers j hij)).1 (by simpa [hij] using hj)
    · intro j task' p hp s hrely
      by_cases hij : j = i
      · subst hij
        simp at hp
      · exact (h.moved (hothers j hij)).2 task' p (by simpa [hij] using hp) s hrely
  | outside =>
    obtain ⟨t, hout, rfl⟩ := hs
    obtain ⟨hinv, hothers⟩ := D.outside _ t h.inv hout
    exact ⟨hinv, fun j hj => (h.moved (hothers j)).1 hj, fun j task p hp => (h.moved (hothers j)).2 task p hp⟩

/-- Safe tasks stay disciplined in every run, whatever the order of their steps. -/
theorem disciplined (hsafe : ∀ i task s, D.inv s → D.idle i s → D.Safe i (M.program task) s (post i task))
    {es : List (PoolEvent ι κ)} {c : Pool σ Op Reply ι κ β} (h : Run M.pool es c) : D.Ok post c := by
  refine h.invariant_state (I := D.Ok post) ?_ fun c e c' hc hs => ok_step hsafe hc hs
  rintro c ⟨hinit, hnone⟩
  obtain ⟨hinv, hidle⟩ := D.init _ hinit
  exact ⟨hinv, fun i _ => hidle i, fun i task p hp => by rw [hnone i] at hp; cases hp⟩

end Runs

/-! ## Single calls, and programs that only look -/

/-- One call of a process: what the answer and the others' moves after it must establish. -/
theorem safeE_performE {op : Op} {g : Reply op → Except ε α} {Q : α → σ → Prop} {E : ε → σ → Prop}
    (hinv : D.inv s) (hpre : D.pre i s op)
    (h : ∀ r t s', M.answer i s op r t → D.rely i t s' → D.inv s' →
      match g r with
      | .ok a => Q a s'
      | .error e => E e s') :
    D.SafeE i (performE op g) s Q E := by
  refine satE_performE hpre fun r s' hs => ⟨trivial, ?_⟩
  obtain ⟨t, hanswer, hrely⟩ := hs
  have ht := (D.step i s op r t hinv hpre hanswer).1
  exact h r t s' hanswer hrely (D.rely_inv i t s' ht hrely)

variable (D) in
/-- Wherever it starts, the state only moves as the others move it. -/
def Looks (i : ι) (x : ExceptT ε (Prog Op Reply) α) : Prop :=
  ∀ s, D.inv s → D.SafeE i x s (fun _ t => D.rely i s t) fun _ t => D.rely i s t

theorem looks_pure (a : α) : D.Looks i (pure a : ExceptT ε (Prog Op Reply) α) := fun s _ => satE_pure (D.rely_refl i s)

theorem looks_throw (e : ε) : D.Looks i (throw e : ExceptT ε (Prog Op Reply) α) :=
    fun s _ => satE_throw (D.rely_refl i s)

theorem looks_performE {op : Op} {g : Reply op → Except ε α} (hpre : ∀ s, D.pre i s op)
    (hstill : ∀ s r t, M.answer i s op r t → t = s) : D.Looks i (performE op g) := by
  intro s hinv
  refine safeE_performE hinv (hpre s) fun r t s' hanswer hrely _ => ?_
  rw [hstill s r t hanswer] at hrely
  cases g r with
  | ok a => exact hrely
  | error e => exact hrely

variable {x : ExceptT ε (Prog Op Reply) α} {f : α → ExceptT ε (Prog Op Reply) α'}

/-- A part that only looks, then the rest from where the others took the state. -/
theorem Looks.next (hx : D.Looks i x) (hinv : D.inv s) {Q : α' → σ → Prop} {E : ε → σ → Prop}
    (hf : ∀ a t, D.inv t → D.rely i s t → D.SafeE i (f a) t Q E) (he : ∀ e t, D.inv t → D.rely i s t → E e t) :
    D.SafeE i (x >>= f) s Q E :=
  SatE.seq (hx s hinv) (fun a t h => hf a t (D.rely_inv i s t hinv h) h) fun e t h =>
    he e t (D.rely_inv i s t hinv h) h

theorem Looks.bind (hx : D.Looks i x) (hf : ∀ a, D.Looks i (f a)) : D.Looks i (x >>= f) := by
  intro s hinv
  refine hx.next hinv (fun a t ht hst => ?_) fun e t _ hst => hst
  exact (hf a t ht).mono (fun _ u hu => D.rely_trans i s t u hst hu) fun _ u hu => D.rely_trans i s t u hst hu

theorem Looks.attempt (hx : D.Looks i x) : D.Looks i (Prog.attempt x) := fun s hinv =>
  satE_attempt ((hx s hinv).mono (fun _ _ h => h) fun _ _ h => h)

end Discipline

/-! ## Programs over part of the operations -/

namespace Prog

variable {Op' : Type} {Reply' : Op' → Type}

/-- A program over operations `Op`, each called as the operation `f` makes of it. -/
def embed (f : Op → Op') (g : (op : Op) → Reply' (f op) → Reply op) : Prog Op Reply α → Prog Op' Reply' α
  | .ret a => .ret a
  | .call op k => .call (f op) fun r => (k (g op r)).embed f g

variable {σ' : Type} {f : Op → Op'} {g : (op : Op) → Reply' (f op) → Reply op} {C : Contract σ Op}
  {H : Handler σ Op Reply}
  {C' : Contract σ' Op'} {H' : Handler σ' Op' Reply'}

/-- A program that is safe over a part `view` of the state is safe over the state, when calls keep the
part's relation to it: `J` is what holds of the rest meanwhile. -/
theorem Sat.embed (J : σ' → Prop) (view : σ' → σ)
    (hpre : ∀ s op, J s → C.pre (view s) op → C'.pre s (f op))
    (hstep : ∀ s op r s', J s → C.pre (view s) op → H' s (f op) r s' →
      C'.guar s s' ∧ J s' ∧ H (view s) op (g op r) (view s'))
    {p : Prog Op Reply α} {s : σ'} {Q : α → σ → Prop} (hJ : J s) (h : p.Sat C H (view s) Q) :
    (p.embed f g).Sat C' H' s fun a s' => J s' ∧ Q a (view s') := by
  induction p generalizing s with
  | ret a => exact ⟨hJ, h⟩
  | call op k ih =>
    obtain ⟨hop, hrest⟩ := h
    constructor
    · exact hpre s op hJ hop
    · intro r s' hs
      obtain ⟨hguar, hJ', hcall⟩ := hstep s op r s' hJ hop hs
      exact ⟨hguar, ih _ hJ' (hrest _ _ hcall).2⟩

end Prog

end DNSRivet.Base
