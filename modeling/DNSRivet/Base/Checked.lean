/-
Computations that stop with a fault where the compiled code would panic, wrap around or loop for
ever: out-of-range indexing and slicing, a copy between slices of different lengths, `usize`
arithmetic that leaves its range, and a loop that outlives its bound. An `Attempt` may also return
early with no result. `Finishes x r` says that `x` meets no fault and returns `r`; its rules take
an attempt apart along its binds.
-/
import DNSRivet.Base.Bytes

namespace DNSRivet.Base

def usizeMax : Nat := 18446744073709551615

/-- Where a computation goes wrong. -/
inductive Fault
  | index
  | range
  | copy
  | overflow
  | endless
deriving DecidableEq, Repr

/-- A computation that may go wrong. -/
abbrev Checked := Except Fault

/-- A checked computation that may return early with no result. -/
abbrev Attempt := OptionT Checked

namespace Checked

variable {α β : Type}

/-- A step that meets no fault. -/
theorem bind_ok {x : Checked α} {a : α} (h : x = .ok a) (f : α → Checked β) : (x >>= f) = f a := by
  subst h
  rfl

/-! ## Arithmetic -/

def add (a b : Nat) : Checked Nat := if a + b ≤ usizeMax then .ok (a + b) else .error .overflow

def sub (a b : Nat) : Checked Nat := if b ≤ a then .ok (a - b) else .error .overflow

/-- A sum that stays near the end of a slice is in range. -/
theorem add_ok {a b n : Nat} (hn : n ≤ isizeMax) (h : a + b ≤ n + 1048576) : add a b = .ok (a + b) := by
  apply if_pos
  unfold isizeMax at hn
  unfold usizeMax
  omega

theorem sub_ok {a b : Nat} (h : b ≤ a) : sub a b = .ok (a - b) :=
  if_pos h

/-! ## Slices -/

/-- `xs[i]`. -/
def index (xs : List α) (i : Nat) : Checked α :=
  match xs[i]? with
  | some x => .ok x
  | none => .error .index

/-- `xs[i] = x`. -/
def store (xs : List α) (i : Nat) (x : α) : Checked (List α) :=
  if i < xs.length then .ok (xs.set i x) else .error .index

/-- `&xs[start..stop]`. -/
def range (xs : List α) (start stop : Nat) : Checked (List α) :=
  if start ≤ stop ∧ stop ≤ xs.length then .ok ((xs.drop start).take (stop - start)) else .error .range

/-- `xs[start..stop].copy_from_slice(ys)`. -/
def copyInto (xs : List α) (start stop : Nat) (ys : List α) : Checked (List α) := do
  let target ← range xs start stop
  if target.length = ys.length then .ok (xs.take start ++ ys ++ xs.drop stop) else .error .copy

/-- `xs[start..stop].fill(x)`. -/
def fill (xs : List α) (start stop : Nat) (x : α) : Checked (List α) := do
  let target ← range xs start stop
  copyInto xs start stop (List.replicate target.length x)

variable {xs ys : List α} {start stop i : Nat}

theorem index_ok {x : α} (h : xs[i]? = some x) : index xs i = .ok x := by
  simp only [index, h]

theorem store_ok {x : α} (h : i < xs.length) : store xs i x = .ok (xs.set i x) :=
  if_pos h

theorem range_ok (h : start ≤ stop) (h' : stop ≤ xs.length) :
    range xs start stop = .ok ((xs.drop start).take (stop - start)) :=
  if_pos ⟨h, h'⟩

theorem copyInto_ok (hl : start + ys.length = stop) (h : stop ≤ xs.length) :
    copyInto xs start stop ys = .ok (xs.take start ++ ys ++ xs.drop stop) := by
  have hlen : ((xs.drop start).take (stop - start)).length = ys.length := by
    rw [List.length_take, List.length_drop]; omega
  unfold copyInto
  rw [range_ok (by omega) h]
  exact if_pos hlen

theorem fill_ok {x : α} (h : start ≤ stop) (h' : stop ≤ xs.length) :
    fill xs start stop x = .ok (xs.take start ++ List.replicate (stop - start) x ++ xs.drop stop) := by
  have hlen : ((xs.drop start).take (stop - start)).length = stop - start := by
    rw [List.length_take, List.length_drop]; omega
  unfold fill
  rw [range_ok h h']
  refine (congrArg (fun n => copyInto xs start stop (List.replicate n x)) hlen).trans ?_
  exact copyInto_ok (by rw [List.length_replicate]; omega) h'

end Checked

/-! ## Attempts -/

namespace Attempt

variable {α β : Type}

/-- `o?`. -/
def ofOption (o : Option α) : Attempt α := OptionT.mk (.ok o)

/-- `a.checked_add(b)?`. -/
def checkedAdd (a b : Nat) : Attempt Nat := ofOption (if a + b ≤ usizeMax then some (a + b) else none)

/-- The attempt meets no fault and returns `r`. -/
def Finishes (x : Attempt α) (r : Option α) : Prop := x.run = .ok r

namespace Finishes

variable {x : Attempt α} {f : α → Attempt β} {r : Option β}

theorem ofOption (o : Option α) : Finishes (Attempt.ofOption o) o := rfl

theorem pure (a : α) : Finishes (Pure.pure a) (some a) := rfl

theorem bind {o : Option α} {g : α → Option β} (h : Finishes x o) (hf : ∀ a, o = some a → Finishes (f a) (g a)) :
    Finishes (x >>= f) (o >>= g) := by
  unfold Finishes at *
  rw [OptionT.run_bind, h]
  cases o with
  | none => rfl
  | some a => exact hf a rfl

theorem bind_some {a : α} (h : Finishes x (some a)) (hf : Finishes (f a) r) : Finishes (x >>= f) r := by
  unfold Finishes at *
  rw [OptionT.run_bind, h]
  exact hf

theorem bind_none (h : Finishes x none) : Finishes (x >>= f) none := by
  unfold Finishes at *
  rw [OptionT.run_bind, h]
  rfl

/-- A step that cannot return early. -/
theorem step {y : Checked α} {a : α} (h : y = .ok a) (hf : Finishes (f a) r) :
    Finishes (liftM y >>= f) r := by
  subst h
  exact hf

/-- The last step, when it cannot return early. -/
theorem lift {y : Checked α} {a : α} (h : y = .ok a) : Finishes (liftM y) (some a) := by
  subst h
  rfl

theorem ite {c : Prop} [Decidable c] {x y : Attempt α} {r s : Option α} (ht : c → Finishes x r)
    (he : ¬ c → Finishes y s) : Finishes (if c then x else y) (if c then r else s) := by
  by_cases hc : c
  · rw [if_pos hc, if_pos hc]
    exact ht hc
  · rw [if_neg hc, if_neg hc]
    exact he hc

theorem map {o : Option α} (g : α → β) (h : Finishes x o) : Finishes (x >>= fun a => Pure.pure (g a)) (o.map g) := by
  cases o with
  | none => exact bind_none h
  | some a => exact bind_some h (pure (g a))

end Finishes

/-- A checked sum that stays near the end of a slice returns. -/
theorem checkedAdd_finishes {a b n : Nat} (hn : n ≤ isizeMax) (h : a + b ≤ n + 1048576) :
    Finishes (checkedAdd a b) (some (a + b)) := by
  refine congrArg Except.ok (if_pos ?_)
  unfold isizeMax at hn
  unfold usizeMax
  omega

end Attempt

end DNSRivet.Base
