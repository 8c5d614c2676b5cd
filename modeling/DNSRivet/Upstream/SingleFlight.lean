/-
One lookup at a time, and none within `retryAfterFailure` of a failed one. The refresh mutex of a key belongs
to its task from the plan that led to it until the result is recorded, so what that plan saw of earlier
failures still holds when the lookup starts. `ResolveOk` says so of a state and the events that led to it; it
is kept by each kind of change a step makes, and every step is made of these (`single_flight`).
-/
import DNSRivet.Upstream.Bootstrap

namespace DNSRivet.Upstream.Bootstrap

open DNSRivet.Base DNSRivet.Net

variable {es : List (Nat × Event)} {s : State}

/-- A task that has yet to record its result. -/
def LookupPhase.Live : LookupPhase → Prop
  | done _ => False
  | _ => True

/-- A call that has left the mutex to its lookup, or is over. -/
def CallPhase.Past : CallPhase → Prop
  | awaiting => True
  | returned _ => True
  | cancelled => True
  | _ => False

/-- A task for the key that has yet to record its result. -/
def LiveAt (s : State) (i : Nat) (key : Key) : Prop := ∃ phase, s.lookups i = some ⟨key, phase⟩ ∧ phase.Live

/-- A lookup for the key failed, which was recorded at time `t`. -/
def FailedAt (es : List (Nat × Event)) (t : Nat) (key : Key) : Prop := ∃ i err, (t, .record i key (.error err)) ∈ es

/-- The pause after every recorded failure of the key is over. -/
def Due (es : List (Nat × Event)) (s : State) (key : Key) : Prop :=
  ∀ t, FailedAt es t key → t + retryAfterFailure ≤ s.clock

/-- What is true of the calls, lookups and slots after the events `es`. -/
structure ResolveOk (es : List (Nat × Event)) (s : State) : Prop where
  times : ∀ e ∈ es, e.1 ≤ s.clock
  /-- A live task has the mutex of its key. -/
  holds : ∀ i key, LiveAt s i key → (s.slots key).refresh.holder = some i
  /-- It was spawned when the pause was over. -/
  due : ∀ i key, LiveAt s i key → Due es s key
  spawned : ∀ i lookup, s.lookups i = some lookup → ∃ call, s.calls i = some call ∧ call.phase.Past
  /-- A failure whose pause is not over is in the slot. -/
  paused : ∀ t key, FailedAt es t key →
    t + retryAfterFailure ≤ s.clock ∨ ∃ f, (s.slots key).failure = some f ∧ t + retryAfterFailure ≤ f.retryAt

namespace ResolveOk

/-- A call that has not spawned a task owns none. -/
theorem notLive (h : ResolveOk es s) {i : Nat} {key : Key} {phase : CallPhase} (hcall : s.calls i = some ⟨key, phase⟩)
    (hphase : ¬ phase.Past) : s.lookups i = none := by
  cases hl : s.lookups i with
  | none => rfl
  | some lookup =>
    obtain ⟨call, hc, hpast⟩ := h.spawned i lookup hl
    rw [hcall] at hc
    cases hc
    exact absurd hpast hphase

/-- No task is live for a key whose mutex is not a live task's. -/
theorem noneLive (h : ResolveOk es s) {key : Key}
    (hfree : ∀ i, (s.slots key).refresh.holder = some i → ¬ LiveAt s i key)
    (i : Nat) : ¬ LiveAt s i key := fun hlive => hfree i (h.holds i key hlive) hlive

/-- No task is live for a key whose mutex a call without a task has. -/
theorem noneLive_of_call (h : ResolveOk es s) {i : Nat} {key : Key} {phase : CallPhase}
    (hcall : s.calls i = some ⟨key, phase⟩) (hphase : ¬ phase.Past) (hhold : (s.slots key).refresh.holder = some i) :
    ∀ j, ¬ LiveAt s j key := by
  apply h.noneLive
  rintro j hj ⟨phase', hl, -⟩
  rw [hhold] at hj
  cases hj
  rw [h.notLive hcall hphase] at hl
  cases hl

/-! ## The changes a step makes -/

theorem tick (h : ResolveOk es s) {t : Nat} (ht : s.clock ≤ t) : ResolveOk es { s with clock := t } := by
  refine ⟨fun e he => Nat.le_trans (h.times e he) ht, h.holds, fun i key hlive t0 hfail => ?_, h.spawned,
    fun t0 key hfail => ?_⟩
  · exact Nat.le_trans (h.due i key hlive t0 hfail) ht
  · rcases h.paused t0 key hfail with hover | hslot
    · exact .inl (Nat.le_trans hover ht)
    · exact .inr hslot

theorem setSlot (h : ResolveOk es s) {key : Key} {slot : Slot}
    (hhold : ∀ i, LiveAt s i key → slot.refresh.holder = some i)
    (hfail : ∀ t, FailedAt es t key →
      t + retryAfterFailure ≤ s.clock ∨ ∃ f, slot.failure = some f ∧ t + retryAfterFailure ≤ f.retryAt) :
    ResolveOk es (s.setSlot key slot) := by
  refine ⟨h.times, fun i key' hlive => ?_, h.due, h.spawned, fun t key' hfail' => ?_⟩
  · by_cases hk : key' = key
    · subst hk
      simp only [State.setSlot, Function.update_self]
      exact hhold i hlive
    · simp only [State.setSlot, Function.update_of_ne hk]
      exact h.holds i key' hlive
  · by_cases hk : key' = key
    · subst hk
      simp only [State.setSlot, Function.update_self]
      exact hfail t hfail'
    · simp only [State.setSlot, Function.update_of_ne hk]
      exact h.paused t key' hfail'

/-- A slot that keeps its failure and whose mutex stays with a live task. -/
theorem keepSlot (h : ResolveOk es s) {key : Key} {slot : Slot} (hfailure : slot.failure = (s.slots key).failure)
    (hhold : ∀ i, LiveAt s i key → slot.refresh.holder = some i) : ResolveOk es (s.setSlot key slot) :=
  h.setSlot hhold fun t hfail => hfailure ▸ h.paused t key hfail

theorem setCall (h : ResolveOk es s) {i : Nat} {call : Call} (hcall : call.phase.Past ∨ s.lookups i = none) :
    ResolveOk es (s.setCall i call) := by
  refine ⟨h.times, h.holds, h.due, fun j lookup hl => ?_, h.paused⟩
  by_cases hj : j = i
  · subst hj
    simp only [State.setCall, Function.update_self]
    rcases hcall with hpast | hnone
    · exact ⟨call, rfl, hpast⟩
    · cases hnone.symm.trans hl
  · simp only [State.setCall, Function.update_of_ne hj]
    exact h.spawned j lookup hl

theorem setLookup (h : ResolveOk es s) {i : Nat} {key : Key} {phase : LookupPhase}
    (hcall : ∃ call, s.calls i = some call ∧ call.phase.Past)
    (hlive : phase.Live → (s.slots key).refresh.holder = some i ∧ Due es s key) :
    ResolveOk es (s.setLookup i ⟨key, phase⟩) := by
  have hcases : ∀ j key', LiveAt (s.setLookup i ⟨key, phase⟩) j key' →
      LiveAt s j key' ∨ j = i ∧ key' = key ∧ phase.Live := by
    rintro j key' ⟨phase', hl, hp⟩
    by_cases hj : j = i
    · subst hj
      simp only [State.setLookup, Function.update_self] at hl
      cases hl
      exact .inr ⟨rfl, rfl, hp⟩
    · simp only [State.setLookup, Function.update_of_ne hj] at hl
      exact .inl ⟨phase', hl, hp⟩
  refine ⟨h.times, fun j key' hl => ?_, fun j key' hl => ?_, fun j lookup hl => ?_, h.paused⟩
  · rcases hcases j key' hl with hold | ⟨rfl, rfl, hp⟩
    · exact h.holds j key' hold
    · exact (hlive hp).1
  · rcases hcases j key' hl with hold | ⟨rfl, rfl, hp⟩
    · exact h.due j key' hold
    · exact (hlive hp).2
  · by_cases hj : j = i
    · subst hj
      exact hcall
    · simp only [State.setLookup, Function.update_of_ne hj] at hl
      exact h.spawned j lookup hl

/-- The mutex of a key goes to a new task once the pause is over. -/
theorem spawn (h : ResolveOk es s) {i : Nat} {key : Key} (hhold : (s.slots key).refresh.holder = some i)
    (hdue : Due es s key) : ResolveOk es (s.spawn i key) := by
  have hcall : ResolveOk es (s.setCall i ⟨key, .awaiting⟩) := h.setCall (.inl trivial)
  refine hcall.setLookup ?_ fun _ => ⟨hhold, hdue⟩
  exact ⟨⟨key, .awaiting⟩, Function.update_self .., trivial⟩

/-- An event at the time of the state; after a failure its slot holds it, and no task is live for its key. -/
theorem snoc (h : ResolveOk es s) {t : Nat} {e : Event} (ht : s.clock = t)
    (hfail : ∀ i key err, e = .record i key (.error err) →
      (∀ j, ¬ LiveAt s j key) ∧ ∃ f, (s.slots key).failure = some f ∧ s.clock + retryAfterFailure ≤ f.retryAt) :
    ResolveOk (es ++ [(t, e)]) s := by
  have hcases : ∀ t0 key, FailedAt (es ++ [(t, e)]) t0 key →
      FailedAt es t0 key ∨ t0 = t ∧ ∃ i err, e = .record i key (.error err) := by
    rintro t0 key ⟨i, err, hmem⟩
    rcases List.mem_append.1 hmem with hmem | hmem
    · exact .inl ⟨i, err, hmem⟩
    · obtain ⟨rfl, he⟩ := Prod.mk.inj (List.mem_singleton.1 hmem)
      exact .inr ⟨rfl, i, err, he.symm⟩
  refine ⟨fun x hx => ?_, h.holds, fun i key hlive t0 hf => ?_, h.spawned, fun t0 key hf => ?_⟩
  · rcases List.mem_append.1 hx with hx | hx
    · exact h.times x hx
    · rw [List.mem_singleton.1 hx]
      exact ht.ge
  · rcases hcases t0 key hf with hold | ⟨rfl, j, err, he⟩
    · exact h.due i key hlive t0 hold
    · exact absurd hlive ((hfail j key err he).1 i)
  · rcases hcases t0 key hf with hold | ⟨rfl, j, err, he⟩
    · exact h.paused t0 key hold
    · exact .inr (ht ▸ (hfail j key err he).2)

end ResolveOk

/-! ## The slot -/

/-- Planning leaves the failure and the mutex alone, and sends nobody to refresh during the pause. -/
theorem plan_spec (slot : Slot) (now : Nat) :
    (slot.plan now).2.refresh = slot.refresh ∧ (slot.plan now).2.failure = slot.failure ∧
    ∀ stale, (slot.plan now).1 = .refresh stale → ∀ f, slot.failure = some f → f.retryAt ≤ now := by
  unfold Slot.plan
  cases slot.entry.filter (·.isFresh now) with
  | some entry => exact ⟨rfl, rfl, fun stale h => by cases h⟩
  | none =>
    simp only
    cases hf : slot.failure.filter fun failure => now < failure.retryAt with
    | some failure => exact ⟨rfl, rfl, fun stale h => by cases h⟩
    | none =>
      refine ⟨rfl, rfl, fun stale _ f hfail => ?_⟩
      rw [hfail, Option.filter_some] at hf
      split at hf
      · cases hf
      · rename_i hover
        simpa using hover

/-- Recording leaves the mutex alone; a failure starts the pause, an answer ends it. -/
theorem record_spec (slot : Slot) (result : Except String (List IpAddr × Nat)) (now : Nat) :
    (slot.record result now).2.refresh = slot.refresh ∧
    ∀ err, result = .error err → (slot.record result now).2.failure = some ⟨err, now + retryAfterFailure⟩ := by
  cases result with
  | ok answer => exact ⟨rfl, fun err h => by cases h⟩
  | error err =>
    unfold Slot.record
    simp only
    cases slot.entry.filter (·.isServable now) with
    | some entry =>
      refine ⟨rfl, ?_⟩
      rintro err' ⟨⟩
      rfl
    | none =>
      refine ⟨rfl, ?_⟩
      rintro err' ⟨⟩
      rfl

/-! ## Steps -/

/-- A plan that sends a call to refresh sees that every pause is over. -/
theorem due_of_plan {key : Key} {stale : Option (List IpAddr)} (h : ResolveOk es s)
    (hplan : ((s.slots key).plan s.clock).1 = .refresh stale) : Due es s key := by
  intro t hfail
  rcases h.paused t key hfail with hover | ⟨f, hf, hle⟩
  · exact hover
  · exact Nat.le_trans hle ((plan_spec (s.slots key) s.clock).2.2 stale hplan f hf)

theorem planFirst_clock (s : State) (i : Nat) (key : Key) : (s.planFirst i key).clock = s.clock := by
  unfold State.planFirst
  split
  · rfl
  · split
    · rfl
    · split <;> rfl

theorem planAgain_clock (s : State) (i : Nat) (key : Key) : (s.planAgain i key).clock = s.clock := by
  unfold State.planAgain
  split <;> rfl

theorem planFirst_ok {i : Nat} {key : Key} (h : ResolveOk es s) (hcall : s.calls i = some ⟨key, .planning⟩) :
    ResolveOk es (s.planFirst i key) := by
  obtain ⟨hrefresh, hfailure, -⟩ := plan_spec (s.slots key) s.clock
  have hdue : ∀ stale, ((s.slots key).plan s.clock).1 = .refresh stale → Due es s key := fun _ => due_of_plan h
  unfold State.planFirst
  rcases hplan : (s.slots key).plan s.clock with ⟨plan, slot⟩
  rw [hplan] at hrefresh hfailure hdue
  simp only at hrefresh hfailure hdue
  have hkeep : ResolveOk es (s.setSlot key slot) := h.keepSlot hfailure fun j hj => hrefresh ▸ h.holds j key hj
  cases plan with
  | answer result => exact hkeep.setCall (.inl trivial)
  | refresh stale =>
    simp only
    cases htry : slot.refresh.tryLock i with
    | some refresh =>
      obtain ⟨hfree, hheld⟩ := Mutex.tryLock_some htry
      rw [hrefresh] at hfree
      have hnone : ∀ j, ¬ LiveAt s j key := h.noneLive fun j hj => by rw [hfree] at hj; cases hj
      have htaken : ResolveOk es (s.setSlot key { slot with refresh }) :=
        h.keepSlot hfailure fun j hj => absurd hj (hnone j)
      exact htaken.spawn (by simpa [State.setSlot] using hheld) (hdue stale rfl)
    | none =>
      cases stale with
      | some ips => exact hkeep.setCall (.inl trivial)
      | none => exact hkeep.setCall (.inr (h.notLive hcall id))

theorem planAgain_ok {i : Nat} {key : Key} (h : ResolveOk es s) (hcall : s.calls i = some ⟨key, .waiting⟩)
    (hhold : (s.slots key).refresh.holder = some i) :
    ResolveOk es (s.planAgain i key) := by
  obtain ⟨hrefresh, hfailure, -⟩ := plan_spec (s.slots key) s.clock
  have hdue : ∀ stale, ((s.slots key).plan s.clock).1 = .refresh stale → Due es s key := fun _ => due_of_plan h
  unfold State.planAgain
  rcases hplan : (s.slots key).plan s.clock with ⟨plan, slot⟩
  rw [hplan] at hrefresh hfailure hdue
  simp only at hrefresh hfailure hdue
  cases plan with
  | answer result =>
    have hnone := h.noneLive_of_call hcall id hhold
    have hgiven : ResolveOk es (s.setSlot key { slot with refresh := slot.refresh.unlock }) :=
      h.keepSlot hfailure fun j hj => absurd hj (hnone j)
    exact hgiven.setCall (.inl trivial)
  | refresh stale =>
    have hkeep : ResolveOk es (s.setSlot key slot) := h.keepSlot hfailure fun j hj => hrefresh ▸ h.holds j key hj
    refine hkeep.spawn ?_ (hdue stale rfl)
    simpa [State.setSlot, hrefresh] using hhold

theorem recordResult_ok {i : Nat} {key : Key} {result : Except String (List IpAddr × Nat)} (h : ResolveOk es s)
    (hl : s.lookups i = some ⟨key, .looked result⟩) :
    ResolveOk (es ++ [(s.clock, .record i key result)]) (s.recordResult i key result) := by
  have hlive : LiveAt s i key := ⟨_, hl, trivial⟩
  have hhold := h.holds i key hlive
  obtain ⟨hrefresh, hfailure⟩ := record_spec (s.slots key) result s.clock
  unfold State.recordResult
  rcases hrec : (s.slots key).record result s.clock with ⟨answer, slot⟩
  rw [hrec] at hrefresh hfailure
  simp only at hrefresh hfailure ⊢
  -- the task is done, and no other is live for its key
  have hdone : ResolveOk es (s.setLookup i ⟨key, .done answer⟩) := h.setLookup (h.spawned i _ hl) False.elim
  have hnone : ∀ j, ¬ LiveAt (s.setLookup i ⟨key, .done answer⟩) j key := by
    apply hdone.noneLive
    rintro j hj ⟨phase, hlj, hp⟩
    obtain rfl : i = j := Option.some.inj (hhold.symm.trans hj)
    simp only [State.setLookup, Function.update_self] at hlj
    cases hlj
    exact hp
  have hslot : ResolveOk es ((s.setLookup i ⟨key, .done answer⟩).setSlot key
      { slot with refresh := slot.refresh.unlock }) := by
    refine hdone.setSlot (fun j hj => absurd hj (hnone j)) fun t hfail => ?_
    cases result with
    | ok answer => exact .inl (h.due i key hlive t hfail)
    | error err =>
      obtain ⟨j, err', hmem⟩ := hfail
      exact .inr ⟨_, hfailure err rfl, Nat.add_le_add_right (h.times _ hmem) _⟩
  apply hslot.snoc rfl
  rintro j key' err ⟨⟩
  refine ⟨hnone, ⟨err, s.clock + retryAfterFailure⟩, ?_, Nat.le_refl _⟩
  simp only [State.setSlot, Function.update_self]
  exact hfailure err rfl

theorem moves_ok {s' : State} {e : Event} (h : ResolveOk es s) (hm : Moves s e s') :
    ResolveOk (es ++ [(s.clock, e)]) s' := by
  cases hm with
  | call hfree =>
    rename_i i host stack
    have hnone : s.lookups i = none := by
      cases hl : s.lookups i with
      | none => rfl
      | some lookup =>
        obtain ⟨call, hc, -⟩ := h.spawned i lookup hl
        rw [hfree] at hc
        cases hc
    exact (h.setCall (.inr hnone)).snoc rfl (by simp)
  | plan hcall =>
    exact (planFirst_ok h hcall).snoc (planFirst_clock s _ _) (by simp)
  | lock hcall =>
    refine ResolveOk.snoc ?_ rfl (by simp)
    refine ResolveOk.setCall ?_ (.inr (h.notLive hcall id))
    refine h.keepSlot rfl fun j hj => ?_
    exact Mutex.lock_holder (h.holds j _ hj) _
  | replan hcall hhold =>
    exact (planAgain_ok h hcall hhold).snoc (planAgain_clock s _ _) (by simp)
  | start hl =>
    refine ResolveOk.snoc ?_ rfl (by simp)
    exact h.setLookup (h.spawned _ _ hl) fun _ => ⟨h.holds _ _ ⟨_, hl, trivial⟩, h.due _ _ ⟨_, hl, trivial⟩⟩
  | finish result hl =>
    refine ResolveOk.snoc ?_ rfl (by simp)
    exact h.setLookup (h.spawned _ _ hl) fun _ => ⟨h.holds _ _ ⟨_, hl, trivial⟩, h.due _ _ ⟨_, hl, trivial⟩⟩
  | record hl => exact recordResult_ok h hl
  | join hcall hl =>
    refine ResolveOk.snoc ?_ rfl (by simp)
    exact h.setCall (.inl trivial)
  | cancel hcall hphase =>
    refine ResolveOk.snoc ?_ rfl (by simp)
    exact h.setCall (.inl trivial)
  | cancelWaiting hcall =>
    refine ResolveOk.snoc ?_ rfl (by simp)
    refine ResolveOk.setCall ?_ (.inl trivial)
    refine h.keepSlot rfl fun j hj => ?_
    refine Mutex.leave_holder (h.holds j _ hj) ?_
    -- a live task belongs to another call
    rintro rfl
    obtain ⟨phase, hl, -⟩ := hj
    rw [h.notLive hcall id] at hl
    cases hl
  | invalidate hle =>
    rename_i host earlier
    have hsame : ∀ key, ((s.invalidate host earlier).slots key).refresh = (s.slots key).refresh ∧
        ((s.invalidate host earlier).slots key).failure = (s.slots key).failure := by
      intro key
      unfold State.invalidate
      simp only
      split <;> exact ⟨rfl, rfl⟩
    refine ResolveOk.snoc ?_ rfl (by simp)
    refine ⟨h.times, fun i key hlive => ?_, h.due, h.spawned, fun t key hfail => ?_⟩
    · rw [(hsame key).1]
      exact h.holds i key hlive
    · rw [(hsame key).2]
      exact h.paused t key hfail

theorem resolveOk (h : Run resolveSystem es s) : ResolveOk es s := by
  refine h.invariant (I := ResolveOk) ?_ ?_
  · rintro s ⟨hslots, hcalls, hlookups⟩
    have hnone : ∀ i key, ¬ LiveAt s i key := by
      rintro i key ⟨phase, hl, -⟩
      rw [hlookups] at hl
      cases hl
    have hempty : ∀ t key, ¬ FailedAt [] t key := by
      rintro t key ⟨i, err, hmem⟩
      cases hmem
    refine ⟨by simp, fun i key hl => absurd hl (hnone i key), fun i key hl => absurd hl (hnone i key), ?_,
      fun t key hfail => absurd hfail (hempty t key)⟩
    intro i lookup hl
    rw [hlookups] at hl
    cases hl
  · rintro es s ⟨t, e⟩ s' - h ⟨hclock, hm⟩
    exact moves_ok (h.tick hclock) hm

/-- Whatever the interleaving, the outcomes and the cancellations: two lookups for one key never run at the same
time, and none starts within the pause after a recorded failure of its key. -/
theorem single_flight (h : Run resolveSystem es s) :
    (∀ i j key, s.lookups i = some ⟨key, .running⟩ → s.lookups j = some ⟨key, .running⟩ → i = j) ∧
    ∀ before after t i key, es = before ++ (t, .start i key) :: after →
      ∀ t0 j err, (t0, Event.record j key (.error err)) ∈ before → t0 + retryAfterFailure ≤ t := by
  constructor
  · intro i j key hi hj
    have hok := resolveOk h
    have hi := hok.holds i key ⟨_, hi, trivial⟩
    have hj := hok.holds j key ⟨_, hj, trivial⟩
    exact Option.some.inj (hi.symm.trans hj)
  · rintro before after t i key rfl t0 j err hmem
    obtain ⟨s0, s1, hrun, hclock, hm⟩ := h.split
    cases hm with
    | start hl =>
      have hdue := (resolveOk hrun).due i key ⟨_, hl, trivial⟩ t0 ⟨j, err, hmem⟩
      exact Nat.le_trans hdue hclock

def dnsKey : Key := (lowercase "dns", .v4)

def idle : State := ⟨0, fun _ => .empty, fun _ => none, fun _ => none⟩

/-- The lookup of a first call at time 0 came back with an error. -/
def looked : State :=
  ((((idle.setCall 0 ⟨dnsKey, .planning⟩).planFirst 0 dnsKey).setLookup 0 ⟨dnsKey, .running⟩).setLookup 0
    ⟨dnsKey, .looked (.error "down")⟩)

/-- It was recorded, and there is a second call. -/
def calledAgain : State := (looked.recordResult 0 dnsKey (.error "down")).setCall 1 ⟨dnsKey, .planning⟩

/-- Thirty seconds later the second call plans. -/
def plannedAgain : State := ({ calledAgain with clock := secs 30 } : State).planFirst 1 dnsKey

theorem calledAgain_slot : calledAgain.slots dnsKey = ⟨none, some ⟨"down", secs 30⟩, .unlocked⟩ := by
  have hlooked : looked.slots dnsKey = ⟨none, none, ⟨some 0, [], by simp⟩⟩ := Function.update_self ..
  unfold calledAgain State.recordResult
  rw [hlooked]
  exact Function.update_self ..

theorem plannedAgain_lookup : plannedAgain.lookups 1 = some ⟨dnsKey, .spawned⟩ := by
  unfold plannedAgain State.planFirst
  rw [show ({ calledAgain with clock := secs 30 } : State).slots dnsKey = _ from calledAgain_slot]
  rfl

/-- The second lookup starts when the pause after the first is over, not before. -/
theorem single_flight_retry : 0 + retryAfterFailure ≤ secs 30 := by
  have h0 : Run resolveSystem [] idle := .start ⟨rfl, rfl, rfl⟩
  have h1 : Run resolveSystem [(0, .call 0 "dns" .v4)] (idle.setCall 0 ⟨dnsKey, .planning⟩) :=
    h0.snoc ⟨Nat.le_refl 0, .call rfl⟩
  have h2 := h1.snoc (e := (0, .plan 0)) ⟨Nat.le_refl 0, .plan rfl⟩
  have h3 := h2.snoc (e := (0, .start 0 dnsKey)) ⟨Nat.le_refl 0, .start rfl⟩
  have h4 : Run resolveSystem _ looked := h3.snoc (e := (0, .finish 0)) ⟨Nat.le_refl 0, .finish (.error "down") rfl⟩
  have h5 := h4.snoc (e := (0, .record 0 dnsKey (.error "down"))) ⟨Nat.le_refl 0, .record rfl⟩
  have h6 : Run resolveSystem _ calledAgain := h5.snoc (e := (0, .call 1 "dns" .v4)) ⟨Nat.le_refl 0, .call rfl⟩
  have h7 : Run resolveSystem _ plannedAgain := h6.snoc (e := (secs 30, .plan 1)) ⟨Nat.zero_le _, .plan rfl⟩
  have h8 : resolveSystem.step plannedAgain (secs 30, .start 1 dnsKey)
      (({ plannedAgain with clock := secs 30 } : State).setLookup 1 ⟨dnsKey, .running⟩) :=
    ⟨(planFirst_clock _ _ _).le, Moves.start plannedAgain_lookup⟩
  exact (single_flight (h7.snoc h8)).2 _ [] (secs 30) 1 dnsKey rfl 0 0 "down" (by simp)

end DNSRivet.Upstream.Bootstrap
