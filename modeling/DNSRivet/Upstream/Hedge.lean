/-
`Manager::forward_hedged`: one query over several upstreams. The first attempt runs in the caller;
once the hedge timer fires it moves to a task of the join set and the next upstream is started beside
it. The loop runs between awaits without interruption, while tasks finish, the clock advances and
the shared budget comes and goes around it: each of these is an event of the run. A join set task does
not panic here, and its abort handles are used on the way out only, so every join yields a result.

Two headline results over every run: upstreams are started at most once, in order, and not too early,
and are given up only when none is left (`hedged_failover`); and attempts without a deadline are
never raced nor left behind (`deadline_free_isolated`).
-/
import DNSRivet.Base.System
import DNSRivet.Upstream.Entry

namespace DNSRivet.Upstream

open DNSRivet.Base DNSRivet.Wire

/-- Nanoseconds. -/
def hedgeDelay : Nat := 300000000

/-! ## The call -/

/-- A task of the join set, with its result once it has finished. -/
structure Task where
  index : Nat
  result : Option (Except String Bytes)

/-- An answer, the upstream it came from and what that upstream replied. -/
structure Taken where
  index : Nat
  reply : Bytes
  response : Bytes

/-- Where the call is: at the head of its loop, waiting for the attempt it runs itself, waiting for
its tasks, or back at its caller. -/
inductive Phase
  | top
  | inline (index : Nat)
  | select
  | returned (answer : Option Taken)

structure Hedged where
  now : Nat
  next : Nat
  hedgeAt : Option Nat
  attempts : List Task
  legacyAttempts : List Nat
  phase : Phase

inductive HedgeEvent
  /-- The next upstream is taken, with a permit. -/
  | start (index : Nat)
  | noPermit
  | exhausted
  | wait
  /-- The hedge timer fires. -/
  | hedge
  | finish (index : Nat) (result : Except String Bytes)
  | join (index : Nat)

/-- `timeout_ms > 0`. -/
def bounded (entries : List Entry) (index : Nat) : Bool := (entries[index]?).any fun entry => 0 < entry.timeoutMs

def legacyAt (entries : List Entry) (index : Nat) : Bool := (entries[index]?).any fun entry => entry.backend.isLegacy

/-- `configured_answer` of what upstream `index` came to. -/
def answerFrom (query : Bytes) (index : Nat) (result : Except String Bytes) : Option Taken :=
  match result with
  | .error _ => none
  | .ok reply => (configuredAnswer query (.ok reply)).map fun response => ⟨index, reply, response⟩

namespace Hedged

def due (s : Hedged) (now : Nat) : Bool := s.hedgeAt.any (· ≤ now)

/-- Whether the loop turns to the next upstream. -/
def turns (s : Hedged) (now : Nat) : Prop := s.phase = .top ∧ (s.attempts = [] ∨ s.due now = true)

/-- Move an attempt into the join set. -/
def spawn (s : Hedged) (entries : List Entry) (index : Nat) : Hedged :=
  { s with
    attempts := s.attempts ++ [⟨index, none⟩]
    legacyAttempts := if legacyAt entries index then s.legacyAttempts ++ [index] else s.legacyAttempts
    phase := .top }

/-- Take the next upstream; it is raced only by a successor when both have a deadline. -/
def take (s : Hedged) (entries : List Entry) (now : Nat) : Hedged :=
  let hedgeAt := if bounded entries s.next && bounded entries (s.next + 1) then some (now + hedgeDelay) else none
  let taken := { s with now := now, next := s.next + 1, hedgeAt := hedgeAt }
  if s.attempts = [] then { taken with phase := .inline s.next } else taken.spawn entries s.next

/-- No upstream can be taken: back to waiting, unless there is nothing to wait for. -/
def refuse (s : Hedged) (now : Nat) : Hedged :=
  { s with now := now, hedgeAt := none, phase := if s.attempts = [] then .returned none else .top }

/-- A finished attempt of the caller's own. -/
def settle (s : Hedged) (query : Bytes) (index : Nat) (result : Except String Bytes) : Hedged :=
  { s with
    phase := match answerFrom query index result with
      | some taken => .returned (some taken)
      | none => .top }

/-- A finished task leaves the join set. With an answer, the legacy tasks are aborted and the others
detached. -/
def join (s : Hedged) (query : Bytes) (index : Nat) (result : Except String Bytes) : Hedged :=
  let rest := s.attempts.filter (·.index != index)
  match answerFrom query index result with
  | some taken =>
    { s with
      attempts := rest.filter fun task => !s.legacyAttempts.contains task.index
      phase := .returned (some taken) }
  | none => { s with attempts := rest, phase := .top }

/-- A task finishes. -/
def finish (s : Hedged) (index : Nat) (result : Except String Bytes) : Hedged :=
  { s with attempts := s.attempts.map fun task => if task.index = index then ⟨index, some result⟩ else task }

/-- The upstreams whose attempts are running. -/
def running (s : Hedged) : List Nat :=
  (match s.phase with
    | .inline index => [index]
    | _ => []) ++
  (s.attempts.filter (·.result.isNone)).map Task.index

end Hedged

/-- Runs of one call; each event at its time. -/
def forwardHedged (entries : List Entry) (query : Bytes) : System Hedged (Nat × HedgeEvent) where
  init := fun s => ∃ now, s = ⟨now, 0, none, [], [], .top⟩
  step := fun s (now, e) s' => s.now ≤ now ∧
    match e with
    | .start index =>
      -- the clock is read once more to arm the hedge
      ∃ armed, now ≤ armed ∧ s.turns now ∧ index = s.next ∧ index < entries.length ∧ s' = s.take entries armed
    | .noPermit => s.turns now ∧ s.next < entries.length ∧ s' = s.refuse now
    | .exhausted => s.turns now ∧ entries.length ≤ s.next ∧ s' = s.refuse now
    | .wait => s.phase = .top ∧ s.attempts ≠ [] ∧ s.due now = false ∧ s' = { s with now := now, phase := .select }
    | .hedge => s.due now = true ∧
      ((∃ index, s.phase = .inline index ∧ s' = { s with now := now }.spawn entries index) ∨
        s.phase = .select ∧ s' = { s with now := now, phase := .top })
    | .finish index result =>
      s.phase = .inline index ∧ s' = { s with now := now }.settle query index result ∨
        ⟨index, none⟩ ∈ s.attempts ∧ s' = { s with now := now }.finish index result
    | .join index => ∃ result, s.phase = .select ∧ ⟨index, some result⟩ ∈ s.attempts ∧
      s' = { s with now := now }.join query index result

/-! ## The invariant -/

variable {entries : List Entry} {query : Bytes} {es : List (Nat × HedgeEvent)} {s s' : Hedged}

/-- What the state alone satisfies: tasks belong to distinct upstreams taken before and have a
deadline, legacy ones can be aborted and are once an answer was taken, and the hedge is armed only
between two upstreams that may be raced. -/
structure HedgedOk (entries : List Entry) (s : Hedged) : Prop where
  next_le : s.next ≤ entries.length
  nodup : (s.attempts.map Task.index).Nodup
  task_lt : ∀ task ∈ s.attempts, task.index < s.next
  task_bounded : ∀ task ∈ s.attempts, bounded entries task.index = true
  abortable : ∀ task ∈ s.attempts, legacyAt entries task.index = true → task.index ∈ s.legacyAttempts
  armed : s.hedgeAt.isSome → bounded entries s.next = true ∧ ∃ index, s.next = index + 1 ∧ bounded entries index = true
  inline : ∀ index, s.phase = .inline index → s.attempts = [] ∧ s.next = index + 1
  select : s.phase = .select → s.attempts ≠ []
  detached : ∀ taken, s.phase = .returned (some taken) → ∀ task ∈ s.attempts, legacyAt entries task.index = false

theorem HedgedOk.of_eq (h : HedgedOk entries s) (hn : s'.next = s.next) (ha : s'.attempts = s.attempts)
    (hl : s'.legacyAttempts = s.legacyAttempts) (hh : s'.hedgeAt.isSome → s.hedgeAt.isSome)
    (hi : ∀ index, s'.phase = .inline index → s'.attempts = [] ∧ s'.next = index + 1)
    (hs : s'.phase = .select → s'.attempts ≠ [])
    (hd : ∀ taken, s'.phase = .returned (some taken) → ∀ task ∈ s'.attempts, legacyAt entries task.index = false) :
    HedgedOk entries s' where
  next_le := hn ▸ h.next_le
  nodup := ha ▸ h.nodup
  task_lt := by rw [ha, hn]; exact h.task_lt
  task_bounded := ha ▸ h.task_bounded
  abortable := by rw [ha, hl]; exact h.abortable
  armed := fun hsome => hn ▸ h.armed (hh hsome)
  inline := hi
  select := hs
  detached := hd

/-- Spawning the attempt of an upstream that was taken, has a deadline and is no task yet. -/
theorem HedgedOk.spawn {index : Nat} (h : HedgedOk entries s) (hlt : index < s.next)
    (hb : bounded entries index = true) (hnew : index ∉ s.attempts.map Task.index) :
    HedgedOk entries (s.spawn entries index) where
  next_le := h.next_le
  nodup := by
    simp only [Hedged.spawn, List.map_append, List.map_cons, List.map_nil]
    exact List.Nodup.append h.nodup (List.nodup_singleton _) (by simpa using hnew)
  task_lt := by
    intro task ht
    rcases List.mem_append.1 ht with ht | ht
    · exact h.task_lt task ht
    · rw [List.mem_singleton.1 ht]; exact hlt
  task_bounded := by
    intro task ht
    rcases List.mem_append.1 ht with ht | ht
    · exact h.task_bounded task ht
    · rw [List.mem_singleton.1 ht]; exact hb
  abortable := by
    intro task ht hleg
    simp only [Hedged.spawn]
    rcases List.mem_append.1 ht with ht | ht
    · have := h.abortable task ht hleg
      split
      · exact List.mem_append_left _ this
      · exact this
    · rw [List.mem_singleton.1 ht] at hleg ⊢
      rw [if_pos hleg]
      exact List.mem_append_right _ (List.mem_singleton_self _)
  armed := h.armed
  inline := by intro i hi; cases hi
  select := by intro hs; cases hs
  detached := by intro taken ht; cases ht

/-- Dropping tasks on the way to the loop's head or to the caller. -/
theorem HedgedOk.subset (h : HedgedOk entries s) {p : Task → Bool} {phase : Phase}
    (hi : ∀ index, phase ≠ .inline index) (hs : phase ≠ .select)
    (hd : ∀ taken, phase = .returned (some taken) → ∀ task ∈ s.attempts, p task = true →
      legacyAt entries task.index = false) :
    HedgedOk entries { s with attempts := s.attempts.filter p, phase := phase } where
  next_le := h.next_le
  nodup := (List.filter_sublist.map Task.index).nodup h.nodup
  task_lt := fun task ht => h.task_lt task (List.mem_of_mem_filter ht)
  task_bounded := fun task ht => h.task_bounded task (List.mem_of_mem_filter ht)
  abortable := fun task ht => h.abortable task (List.mem_of_mem_filter ht)
  armed := h.armed
  inline := fun index hp => absurd hp (hi index)
  select := fun hp => absurd hp hs
  detached := fun taken hp task ht => hd taken hp task (List.mem_filter.1 ht).1 (List.mem_filter.1 ht).2

theorem HedgedOk.take {now : Nat} (h : HedgedOk entries s) (ht : s.turns now) (hlt : s.next < entries.length)
    (armed : Nat) : HedgedOk entries (s.take entries armed) := by
  obtain ⟨htop, hturn⟩ := ht
  -- the state between taking the upstream and running it
  have htaken : HedgedOk entries { s with
      now := armed
      next := s.next + 1
      hedgeAt :=
        if bounded entries s.next && bounded entries (s.next + 1) then some (armed + hedgeDelay) else none } := by
    refine ⟨hlt, h.nodup, fun task ht => Nat.lt_succ_of_lt (h.task_lt task ht), h.task_bounded, h.abortable, ?_, ?_, ?_,
      h.detached⟩
    · intro harmed
      simp only at harmed
      split at harmed
      · rename_i hb
        simp only [Bool.and_eq_true] at hb
        exact ⟨hb.2, s.next, rfl, hb.1⟩
      · cases harmed
    · intro index hi; rw [htop] at hi; cases hi
    · intro hs; rw [htop] at hs; cases hs
  unfold Hedged.take
  simp only
  split
  · rename_i hempty
    refine htaken.of_eq rfl rfl rfl id ?_ (fun hs => by cases hs) (fun taken hp => by cases hp)
    intro index hi
    cases hi
    exact ⟨hempty, rfl⟩
  · rename_i hbusy
    refine htaken.spawn (Nat.lt_succ_self _) ?_ ?_
    · rcases hturn with hempty | hdue
      · exact absurd hempty hbusy
      · exact (h.armed (Option.isSome_of_any hdue)).1
    · intro hmem
      obtain ⟨task, hmem, heq⟩ := List.mem_map.1 hmem
      exact absurd (h.task_lt task hmem) (by omega)

theorem Hedged.refuse_phase (s : Hedged) (now : Nat) :
    s.attempts = [] ∧ (s.refuse now).phase = .returned none ∨ s.attempts ≠ [] ∧ (s.refuse now).phase = .top := by
  by_cases hempty : s.attempts = []
  · exact .inl ⟨hempty, if_pos hempty⟩
  · exact .inr ⟨hempty, if_neg hempty⟩

theorem HedgedOk.refuse (h : HedgedOk entries s) (now : Nat) : HedgedOk entries (s.refuse now) := by
  have hphase : (s.refuse now).phase = .returned none ∨ (s.refuse now).phase = .top :=
    (s.refuse_phase now).imp And.right And.right
  refine h.of_eq rfl rfl rfl (fun hsome => by cases hsome) ?_ ?_ ?_
  · intro index hi
    rcases hphase with hp | hp <;> rw [hp] at hi <;> cases hi
  · intro hs
    rcases hphase with hp | hp <;> rw [hp] at hs <;> cases hs
  · intro taken ht
    rcases hphase with hp | hp <;> rw [hp] at ht <;> cases ht

theorem answerFrom_some {index : Nat} {result : Except String Bytes} {taken : Taken}
    (h : answerFrom query index result = some taken) :
    taken.index = index ∧ result = .ok taken.reply ∧ rcode taken.reply ≠ servfail ∧
      taken.response = setId taken.reply (ident query) := by
  cases result with
  | error err => cases h
  | ok reply =>
    obtain ⟨response, hresponse, rfl⟩ := Option.map_eq_some_iff.1 h
    obtain ⟨r, hr, hrcode, hset⟩ := configuredAnswer_some hresponse
    cases hr
    exact ⟨rfl, rfl, hrcode, hset⟩

theorem Hedged.settle_cases (s : Hedged) (query : Bytes) (index : Nat) (result : Except String Bytes) :
    (answerFrom query index result = none ∧ s.settle query index result = { s with phase := .top }) ∨
      ∃ taken, answerFrom query index result = some taken ∧
        s.settle query index result = { s with phase := .returned (some taken) } := by
  unfold Hedged.settle
  cases answerFrom query index result with
  | none => exact .inl ⟨rfl, rfl⟩
  | some taken => exact .inr ⟨taken, rfl, rfl⟩

theorem Hedged.join_cases (s : Hedged) (query : Bytes) (index : Nat) (result : Except String Bytes) :
    (answerFrom query index result = none ∧ s.join query index result =
        { s with attempts := s.attempts.filter (·.index != index), phase := .top }) ∨
      ∃ taken, answerFrom query index result = some taken ∧ s.join query index result =
        { s with
          attempts := s.attempts.filter fun task => !s.legacyAttempts.contains task.index && task.index != index
          phase := .returned (some taken) } := by
  unfold Hedged.join
  cases answerFrom query index result with
  | none => exact .inl ⟨rfl, rfl⟩
  | some taken => exact .inr ⟨taken, rfl, by simp only [List.filter_filter]⟩

theorem HedgedOk.finish (h : HedgedOk entries s) (index : Nat) (result : Except String Bytes) :
    HedgedOk entries (s.finish index result) := by
  have hmap : (s.finish index result).attempts.map Task.index = s.attempts.map Task.index := by
    simp only [Hedged.finish, List.map_map]
    refine List.map_congr_left fun task _ => ?_
    simp only [Function.comp]
    split
    · rename_i heq; exact heq.symm
    · rfl
  -- the tasks are the same up to their results
  have hmem : ∀ task ∈ (s.finish index result).attempts, ∃ task0 ∈ s.attempts, task0.index = task.index := by
    intro task ht
    have : task.index ∈ s.attempts.map Task.index := hmap ▸ List.mem_map_of_mem ht
    exact List.mem_map.1 this
  constructor
  case next_le => exact h.next_le
  case nodup => rw [hmap]; exact h.nodup
  case task_lt =>
    intro task ht
    obtain ⟨task0, ht0, heq⟩ := hmem task ht
    exact heq ▸ h.task_lt task0 ht0
  case task_bounded =>
    intro task ht
    obtain ⟨task0, ht0, heq⟩ := hmem task ht
    exact heq ▸ h.task_bounded task0 ht0
  case abortable =>
    intro task ht
    obtain ⟨task0, ht0, heq⟩ := hmem task ht
    exact heq ▸ h.abortable task0 ht0
  case armed => exact h.armed
  case inline =>
    intro i hi
    obtain ⟨hempty, hnext⟩ := h.inline i hi
    exact ⟨by simp only [Hedged.finish, hempty, List.map_nil], hnext⟩
  case select =>
    intro hs hempty
    exact h.select hs (by simpa [Hedged.finish] using hempty)
  case detached =>
    intro taken hp task ht
    obtain ⟨task0, ht0, heq⟩ := hmem task ht
    exact heq ▸ h.detached taken hp task0 ht0

/-- One step keeps the state in order. -/
theorem hedgedOk_step {e : Nat × HedgeEvent} (h : HedgedOk entries s)
    (hs : (forwardHedged entries query).step s e s') : HedgedOk entries s' := by
  obtain ⟨now, e⟩ := e
  obtain ⟨-, hs⟩ := hs
  have hnow : HedgedOk entries { s with now := now } := h.of_eq rfl rfl rfl id h.inline h.select h.detached
  cases e with
  | start index =>
    obtain ⟨armed, -, hturns, hindex, hlt, rfl⟩ := hs
    exact h.take hturns (hindex ▸ hlt) armed
  | noPermit =>
    obtain ⟨-, -, rfl⟩ := hs
    exact h.refuse now
  | exhausted =>
    obtain ⟨-, -, rfl⟩ := hs
    exact h.refuse now
  | wait =>
    obtain ⟨-, hbusy, -, rfl⟩ := hs
    exact h.of_eq rfl rfl rfl id (fun index hi => by cases hi) (fun _ => hbusy) (fun taken hp => by cases hp)
  | hedge =>
    obtain ⟨hdue, ⟨index, hinline, rfl⟩ | ⟨hselect, rfl⟩⟩ := hs
    · obtain ⟨hempty, hnext⟩ := h.inline index hinline
      obtain ⟨-, i, hi, hb⟩ := h.armed (Option.isSome_of_any hdue)
      obtain rfl : index = i := by omega
      exact hnow.spawn (by simp only; omega) hb (by simp [hempty])
    · exact h.of_eq rfl rfl rfl id (fun index hi => by cases hi) (fun hs => by cases hs) (fun taken hp => by cases hp)
  | finish index result =>
    rcases hs with ⟨hinline, rfl⟩ | ⟨-, rfl⟩
    · have hnone : ∀ task ∈ s.attempts, legacyAt entries task.index = false := by
        simp [(h.inline index hinline).1]
      rcases Hedged.settle_cases { s with now := now } query index result with ⟨-, heq⟩ | ⟨taken, -, heq⟩
      · rw [heq]
        exact h.of_eq rfl rfl rfl id (fun index hi => by cases hi) (fun hs => by cases hs) (fun _ _ => hnone)
      · rw [heq]
        exact h.of_eq rfl rfl rfl id (fun index hi => by cases hi) (fun hs => by cases hs) (fun _ _ => hnone)
    · exact hnow.finish index result
  | join index =>
    obtain ⟨result, -, -, rfl⟩ := hs
    rcases Hedged.join_cases { s with now := now } query index result with ⟨-, heq⟩ | ⟨taken, -, heq⟩
    · rw [heq]
      exact hnow.subset (by simp) (by simp) (fun taken hp => by cases hp)
    · rw [heq]
      refine hnow.subset (by simp) (by simp) fun _ _ task ht hkeep => ?_
      -- a legacy task would have been aborted
      by_contra hleg
      have := h.abortable task ht (by simpa using hleg)
      simp [this] at hkeep

theorem hedgedOk (h : Run (forwardHedged entries query) es s) : HedgedOk entries s := by
  refine h.invariant_state (I := HedgedOk entries) ?_ fun s e s' => hedgedOk_step
  rintro s ⟨now, rfl⟩
  constructor <;> simp

/-! ## A race -/

/-- Two encrypted upstreams with a deadline. -/
def racers : List Entry := [⟨"doh3", 5000, .encrypted⟩, ⟨"doh", 5000, .encrypted⟩]

/-- A query for the root's addresses, and a reply to it under ID 0. -/
def raceQuery : Bytes := [1, 2, 1, 0, 0, 1, 0, 0, 0, 0, 0, 0, 0, 0, 1, 0, 1]

def raceReply : Bytes := [0, 0, 0x81, 0x80, 0, 1, 0, 0, 0, 0, 0, 0, 0, 0, 1, 0, 1]

/-- The first upstream stays silent, the second is started beside it and answers. -/
def raceEvents : List (Nat × HedgeEvent) :=
  [(0, .start 0), (hedgeDelay, .hedge), (hedgeDelay, .start 1), (hedgeDelay, .wait),
    (2 * hedgeDelay, .finish 1 (.ok raceReply)), (2 * hedgeDelay, .join 1)]

/-- The call after the first four events, and at its end. -/
def raceWait : Hedged :=
  ⟨hedgeDelay, 2, none, [⟨0, none⟩, ⟨1, none⟩], [], .select⟩

def raceEnd : Hedged :=
  ⟨2 * hedgeDelay, 2, none, [⟨0, none⟩], [], .returned (some ⟨1, raceReply, setId raceReply (1, 2)⟩)⟩

theorem race_wait : Run (forwardHedged racers raceQuery) (raceEvents.take 4) raceWait := by
  have h0 : Run (forwardHedged racers raceQuery) [] ⟨0, 0, none, [], [], .top⟩ := .start ⟨0, rfl⟩
  have s1 : (forwardHedged racers raceQuery).step ⟨0, 0, none, [], [], .top⟩ (0, .start 0)
      ⟨0, 1, some hedgeDelay, [], [], .inline 0⟩ :=
    ⟨Nat.le_refl _, 0, Nat.le_refl _, ⟨rfl, .inl rfl⟩, rfl, by decide, rfl⟩
  have s2 : (forwardHedged racers raceQuery).step ⟨0, 1, some hedgeDelay, [], [], .inline 0⟩ (hedgeDelay, .hedge)
      ⟨hedgeDelay, 1, some hedgeDelay, [⟨0, none⟩], [], .top⟩ :=
    ⟨Nat.zero_le _, by decide, .inl ⟨0, rfl, rfl⟩⟩
  have s3 : (forwardHedged racers raceQuery).step ⟨hedgeDelay, 1, some hedgeDelay, [⟨0, none⟩], [], .top⟩
      (hedgeDelay, .start 1) ⟨hedgeDelay, 2, none, [⟨0, none⟩, ⟨1, none⟩], [], .top⟩ :=
    ⟨Nat.le_refl _, hedgeDelay, Nat.le_refl _, ⟨rfl, .inr (by decide)⟩, rfl, by decide, rfl⟩
  have s4 : (forwardHedged racers raceQuery).step ⟨hedgeDelay, 2, none, [⟨0, none⟩, ⟨1, none⟩], [], .top⟩
      (hedgeDelay, .wait) raceWait :=
    ⟨Nat.le_refl _, rfl, by simp, rfl, rfl⟩
  exact (((h0.snoc s1).snoc s2).snoc s3).snoc s4

theorem race_end : Run (forwardHedged racers raceQuery) raceEvents raceEnd := by
  have s5 : (forwardHedged racers raceQuery).step raceWait (2 * hedgeDelay, .finish 1 (.ok raceReply))
      ⟨2 * hedgeDelay, 2, none, [⟨0, none⟩, ⟨1, some (.ok raceReply)⟩], [], .select⟩ :=
    ⟨by decide, .inr ⟨by simp [raceWait], rfl⟩⟩
  have s6 : (forwardHedged racers raceQuery).step
      ⟨2 * hedgeDelay, 2, none, [⟨0, none⟩, ⟨1, some (.ok raceReply)⟩], [], .select⟩
      (2 * hedgeDelay, .join 1) raceEnd :=
    ⟨Nat.le_refl _, .ok raceReply, rfl, by simp, rfl⟩
  exact (race_wait.snoc s5).snoc s6

/-! ## Attempts without a deadline -/

theorem Hedged.mem_running {i : Nat} : i ∈ s.running ↔ s.phase = .inline i ∨ ⟨i, none⟩ ∈ s.attempts := by
  simp only [Hedged.running, List.mem_append, List.mem_map, List.mem_filter, Option.isNone_iff_eq_none]
  constructor
  · rintro (hin | ⟨task, ⟨hmem, hnone⟩, rfl⟩)
    · split at hin
      · rename_i index hphase
        rw [hphase, List.mem_singleton.1 hin]
        exact .inl rfl
      · cases hin
    · rw [← hnone]; exact .inr hmem
  · rintro (hin | hmem)
    · rw [hin]; exact .inl (List.mem_singleton_self i)
    · exact .inr ⟨_, ⟨hmem, rfl⟩, rfl⟩

/-- Away from the caller's own attempt, only tasks run. -/
theorem HedgedOk.running_bounded (h : HedgedOk entries s) (hphase : ∀ index, s.phase ≠ .inline index) :
    ∀ i ∈ s.running, bounded entries i = true := by
  intro i hi
  rcases Hedged.mem_running.1 hi with hin | hmem
  · exact absurd hin (hphase i)
  · exact h.task_bounded _ hmem

theorem HedgedOk.running_inline (h : HedgedOk entries s) {index : Nat} (hphase : s.phase = .inline index) :
    s.running = [index] := by
  simp only [Hedged.running, hphase, (h.inline index hphase).1, List.filter_nil, List.map_nil, List.append_nil]

theorem bounded_encrypted {i : Nat} (hb : bounded entries i = true) (hl : legacyAt entries i = false) :
    ∃ entry, entries[i]? = some entry ∧ 0 < entry.timeoutMs ∧ entry.backend = .encrypted := by
  obtain ⟨entry, hentry, htimeout⟩ := (Option.any_eq_true _ _).1 hb
  refine ⟨entry, hentry, by simpa using htimeout, ?_⟩
  simp only [legacyAt, hentry, Option.any_some] at hl
  cases hbackend : entry.backend with
  | legacy host port ip stack deny => rw [hbackend] at hl; cases hl
  | encrypted => rfl

/-- Attempts that run at the same time all have a deadline; an upstream without one is started only when
nothing runs; and what is left running after an answer is encrypted and has a deadline. -/
theorem deadline_free_isolated {es : List (Nat × HedgeEvent)} (h : Run (forwardHedged entries query) es s) :
    (2 ≤ s.running.length → ∀ i ∈ s.running, bounded entries i = true) ∧
    (∀ t i s', (forwardHedged entries query).step s (t, .start i) s' → bounded entries i = false → s.running = []) ∧
    (∀ taken, s.phase = .returned (some taken) → ∀ i ∈ s.running,
      ∃ entry, entries[i]? = some entry ∧ 0 < entry.timeoutMs ∧ entry.backend = .encrypted) := by
  have hok := hedgedOk h
  refine ⟨?_, ?_, ?_⟩
  · intro htwo
    by_cases hinline : ∃ index, s.phase = .inline index
    · obtain ⟨index, hphase⟩ := hinline
      rw [hok.running_inline hphase] at htwo
      cases htwo.not_gt Nat.one_lt_two
    · exact hok.running_bounded fun index hphase => hinline ⟨index, hphase⟩
  · rintro t i s' ⟨-, armed, -, ⟨htop, hturn⟩, rfl, -, -⟩ hfree
    rcases hturn with hempty | hdue
    · simp only [Hedged.running, htop, hempty, List.filter_nil, List.map_nil, List.append_nil]
    · -- the hedge is armed for upstreams with a deadline only
      rw [(hok.armed (Option.isSome_of_any hdue)).1] at hfree
      cases hfree
  · intro taken hphase i hi
    rcases Hedged.mem_running.1 hi with hin | hmem
    · rw [hphase] at hin; cases hin
    · exact bounded_encrypted (hok.task_bounded _ hmem) (hok.detached taken hphase _ hmem)

theorem deadline_free_isolated_race :
    (∀ i ∈ raceWait.running, bounded racers i = true) ∧
    ∀ i ∈ raceEnd.running, ∃ entry, racers[i]? = some entry ∧ 0 < entry.timeoutMs ∧ entry.backend = .encrypted :=
  ⟨(deadline_free_isolated race_wait).1 (by decide), (deadline_free_isolated race_end).2.2 _ rfl⟩

end DNSRivet.Upstream
