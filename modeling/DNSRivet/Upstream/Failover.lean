/-
What one call of `forward_hedged` does over its whole run, told by its events: upstreams are started at
most once, in configuration order and not too early; an answer comes from an upstream that was
started; and the call gives up only when every upstream has failed or when nothing runs and the
budget is spent (`hedged_failover`).
-/
import DNSRivet.Upstream.Hedge

namespace DNSRivet.Upstream

open DNSRivet.Base DNSRivet.Wire

/-- The upstreams a run started, in order. -/
def startOrder (es : List (Nat × HedgeEvent)) : List Nat :=
  es.filterMap fun e =>
    match e.2 with
    | .start index => some index
    | _ => none

theorem startOrder_snoc (es : List (Nat × HedgeEvent)) (e : Nat × HedgeEvent) :
    startOrder (es ++ [e]) = startOrder es ++ startOrder [e] := List.filterMap_append

variable {entries : List Entry} {query : Bytes} {es : List (Nat × HedgeEvent)} {s s' : Hedged}

/-- The attempt at upstream `index` finished with `result`. -/
def Finished (es : List (Nat × HedgeEvent)) (index : Nat) (result : Except String Bytes) : Prop :=
  ∃ t, (t, .finish index result) ∈ es

/-! ## The history -/

/-- The attempt at upstream `index` has not been settled: the caller waits for it or it is a task. -/
def Hedged.Pending (s : Hedged) (index : Nat) : Prop := s.phase = .inline index ∨ index ∈ s.attempts.map Task.index

/-- No answer has been taken. -/
def Hedged.Unanswered (s : Hedged) : Prop := ∀ taken, s.phase ≠ .returned (some taken)

/-- What the events so far say about the state. Until an answer is taken, every upstream that was
started is pending or finished without an answer. -/
structure HedgedHistory (entries : List Entry) (query : Bytes) (es : List (Nat × HedgeEvent)) (s : Hedged) : Prop where
  started : startOrder es = List.range s.next
  finished : ∀ i r, ⟨i, some r⟩ ∈ s.attempts → Finished es i r
  accounted : s.Unanswered → ∀ i < s.next, s.Pending i ∨ ∃ r, Finished es i r ∧ answerFrom query i r = none
  settled : s.Unanswered → ∀ i r, Finished es i r → answerFrom query i r = none ∨ ⟨i, some r⟩ ∈ s.attempts
  armedSince : ∀ t, s.hedgeAt = some t → ∃ i t0, s.next = i + 1 ∧ (t0, .start i) ∈ es ∧ t0 + hedgeDelay ≤ t
  answered : ∀ taken, s.phase = .returned (some taken) → taken.index < s.next ∧
    Finished es taken.index (.ok taken.reply) ∧ answerFrom query taken.index (.ok taken.reply) = some taken
  refused : s.phase = .returned none → s.attempts = [] ∧ (s.next = entries.length ∨
    ∃ es0 t, es = es0 ++ [(t, .noPermit)] ∧ ∀ i ∈ startOrder es0, ∃ r, Finished es0 i r)

theorem finished_snoc {i t : Nat} {r : Except String Bytes} {e : HedgeEvent} :
    Finished (es ++ [(t, e)]) i r ↔ Finished es i r ∨ e = .finish i r := by
  simp only [Finished, List.mem_append, List.mem_singleton, Prod.mk.injEq]
  constructor
  · rintro ⟨t', h | ⟨-, rfl⟩⟩
    · exact .inl ⟨t', h⟩
    · exact .inr rfl
  · rintro (⟨t', h⟩ | rfl)
    · exact ⟨t', .inl h⟩
    · exact ⟨t, .inr ⟨rfl, rfl⟩⟩

theorem Finished.snoc {i : Nat} {r : Except String Bytes} (h : Finished es i r) (e : Nat × HedgeEvent) :
    Finished (es ++ [e]) i r := finished_snoc.2 (.inl h)

theorem startOrder_quiet {t : Nat} {e : HedgeEvent} (h : ∀ i, e ≠ .start i) :
    startOrder (es ++ [(t, e)]) = startOrder es := by
  have hnone : startOrder [(t, e)] = [] := by
    cases e with
    | start i => exact absurd rfl (h i)
    | _ => rfl
  rw [startOrder_snoc, hnone, List.append_nil]

/-- Tasks with one index are one task. -/
theorem HedgedOk.task_unique (h : HedgedOk entries s) {i : Nat} {r r' : Option (Except String Bytes)}
    (hr : ⟨i, r⟩ ∈ s.attempts) (hr' : ⟨i, r'⟩ ∈ s.attempts) : r = r' := by
  have := List.inj_on_of_nodup_map h.nodup hr hr' rfl
  cases this
  rfl

theorem HedgedHistory.since (h : HedgedHistory entries query es s) (e : Nat × HedgeEvent) {t : Nat}
    (ht : s.hedgeAt = some t) : ∃ i t0, s.next = i + 1 ∧ (t0, .start i) ∈ es ++ [e] ∧ t0 + hedgeDelay ≤ t := by
  obtain ⟨i, t0, hi, hmem, hle⟩ := h.armedSince t ht
  exact ⟨i, t0, hi, List.mem_append_left _ hmem, hle⟩

/-- A step that starts and finishes nothing and settles no attempt, on the way to another wait. -/
theorem HedgedHistory.quiet {t : Nat} {e : HedgeEvent} (h : HedgedHistory entries query es s)
    (hstart : ∀ i, e ≠ .start i) (hfinish : ∀ i r, e ≠ .finish i r) (hlive : s.Unanswered)
    (hnext : s'.next = s.next) (hdone : ∀ i r, ⟨i, some r⟩ ∈ s'.attempts ↔ ⟨i, some r⟩ ∈ s.attempts)
    (hpending : ∀ i, s.Pending i → s'.Pending i) (hhedge : ∀ t, s'.hedgeAt = some t → s.hedgeAt = some t)
    (hwait : ∀ answer, s'.phase ≠ .returned answer) : HedgedHistory entries query (es ++ [(t, e)]) s' where
  started := by rw [startOrder_quiet hstart, hnext, h.started]
  finished := fun i r hmem => (h.finished i r ((hdone i r).1 hmem)).snoc _
  accounted := by
    intro _ i hlt
    rcases h.accounted hlive i (hnext ▸ hlt) with hp | ⟨r, hr, hnone⟩
    · exact .inl (hpending i hp)
    · exact .inr ⟨r, hr.snoc _, hnone⟩
  settled := by
    intro _ i r hr
    rcases finished_snoc.1 hr with hr | rfl
    · exact (h.settled hlive i r hr).imp_right (hdone i r).2
    · exact absurd rfl (hfinish i r)
  armedSince := fun t' ht => hnext ▸ h.since _ (hhedge t' ht)
  answered := fun taken hp => absurd hp (hwait _)
  refused := fun hp => absurd hp (hwait _)

theorem Hedged.Unanswered.of_eq {phase : Phase} (h : s.phase = phase) (hp : ∀ taken, phase ≠ .returned (some taken)) :
    s.Unanswered := fun taken ht => hp taken (h ▸ ht)

/-- Away from the caller's own attempt, only tasks are pending. -/
theorem Hedged.Pending.task {i : Nat} {phase : Phase} (h : s.Pending i) (hphase : s.phase = phase)
    (hp : ∀ i, phase ≠ .inline i) : i ∈ s.attempts.map Task.index := by
  rcases h with hin | hmem
  · exact absurd (hphase.symm.trans hin) (hp i)
  · exact hmem

theorem Hedged.pending_spawn {i index : Nat} :
    (s.spawn entries index).Pending i ↔ i ∈ s.attempts.map Task.index ∨ i = index := by
  simp [Hedged.Pending, Hedged.spawn]

theorem Hedged.take_next (s : Hedged) (entries : List Entry) (now : Nat) : (s.take entries now).next = s.next + 1 := by
  unfold Hedged.take
  simp only
  split <;> rfl

/-- Taking an upstream starts one attempt and finishes none. -/
theorem Hedged.mem_take {i now : Nat} {r : Except String Bytes} :
    ⟨i, some r⟩ ∈ (s.take entries now).attempts ↔ ⟨i, some r⟩ ∈ s.attempts := by
  unfold Hedged.take
  simp only
  split
  · rfl
  · simp [Hedged.spawn]

theorem Hedged.pending_take {i now : Nat} (hi : i ∈ s.attempts.map Task.index ∨ i = s.next) :
    (s.take entries now).Pending i := by
  unfold Hedged.take
  simp only
  split
  · rename_i hempty
    rcases hi with hmem | rfl
    · rw [hempty] at hmem; cases hmem
    · exact .inl rfl
  · exact Hedged.pending_spawn.2 hi

theorem Hedged.take_phase {now : Nat} {answer : Option Taken} : (s.take entries now).phase ≠ .returned answer := by
  unfold Hedged.take
  simp only
  split
  · simp
  · simp [Hedged.spawn]

theorem Hedged.take_hedgeAt {now t : Nat} (h : (s.take entries now).hedgeAt = some t) : t = now + hedgeDelay := by
  have hat : (if bounded entries s.next && bounded entries (s.next + 1) then some (now + hedgeDelay) else none) =
      some t := by
    unfold Hedged.take at h
    simp only at h
    split at h <;> exact h
  split at hat
  · exact (Option.some.inj hat).symm
  · cases hat

/-- Taking the next upstream. -/
theorem HedgedHistory.take {t armed : Nat} (h : HedgedHistory entries query es s) (hturns : s.turns t)
    (hle : t ≤ armed) : HedgedHistory entries query (es ++ [(t, .start s.next)]) (s.take entries armed) := by
  have hlive : s.Unanswered := .of_eq hturns.1 fun _ h => by cases h
  have hstart : ∀ i r, HedgeEvent.start s.next ≠ .finish i r := fun _ _ h => by cases h
  have hnext := s.take_next entries armed
  constructor
  case started => rw [startOrder_snoc, h.started, hnext, List.range_succ]; rfl
  case finished => exact fun i r hmem => (h.finished i r (Hedged.mem_take.1 hmem)).snoc _
  case accounted =>
    intro _ i hlt
    rcases Nat.lt_succ_iff_lt_or_eq.1 (hnext ▸ hlt) with hlt | heq
    · rcases h.accounted hlive i hlt with hp | ⟨r, hr, hnone⟩
      · exact .inl (Hedged.pending_take (.inl (hp.task hturns.1 fun _ h => by cases h)))
      · exact .inr ⟨r, hr.snoc _, hnone⟩
    · exact .inl (Hedged.pending_take (.inr heq))
  case settled =>
    intro _ i r hr
    rcases finished_snoc.1 hr with hr | heq
    · exact (h.settled hlive i r hr).imp_right Hedged.mem_take.2
    · exact absurd heq (hstart i r)
  case armedSince =>
    intro t' ht
    have hat := Hedged.take_hedgeAt ht
    refine ⟨s.next, t, hnext, List.mem_append_right _ (List.mem_singleton_self _), ?_⟩
    omega
  case answered => exact fun taken hp => absurd hp Hedged.take_phase
  case refused => exact fun hp => absurd hp Hedged.take_phase

/-- With an empty join set and no answer, every attempt has finished. -/
theorem HedgedHistory.all_finished {phase : Phase} (h : HedgedHistory entries query es s) (hphase : s.phase = phase)
    (hinline : ∀ i, phase ≠ .inline i) (hlive : ∀ taken, phase ≠ .returned (some taken)) (hempty : s.attempts = []) :
    ∀ i ∈ startOrder es, ∃ r, Finished es i r := by
  intro i hi
  rw [h.started, List.mem_range] at hi
  rcases h.accounted (.of_eq hphase hlive) i hi with hp | ⟨r, hr, -⟩
  · have hmem := hp.task hphase hinline
    rw [hempty] at hmem
    cases hmem
  · exact ⟨r, hr⟩

/-- Finding no upstream to take, or no permit for it. -/
theorem HedgedHistory.refuse {t : Nat} {e : HedgeEvent} (h : HedgedHistory entries query es s) (hturns : s.turns t)
    (hstart : ∀ i, e ≠ .start i) (hfinish : ∀ i r, e ≠ .finish i r)
    (hwhy : s.attempts = [] → s.next = entries.length ∨ ∃ es0 t0, es ++ [(t, e)] = es0 ++ [(t0, .noPermit)] ∧
      ∀ i ∈ startOrder es0, ∃ r, Finished es0 i r) :
    HedgedHistory entries query (es ++ [(t, e)]) (s.refuse t) := by
  have hlive : s.Unanswered := .of_eq hturns.1 fun _ h => by cases h
  rcases s.refuse_phase t with ⟨hempty, hphase⟩ | ⟨-, hphase⟩
  · constructor
    case started => rw [startOrder_quiet hstart, h.started]; rfl
    case finished => exact fun i r hmem => (h.finished i r hmem).snoc _
    case accounted =>
      intro _ i hlt
      obtain ⟨r, hr⟩ := h.all_finished hturns.1 (by simp) (by simp) hempty i
        (by rw [h.started]; exact List.mem_range.2 hlt)
      rcases h.settled hlive i r hr with hnone | hmem
      · exact .inr ⟨r, hr.snoc _, hnone⟩
      · rw [hempty] at hmem; cases hmem
    case settled =>
      intro _ i r hr
      rcases finished_snoc.1 hr with hr | heq
      · exact h.settled hlive i r hr
      · exact absurd heq (hfinish i r)
    case armedSince => intro t' ht; cases ht
    case answered => intro taken hp; rw [hphase] at hp; cases hp
    case refused => exact fun _ => ⟨hempty, hwhy hempty⟩
  · refine h.quiet hstart hfinish hlive rfl (fun _ _ => .rfl) ?_ (fun t ht => by cases ht) ?_
    · exact fun i hp => .inr (hp.task hturns.1 fun _ h => by cases h)
    · intro answer; rw [hphase]; simp

/-- An upstream's answer is taken. -/
theorem HedgedHistory.taken {t : Nat} {e : HedgeEvent} {taken : Taken} (h : HedgedHistory entries query es s)
    (hstart : ∀ i, e ≠ .start i) (hlt : taken.index < s.next)
    (hfin : Finished (es ++ [(t, e)]) taken.index (.ok taken.reply))
    (hanswer : answerFrom query taken.index (.ok taken.reply) = some taken)
    (hphase : s'.phase = .returned (some taken)) (hnext : s'.next = s.next) (hhedge : s'.hedgeAt = s.hedgeAt)
    (hattempts : ∀ task ∈ s'.attempts, task ∈ s.attempts) : HedgedHistory entries query (es ++ [(t, e)]) s' where
  started := by rw [startOrder_quiet hstart, hnext, h.started]
  finished := fun i r hmem => (h.finished i r (hattempts _ hmem)).snoc _
  accounted := fun hun => absurd hphase (hun taken)
  settled := fun hun => absurd hphase (hun taken)
  armedSince := fun t' ht => hnext ▸ h.since _ (hhedge ▸ ht)
  answered := by
    intro taken' hp
    rw [hphase] at hp
    cases hp
    exact ⟨hnext ▸ hlt, hfin, hanswer⟩
  refused := by
    intro hp
    rw [hphase] at hp
    cases hp

/-- The attempt at upstream `index` is settled without an answer. -/
theorem HedgedHistory.failed {t index : Nat} {e : HedgeEvent} {result : Except String Bytes}
    (h : HedgedHistory entries query es s) (hstart : ∀ i, e ≠ .start i) (hlive : s.Unanswered)
    (hfin : Finished (es ++ [(t, e)]) index result) (hnone : answerFrom query index result = none)
    (hfinish : ∀ i r, e = .finish i r → answerFrom query i r = none)
    (hone : ∀ r, ⟨index, some r⟩ ∈ s.attempts → r = result)
    (hinline : ∀ i, s.phase = .inline i → i = index)
    (hphase : s'.phase = .top) (hnext : s'.next = s.next) (hhedge : s'.hedgeAt = s.hedgeAt)
    (hattempts : ∀ task, task ∈ s'.attempts ↔ task ∈ s.attempts ∧ task.index ≠ index) :
    HedgedHistory entries query (es ++ [(t, e)]) s' where
  started := by rw [startOrder_quiet hstart, hnext, h.started]
  finished := fun i r hmem => (h.finished i r ((hattempts _).1 hmem).1).snoc _
  accounted := by
    intro _ i hlt
    by_cases hi : i = index
    · subst hi
      exact .inr ⟨result, hfin, hnone⟩
    rcases h.accounted hlive i (hnext ▸ hlt) with (hin | hmem) | ⟨r, hr, hr0⟩
    · exact absurd (hinline i hin) hi
    · obtain ⟨task, htask, rfl⟩ := List.mem_map.1 hmem
      exact .inl (.inr (List.mem_map_of_mem ((hattempts task).2 ⟨htask, hi⟩)))
    · exact .inr ⟨r, hr.snoc _, hr0⟩
  settled := by
    intro _ i r hr
    rcases finished_snoc.1 hr with hr | hr
    · rcases h.settled hlive i r hr with hr0 | hmem
      · exact .inl hr0
      by_cases hi : i = index
      · subst hi
        exact .inl (hone r hmem ▸ hnone)
      · exact .inr ((hattempts _).2 ⟨hmem, hi⟩)
    · exact .inl (hfinish i r hr)
  armedSince := fun t' ht => hnext ▸ h.since _ (hhedge ▸ ht)
  answered := by
    intro taken hp
    rw [hphase] at hp
    cases hp
  refused := by
    intro hp
    rw [hphase] at hp
    cases hp

/-- The caller's own attempt finishes. -/
theorem HedgedHistory.settle {t index : Nat} {result : Except String Bytes} (hok : HedgedOk entries s)
    (h : HedgedHistory entries query es s) (hinline : s.phase = .inline index) :
    HedgedHistory entries query (es ++ [(t, .finish index result)])
      ({ s with now := t }.settle query index result) := by
  obtain ⟨hempty, hnext⟩ := hok.inline index hinline
  have hlive : s.Unanswered := .of_eq hinline fun _ h => by cases h
  have hstart : ∀ i, HedgeEvent.finish index result ≠ .start i := fun _ h => by cases h
  have hfin : Finished (es ++ [(t, .finish index result)]) index result := finished_snoc.2 (.inr rfl)
  rcases Hedged.settle_cases { s with now := t } query index result with ⟨hnone, heq⟩ | ⟨taken, hsome, heq⟩
  · rw [heq]
    refine h.failed hstart hlive hfin hnone ?_ ?_ ?_ rfl rfl rfl ?_
    · rintro i r hr
      cases hr
      exact hnone
    · intro r hmem
      rw [hempty] at hmem
      cases hmem
    · intro i hi
      exact Phase.inline.inj (hi.symm.trans hinline)
    · simp [hempty]
  · rw [heq]
    obtain ⟨hindex, hresult, -⟩ := answerFrom_some hsome
    subst hresult hindex
    exact h.taken hstart (by omega) hfin hsome rfl rfl rfl fun _ => id

theorem Hedged.mem_finish {index i : Nat} {result r : Except String Bytes} :
    ⟨i, some r⟩ ∈ (s.finish index result).attempts ↔
      i = index ∧ r = result ∧ index ∈ s.attempts.map Task.index ∨ i ≠ index ∧ ⟨i, some r⟩ ∈ s.attempts := by
  simp only [Hedged.finish, List.mem_map]
  constructor
  · rintro ⟨task, hmem, heq⟩
    split at heq
    · rename_i hindex
      cases heq
      exact .inl ⟨rfl, rfl, task, hmem, hindex⟩
    · rename_i hindex
      rw [heq] at hmem hindex
      exact .inr ⟨hindex, hmem⟩
  · rintro (⟨rfl, rfl, task, hmem, hindex⟩ | ⟨hne, hmem⟩)
    · exact ⟨task, hmem, if_pos hindex⟩
    · exact ⟨_, hmem, if_neg hne⟩

/-- A task finishes. -/
theorem HedgedHistory.finish {t index : Nat} {result : Except String Bytes} (hok : HedgedOk entries s)
    (h : HedgedHistory entries query es s) (htask : ⟨index, none⟩ ∈ s.attempts) :
    HedgedHistory entries query (es ++ [(t, .finish index result)]) ({ s with now := t }.finish index result) := by
  have hstart : ∀ i, HedgeEvent.finish index result ≠ .start i := fun _ h => by cases h
  constructor
  case started => rw [startOrder_quiet hstart, h.started]; rfl
  case finished =>
    intro i r hmem
    rcases Hedged.mem_finish.1 hmem with ⟨rfl, rfl, -⟩ | ⟨-, hmem⟩
    · exact finished_snoc.2 (.inr rfl)
    · exact (h.finished i r hmem).snoc _
  case accounted =>
    intro hun i hlt
    rcases h.accounted hun i hlt with (hin | hmem) | ⟨r, hr, hnone⟩
    · exact .inl (.inl hin)
    · obtain ⟨task, htmem, rfl⟩ := List.mem_map.1 hmem
      refine .inl (.inr (List.mem_map.2 ⟨_, List.mem_map_of_mem htmem, ?_⟩))
      split
      · rename_i hindex; exact hindex.symm
      · rfl
    · exact .inr ⟨r, hr.snoc _, hnone⟩
  case settled =>
    intro hun i r hr
    rcases finished_snoc.1 hr with hr | hr
    · refine (h.settled hun i r hr).imp_right fun hmem => Hedged.mem_finish.2 (.inr ⟨?_, hmem⟩)
      -- the task was still running
      rintro rfl
      cases hok.task_unique htask hmem
    · cases hr
      exact .inr (Hedged.mem_finish.2 (.inl ⟨rfl, rfl, List.mem_map_of_mem htask⟩))
  case armedSince => exact fun t' ht => h.since _ ht
  case answered =>
    intro taken hp
    obtain ⟨hlt, hfin, hans⟩ := h.answered taken hp
    exact ⟨hlt, hfin.snoc _, hans⟩
  case refused =>
    intro hp
    rw [(h.refused hp).1] at htask
    cases htask

/-- A finished task is joined. -/
theorem HedgedHistory.join {t index : Nat} {result : Except String Bytes} (hok : HedgedOk entries s)
    (h : HedgedHistory entries query es s) (hselect : s.phase = .select) (htask : ⟨index, some result⟩ ∈ s.attempts) :
    HedgedHistory entries query (es ++ [(t, .join index)]) ({ s with now := t }.join query index result) := by
  have hlive : s.Unanswered := .of_eq hselect fun _ h => by cases h
  have hstart : ∀ i, HedgeEvent.join index ≠ .start i := fun _ h => by cases h
  have hfinish : ∀ i r, HedgeEvent.join index ≠ .finish i r := fun _ _ h => by cases h
  have hfin : Finished (es ++ [(t, .join index)]) index result := (h.finished index result htask).snoc _
  rcases Hedged.join_cases { s with now := t } query index result with ⟨hnone, heq⟩ | ⟨taken, hsome, heq⟩
  · rw [heq]
    refine h.failed hstart hlive hfin hnone ?_ ?_ ?_ rfl rfl rfl ?_
    · exact fun i r hr => absurd hr (hfinish i r)
    · intro r hmem
      cases hok.task_unique htask hmem
      rfl
    · intro i hi
      rw [hselect] at hi
      cases hi
    · simp [List.mem_filter]
  · rw [heq]
    obtain ⟨hindex, hresult, -⟩ := answerFrom_some hsome
    subst hresult hindex
    exact h.taken hstart (hok.task_lt _ htask) hfin hsome rfl rfl rfl fun _ => List.mem_of_mem_filter

/-- One step keeps the history. -/
theorem hedgedHistory_step {e : Nat × HedgeEvent} (hrun : Run (forwardHedged entries query) es s)
    (h : HedgedHistory entries query es s) (hs : (forwardHedged entries query).step s e s') :
    HedgedHistory entries query (es ++ [e]) s' := by
  have hok := hedgedOk hrun
  obtain ⟨now, e⟩ := e
  obtain ⟨-, hs⟩ := hs
  cases e with
  | start index =>
    obtain ⟨armed, hle, hturns, rfl, -, rfl⟩ := hs
    exact h.take hturns hle
  | noPermit =>
    obtain ⟨hturns, -, rfl⟩ := hs
    exact h.refuse hturns (by simp) (by simp) fun hempty =>
      .inr ⟨es, now, rfl, h.all_finished hturns.1 (by simp) (by simp) hempty⟩
  | exhausted =>
    obtain ⟨hturns, hle, rfl⟩ := hs
    exact h.refuse hturns (by simp) (by simp) fun _ => .inl (Nat.le_antisymm hok.next_le hle)
  | wait =>
    obtain ⟨htop, -, -, rfl⟩ := hs
    refine h.quiet (by simp) (by simp) (.of_eq htop (by simp)) rfl (fun _ _ => .rfl) ?_ (fun _ => id) (by simp)
    exact fun i hp => .inr (hp.task htop (by simp))
  | hedge =>
    obtain ⟨-, ⟨index, hinline, rfl⟩ | ⟨hselect, rfl⟩⟩ := hs
    · refine h.quiet (by simp) (by simp) (.of_eq hinline (by simp)) rfl ?_ ?_ (fun _ => id) (by simp [Hedged.spawn])
      · intro i r
        simp [Hedged.spawn]
      · rintro i (hin | hmem)
        · exact Hedged.pending_spawn.2 (.inr (Phase.inline.inj (hin.symm.trans hinline)))
        · exact Hedged.pending_spawn.2 (.inl hmem)
    · refine h.quiet (by simp) (by simp) (.of_eq hselect (by simp)) rfl (fun _ _ => .rfl) ?_ (fun _ => id) (by simp)
      exact fun i hp => .inr (hp.task hselect (by simp))
  | finish index result =>
    rcases hs with ⟨hinline, rfl⟩ | ⟨htask, rfl⟩
    · exact h.settle hok hinline
    · exact h.finish hok htask
  | join index =>
    obtain ⟨result, hselect, htask, rfl⟩ := hs
    exact h.join hok hselect htask

theorem hedgedHistory (h : Run (forwardHedged entries query) es s) : HedgedHistory entries query es s := by
  refine h.invariant (I := HedgedHistory entries query) ?_ fun es s e s' => hedgedHistory_step
  rintro s ⟨now, rfl⟩
  constructor <;> simp [startOrder, Finished]

/-! ## Failover -/

theorem answerFrom_none {i : Nat} {result : Except String Bytes} :
    answerFrom query i result = none ↔ configuredAnswer query result = none := by
  cases result with
  | error err => exact ⟨fun _ => rfl, fun _ => rfl⟩
  | ok reply => exact Option.map_eq_none_iff

/-- In every run upstreams are started in configuration order, each at most once; the next one is started
only when every attempt so far has finished or the previous one started at least the hedge delay
ago; an answer is the reply of an upstream that was started, under the query's ID; and none is given
only when every upstream was started and finished without one, or no permit was left while every
attempt so far had finished. -/
theorem hedged_failover (h : Run (forwardHedged entries query) es s) :
    (∃ n ≤ entries.length, startOrder es = List.range n) ∧
    (∀ t i s', (forwardHedged entries query).step s (t, .start (i + 1)) s' →
      (∀ j ∈ startOrder es, ∃ r, Finished es j r) ∨ ∃ t0, (t0, .start i) ∈ es ∧ t0 + hedgeDelay ≤ t) ∧
    (∀ taken, s.phase = .returned (some taken) → taken.index ∈ startOrder es ∧
      Finished es taken.index (.ok taken.reply) ∧ rcode taken.reply ≠ servfail ∧
      taken.response = setId taken.reply (ident query)) ∧
    (s.phase = .returned none →
      (∀ i < entries.length, i ∈ startOrder es ∧ (∃ r, Finished es i r) ∧
        ∀ r, Finished es i r → configuredAnswer query r = none) ∨
      ∃ es0 t, es = es0 ++ [(t, .noPermit)] ∧ ∀ j ∈ startOrder es0, ∃ r, Finished es0 j r) := by
  have hok := hedgedOk h
  have hhist := hedgedHistory h
  refine ⟨⟨s.next, hok.next_le, hhist.started⟩, ?_, ?_, ?_⟩
  · rintro t i s' ⟨-, armed, -, ⟨htop, hturn⟩, hnext, -, -⟩
    rcases hturn with hempty | hdue
    · exact .inl (hhist.all_finished htop (by simp) (by simp) hempty)
    · obtain ⟨at_, hat, hle⟩ := (Option.any_eq_true _ _).1 hdue
      obtain ⟨j, t0, hj, hmem, hdelay⟩ := hhist.armedSince at_ hat
      obtain rfl : i = j := by omega
      exact .inr ⟨t0, hmem, hdelay.trans (by simpa using hle)⟩
  · intro taken hphase
    obtain ⟨hlt, hfin, hans⟩ := hhist.answered taken hphase
    obtain ⟨-, -, hrcode, hresponse⟩ := answerFrom_some hans
    exact ⟨by rw [hhist.started]; exact List.mem_range.2 hlt, hfin, hrcode, hresponse⟩
  · intro hphase
    obtain ⟨hempty, hall | hpermit⟩ := hhist.refused hphase
    · have hlive : s.Unanswered := .of_eq hphase fun _ h => by cases h
      refine .inl fun i hlt => ?_
      have hi : i ∈ startOrder es := by rw [hhist.started, hall]; exact List.mem_range.2 hlt
      refine ⟨hi, hhist.all_finished hphase (by simp) (by simp) hempty i hi, fun r hr => ?_⟩
      rcases hhist.settled hlive i r hr with hnone | hmem
      · exact answerFrom_none.1 hnone
      · rw [hempty] at hmem; cases hmem
    · exact .inr hpermit

theorem hedged_failover_race : 1 ∈ startOrder raceEvents ∧ Finished raceEvents 1 (.ok raceReply) ∧
    rcode raceReply ≠ servfail ∧ setId raceReply (1, 2) = setId raceReply (ident raceQuery) :=
  (hedged_failover race_end).2.2.1 _ rfl

end DNSRivet.Upstream
