/-
How old the addresses of a bootstrap slot can get. A run of one key is any sequence of plans, recorded lookups and
invalidations on a clock that does not go back. What the slot stores is compared with what the history says:
`lastRecord` is the last successful lookup, `stored` its addresses with the expiry that invalidations left.
-/
import DNSRivet.Base.System
import DNSRivet.Upstream.Bootstrap

namespace DNSRivet.Upstream.Bootstrap

open DNSRivet.Base DNSRivet.Net

/-! ## Runs of one key -/

inductive SlotEvent
  | plan (answer : Plan)
  | record (result : Except String (List IpAddr × Nat)) (answer : Except String (List IpAddr))
  /-- With the time read before the slots were locked. -/
  | invalidate (earlier : Nat)

/-- A list the caller gets: an answer, a stale list to use while another call refreshes, or a recorded result. -/
def SlotEvent.Serves (ips : List IpAddr) : SlotEvent → Prop
  | .plan (.answer result) => result = .ok ips
  | .plan (.refresh stale) => stale = some ips
  | .record _ answer => answer = .ok ips
  | .invalidate _ => False

def SlotEvent.Fails : SlotEvent → Prop
  | .plan (.answer result) => ∃ err, result = .error err
  | .plan (.refresh _) => False
  | .record _ answer => ∃ err, answer = .error err
  | .invalidate _ => False

structure SlotState where
  clock : Nat
  slot : Slot

/-- The slot of one key under events that carry their time. -/
def slotSystem : System SlotState (Nat × SlotEvent) where
  init := fun s => s.slot = .empty
  step := fun s (now, e) s' => s.clock ≤ now ∧ s'.clock = now ∧
    match e with
    | .plan answer => s.slot.plan now = (answer, s'.slot)
    | .record result answer => s.slot.record result now = (answer, s'.slot)
    | .invalidate earlier => earlier ≤ now ∧ s'.slot = s.slot.expire earlier

/-! ## What the history says -/

/-- A successful lookup: when it was recorded, its addresses, and their TTL in seconds. -/
structure Lookedup where
  time : Nat
  ips : List IpAddr
  ttl : Nat
deriving DecidableEq, Repr

/-- The most recent successful record. -/
def lastRecord (es : List (Nat × SlotEvent)) : Option Lookedup :=
  es.foldl (fun last e => match e with
    | (now, .record (.ok (ips, ttl)) _) => some ⟨now, ips, ttl⟩
    | _ => last) none

/-- Its addresses, with the expiry as invalidations left it. -/
def stored (es : List (Nat × SlotEvent)) : Option Entry :=
  es.foldl (fun entry e => match e with
    | (now, .record (.ok (ips, ttl)) _) => some ⟨ips, now + secs ttl⟩
    | (_, .invalidate earlier) => entry.map fun entry => { entry with expires := min entry.expires earlier }
    | _ => entry) none

/-- A plan made at `now` would serve the list. -/
def Slot.MayServe (slot : Slot) (now : Nat) (ips : List IpAddr) : Prop :=
  (SlotEvent.plan (slot.plan now).1).Serves ips

variable {es : List (Nat × SlotEvent)} {now : Nat} {slot : Slot}

@[simp] theorem lastRecord_snoc (es : List (Nat × SlotEvent)) (e : Nat × SlotEvent) :
    lastRecord (es ++ [e]) = match e with
      | (now, .record (.ok (ips, ttl)) _) => some ⟨now, ips, ttl⟩
      | _ => lastRecord es := by
  simp only [lastRecord, List.foldl_append, List.foldl_cons, List.foldl_nil]

@[simp] theorem stored_snoc (es : List (Nat × SlotEvent)) (e : Nat × SlotEvent) :
    stored (es ++ [e]) = match e with
      | (now, .record (.ok (ips, ttl)) _) => some ⟨ips, now + secs ttl⟩
      | (_, .invalidate earlier) => (stored es).map fun entry => { entry with expires := min entry.expires earlier }
      | _ => stored es := by
  simp only [stored, List.foldl_append, List.foldl_cons, List.foldl_nil]

/-! ## Single operations -/

theorem isServable_iff {entry : Entry} : entry.isServable now = true ↔ now ≤ entry.expires + maxStale := by
  unfold Entry.isServable
  rw [decide_eq_true_iff]
  omega

theorem isServable_of_isFresh {entry : Entry} (h : entry.isFresh now = true) : entry.isServable now = true := by
  unfold Entry.isFresh at h
  rw [isServable_iff]
  have := of_decide_eq_true h
  omega

theorem elim_eq_ok {α : Type} {stale : Option α} {err : String} {a : α} :
    stale.elim (.error err) .ok = (.ok a : Except String α) ↔ stale = some a := by
  cases stale <;> simp

theorem elim_eq_error {α : Type} {stale : Option α} {err err' : String}
    (h : stale.elim (.error err) .ok = (.error err' : Except String α)) : stale = none := by
  cases stale with
  | none => rfl
  | some b => cases h

/-- What plans and failed records do: a servable entry stays and no other, its list is all that is served, and
without it the operation fails. -/
structure FallsBack (slot slot' : Slot) (now : Nat) (e : SlotEvent) : Prop where
  entry : slot'.entry = slot.entry.filter (·.isServable now)
  serves : ∀ ips, e.Serves ips ↔ slot'.entry.map (·.ips) = some ips
  fails : e.Fails → slot'.entry = none

theorem plan_fallsBack {answer : Plan} {slot' : Slot} (h : slot.plan now = (answer, slot')) :
    FallsBack slot slot' now (.plan answer) := by
  unfold Slot.plan at h
  split at h
  · rename_i entry hf
    obtain ⟨hentry, hfresh⟩ := Option.filter_eq_some_iff.1 hf
    cases h
    have hkept : slot.entry.filter (·.isServable now) = some entry := by
      rw [hentry]
      exact Option.filter_some_pos (p := fun e : Entry => e.isServable now) (isServable_of_isFresh hfresh)
    refine ⟨hentry.trans hkept.symm, fun ips => ?_, fun ⟨err, herr⟩ => (by cases herr)⟩
    rw [hentry]
    simp [SlotEvent.Serves]
  · dsimp only at h
    split at h
    · cases h
      refine ⟨rfl, fun ips => elim_eq_ok, ?_⟩
      rintro ⟨err, herr⟩
      exact Option.map_eq_none_iff.1 (elim_eq_error herr)
    · cases h
      exact ⟨rfl, fun ips => Iff.rfl, fun h => h.elim⟩

theorem record_error_fallsBack {err : String} {answer : Except String (List IpAddr)} {slot' : Slot}
    (h : slot.record (.error err) now = (answer, slot')) : FallsBack slot slot' now (.record (.error err) answer) := by
  unfold Slot.record at h
  dsimp only at h
  split at h
  · rename_i entry hf
    cases h
    refine ⟨(Option.filter_eq_some_iff.1 hf).1.trans hf.symm, fun ips => ?_, fun ⟨e, he⟩ => (by cases he)⟩
    show _ ↔ slot.entry.map _ = _
    rw [(Option.filter_eq_some_iff.1 hf).1]
    simp [SlotEvent.Serves]
  · rename_i hf
    cases h
    exact ⟨hf.symm, fun ips => by simp [SlotEvent.Serves], fun _ => rfl⟩

/-- A plan serves the list of the entry while it is servable. -/
theorem mayServe_iff {ips : List IpAddr} :
    slot.MayServe now ips ↔ ∃ entry, slot.entry = some entry ∧ entry.isServable now = true ∧ entry.ips = ips := by
  have hfb : FallsBack slot _ now _ := plan_fallsBack (Prod.mk.eta.symm : slot.plan now = (_, _))
  unfold Slot.MayServe
  rw [hfb.serves, hfb.entry, Option.map_eq_some_iff]
  simp only [Option.filter_eq_some_iff, and_assoc]

/-- Expiring an entry leaves no list that could be served longer than before. -/
theorem mayServe_of_expire {earlier t : Nat} {ips : List IpAddr} (h : (slot.expire earlier).MayServe t ips) :
    slot.MayServe t ips := by
  obtain ⟨entry', hentry', hserve, hips⟩ := mayServe_iff.1 h
  obtain ⟨entry, hentry, rfl⟩ := Option.map_eq_some_iff.1 hentry'
  refine mayServe_iff.2 ⟨entry, hentry, isServable_iff.2 ?_, hips⟩
  have hle := isServable_iff.1 hserve
  dsimp only at hle
  omega

/-! ## The slot follows the history -/

/-- The slot has what is stored, or dropped it when it was no longer servable; and what is stored is the last
successful record's, with an expiry that is not later. -/
structure Follows (es : List (Nat × SlotEvent)) (s : SlotState) : Prop where
  entry : s.slot.entry = stored es ∨ s.slot.entry = none ∧ ∀ entry, stored es = some entry → ¬ entry.isServable s.clock
  record : ∀ entry, stored es = some entry → ∃ last, lastRecord es = some last ∧ last.ips = entry.ips ∧
    last.time ≤ s.clock ∧ entry.expires ≤ last.time + secs last.ttl

variable {s s' : SlotState} {e : SlotEvent}

/-- Time passes. -/
theorem Follows.at (h : Follows es s) (hnow : s.clock ≤ now) : Follows es ⟨now, s.slot⟩ := by
  constructor
  · refine h.entry.imp_right fun ⟨hnone, hold⟩ => ⟨hnone, fun entry hentry hserve => hold entry hentry ?_⟩
    exact isServable_iff.2 (hnow.trans (isServable_iff.1 hserve))
  · intro entry hentry
    obtain ⟨last, hlast, hips, htime, hexp⟩ := h.record entry hentry
    exact ⟨last, hlast, hips, htime.trans hnow, hexp⟩

/-- What may be served is what is stored. -/
theorem Follows.filter_eq (h : Follows es ⟨now, slot⟩) :
    slot.entry.filter (·.isServable now) = (stored es).filter (·.isServable now) := by
  rcases h.entry with heq | ⟨hnone, hold⟩
  · rw [show slot.entry = stored es from heq]
  · rw [show slot.entry = none from hnone]
    cases hst : stored es with
    | none => rfl
    | some entry => exact (Option.filter_some_neg (p := fun e : Entry => e.isServable now)
        (by simpa using hold entry hst)).symm

/-- Falling back keeps the slot in line with a history that stores the same. -/
theorem Follows.fallsBack {es' : List (Nat × SlotEvent)} {slot' : Slot} (h : Follows es ⟨now, slot⟩)
    (hfb : slot'.entry = slot.entry.filter (·.isServable now)) (hst : stored es' = stored es)
    (hlast : lastRecord es' = lastRecord es) : Follows es' ⟨now, slot'⟩ := by
  constructor
  · rw [hst]
    cases hentry : stored es with
    | none => exact .inl (by rw [hfb, h.filter_eq, hentry]; rfl)
    | some entry =>
      rw [h.filter_eq, hentry, Option.filter_some] at hfb
      by_cases hserve : entry.isServable now = true
      · exact .inl (by rw [hfb, if_pos hserve])
      · refine .inr ⟨by rw [hfb, if_neg hserve], fun entry' heq => ?_⟩
        cases heq
        exact hserve
  · rw [hst, hlast]
    exact h.record

theorem Follows.recorded {es' : List (Nat × SlotEvent)} {slot' : Slot} {ips : List IpAddr} {ttl : Nat}
    (hentry : slot'.entry = some ⟨ips, now + secs ttl⟩) (hst : stored es' = some ⟨ips, now + secs ttl⟩)
    (hlast : lastRecord es' = some ⟨now, ips, ttl⟩) : Follows es' ⟨now, slot'⟩ := by
  refine ⟨.inl (hentry.trans hst.symm), fun entry heq => ⟨_, hlast, ?_⟩⟩
  rw [hst] at heq
  cases heq
  exact ⟨rfl, Nat.le_refl now, Nat.le_refl _⟩

theorem Follows.expired {es' : List (Nat × SlotEvent)} {earlier : Nat} (h : Follows es ⟨now, slot⟩)
    (hst : stored es' = (stored es).map fun entry => { entry with expires := min entry.expires earlier })
    (hlast : lastRecord es' = lastRecord es) : Follows es' ⟨now, slot.expire earlier⟩ := by
  constructor
  · rw [hst]
    refine h.entry.imp (fun heq => ?_) fun ⟨hnone, hold⟩ => ⟨?_, fun entry' heq => ?_⟩
    · rw [← show slot.entry = stored es from heq]
      rfl
    · show slot.entry.map _ = none
      rw [show slot.entry = none from hnone]
      rfl
    · obtain ⟨entry, hentry, rfl⟩ := Option.map_eq_some_iff.1 heq
      intro hserve
      refine hold entry hentry (isServable_iff.2 ?_)
      have hle := isServable_iff.1 hserve
      dsimp only at hle ⊢
      omega
  · rw [hst, hlast]
    intro entry' heq
    obtain ⟨entry, hentry, rfl⟩ := Option.map_eq_some_iff.1 heq
    obtain ⟨last, hlast, hips, htime, hexp⟩ := h.record entry hentry
    exact ⟨last, hlast, hips, htime, (Nat.min_le_left _ _).trans hexp⟩

theorem Follows.step (h : Follows es s) (hs : slotSystem.step s (now, e) s') : Follows (es ++ [(now, e)]) s' := by
  obtain ⟨clock', slot'⟩ := s'
  obtain ⟨hclock, rfl, hs⟩ := hs
  have h := h.at hclock
  cases e with
  | plan answer => exact h.fallsBack (plan_fallsBack hs).entry (stored_snoc es _) (lastRecord_snoc es _)
  | record result answer =>
    cases result with
    | ok looked =>
      exact .recorded (congrArg (fun r => r.2.entry) hs).symm (stored_snoc es _) (lastRecord_snoc es _)
    | error err => exact h.fallsBack (record_error_fallsBack hs).entry (stored_snoc es _) (lastRecord_snoc es _)
  | invalidate earlier =>
    obtain ⟨-, rfl⟩ := hs
    exact h.expired (stored_snoc es _) (lastRecord_snoc es _)

theorem follows_of_run (h : Run slotSystem es s) : Follows es s := by
  apply h.invariant (I := Follows)
  · intro s hs
    have hempty : s.slot.entry = none := by rw [show s.slot = .empty from hs]; rfl
    exact ⟨.inl hempty, fun entry heq => (by cases heq)⟩
  · intro es s e s' _ h hs
    exact h.step hs

/-- What falls back serves a stored list that is servable, and fails only if there is none. -/
theorem served_of_fallsBack {slot' : Slot} (h : Follows es ⟨now, slot⟩) (hfb : FallsBack slot slot' now e) :
    (∀ ips, e.Serves ips → ∃ entry, stored es = some entry ∧ entry.ips = ips ∧ entry.isServable now = true) ∧
      (e.Fails → ∀ entry, stored es = some entry → ¬ entry.isServable now) := by
  have hkept : slot'.entry = (stored es).filter (·.isServable now) := hfb.entry.trans h.filter_eq
  constructor
  · intro ips hips
    obtain ⟨entry, hentry, heq⟩ := Option.map_eq_some_iff.1 ((hfb.serves ips).1 hips)
    rw [hkept] at hentry
    obtain ⟨hst, hserve⟩ := Option.filter_eq_some_iff.1 hentry
    exact ⟨entry, hst, heq, hserve⟩
  · intro hfail entry hst hserve
    have hnone := hfb.fails hfail
    rw [hkept, hst, Option.filter_some, if_pos hserve] at hnone
    cases hnone

/-! ## Bounded staleness -/

/-- The last successful record, with a time in its TTL and `maxStale`. -/
def ServedInTime (es : List (Nat × SlotEvent)) (now : Nat) (ips : List IpAddr) : Prop :=
  ∃ last, lastRecord es = some last ∧ last.ips = ips ∧ last.time ≤ now ∧ now ≤ last.time + secs last.ttl + maxStale

/-- In every run, a list is served only as the result of the last successful record, within its TTL and `maxStale`
of that; an invalidation lets no list be served at a time when it was not to be served before; and an operation fails
only when no stored list is fresh or within `maxStale` of its expiry. -/
theorem staleness_bounded (h : Run slotSystem es s) (hs : slotSystem.step s (now, e) s') :
    (∀ ips, e.Serves ips → ServedInTime (es ++ [(now, e)]) now ips) ∧
      (∀ earlier, e = .invalidate earlier → ∀ t ips, s'.slot.MayServe t ips → s.slot.MayServe t ips) ∧
      (e.Fails → ∀ entry, stored es = some entry → ¬ entry.isFresh now ∧ ¬ entry.isServable now) := by
  have hfollows := (follows_of_run h).at hs.1
  have hstored : ∀ slot', FallsBack s.slot slot' now e → stored (es ++ [(now, e)]) = stored es →
      lastRecord (es ++ [(now, e)]) = lastRecord es →
      (∀ ips, e.Serves ips → ServedInTime (es ++ [(now, e)]) now ips) ∧
        (e.Fails → ∀ entry, stored es = some entry → ¬ entry.isFresh now ∧ ¬ entry.isServable now) := by
    intro slot' hfb hst hlast
    obtain ⟨hserves, hfails⟩ := served_of_fallsBack hfollows hfb
    constructor
    · intro ips hips
      obtain ⟨entry, hentry, rfl, hserve⟩ := hserves ips hips
      obtain ⟨last, hrec, heq, htime, hexp⟩ := hfollows.record entry hentry
      have hle := isServable_iff.1 hserve
      exact ⟨last, hlast.trans hrec, heq, htime, by omega⟩
    · intro hfail entry hentry
      exact ⟨fun hfresh => hfails hfail entry hentry (isServable_of_isFresh hfresh), hfails hfail entry hentry⟩
  cases e with
  | plan answer =>
    obtain ⟨h1, h3⟩ := hstored _ (plan_fallsBack hs.2.2) (stored_snoc es _) (lastRecord_snoc es _)
    exact ⟨h1, fun earlier heq => (by cases heq), h3⟩
  | record result answer =>
    cases result with
    | ok looked =>
      have hans : .ok looked.1 = answer := congrArg Prod.fst hs.2.2
      refine ⟨fun ips hips => ?_, fun earlier heq => (by cases heq), fun ⟨err, herr⟩ => ?_⟩
      · exact ⟨⟨now, looked.1, looked.2⟩, lastRecord_snoc es _, Except.ok.inj (hans.trans hips), Nat.le_refl now,
          by dsimp only; omega⟩
      · exact absurd (hans.trans herr) (by simp)
    | error err =>
      obtain ⟨h1, h3⟩ := hstored _ (record_error_fallsBack hs.2.2) (stored_snoc es _) (lastRecord_snoc es _)
      exact ⟨h1, fun earlier heq => (by cases heq), h3⟩
  | invalidate earlier =>
    refine ⟨fun ips hips => hips.elim, fun earlier' heq t ips hserve => ?_, fun hfail => hfail.elim⟩
    rw [show s'.slot = s.slot.expire earlier from hs.2.2.2] at hserve
    exact mayServe_of_expire hserve

/-- A lookup with a TTL of a minute. -/
def minuteLookup : SlotEvent := .record (.ok ([.v4 ⟨10, 0, 0, 1⟩], 60)) (.ok [.v4 ⟨10, 0, 0, 1⟩])

def minuteSlot : Slot := (Slot.empty.record (.ok ([.v4 ⟨10, 0, 0, 1⟩], 60)) 0).2

theorem staleness_bounded_minute :
    ServedInTime ([(0, minuteLookup)] ++ [(secs 100, .plan (.refresh (some [.v4 ⟨10, 0, 0, 1⟩])))]) (secs 100)
      [.v4 ⟨10, 0, 0, 1⟩] := by
  have h0 : Run slotSystem [] ⟨0, .empty⟩ := .start rfl
  have h1 : Run slotSystem [(0, minuteLookup)] ⟨0, minuteSlot⟩ := h0.snoc ⟨Nat.le_refl 0, rfl, rfl⟩
  have hplan : minuteSlot.plan (secs 100) = (.refresh (some [.v4 ⟨10, 0, 0, 1⟩]), minuteSlot) := by
    simp [minuteSlot, Slot.plan, Slot.record, Slot.empty, Entry.isFresh, Entry.isServable, secs, maxStale,
      Option.filter_some]
  have h2 : slotSystem.step ⟨0, minuteSlot⟩ (secs 100, .plan (.refresh (some [.v4 ⟨10, 0, 0, 1⟩])))
      ⟨secs 100, minuteSlot⟩ := ⟨Nat.zero_le _, rfl, hplan⟩
  exact (staleness_bounded h1 h2).1 _ rfl

end DNSRivet.Upstream.Bootstrap
