/-
The cadence of `watchdog_loop`: how often the takeover is checked, and when the loop decides that another program
keeps rewriting DNS. `Cadence` holds the variables the loop carries. A chain of reassertions is defined on
histories, and the loop is in slow mode exactly when a chain got long enough and nothing was clean since.
-/
import DNSRivet.OsDns.Fallback

namespace DNSRivet.Proxy

open DNSRivet.Net DNSRivet.OsDns

/-- In seconds. -/
def watchdogInterval : Nat := 120
def watchdogSlowInterval : Nat := 1800
def flapWindowTicks : Nat := 3
def flapStrikes : Nat := 3

/-! ## The loop -/

/-- What a tick comes back with: the blocking task failed, or it ran the check. -/
abbrev TickResult := Except String (Except String TickOutcome)

/-- The variables of the loop. -/
structure Cadence where
  interval : Nat
  ticksSinceReassert : Option Nat
  strikes : Nat
  slowMode : Bool
deriving DecidableEq, Repr

namespace Cadence

/-- The loop before its first tick. -/
def start : Cadence where
  interval := watchdogInterval
  ticksSinceReassert := none
  strikes := 0
  slowMode := false

def onClean (c : Cadence) : Cadence :=
  if c.slowMode then
    { c with slowMode := false, strikes := 0, ticksSinceReassert := none, interval := watchdogInterval }
  else
    match c.ticksSinceReassert with
    | some ticks =>
      let ticks := (ticks + 1) % 4294967296
      if ticks ≥ flapWindowTicks then { c with ticksSinceReassert := none, strikes := 0 }
      else { c with ticksSinceReassert := some ticks }
    | none => c

def onReasserted (c : Cadence) : Cadence :=
  -- `u32` counters wrap in a release build
  let strikes := if c.ticksSinceReassert.isSome then (c.strikes + 1) % 4294967296 else 1
  if strikes ≥ flapStrikes ∧ c.slowMode = false then
    { c with strikes := strikes, ticksSinceReassert := some 0, slowMode := true, interval := watchdogSlowInterval }
  else { c with strikes := strikes, ticksSinceReassert := some 0 }

def tick (c : Cadence) : TickResult → Cadence
  | .ok (.ok (.clean _ _)) => c.onClean
  | .ok (.ok (.reasserted _ _ _)) => c.onReasserted
  | .ok (.ok .notActive) => c
  | .ok (.error _) => c
  | .error _ => c

end Cadence

/-- One turn of the loop, with the fallback list of the `Manager`. -/
def watchdogTurn (s : Cadence × List SocketAddr) (tick : TickResult) : Cadence × List SocketAddr :=
  (s.1.tick tick,
    match tick with
    | .ok outcome => refreshFallback s.2 outcome
    | .error _ => s.2)

/-- `watchdog_loop`, run as root, after the given ticks. -/
def watchdogLoop (fallback : List SocketAddr) (ticks : List TickResult) : Cadence × List SocketAddr :=
  ticks.foldl watchdogTurn (.start, fallback)

/-! ## Chains of reassertions -/

def isClean : TickResult → Bool
  | .ok (.ok (.clean _ _)) => true
  | _ => false

def isReasserted : TickResult → Bool
  | .ok (.ok (.reasserted _ _ _)) => true
  | _ => false

/-- The history ends with a reassertion that is the `n`-th of a chain, where `slow` says after which histories slow
mode is on. -/
inductive Chain (slow : List TickResult → Prop) : List TickResult → Nat → Prop
  | first (es : List TickResult) {tick : TickResult} : isReasserted tick = true → Chain slow (es ++ [tick]) 1
  | next {es mid : List TickResult} {tick : TickResult} {n : Nat} : Chain slow es n →
      mid.countP isClean < flapWindowTicks →
      -- no clean tick of these leaves slow mode
      (∀ before clean after, mid = before ++ clean :: after → isClean clean = true → ¬ slow (es ++ before)) →
      isReasserted tick = true → Chain slow (es ++ mid ++ [tick]) (n + 1)

/-- Some reassertion was at least the `flapStrikes`-th of a chain and no clean tick came after it. -/
def Flapping (slow : List TickResult → Prop) (ticks : List TickResult) : Prop :=
  ∃ before after n, ticks = before ++ after ∧ Chain slow before n ∧ flapStrikes ≤ n ∧
    ∀ tick ∈ after, isClean tick = false

/-! ## Single ticks -/

namespace Cadence

variable {c : Cadence} {tick : TickResult} {n k : Nat}

theorem tick_clean (h : isClean tick = true) : c.tick tick = c.onClean := by
  unfold isClean at h
  split at h
  · rfl
  · cases h

theorem tick_reasserted (h : isReasserted tick = true) : c.tick tick = c.onReasserted := by
  unfold isReasserted at h
  split at h
  · rfl
  · cases h

/-- An idle or failed tick changes nothing. -/
theorem tick_other (hc : isClean tick = false) (hr : isReasserted tick = false) : c.tick tick = c := by
  unfold Cadence.tick
  split
  · cases hc
  · cases hr
  · rfl
  · rfl
  · rfl

/-- What holds between any two ticks. -/
structure Sound (c : Cadence) : Prop where
  strikes : c.slowMode = false → c.strikes < flapStrikes
  ticks : ∀ t, c.ticksSinceReassert = some t → t < flapWindowTicks
  interval : c.interval = if c.slowMode then watchdogSlowInterval else watchdogInterval

theorem sound_start : start.Sound := ⟨fun _ => by decide, fun _ h => (by cases h), rfl⟩

theorem onClean_sound (h : c.Sound) : c.onClean.Sound := by
  unfold onClean
  split
  · exact ⟨fun _ => by decide, fun _ ht => (by cases ht), rfl⟩
  · split
    · rename_i ticks _
      dsimp only
      split
      · exact ⟨fun _ => Nat.zero_lt_succ _, fun _ ht => (by cases ht), h.interval⟩
      · rename_i hlt
        refine ⟨h.strikes, fun t ht => ?_, h.interval⟩
        rw [← Option.some.inj ht]
        exact Nat.lt_of_not_le hlt
    · exact h

theorem onReasserted_sound (h : c.Sound) : c.onReasserted.Sound := by
  have hzero : ∀ t, some 0 = some t → t < flapWindowTicks := by
    intro t ht
    rw [← Option.some.inj ht]
    decide
  unfold onReasserted
  generalize (if c.ticksSinceReassert.isSome = true then _ else 1) = strikes
  dsimp only
  split
  · exact ⟨fun hs => (by cases hs), hzero, rfl⟩
  · rename_i hn
    exact ⟨fun hs => Nat.lt_of_not_le fun hle => hn ⟨hle, hs⟩, hzero, h.interval⟩

theorem tick_sound (h : c.Sound) (tick : TickResult) : (c.tick tick).Sound := by
  unfold Cadence.tick
  split
  · exact onClean_sound h
  · exact onReasserted_sound h
  · exact h
  · exact h
  · exact h

/-- Slow mode outlasts every tick that is not clean. -/
theorem tick_slow (h : c.slowMode = true) (hc : isClean tick = false) : (c.tick tick).slowMode = true := by
  unfold Cadence.tick
  split
  · cases hc
  · unfold onReasserted
    simp [h]
  · exact h
  · exact h
  · exact h

theorem onReasserted_slow (h : c.slowMode = true) : c.onReasserted.slowMode = true := by
  unfold onReasserted
  simp [h]

/-- Outside slow mode a reassertion counts one strike more, or the first one. -/
theorem onReasserted_strikes (h : c.Sound) (hs : c.slowMode = false) :
    c.onReasserted.strikes = (if c.ticksSinceReassert.isSome then c.strikes + 1 else 1) ∧
      c.onReasserted.ticksSinceReassert = some 0 ∧
      (c.onReasserted.slowMode = true ↔ flapStrikes ≤ c.onReasserted.strikes) := by
  have hlt : c.strikes < 3 := h.strikes hs
  have hmod : (c.strikes + 1) % 4294967296 = c.strikes + 1 := Nat.mod_eq_of_lt (by omega)
  unfold onReasserted
  rw [hmod]
  generalize (if c.ticksSinceReassert.isSome = true then _ else 1) = strikes
  dsimp only
  by_cases hn : strikes ≥ flapStrikes
  · rw [if_pos ⟨hn, hs⟩]
    exact ⟨rfl, rfl, fun _ => hn, fun _ => rfl⟩
  · rw [if_neg fun h => hn h.1]
    exact ⟨rfl, rfl, fun h => absurd (hs.symm.trans h) (by simp), fun h => absurd h hn⟩

/-- A clean tick ends slow mode. -/
theorem onClean_slowMode (c : Cadence) : c.onClean.slowMode = false := by
  unfold onClean
  split
  · rfl
  · rename_i hs
    have hs : c.slowMode = false := by simpa using hs
    split
    · dsimp only
      split
      · exact hs
      · exact hs
    · exact hs

/-- Outside slow mode a clean tick counts, unless the strikes are forgotten in time. -/
theorem onClean_ticks {t : Nat} (h : c.Sound) (hs : c.slowMode = false) (ht : c.ticksSinceReassert = some t) :
    c.onClean = if t + 1 < flapWindowTicks then { c with ticksSinceReassert := some (t + 1) }
      else { c with ticksSinceReassert := none, strikes := 0 } := by
  have hlt : t < 3 := h.ticks t ht
  have hmod : (t + 1) % 4294967296 = t + 1 := Nat.mod_eq_of_lt (by omega)
  unfold onClean
  simp only [hs, ht, hmod, Bool.false_eq_true, if_false]
  by_cases hge : t + 1 < flapWindowTicks
  · rw [if_pos hge, if_neg (Nat.not_le_of_lt hge)]
  · rw [if_neg hge, if_pos (Nat.le_of_not_lt hge)]

/-- A clean tick that still counts since a reassertion counts one more than before. -/
theorem onClean_counts {t : Nat} (h : c.Sound) (ht : c.onClean.ticksSinceReassert = some t) :
    c.slowMode = false ∧ c.onClean.strikes = c.strikes ∧ ∃ t', c.ticksSinceReassert = some t' ∧ t = t' + 1 := by
  cases hs : c.slowMode with
  | true =>
    unfold onClean at ht
    rw [if_pos hs] at ht
    cases ht
  | false =>
    cases ht' : c.ticksSinceReassert with
    | none =>
      unfold onClean at ht
      rw [if_neg (by simp [hs]), ht'] at ht
      exact absurd (ht'.symm.trans ht) (by simp)
    | some t' =>
      rw [onClean_ticks h hs ht'] at ht ⊢
      by_cases hlt : t' + 1 < flapWindowTicks
      · rw [if_pos hlt] at ht ⊢
        exact ⟨rfl, rfl, t', rfl, (Option.some.inj ht).symm⟩
      · rw [if_neg hlt] at ht
        cases ht

/-! ## Chains lead to slow mode -/

/-- At least `n` strikes, the last one at most `k` clean ticks ago. -/
structure Primed (c : Cadence) (n k : Nat) : Prop where
  strikes : n ≤ c.strikes
  ticks : ∃ t ≤ k, c.ticksSinceReassert = some t

theorem onReasserted_primed (h : c.Sound) (hp : c.slowMode = true ∨ c.Primed n k) :
    c.onReasserted.slowMode = true ∨ c.onReasserted.Primed (n + 1) 0 := by
  by_cases hs : c.slowMode = true
  · exact .inl (onReasserted_slow hs)
  · obtain ⟨hn, t, -, ht⟩ := hp.resolve_left hs
    obtain ⟨hstrikes, hticks, -⟩ := onReasserted_strikes h (by simpa using hs)
    rw [ht] at hstrikes
    exact .inr ⟨by rw [hstrikes]; exact Nat.succ_le_succ hn, 0, Nat.le_refl 0, hticks⟩

theorem tick_primed (h : c.Sound) (hp : c.slowMode = true ∨ c.Primed n k)
    (hc : isClean tick = true → c.slowMode = false) (hk : k + [tick].countP isClean < flapWindowTicks) :
    (c.tick tick).slowMode = true ∨ (c.tick tick).Primed n (k + [tick].countP isClean) := by
  by_cases hclean : isClean tick = true
  · rw [tick_clean hclean]
    have hcount : [tick].countP isClean = 1 := by simp [hclean]
    rw [hcount] at hk ⊢
    obtain ⟨hn, t, htk, ht⟩ := hp.resolve_left (by simp [hc hclean])
    rw [onClean_ticks h (hc hclean) ht, if_pos (lt_of_le_of_lt (Nat.succ_le_succ htk) hk)]
    exact .inr ⟨hn, t + 1, Nat.succ_le_succ htk, rfl⟩
  · have hcount : [tick].countP isClean = 0 := by simp [hclean]
    rw [hcount]
    by_cases hre : isReasserted tick = true
    · rw [tick_reasserted hre]
      refine (onReasserted_primed h hp).imp_right fun hp => ⟨(Nat.le_succ n).trans hp.strikes, ?_⟩
      obtain ⟨t, ht, heq⟩ := hp.ticks
      exact ⟨t, ht.trans (Nat.zero_le _), heq⟩
    · rw [tick_other (by simpa using hclean) (by simpa using hre)]
      exact hp

/-- The ticks between two neighbours of a chain. -/
theorem foldl_primed (h : c.Sound) (hp : c.slowMode = true ∨ c.Primed n k) (mid : List TickResult)
    (hc : ∀ before clean after, mid = before ++ clean :: after → isClean clean = true →
      (before.foldl Cadence.tick c).slowMode = false)
    (hk : k + mid.countP isClean < flapWindowTicks) :
    (mid.foldl Cadence.tick c).slowMode = true ∨ (mid.foldl Cadence.tick c).Primed n (k + mid.countP isClean) := by
  induction mid generalizing c k with
  | nil => exact hp
  | cons tick mid ih =>
    rw [← List.singleton_append, List.countP_append, ← Nat.add_assoc] at hk ⊢
    apply ih (tick_sound h tick) (tick_primed h hp (hc [] tick mid rfl) (by omega)) _ hk
    intro before clean after hmid hclean
    exact hc (tick :: before) clean after (by rw [hmid]; rfl) hclean

end Cadence

/-! ## Whole histories -/

/-- The variables of the loop after the given ticks. -/
def cadence (ticks : List TickResult) : Cadence := ticks.foldl Cadence.tick .start

/-- Slow mode is on after the history. -/
def SlowAfter (ticks : List TickResult) : Prop := (cadence ticks).slowMode = true

theorem watchdogLoop_fst (fallback : List SocketAddr) (ticks : List TickResult) :
    (watchdogLoop fallback ticks).1 = cadence ticks := by
  induction ticks using List.reverseRecOn with
  | nil => rfl
  | append_singleton ticks tick ih =>
    unfold watchdogLoop cadence at *
    rw [List.foldl_append, List.foldl_append, ← ih]
    rfl

@[simp] theorem cadence_snoc (ticks : List TickResult) (tick : TickResult) :
    cadence (ticks ++ [tick]) = (cadence ticks).tick tick := by
  simp [cadence]

theorem cadence_append (ticks more : List TickResult) :
    cadence (ticks ++ more) = more.foldl Cadence.tick (cadence ticks) := by
  simp [cadence]

theorem cadence_sound (ticks : List TickResult) : (cadence ticks).Sound := by
  induction ticks using List.reverseRecOn with
  | nil => exact Cadence.sound_start
  | append_singleton ticks tick ih =>
    rw [cadence_snoc]
    exact Cadence.tick_sound ih tick

variable {ticks before mid : List TickResult} {tick : TickResult} {n : Nat}

/-- Slow mode stays on until the next clean tick. -/
theorem slowAfter_append (h : SlowAfter ticks) (after : List TickResult) (hc : ∀ tick ∈ after, isClean tick = false) :
    SlowAfter (ticks ++ after) := by
  induction after using List.reverseRecOn with
  | nil => rwa [List.append_nil]
  | append_singleton after tick ih =>
    rw [← List.append_assoc]
    show (cadence _).slowMode = true
    rw [cadence_snoc]
    exact Cadence.tick_slow (ih fun t ht => hc t (List.mem_append_left _ ht)) (hc tick (by simp))

/-- At the end of a chain, slow mode is on or each of the chain's reassertions counts. -/
theorem Chain.primed (h : Chain SlowAfter ticks n) :
    (cadence ticks).slowMode = true ∨ (cadence ticks).Primed n 0 := by
  induction h with
  | @first es tick hre =>
    rw [cadence_snoc, Cadence.tick_reasserted hre]
    by_cases hs : (cadence es).slowMode = true
    · exact .inl (Cadence.onReasserted_slow hs)
    · obtain ⟨hstrikes, hticks, -⟩ := Cadence.onReasserted_strikes (cadence_sound es) (by simpa using hs)
      refine .inr ⟨?_, 0, Nat.le_refl 0, hticks⟩
      rw [hstrikes]
      split <;> omega
  | @next es mid tick n _ hmid hleave hre ih =>
    rw [cadence_snoc, Cadence.tick_reasserted hre, cadence_append]
    apply Cadence.onReasserted_primed
    · rw [← cadence_append]
      exact cadence_sound _
    · apply Cadence.foldl_primed (cadence_sound es) ih mid _ (by rwa [Nat.zero_add])
      intro before clean after heq hclean
      have := hleave before clean after heq hclean
      rw [← cadence_append]
      simpa [SlowAfter] using this

theorem slowAfter_of_flapping (h : Flapping SlowAfter ticks) : SlowAfter ticks := by
  obtain ⟨before, after, n, rfl, hchain, hn, hafter⟩ := h
  apply slowAfter_append _ after hafter
  by_contra hs
  have hs' : (cadence before).slowMode = false := by simpa [SlowAfter] using hs
  have hlt := (cadence_sound before).strikes hs'
  have hle := (hchain.primed.resolve_left hs).strikes
  omega

/-! ## Slow mode comes from a chain -/

/-- None of the clean ticks in `mid`, which come after `before`, leaves slow mode. -/
def NoneLeaves (before mid : List TickResult) : Prop :=
  ∀ pre clean post, mid = pre ++ clean :: post → isClean clean = true → ¬ SlowAfter (before ++ pre)

theorem noneLeaves_nil : NoneLeaves before [] := fun pre clean post h => by simp at h

theorem noneLeaves_snoc (h : NoneLeaves before mid) (ht : isClean tick = true → ¬ SlowAfter (before ++ mid)) :
    NoneLeaves before (mid ++ [tick]) := by
  intro pre clean post heq hclean
  rcases List.eq_nil_or_concat post with rfl | ⟨post', last, rfl⟩
  · obtain ⟨rfl, h1⟩ := List.append_inj' heq rfl
    cases h1
    exact ht hclean
  · rw [List.concat_eq_append, ← List.cons_append, ← List.append_assoc] at heq
    obtain ⟨rfl, -⟩ := List.append_inj' heq rfl
    exact h pre clean post' rfl hclean

/-- Outside slow mode, the strikes are the length of a chain, and the ticks the clean ones since its end. -/
def Tracked (ticks : List TickResult) : Prop :=
  ∀ t, (cadence ticks).ticksSinceReassert = some t → ∃ before mid, ticks = before ++ mid ∧
    Chain SlowAfter before (cadence ticks).strikes ∧ mid.countP isClean = t ∧ NoneLeaves before mid

/-- A reassertion outside slow mode ends a chain as long as the strikes. -/
theorem chain_reasserted (hs : ¬ SlowAfter ticks) (htr : Tracked ticks) (hre : isReasserted tick = true) :
    Chain SlowAfter (ticks ++ [tick]) (cadence (ticks ++ [tick])).strikes := by
  have hs' : (cadence ticks).slowMode = false := by simpa [SlowAfter] using hs
  rw [cadence_snoc, Cadence.tick_reasserted hre, (Cadence.onReasserted_strikes (cadence_sound ticks) hs').1]
  cases ht : (cadence ticks).ticksSinceReassert with
  | none => exact .first ticks hre
  | some t =>
    obtain ⟨before, mid, heq, hchain, hcount, hleave⟩ := htr t ht
    have hlt := (cadence_sound ticks).ticks t ht
    have hnext := Chain.next hchain (by rwa [hcount]) hleave hre
    rwa [← heq] at hnext

/-- One more tick that leaves the strikes alone. -/
theorem tracked_snoc {t t' : Nat} (htr : Tracked ticks) (ht : (cadence ticks).ticksSinceReassert = some t)
    (hstrikes : (cadence (ticks ++ [tick])).strikes = (cadence ticks).strikes)
    (hcount : t' = t + [tick].countP isClean) (hleave : isClean tick = true → ¬ SlowAfter ticks) :
    ∃ before mid, ticks ++ [tick] = before ++ mid ∧ Chain SlowAfter before (cadence (ticks ++ [tick])).strikes ∧
      mid.countP isClean = t' ∧ NoneLeaves before mid := by
  obtain ⟨before, mid, heq, hchain, hmid, hnone⟩ := htr t ht
  refine ⟨before, mid ++ [tick], by rw [heq, List.append_assoc], by rwa [hstrikes], ?_, ?_⟩
  · rw [List.countP_append, hmid, hcount]
  · apply noneLeaves_snoc hnone
    rwa [← heq]

theorem tracked_clean (htr : ¬ SlowAfter ticks → Tracked ticks) (hc : isClean tick = true) :
    ¬ SlowAfter (ticks ++ [tick]) ∧ Tracked (ticks ++ [tick]) := by
  have hstep : cadence (ticks ++ [tick]) = (cadence ticks).onClean := by rw [cadence_snoc, Cadence.tick_clean hc]
  constructor
  · simp [SlowAfter, hstep, Cadence.onClean_slowMode]
  · intro t ht
    rw [hstep] at ht
    obtain ⟨hs, hstrikes, t', ht', rfl⟩ := Cadence.onClean_counts (cadence_sound ticks) ht
    have hs' : ¬ SlowAfter ticks := by simp [SlowAfter, hs]
    exact tracked_snoc (htr hs') ht' (by rw [hstep, hstrikes]) (by simp [hc]) fun _ => hs'

/-- What the variables say about the history: in slow mode it flaps, otherwise they track a chain. -/
theorem history (ticks : List TickResult) :
    (SlowAfter ticks → Flapping SlowAfter ticks) ∧ (¬ SlowAfter ticks → Tracked ticks) := by
  induction ticks using List.reverseRecOn with
  | nil => exact ⟨fun h => (by cases h), fun _ t ht => (by cases ht)⟩
  | append_singleton ticks tick ih =>
    obtain ⟨hslow, htr⟩ := ih
    by_cases hc : isClean tick = true
    · obtain ⟨hs, htr⟩ := tracked_clean htr hc
      exact ⟨fun h => absurd h hs, fun _ => htr⟩
    have hc' : isClean tick = false := by simpa using hc
    by_cases hs : SlowAfter ticks
    · refine ⟨fun _ => ?_, fun hn => absurd (slowAfter_append hs [tick] (by simp [hc'])) hn⟩
      obtain ⟨before, after, n, rfl, hchain, hn, hafter⟩ := hslow hs
      refine ⟨before, after ++ [tick], n, by rw [List.append_assoc], hchain, hn, ?_⟩
      exact List.forall_mem_append.2 ⟨hafter, by simp [hc']⟩
    by_cases hre : isReasserted tick = true
    · have hchain := chain_reasserted hs (htr hs) hre
      obtain ⟨-, hticks, hiff⟩ := Cadence.onReasserted_strikes (cadence_sound ticks) (by simpa [SlowAfter] using hs)
      rw [← Cadence.tick_reasserted hre, ← cadence_snoc] at hticks hiff
      constructor
      · intro h
        exact ⟨ticks ++ [tick], [], _, by simp, hchain, hiff.1 h, by simp⟩
      · intro _ t ht
        rw [hticks] at ht
        cases ht
        exact ⟨ticks ++ [tick], [], by simp, hchain, rfl, noneLeaves_nil⟩
    · have hsame : cadence (ticks ++ [tick]) = cadence ticks := by
        rw [cadence_snoc, Cadence.tick_other hc' (by simpa using hre)]
      constructor
      · intro h
        exact absurd (by rwa [SlowAfter, hsame] at h) hs
      · intro _ t ht
        rw [hsame] at ht
        exact tracked_snoc (htr hs) ht (by rw [hsame]) (by simp [hc']) fun h => absurd h hc

/-! ## The specification determines the mode -/

/-- Chains only look at shorter histories. -/
theorem Chain.congr {slow slow' : List TickResult → Prop} (h : Chain slow ticks n)
    (hs : ∀ es, es.length < ticks.length → (slow es ↔ slow' es)) : Chain slow' ticks n := by
  induction h with
  | first es hre => exact .first es hre
  | @next es mid tick n _ hmid hleave hre ih =>
    refine .next (ih fun es' hlt => hs es' ?_) hmid ?_ hre
    · simp only [List.length_append]
      omega
    · intro before clean after heq hclean hslow
      refine hleave before clean after heq hclean ((hs _ ?_).2 hslow)
      rw [heq]
      simp only [List.length_append, List.length_cons]
      omega

/-- Only one mode can be on exactly when the history flaps by it. -/
theorem flapping_unique {slow slow' : List TickResult → Prop} (h : ∀ es, slow es ↔ Flapping slow es)
    (h' : ∀ es, slow' es ↔ Flapping slow' es) (ticks : List TickResult) : slow ticks ↔ slow' ticks := by
  induction hl : ticks.length using Nat.strong_induction_on generalizing ticks with
  | _ l ih =>
    have hshort : ∀ es, es.length < ticks.length → (slow es ↔ slow' es) := fun es hlt => ih es.length (hl ▸ hlt) es rfl
    rw [h, h']
    constructor
    · rintro ⟨before, after, n, rfl, hchain, hn, hafter⟩
      refine ⟨before, after, n, rfl, hchain.congr fun es hlt => hshort es ?_, hn, hafter⟩
      rw [List.length_append]
      omega
    · rintro ⟨before, after, n, rfl, hchain, hn, hafter⟩
      refine ⟨before, after, n, rfl, hchain.congr fun es hlt => (hshort es ?_).symm, hn, hafter⟩
      rw [List.length_append]
      omega

/-- Any mode that is on exactly when the history flaps by it is the loop's. -/
theorem slowAfter_determined {slow : List TickResult → Prop} (h : ∀ es, slow es ↔ Flapping slow es)
    (ticks : List TickResult) : slow ticks ↔ SlowAfter ticks :=
  flapping_unique h (fun es => ⟨(history es).1, slowAfter_of_flapping⟩) ticks

/-! ## Exact detection -/

/-- Flap detection is exact: after every history the loop is in slow mode if and only if some reassertion was at
least the third of a chain and no clean tick came after it, and the interval is the slow one exactly then. -/
theorem watchdogLoop_slow_iff (fallback : List SocketAddr) (ticks : List TickResult) :
    ((watchdogLoop fallback ticks).1.slowMode = true ↔
        Flapping (fun es => (watchdogLoop fallback es).1.slowMode = true) ticks) ∧
      (watchdogLoop fallback ticks).1.interval =
        if (watchdogLoop fallback ticks).1.slowMode then watchdogSlowInterval else watchdogInterval := by
  simp only [watchdogLoop_fst]
  exact ⟨⟨(history ticks).1, slowAfter_of_flapping⟩, (cadence_sound ticks).interval⟩

end DNSRivet.Proxy
