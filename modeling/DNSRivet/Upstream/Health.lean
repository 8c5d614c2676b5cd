/-
The health of a channel's connection over every interleaving of its queries. `SlotOk` says what the slot
satisfies after any history, `CallOk` what a query may rely on while it waits, `SendsOk` what it has
sent; each move of a query keeps them, for itself and for the others. Failures are blamed on the
connection they were observed on, and on each connection at most once (`connection_health`).
-/
import DNSRivet.Upstream.Channel

namespace DNSRivet.Upstream

open DNSRivet.Base DNSRivet.Net

variable {E : Type} {cfg : ChannelConfig} {es : List (ChannelEvent E)} {now : Stamp} {q : Nat}
  {slot slot' : Slot E} {lock lock' : Option Nat} {event : CallEvent E} {c c' : Call E}

/-! ## History -/

/-- The connections stored, in order. -/
def stores (es : List (ChannelEvent E)) : List E :=
  es.filterMap fun e =>
    match e with
    | .on _ (.connected exchange) => some exchange
    | _ => none

/-- The leases query `q` has sent on, in order. -/
def sends (es : List (ChannelEvent E)) (q : Nat) : List (Lease E) :=
  es.filterMap fun e =>
    match e with
    | .on p (.send lease) => if p = q then some lease else none
    | _ => none

/-- Whether the event is a failure on a lease of `generation` that backs the slot off. -/
def blames (generation : Nat) : ChannelEvent E → Bool
  | .on _ (.report lease true) => lease.generation == generation
  | _ => false

/-- How often failures on leases of `generation` backed the slot off. -/
def backoffs (es : List (ChannelEvent E)) (generation : Nat) : Nat := es.countP (blames generation)

/-- `exchange` was stored as connection number `generation`. -/
def StoredAs (es : List (ChannelEvent E)) (generation : Nat) (exchange : E) : Prop :=
  ∃ k, generation = k + 1 ∧ (stores es)[k]? = some exchange

theorem stores_snoc (es : List (ChannelEvent E)) (e : ChannelEvent E) : stores (es ++ [e]) = stores es ++ stores [e] :=
  List.filterMap_append

theorem sends_snoc (es : List (ChannelEvent E)) (e : ChannelEvent E) (q : Nat) :
    sends (es ++ [e]) q = sends es q ++ sends [e] q := List.filterMap_append

theorem backoffs_snoc (es : List (ChannelEvent E)) (e : ChannelEvent E) (generation : Nat) :
    backoffs (es ++ [e]) generation = backoffs es generation + if blames generation e then 1 else 0 := by
  rw [backoffs, List.countP_append, List.countP_singleton]
  rfl

theorem StoredAs.snoc {generation : Nat} {exchange : E} (h : StoredAs es generation exchange) (e : ChannelEvent E) :
    StoredAs (es ++ [e]) generation exchange := by
  obtain ⟨k, rfl, hk⟩ := h
  refine ⟨k, rfl, ?_⟩
  rw [stores_snoc, List.getElem?_append_left (List.getElem?_eq_some_iff.1 hk).1]
  exact hk

/-! ## The slot -/

/-- What the slot satisfies after `es`, with fewer than 2^64 stores: it is healthy while it holds a
connection, that connection is the last one stored, and a connection that was blamed is gone. -/
structure SlotOk (es : List (ChannelEvent E)) (slot : Slot E) : Prop where
  healthy : slot.exchange.isSome → slot.connectFailures = 0 ∧ slot.cooldownUntil = none
  generation : slot.generation = (stores es).length
  held : ∀ exchange, slot.exchange = some exchange → StoredAs es slot.generation exchange
  blamed : ∀ generation, 0 < backoffs es generation →
    generation < slot.generation ∨ generation = slot.generation ∧ slot.exchange = none
  once : ∀ generation, backoffs es generation ≤ 1

/-- What query `q` may rely on at its next move. -/
structure CallOk (es : List (ChannelEvent E)) (now : Stamp) (slot : Slot E) (lock : Option Nat) (q : Nat) (c : Call E) :
    Prop where
  holder : c.phase.holds = true → lock = some q
  dials : c.phase.dials = true → slot.exchange = none ∧ ∀ t, slot.cooldownUntil = some t → t ≤ now.mono
  lease : ∀ lease, c.phase.lease? = some lease → StoredAs es lease.generation lease.exchange

/-- An event that stores and blames nothing. -/
def Neutral (e : ChannelEvent E) : Prop := stores [e] = [] ∧ ∀ generation, blames generation e = false

theorem Neutral.stores_eq {e : ChannelEvent E} (h : Neutral e) : stores (es ++ [e]) = stores es := by
  rw [stores_snoc, h.1, List.append_nil]

theorem Neutral.backoffs_eq {e : ChannelEvent E} (h : Neutral e) (generation : Nat) :
    backoffs (es ++ [e]) generation = backoffs es generation := by
  rw [backoffs_snoc, h.2 generation]; simp

/-- A neutral event that keeps the generation and drops the connection at most. -/
theorem SlotOk.neutral {e : ChannelEvent E} (h : SlotOk es slot) (he : Neutral e)
    (hg : slot'.generation = slot.generation) (hx : slot'.exchange = slot.exchange ∨ slot'.exchange = none)
    (hh : slot'.exchange.isSome →
      slot'.connectFailures = slot.connectFailures ∧ slot'.cooldownUntil = slot.cooldownUntil) :
    SlotOk (es ++ [e]) slot' where
  healthy := by
    intro hsome
    rcases hx with hx | hx
    · obtain ⟨hf, hc⟩ := hh hsome
      rw [hf, hc]; exact h.healthy (hx ▸ hsome)
    · rw [hx] at hsome; cases hsome
  generation := by rw [hg, he.stores_eq]; exact h.generation
  held := by
    intro exchange hex
    rcases hx with hx | hx
    · rw [hg]; exact (h.held exchange (hx ▸ hex)).snoc e
    · rw [hx] at hex; cases hex
  blamed := by
    intro generation hpos
    rw [he.backoffs_eq] at hpos
    rw [hg]
    refine (h.blamed generation hpos).imp_right fun ⟨heq, hnone⟩ => ⟨heq, ?_⟩
    rcases hx with hx | hx
    · rw [hx]; exact hnone
    · exact hx
  once := by intro generation; rw [he.backoffs_eq]; exact h.once generation

theorem Slot.dropIfSlept_spec (slot : Slot E) (now : Stamp) :
    (slot.dropIfSlept now).2.generation = slot.generation ∧
    ((slot.dropIfSlept now).2.exchange = slot.exchange ∨ (slot.dropIfSlept now).2.exchange = none) ∧
    (slot.dropIfSlept now).2.connectFailures = slot.connectFailures ∧
    (slot.dropIfSlept now).2.cooldownUntil = slot.cooldownUntil := by
  unfold Slot.dropIfSlept
  simp only
  split
  · exact ⟨rfl, .inl rfl, rfl, rfl⟩
  · split
    · exact ⟨rfl, .inr rfl, rfl, rfl⟩
    · exact ⟨rfl, .inl rfl, rfl, rfl⟩

theorem Slot.invalidate_cases (slot : Slot E) (generation : Nat) :
    (slot.generation = generation ∧ slot.exchange.isSome ∧
      slot.invalidate generation = (true, { slot with exchange := none })) ∨
    slot.invalidate generation = (false, slot) := by
  unfold Slot.invalidate
  split
  · rename_i h
    exact .inl ⟨h.1, h.2, rfl⟩
  · exact .inr rfl

theorem SlotOk.store {p : Nat} {exchange : E} (h : SlotOk es slot)
    (hlt : (stores (es ++ [.on p (.connected exchange)])).length < 2 ^ 64) :
    SlotOk (es ++ [.on p (.connected exchange)]) (slot.store exchange now) := by
  have hst : stores (es ++ [.on p (.connected exchange)]) = stores es ++ [exchange] := by rw [stores_snoc]; rfl
  have hlen : (stores (es ++ [.on p (.connected exchange)])).length = (stores es).length + 1 := by
    rw [hst, List.length_append]; rfl
  have hgen : (slot.store exchange now).generation = (stores es).length + 1 := by
    rw [hlen] at hlt
    rw [Slot.store, h.generation, Nat.mod_eq_of_lt hlt]
  have hb : ∀ generation, backoffs (es ++ [.on p (.connected exchange)]) generation = backoffs es generation := by
    intro generation
    rw [backoffs_snoc]; rfl
  constructor
  case healthy => exact fun _ => ⟨rfl, rfl⟩
  case generation => rw [hgen, hlen]
  case held =>
    intro exchange' hex
    cases hex
    refine ⟨(stores es).length, hgen, ?_⟩
    rw [hst, List.getElem?_append_right (Nat.le_refl _), Nat.sub_self]
    rfl
  case blamed =>
    intro generation hpos
    rw [hb] at hpos
    rw [hgen]
    rcases h.blamed generation hpos with hold | ⟨heq, -⟩
    · left; rw [h.generation] at hold; omega
    · left; rw [heq, h.generation]; omega
  case once => intro generation; rw [hb]; exact h.once generation

theorem Call.report_cases (c : Call E) (slot : Slot E) (lease : Lease E) (failure : SendFailure) (now : Nat) :
    (c.report slot lease failure now).1 = slot ∧ (c.report slot lease failure now).2.1 = false ∨
    slot.generation = lease.generation ∧ slot.exchange.isSome ∧
      (c.report slot lease failure now).1.generation = slot.generation ∧
      (c.report slot lease failure now).1.exchange = none := by
  unfold Call.report
  rcases slot.invalidate_cases lease.generation with ⟨hgen, hsome, heq⟩ | heq
  · right
    rw [heq]
    cases failure with
    | deadline => exact ⟨hgen, hsome, rfl, rfl⟩
    | transport err =>
      simp only
      split
      · exact ⟨hgen, hsome, rfl, rfl⟩
      · exact ⟨hgen, hsome, rfl, rfl⟩
  · left
    rw [heq]
    cases failure with
    | deadline => exact ⟨rfl, rfl⟩
    | transport err =>
      simp only
      split
      · exact ⟨rfl, rfl⟩
      · exact ⟨rfl, rfl⟩

/-- A failure is blamed on the connection it was observed on while the slot still holds it, so at most
once. -/
theorem SlotOk.report {p : Nat} {lease : Lease E} {backedOff : Bool} (h : SlotOk es slot)
    (hcases : slot' = slot ∧ backedOff = false ∨ slot.generation = lease.generation ∧ slot.exchange.isSome ∧
      slot'.generation = slot.generation ∧ slot'.exchange = none) :
    SlotOk (es ++ [.on p (.report lease backedOff)]) slot' := by
  rcases hcases with ⟨rfl, rfl⟩ | ⟨hgen, hsome, hg, hx⟩
  · exact h.neutral ⟨rfl, fun _ => rfl⟩ rfl (.inl rfl) fun _ => ⟨rfl, rfl⟩
  cases backedOff with
  | false => exact h.neutral ⟨rfl, fun _ => rfl⟩ hg (.inr hx) fun hs => by rw [hx] at hs; cases hs
  | true =>
    have hst : stores (es ++ [.on p (.report lease true)]) = stores es := by
      rw [stores_snoc]; exact List.append_nil _
    -- the connection was held, so it has not been blamed yet
    have hfirst : backoffs es lease.generation = 0 := by
      by_contra hpos
      rcases h.blamed lease.generation (Nat.pos_of_ne_zero hpos) with hlt | ⟨-, hnone⟩
      · omega
      · rw [hnone] at hsome; cases hsome
    have hother : ∀ generation, generation ≠ lease.generation →
        backoffs (es ++ [.on p (.report lease true)]) generation = backoffs es generation := by
      intro generation hne
      rw [backoffs_snoc, if_neg (by simpa [blames] using Ne.symm hne)]
      rfl
    constructor
    case healthy => intro hs; rw [hx] at hs; cases hs
    case generation => rw [hg, hst]; exact h.generation
    case held => intro exchange hex; rw [hx] at hex; cases hex
    case blamed =>
      intro generation hpos
      by_cases heq : generation = lease.generation
      · exact .inr ⟨by rw [hg, hgen]; exact heq, hx⟩
      · rw [hother generation heq] at hpos
        rw [hg]
        exact (h.blamed generation hpos).imp_right fun ⟨hcur, _⟩ => ⟨hcur, hx⟩
    case once =>
      intro generation
      by_cases heq : generation = lease.generation
      · rw [heq, backoffs_snoc, hfirst]; split <;> omega
      · rw [hother generation heq]; exact h.once generation

/-- Every move keeps the slot in order, as long as stores do not wrap the generation. -/
theorem SlotOk.move {call : Option (Call E)} (h : SlotOk es slot)
    (hc : ∀ c, call = some c → CallOk es now slot lock q c)
    (hm : Move cfg now q slot lock call event slot' lock' c') (hlt : (stores (es ++ [.on q event])).length < 2 ^ 64) :
    SlotOk (es ++ [.on q event]) slot' := by
  cases hm with
  | lock hphase =>
    obtain ⟨hg, hx, hf, hcool⟩ := slot.dropIfSlept_spec now
    exact h.neutral ⟨rfl, fun _ => rfl⟩ hg hx fun _ => ⟨hf, hcool⟩
  | unresolved hphase =>
    have hnone := ((hc _ rfl).dials (by rw [hphase]; rfl)).1
    exact h.neutral ⟨rfl, fun _ => rfl⟩ rfl (.inl rfl) fun hs => by rw [Slot.backoff, hnone] at hs; cases hs
  | exhausted hphase =>
    have hnone := ((hc _ rfl).dials (by rw [hphase]; rfl)).1
    exact h.neutral ⟨rfl, fun _ => rfl⟩ rfl (.inl rfl) fun hs => by rw [Slot.backoff, hnone] at hs; cases hs
  | connected hphase => exact h.store hlt
  | report hphase => exact h.report (Call.report_cases _ slot _ _ _)
  | _ => exact h.neutral ⟨rfl, fun _ => rfl⟩ rfl (.inl rfl) fun _ => ⟨rfl, rfl⟩

/-! ## One query -/

/-- Phases that neither hold the lock nor a lease rely on nothing. -/
theorem CallOk.free (hh : c.phase.holds = false) (hd : c.phase.dials = false) (hl : c.phase.lease? = none) :
    CallOk es now slot lock q c where
  holder := by intro h; rw [hh] at h; cases h
  dials := by intro h; rw [hd] at h; cases h
  lease := by intro lease h; rw [hl] at h; cases h

/-- A move within the slot's lock, or within a lease. -/
theorem CallOk.keep (h : CallOk es now slot lock q c) (e : ChannelEvent E)
    (hh : c'.phase.holds = true → c.phase.holds = true) (hd : c'.phase.dials = true → c.phase.dials = true)
    (hl : ∀ lease, c'.phase.lease? = some lease → c.phase.lease? = some lease) :
    CallOk (es ++ [e]) now slot lock q c' :=
  ⟨fun hp => h.holder (hh hp), fun hp => h.dials (hd hp), fun lease hp => (h.lease lease (hl lease hp)).snoc e⟩

theorem Call.check_cases (c : Call E) (cfg : ChannelConfig) (slot : Slot E) (now : Nat) :
    (∃ exchange, slot.exchange = some exchange ∧ c.check cfg slot now = .leased ⟨exchange, slot.generation, true⟩) ∨
    (∃ err, c.check cfg slot now = .done (.error err)) ∨
    slot.exchange = none ∧ (∀ t, slot.cooldownUntil = some t → t ≤ now) ∧
      (c.check cfg slot now = .resolving ∨ ∃ ips lastErr, c.check cfg slot now = .dialing ips lastErr) := by
  unfold Call.check Slot.lease
  cases hx : slot.exchange with
  | some exchange => exact .inl ⟨exchange, rfl, rfl⟩
  | none =>
    simp only [Option.map_none]
    split
    · exact .inr (.inl ⟨_, rfl⟩)
    · rename_i hcool
      refine .inr (.inr ⟨trivial, ?_, ?_⟩)
      · intro t ht
        rw [ht] at hcool
        simpa using hcool
      · cases cfg.bootstrapIp with
        | some ip => exact .inr ⟨_, _, rfl⟩
        | none => exact .inl rfl

/-- A move keeps what the query itself relies on. -/
theorem CallOk.move {call : Option (Call E)} (hs : SlotOk es slot) (hs' : SlotOk (es ++ [.on q event]) slot')
    (hc : ∀ c, call = some c → CallOk es now slot lock q c)
    (hm : Move cfg now q slot lock call event slot' lock' c') : CallOk (es ++ [.on q event]) now slot' lock' q c' := by
  cases hm with
  | call deadline => exact .free rfl rfl rfl
  | cancel hlive => exact .free rfl rfl rfl
  | lock hphase =>
    refine ⟨fun _ => rfl, fun hd => ?_, fun lease hl => ?_⟩
    · split at hd <;> cases hd
    · split at hl <;> cases hl
  | renewed hphase =>
    exact (hc _ rfl).keep _ (fun _ => by rw [hphase]; rfl) (fun h => by cases h) (fun _ h => by cases h)
  | check hphase =>
    rename_i c
    have hlock := (hc c rfl).holder (by rw [hphase]; rfl)
    refine ⟨fun hh => by rw [if_pos hh]; exact hlock, fun hd => ?_, fun lease hl => ?_⟩
    · rcases c.check_cases cfg slot now.mono with ⟨exchange, -, heq⟩ | ⟨err, heq⟩ | ⟨hnone, hcool, -⟩
      · simp only [heq] at hd; cases hd
      · simp only [heq] at hd; cases hd
      · exact ⟨hnone, hcool⟩
    · rcases c.check_cases cfg slot now.mono with ⟨exchange, hx, heq⟩ | ⟨err, heq⟩ | ⟨-, -, heq | ⟨ips, lastErr, heq⟩⟩
      · simp only [heq] at hl
        cases hl
        exact (hs.held exchange hx).snoc _
      · simp only [heq] at hl; cases hl
      · simp only [heq] at hl; cases hl
      · simp only [heq] at hl; cases hl
  | resolved hphase =>
    exact (hc _ rfl).keep _ (fun _ => by rw [hphase]; rfl) (fun _ => by rw [hphase]; rfl) (fun _ h => by cases h)
  | unresolved hphase => exact .free rfl rfl rfl
  | skip hphase hself =>
    exact (hc _ rfl).keep _ (fun _ => by rw [hphase]; rfl) (fun _ => by rw [hphase]; rfl) (fun _ h => by cases h)
  | dial hphase hself =>
    exact (hc _ rfl).keep _ (fun _ => by rw [hphase]; rfl) (fun _ => by rw [hphase]; rfl) (fun _ h => by cases h)
  | connected hphase =>
    constructor
    case holder => intro h; cases h
    case dials => intro h; cases h
    case lease =>
      intro lease hl
      cases hl
      exact hs'.held _ rfl
  | refused hphase =>
    exact (hc _ rfl).keep _ (fun _ => by rw [hphase]; rfl) (fun _ => by rw [hphase]; rfl) (fun _ h => by cases h)
  | exhausted hphase => exact .free rfl rfl rfl
  | send hphase =>
    exact (hc _ rfl).keep _ (fun h => by cases h) (fun h => by cases h) (fun _ h => by rw [hphase]; exact h)
  | answered hphase => exact .free rfl rfl rfl
  | failed hphase hlate =>
    exact (hc _ rfl).keep _ (fun h => by cases h) (fun h => by cases h) (fun _ h => by rw [hphase]; exact h)
  | report hphase =>
    rename_i c lease failure
    unfold Call.report
    cases failure with
    | deadline => exact .free rfl rfl rfl
    | transport err =>
      simp only
      split
      · exact .free rfl rfl rfl
      · exact .free rfl rfl rfl

/-- While another query has the lock, a move leaves the slot and the lock alone. -/
theorem Move.frame {call : Option (Call E)} {p : Nat} (hm : Move cfg now q slot lock call event slot' lock' c')
    (hc : ∀ c, call = some c → CallOk es now slot lock q c) (hp : lock = some p) (hne : p ≠ q) :
    slot' = slot ∧ lock' = lock := by
  have hholder : ∀ c, call = some c → c.phase.holds = true → False := by
    intro c hcall hh
    have := (hc c hcall).holder hh
    rw [hp] at this
    exact hne (Option.some.inj this)
  cases hm with
  | cancel hlive => exact ⟨rfl, if_neg fun h => hne (Option.some.inj (hp.symm.trans h))⟩
  | lock hphase => cases hp
  | check hphase => exact (hholder _ rfl (by rw [hphase]; rfl)).elim
  | unresolved hphase => exact (hholder _ rfl (by rw [hphase]; rfl)).elim
  | connected hphase => exact (hholder _ rfl (by rw [hphase]; rfl)).elim
  | exhausted hphase => exact (hholder _ rfl (by rw [hphase]; rfl)).elim
  | report hphase => cases hp
  | _ => exact ⟨rfl, rfl⟩

theorem CallPhase.dials_holds {phase : CallPhase E} (h : phase.dials = true) : phase.holds = true := by
  cases phase <;> first | rfl | cases h

/-- A move keeps what another query relies on. -/
theorem CallOk.other {call : Option (Call E)} {p : Nat} {d : Call E} (hd : CallOk es now slot lock p d)
    (hm : Move cfg now q slot lock call event slot' lock' c') (hc : ∀ c, call = some c → CallOk es now slot lock q c)
    (hne : p ≠ q) : CallOk (es ++ [.on q event]) now slot' lock' p d := by
  have hframe : d.phase.holds = true → slot' = slot ∧ lock' = lock := fun hh => hm.frame hc (hd.holder hh) hne
  constructor
  case holder => exact fun hh => by rw [(hframe hh).2]; exact hd.holder hh
  case dials => exact fun hdials => by rw [(hframe (CallPhase.dials_holds hdials)).1]; exact hd.dials hdials
  case lease => exact fun lease hl => (hd.lease lease hl).snoc _

/-! ## Sends -/

/-- What query `q` sent before the lease it is about: nothing, or, once it retries, one reused lease
that failed in transport. -/
inductive Prior (es : List (ChannelEvent E)) (q : Nat) : Option String → List (Lease E) → Prop
  | fresh : Prior es q none []
  | retry {first : Lease E} {err : String} : first.reused = true →
    ChannelEvent.on q (.failed first (.transport err)) ∈ es → Prior es q (some err) [first]

theorem Prior.snoc {retried : Option String} {before : List (Lease E)} (h : Prior es q retried before)
    (e : ChannelEvent E) : Prior (es ++ [e]) q retried before := by
  cases h with
  | fresh => exact .fresh
  | retry hreused hmem => exact .retry hreused (List.mem_append_left _ hmem)

theorem Prior.length_le {retried : Option String} {before : List (Lease E)} (h : Prior es q retried before) :
    before.length ≤ 1 := by
  cases h with
  | fresh => exact Nat.zero_le _
  | retry _ _ => exact Nat.le_refl _

/-- What query `q` has sent. -/
structure SendsOk (es : List (ChannelEvent E)) (q : Nat) (c : Call E) : Prop where
  prior : c.phase.ended = false → ∃ before, Prior es q c.retried before ∧ sends es q = before ++ c.phase.sent
  failure : ∀ lease err, c.phase = .failed lease (.transport err) →
    ChannelEvent.on q (.failed lease (.transport err)) ∈ es
  bound : (sends es q).length ≤ 2

/-- A query that sends nothing on the way and does not wait with a failure afterwards. -/
theorem SendsOk.keep {e : ChannelEvent E} (h : SendsOk es q c) (hlive : c.phase.ended = false)
    (he : sends [e] q = []) (hsent : c'.phase.ended = false → c'.phase.sent = c.phase.sent)
    (hretried : c'.retried = c.retried) (hfailed : ∀ lease failure, c'.phase ≠ .failed lease failure) :
    SendsOk (es ++ [e]) q c' where
  prior := by
    intro hp
    obtain ⟨before, hprior, hsends⟩ := h.prior hlive
    refine ⟨before, hretried ▸ hprior.snoc e, ?_⟩
    rw [sends_snoc, he, List.append_nil, hsent hp, hsends]
  failure := fun lease err hp => absurd hp (hfailed lease _)
  bound := by rw [sends_snoc, he, List.append_nil]; exact h.bound

theorem SendsOk.ended {e : ChannelEvent E} (hp : c.phase.ended = true) (hb : (sends (es ++ [e]) q).length ≤ 2) :
    SendsOk (es ++ [e]) q c where
  prior := fun hlive => by rw [hp] at hlive; cases hlive
  failure := fun _ _ hf => by rw [hf] at hp; cases hp
  bound := hb

/-- Events of another query, or of none. -/
theorem SendsOk.other {e : ChannelEvent E} (h : SendsOk es q c) (he : sends [e] q = []) : SendsOk (es ++ [e]) q c where
  prior := by
    intro hp
    obtain ⟨before, hprior, hsends⟩ := h.prior hp
    exact ⟨before, hprior.snoc e, by rw [sends_snoc, he, List.append_nil, hsends]⟩
  failure := fun lease err hp => List.mem_append_left _ (h.failure lease err hp)
  bound := by rw [sends_snoc, he, List.append_nil]; exact h.bound

theorem sends_on_ne {p : Nat} (hne : p ≠ q) : sends [ChannelEvent.on p event] q = [] := by
  cases event with
  | send lease => simp [sends, hne]
  | _ => rfl

/-- A query whose first send failed takes another lease only if that one was reused. -/
theorem SendsOk.report {lease : Lease E} {failure : SendFailure} {backedOff : Bool} (h : SendsOk es q c)
    (hphase : c.phase = .failed lease failure) :
    SendsOk (es ++ [.on q (.report lease backedOff)]) q (c.report slot lease failure now.mono).2.2 := by
  have hsends : sends (es ++ [.on q (.report lease backedOff)]) q = sends es q := by
    rw [sends_snoc]; exact List.append_nil _
  have hbound : (sends (es ++ [.on q (.report lease backedOff)]) q).length ≤ 2 := by rw [hsends]; exact h.bound
  unfold Call.report
  cases failure with
  | deadline => exact .ended rfl hbound
  | transport err =>
    simp only
    split
    · rename_i hredial
      simp only [Bool.and_eq_true, Option.isNone_iff_eq_none] at hredial
      obtain ⟨⟨hreused, hfirst⟩, -⟩ := hredial
      refine ⟨fun _ => ⟨[lease], .retry hreused (List.mem_append_left _ (h.failure lease err hphase)), ?_⟩,
        fun _ _ hp => (by cases hp), hbound⟩
      obtain ⟨before, hprior, hbefore⟩ := h.prior (by rw [hphase]; rfl)
      rw [hfirst] at hprior
      cases hprior
      rw [hsends, hbefore, hphase]
      rfl
    · exact .ended rfl hbound

/-- A move keeps what is known of the query's sends. -/
theorem SendsOk.move {call : Option (Call E)} (hnone : call = none → sends es q = [])
    (hc : ∀ c, call = some c → SendsOk es q c)
    (hm : Move cfg now q slot lock call event slot' lock' c') : SendsOk (es ++ [.on q event]) q c' := by
  cases hm with
  | call deadline =>
    have hsends : sends (es ++ [.on q (.call deadline)]) q = [] := by
      rw [sends_snoc, hnone rfl]; rfl
    exact ⟨fun _ => ⟨[], .fresh, hsends⟩, fun _ _ hp => (by cases hp), by rw [hsends]; exact Nat.zero_le _⟩
  | cancel hlive =>
    exact (hc _ rfl).keep hlive rfl (fun h => by cases h) rfl (fun _ _ h => by cases h)
  | lock hphase =>
    refine (hc _ rfl).keep (by rw [hphase]; rfl) rfl ?_ rfl ?_
    · intro _
      rw [hphase]
      split <;> rfl
    · intro lease failure hp
      split at hp <;> cases hp
  | check hphase =>
    rename_i c
    refine (hc c rfl).keep (by rw [hphase]; rfl) rfl ?_ rfl ?_
    · intro _
      rw [hphase]
      rcases c.check_cases cfg slot now.mono with
        ⟨exchange, -, heq⟩ | ⟨err, heq⟩ | ⟨-, -, heq | ⟨ips, lastErr, heq⟩⟩ <;>
        simp only [heq] <;> rfl
    · intro lease failure hp
      rcases c.check_cases cfg slot now.mono with
        ⟨exchange, -, heq⟩ | ⟨err, heq⟩ | ⟨-, -, heq | ⟨ips, lastErr, heq⟩⟩ <;>
        simp only [heq] at hp <;> cases hp
  | send hphase =>
    rename_i c lease
    obtain ⟨before, hprior, hbefore⟩ := (hc c rfl).prior (by rw [hphase]; rfl)
    have hsends : sends (es ++ [.on q (.send lease)]) q = before ++ [lease] := by
      rw [hphase] at hbefore
      rw [sends_snoc, hbefore]
      simp [sends, CallPhase.sent]
    refine ⟨fun _ => ⟨before, hprior.snoc _, hsends⟩, fun _ _ hp => (by cases hp), ?_⟩
    rw [hsends, List.length_append]
    exact Nat.succ_le_succ hprior.length_le
  | failed hphase hlate =>
    rename_i c lease failure
    obtain ⟨before, hprior, hbefore⟩ := (hc c rfl).prior (by rw [hphase]; rfl)
    have hsends : sends (es ++ [.on q (.failed lease failure)]) q = sends es q := by
      rw [sends_snoc]; exact List.append_nil _
    refine ⟨fun _ => ⟨before, hprior.snoc _, ?_⟩, ?_, by rw [hsends]; exact (hc c rfl).bound⟩
    · rw [hsends, hbefore, hphase]; rfl
    · intro lease' err hp
      cases hp
      exact List.mem_append_right _ (List.mem_singleton_self _)
  | answered hphase =>
    exact (hc _ rfl).keep (by rw [hphase]; rfl) rfl (fun h => by cases h) rfl (fun _ _ h => by cases h)
  | report hphase => exact (hc _ rfl).report hphase
  | _ hphase =>
    exact (hc _ rfl).keep (by rw [hphase]; rfl) rfl (fun _ => by rw [hphase]; rfl) rfl (fun _ _ h => by cases h)

/-! ## Every interleaving -/

variable {s s' : Channel E}

/-- The slot and every query are in order. -/
structure ChannelOk (es : List (ChannelEvent E)) (s : Channel E) : Prop where
  slot : SlotOk es s.slot
  call : ∀ q c, s.calls q = some c → CallOk es s.clock s.slot s.lock q c

theorem channelOk_tick {clock : Stamp} (h : ChannelOk es s) (hle : s.clock.mono ≤ clock.mono) :
    ChannelOk (es ++ [.tick clock]) { s with clock := clock } where
  slot := h.slot.neutral ⟨rfl, fun _ => rfl⟩ rfl (.inl rfl) fun _ => ⟨rfl, rfl⟩
  call := by
    intro q c hc
    obtain ⟨hholder, hdials, hlease⟩ := h.call q c hc
    refine ⟨hholder, fun hd => ?_, fun lease hl => (hlease lease hl).snoc _⟩
    obtain ⟨hnone, hcool⟩ := hdials hd
    exact ⟨hnone, fun t ht => (hcool t ht).trans hle⟩

theorem channelOk_move (h : ChannelOk es s)
    (hm : Move cfg s.clock q s.slot s.lock (s.calls q) event slot' lock' c')
    (hlt : (stores (es ++ [.on q event])).length < 2 ^ 64) :
    ChannelOk (es ++ [.on q event])
      { s with slot := slot', lock := lock', calls := Function.update s.calls q (some c') } := by
  have hslot : SlotOk (es ++ [.on q event]) slot' := h.slot.move (h.call q) hm hlt
  refine ⟨hslot, fun p d hd => ?_⟩
  by_cases hpq : p = q
  · subst hpq
    simp only [Function.update_self, Option.some.injEq] at hd
    subst hd
    exact CallOk.move h.slot hslot (h.call p) hm
  · simp only [Function.update_of_ne hpq] at hd
    exact (h.call p d hd).other hm (h.call q) hpq

theorem channelOk (h : Run (channelSystem E cfg) es s) : (stores es).length < 2 ^ 64 → ChannelOk es s := by
  refine h.invariant (I := fun es s => (stores es).length < 2 ^ 64 → ChannelOk es s) ?_ ?_
  · rintro s ⟨clock, rfl⟩ -
    refine ⟨⟨?_, rfl, ?_, ?_, fun _ => Nat.zero_le _⟩, ?_⟩
    · intro hs; cases hs
    · intro exchange hx; cases hx
    · intro generation hg; cases hg
    · intro q c hc; cases hc
  · intro es s e s' hrun ih hs hlt
    have hprev : (stores es).length < 2 ^ 64 := by
      rw [stores_snoc, List.length_append] at hlt
      omega
    cases e with
    | tick clock =>
      obtain ⟨hle, rfl⟩ := hs
      exact channelOk_tick (ih hprev) hle
    | on q event =>
      obtain ⟨slot, lock, c, hm, rfl⟩ := hs
      exact channelOk_move (ih hprev) hm hlt

theorem sendsOk (h : Run (channelSystem E cfg) es s) :
    (∀ q c, s.calls q = some c → SendsOk es q c) ∧ ∀ q, s.calls q = none → sends es q = [] := by
  refine h.invariant (I := fun es s =>
    (∀ q c, s.calls q = some c → SendsOk es q c) ∧ ∀ q, s.calls q = none → sends es q = []) ?_ ?_
  · rintro s ⟨clock, rfl⟩
    refine ⟨fun q c hc => ?_, fun _ _ => rfl⟩
    cases hc
  · rintro es s e s' hrun ⟨hcalls, hnone⟩ hs
    cases e with
    | tick clock =>
      obtain ⟨-, rfl⟩ := hs
      refine ⟨fun q c hc => (hcalls q c hc).other rfl, fun q hq => ?_⟩
      rw [sends_snoc, hnone q hq]; rfl
    | on q event =>
      obtain ⟨slot, lock, c, hm, rfl⟩ := hs
      constructor
      · intro p d hd
        by_cases hpq : p = q
        · subst hpq
          simp only [Function.update_self, Option.some.injEq] at hd
          subst hd
          exact SendsOk.move (hnone p) (hcalls p) hm
        · simp only [Function.update_of_ne hpq] at hd
          exact (hcalls p d hd).other (sends_on_ne (Ne.symm hpq))
      · intro p hp
        by_cases hpq : p = q
        · subst hpq
          simp only [Function.update_self] at hp
          cases hp
        · simp only [Function.update_of_ne hpq] at hp
          rw [sends_snoc, hnone p hp, sends_on_ne (Ne.symm hpq)]
          rfl

theorem StoredAs.unique {generation : Nat} {exchange exchange' : E} (h : StoredAs es generation exchange)
    (h' : StoredAs es generation exchange') : exchange = exchange' := by
  obtain ⟨k, rfl, hk⟩ := h
  obtain ⟨k', hkk, hk'⟩ := h'
  obtain rfl : k = k' := by omega
  exact Option.some.inj (hk.symm.trans hk')

/-- After any interleaving with fewer than 2^64 stores: a slot with a connection has no failures and no
cooldown; a failure changes the slot only while it holds the connection the lease was taken on; all
failures on one stored connection back off at most once; no address is dialed before the cooldown has
passed; and a query sends at most twice, the second time after its first lease, a reused one, failed
in transport. -/
theorem connection_health (h : Run (channelSystem E cfg) es s) (hlt : (stores es).length < 2 ^ 64) :
    (s.slot.exchange.isSome → s.slot.connectFailures = 0 ∧ s.slot.cooldownUntil = none) ∧
    (∀ q lease backedOff s', (channelSystem E cfg).step s (.on q (.report lease backedOff)) s' → s'.slot ≠ s.slot →
      s.slot.generation = lease.generation ∧ s.slot.exchange = some lease.exchange ∧
        StoredAs es lease.generation lease.exchange) ∧
    (∀ generation, backoffs es generation ≤ 1) ∧
    (∀ q addr s', (channelSystem E cfg).step s (.on q (.dial addr)) s' →
      ∀ t, s.slot.cooldownUntil = some t → t ≤ s.clock.mono) ∧
    (∀ q, (sends es q).length ≤ 2) ∧
    (∀ q lease s', (channelSystem E cfg).step s (.on q (.send lease)) s' → sends es q = [] ∨
      ∃ first err, sends es q = [first] ∧ first.reused = true ∧
        ChannelEvent.on q (.failed first (.transport err)) ∈ es) := by
  obtain ⟨hslot, hcall⟩ := channelOk h hlt
  obtain ⟨hsends, hnone⟩ := sendsOk h
  refine ⟨hslot.healthy, ?_, hslot.once, ?_, ?_, ?_⟩
  · rintro q lease backedOff s' ⟨slot, lock, c', hm, rfl⟩ hne
    generalize hq : s.calls q = call at hm
    generalize hl : s.lock = held at hm
    cases hm with
    | report hphase =>
      rename_i c failure
      have hlease := (hcall q c hq).lease lease (by rw [hphase]; rfl)
      rcases c.report_cases s.slot lease failure s.clock.mono with ⟨hsame, -⟩ | ⟨hgen, hsome, -⟩
      · exact absurd hsame hne
      · obtain ⟨exchange, hx⟩ := Option.isSome_iff_exists.1 hsome
        have hstored := hslot.held exchange hx
        rw [hgen] at hstored
        exact ⟨hgen, by rw [hx, hstored.unique hlease], hlease⟩
  · rintro q addr s' ⟨slot, lock, c', hm, rfl⟩
    generalize hq : s.calls q = call at hm
    generalize hl : s.lock = held at hm
    generalize hs : s.slot = held' at hm
    cases hm with
    | dial hphase hself =>
      rw [← hs]
      exact ((hcall q _ hq).dials (by rw [hphase]; rfl)).2
  · intro q
    cases hq : s.calls q with
    | none => rw [hnone q hq]; exact Nat.zero_le _
    | some c => exact (hsends q c hq).bound
  · rintro q lease s' ⟨slot, lock, c', hm, rfl⟩
    generalize hq : s.calls q = call at hm
    generalize hl : s.lock = held at hm
    generalize hs : s.slot = held' at hm
    cases hm with
    | send hphase =>
      obtain ⟨before, hprior, hbefore⟩ := (hsends q _ hq).prior (by rw [hphase]; rfl)
      have hsent : (CallPhase.leased lease).sent = [] := rfl
      rw [hphase, hsent, List.append_nil] at hbefore
      rw [hbefore]
      generalize Call.retried _ = retried at hprior
      cases hprior with
      | fresh => exact .inl rfl
      | retry hreused hmem => exact .inr ⟨_, _, rfl, hreused, hmem⟩

/-- An upstream at a fixed address. -/
def staticConfig : ChannelConfig := ⟨some (.v4 ⟨192, 0, 2, 1⟩), 853, []⟩

theorem channelRun_move (h : Run (channelSystem E cfg) es s) (q : Nat) (event : CallEvent E)
    (hm : Move cfg s.clock q s.slot s.lock (s.calls q) event slot' lock' c') :
    Run (channelSystem E cfg) (es ++ [.on q event])
      { s with slot := slot', lock := lock', calls := Function.update s.calls q (some c') } :=
  h.snoc ⟨slot', lock', c', hm, rfl⟩

theorem channelRun_tick (h : Run (channelSystem E cfg) es s) (clock : Stamp) (hle : s.clock.mono ≤ clock.mono) :
    Run (channelSystem E cfg) (es ++ [.tick clock]) { s with clock := clock } :=
  h.snoc ⟨hle, rfl⟩

/-- Two queries share a connection that is reset. The first to see it backs off; after the cooldown a third query
dials again, and then the second finds its send failed too. -/
def resetEvents : List (ChannelEvent String) :=
  [.on 0 (.call none), .on 0 .lock, .on 0 .check, .on 0 (.dial (.new (.v4 ⟨192, 0, 2, 1⟩) 853)),
    .on 0 (.connected "first"), .on 0 (.send ⟨"first", 1, false⟩),
    .on 1 (.call none), .on 1 .lock, .on 1 .check, .on 1 (.send ⟨"first", 1, true⟩),
    .on 0 (.failed ⟨"first", 1, false⟩ (.transport "reset")), .on 0 (.report ⟨"first", 1, false⟩ true),
    .tick ⟨secs 2, secs 2⟩,
    .on 2 (.call none), .on 2 .lock, .on 2 .check, .on 2 (.dial (.new (.v4 ⟨192, 0, 2, 1⟩) 853)),
    .on 2 (.connected "second"),
    .on 1 (.failed ⟨"first", 1, true⟩ (.transport "reset"))]

/-- The late failure leaves the new connection alone, and the reset backed off once. -/
theorem connection_health_reset : ∃ s s', Run (channelSystem String staticConfig) resetEvents s ∧
    (channelSystem String staticConfig).step s (.on 1 (.report ⟨"first", 1, true⟩ false)) s' ∧
    s'.slot = s.slot ∧ s.slot.exchange = some "second" ∧ s.slot.connectFailures = 0 ∧ s.slot.cooldownUntil = none ∧
    backoffs resetEvents 1 = 1 := by
  have h0 : Run (channelSystem String staticConfig) [] ⟨⟨0, 0⟩, .empty, none, fun _ => none⟩ := .start ⟨⟨0, 0⟩, rfl⟩
  have h1 := channelRun_move h0 0 (.call none) (.call none)
  have h2 := channelRun_move h1 0 .lock (.lock rfl)
  have h3 := channelRun_move h2 0 .check (.check rfl)
  have h4 := channelRun_move h3 0 (.dial (.new (.v4 ⟨192, 0, 2, 1⟩) 853)) (.dial rfl rfl)
  have h5 := channelRun_move h4 0 (.connected "first") (.connected rfl)
  have h6 := channelRun_move h5 0 (.send ⟨"first", 1, false⟩) (.send rfl)
  have h7 := channelRun_move h6 1 (.call none) (.call none)
  have h8 := channelRun_move h7 1 .lock (.lock rfl)
  have h9 := channelRun_move h8 1 .check (.check rfl)
  have h10 := channelRun_move h9 1 (.send ⟨"first", 1, true⟩) (.send rfl)
  have h11 := channelRun_move h10 0 (.failed ⟨"first", 1, false⟩ (.transport "reset")) (.failed rfl (by simp))
  have h12 := channelRun_move h11 0 (.report ⟨"first", 1, false⟩ true) (@Move.report _ _ _ _ _
    ⟨none, none, .failed ⟨"first", 1, false⟩ (.transport "reset")⟩ ⟨"first", 1, false⟩ (.transport "reset") rfl)
  have h13 := channelRun_tick h12 ⟨secs 2, secs 2⟩ (Nat.zero_le _)
  have h14 := channelRun_move h13 2 (.call none) (.call none)
  have h15 := channelRun_move h14 2 .lock (.lock rfl)
  have h16 := channelRun_move h15 2 .check (.check rfl)
  have h17 := channelRun_move h16 2 (.dial (.new (.v4 ⟨192, 0, 2, 1⟩) 853)) (.dial rfl rfl)
  have h18 := channelRun_move h17 2 (.connected "second") (.connected rfl)
  have h19 := channelRun_move h18 1 (.failed ⟨"first", 1, true⟩ (.transport "reset")) (.failed rfl (by simp))
  have hlate := @Move.report _ staticConfig ⟨secs 2, secs 2⟩ 1
    (Slot.store ⟨none, 1, 1, none, none⟩ "second" ⟨secs 2, secs 2⟩)
    ⟨none, none, .failed ⟨"first", 1, true⟩ (.transport "reset")⟩ ⟨"first", 1, true⟩ (.transport "reset") rfl
  obtain ⟨hhealthy, hreport, honce, -⟩ := connection_health h19 (by decide)
  obtain ⟨hfailures, hcooldown⟩ := hhealthy rfl
  refine ⟨_, _, h19, ⟨_, _, _, hlate, rfl⟩, ?_, rfl, hfailures, hcooldown, Nat.le_antisymm (honce 1) (by decide)⟩
  -- a report that changed the slot would be one on its own connection
  by_contra hchanged
  have hgeneration := (hreport 1 _ _ _ ⟨_, _, _, hlate, rfl⟩ hchanged).1
  exact absurd hgeneration (by decide)

end DNSRivet.Upstream
