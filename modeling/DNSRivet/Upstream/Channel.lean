/-
`upstream/encrypted.rs`: the connection of one encrypted upstream, shared by all its queries. The slot
sits behind an async mutex; a query takes it to lease or dial a connection, sends without it, and
takes it again to report a failure. Between two awaits a query moves alone; in between, other queries
move, the clock advances, the host sleeps and queries are cancelled, in any order.
-/
import DNSRivet.Base.System
import DNSRivet.Net.Text

namespace DNSRivet.Upstream

open DNSRivet.Base DNSRivet.Net

/-! ## The slot -/

/-- Paired clock readings (nanoseconds). The monotonic clock stops while the host sleeps, the wall
clock does not. -/
structure Stamp where
  mono : Nat
  wall : Nat
deriving DecidableEq, Repr

def Stamp.sleptSince (now earlier : Stamp) : Nat := (now.wall - earlier.wall) - (now.mono - earlier.mono)

def secs (n : Nat) : Nat := n * 1000000000

def maxBackoffShift : Nat := 5

def minRedialBudget : Nat := 250000000

def renewAfterSleep : Nat := secs 5

/-- Generation-tracked connection slot, over any handle type. -/
structure Slot (E : Type) where
  exchange : Option E
  generation : Nat
  connectFailures : Nat
  cooldownUntil : Option Nat
  lastUsed : Option Stamp

namespace Slot

variable {E : Type}

def empty : Slot E := ⟨none, 0, 0, none, none⟩

def lease (slot : Slot E) : Option (E × Nat) := slot.exchange.map fun exchange => (exchange, slot.generation)

/-- The generation is a `u64` that wraps. -/
def store (slot : Slot E) (exchange : E) (now : Stamp) : Slot E :=
  ⟨some exchange, (slot.generation + 1) % 2 ^ 64, 0, none, some now⟩

/-- Drop the connection if the host slept since the slot was last used; the time it slept if it was dropped. -/
def dropIfSlept (slot : Slot E) (now : Stamp) : Option Nat × Slot E :=
  let used := { slot with lastUsed := some now }
  match slot.lastUsed with
  | none => (none, used)
  | some earlier =>
    if renewAfterSleep < now.sleptSince earlier then
      (if slot.exchange.isSome then some (now.sleptSince earlier) else none, { used with exchange := none })
    else (none, used)

/-- Clear the slot only if `generation` is still the current one. -/
def invalidate (slot : Slot E) (generation : Nat) : Bool × Slot E :=
  if slot.generation = generation ∧ slot.exchange.isSome then (true, { slot with exchange := none }) else (false, slot)

/-- The failure count is a saturating `u32`. -/
def backoff (slot : Slot E) (now : Nat) : Nat × Slot E :=
  let failures := min (slot.connectFailures + 1) (2 ^ 32 - 1)
  let delay := secs (2 ^ min failures maxBackoffShift)
  (delay, { slot with connectFailures := failures, cooldownUntil := some (now + delay) })

end Slot

/-! ## Queries -/

structure Lease (E : Type) where
  exchange : E
  generation : Nat
  reused : Bool

inductive SendFailure
  | deadline
  | transport (err : String)
deriving DecidableEq, Repr

inductive QueryError
  /-- `no answer within the deadline` -/
  | noAnswer
  /-- `in cooldown for …` -/
  | inCooldown (remaining : Nat)
  /-- `…; backing off after bootstrap failure` -/
  | bootstrapFailed (err : String)
  /-- `connect failed (…); backing off …` -/
  | connectFailed (lastErr : String) (backoff : Nat)
  | transport (err : String)
  /-- `…; redial failed: …` -/
  | redialFailed (err : String) (redialErr : QueryError)
deriving DecidableEq, Repr

/-- Where a query is: one constructor for each await, and the points between an await and the next
access to the slot, the network or the caller. -/
inductive CallPhase (E : Type)
  /-- Waiting for the slot, to lease or dial. -/
  | acquiring
  /-- With the slot, after the host slept: clearing the bootstrap address. -/
  | renewing
  | checking
  /-- With the slot: clearing the bootstrap address after failures, and resolving it. -/
  | resolving
  | dialing (ips : List IpAddr) (lastErr : String)
  | connecting (ips : List IpAddr) (lastErr : String)
  | leased (lease : Lease E)
  | sending (lease : Lease E)
  /-- Waiting for the slot, to report a failure. -/
  | failed (lease : Lease E) (failure : SendFailure)
  | done (result : Except QueryError (List UInt8))
  | cancelled

namespace CallPhase

variable {E : Type}

/-- The query has the slot's lock. -/
def holds : CallPhase E → Bool
  | renewing | checking | resolving | dialing .. | connecting .. => true
  | _ => false

/-- The query found no connection and no cooldown. -/
def dials : CallPhase E → Bool
  | resolving | dialing .. | connecting .. => true
  | _ => false

def lease? : CallPhase E → Option (Lease E)
  | leased lease | sending lease | failed lease _ => some lease
  | _ => none

def ended : CallPhase E → Bool
  | done _ | cancelled => true
  | _ => false

/-- The lease of the send under way. -/
def sent : CallPhase E → List (Lease E)
  | sending lease | failed lease _ => [lease]
  | _ => []

end CallPhase

/-- A query: its deadline and, once it retries, the error of the first send. -/
structure Call (E : Type) where
  deadline : Option Nat
  retried : Option String
  phase : CallPhase E

/-- An error of `acquire`, as the query returns it. -/
def Call.acquireError {E : Type} (c : Call E) (err : QueryError) : QueryError :=
  match c.retried with
  | some first => .redialFailed first err
  | none => err

def budgetAllowsRedial (deadline : Option Nat) (now : Nat) : Bool :=
  match deadline with
  | none => true
  | some at_ => minRedialBudget < at_ - now

/-! ## Steps -/

structure ChannelConfig where
  bootstrapIp : Option IpAddr
  port : Nat
  deny : List SocketAddr

inductive CallEvent (E : Type)
  | call (deadline : Option Nat)
  | cancel
  | lock
  | renewed
  | check
  | resolved (result : Except String (List IpAddr))
  | skip (addr : SocketAddr)
  | dial (addr : SocketAddr)
  | connected (exchange : E)
  | refused (err : String)
  | exhausted
  | send (lease : Lease E)
  | answered (response : List UInt8)
  | failed (lease : Lease E) (failure : SendFailure)
  | report (lease : Lease E) (backedOff : Bool)

variable {E : Type}

/-- The end of `acquire`'s look at the slot: a lease, a refusal during the cooldown, or a dial. -/
def Call.check (c : Call E) (cfg : ChannelConfig) (slot : Slot E) (now : Nat) : CallPhase E :=
  match slot.lease with
  | some (exchange, generation) => .leased ⟨exchange, generation, true⟩
  | none =>
    if slot.cooldownUntil.any (now < ·) then
      .done (.error (c.acquireError (.inCooldown (slot.cooldownUntil.getD 0 - now))))
    else
      match cfg.bootstrapIp with
      | some ip => .dialing [ip] "no candidate addresses"
      | none => .resolving

/-- The slot after a failed send is reported, whether it was backed off, and the query. -/
def Call.report (c : Call E) (slot : Slot E) (lease : Lease E) (failure : SendFailure) (now : Nat) :
    Slot E × Bool × Call E :=
  let (invalidated, slot) := slot.invalidate lease.generation
  let blamed := if invalidated then (slot.backoff now).2 else slot
  match failure with
  | .deadline => (blamed, invalidated, { c with phase := .done (.error .noAnswer) })
  | .transport err =>
    if lease.reused && c.retried.isNone && budgetAllowsRedial c.deadline now then
      -- the successor is shared, or dialed, without touching its state
      (slot, false, { c with retried := some err, phase := .acquiring })
    else (blamed, invalidated, { c with phase := .done (.error (.transport err)) })

/-- What one query does between two awaits, with the slot, the lock and its own state before and after. -/
inductive Move (cfg : ChannelConfig) (now : Stamp) (q : Nat) :
    Slot E → Option Nat → Option (Call E) → CallEvent E → Slot E → Option Nat → Call E → Prop
  | call {slot : Slot E} {lock : Option Nat} (deadline : Option Nat) :
    Move cfg now q slot lock none (.call deadline) slot lock ⟨deadline, none, .acquiring⟩
  | cancel {slot : Slot E} {lock : Option Nat} {c : Call E} : c.phase.ended = false →
    Move cfg now q slot lock (some c) .cancel slot (if lock = some q then none else lock) { c with phase := .cancelled }
  | lock {slot : Slot E} {c : Call E} : c.phase = .acquiring →
    Move cfg now q slot none (some c) .lock (slot.dropIfSlept now).2 (some q)
      { c with phase := if (slot.dropIfSlept now).1.isSome && cfg.bootstrapIp.isNone then .renewing else .checking }
  | renewed {slot : Slot E} {lock : Option Nat} {c : Call E} : c.phase = .renewing →
    Move cfg now q slot lock (some c) .renewed slot lock { c with phase := .checking }
  | check {slot : Slot E} {lock : Option Nat} {c : Call E} : c.phase = .checking →
    Move cfg now q slot lock (some c) .check slot (if (c.check cfg slot now.mono).holds then lock else none)
      { c with phase := c.check cfg slot now.mono }
  | resolved {slot : Slot E} {lock : Option Nat} {c : Call E} {ips : List IpAddr} : c.phase = .resolving →
    Move cfg now q slot lock (some c) (.resolved (.ok ips)) slot lock
      { c with phase := .dialing ips "no candidate addresses" }
  | unresolved {slot : Slot E} {lock : Option Nat} {c : Call E} {err : String} : c.phase = .resolving →
    Move cfg now q slot lock (some c) (.resolved (.error err)) (slot.backoff now.mono).2 none
      { c with phase := .done (.error (c.acquireError (.bootstrapFailed err))) }
  | skip {slot : Slot E} {lock : Option Nat} {c : Call E} {ip : IpAddr} {ips : List IpAddr} {lastErr : String} :
    c.phase = .dialing (ip :: ips) lastErr → isSelfAddress (.new ip cfg.port) cfg.deny = true →
    Move cfg now q slot lock (some c) (.skip (.new ip cfg.port)) slot lock
      { c with phase := .dialing ips ((SocketAddr.new ip cfg.port).display ++ " points back at our own listener") }
  | dial {slot : Slot E} {lock : Option Nat} {c : Call E} {ip : IpAddr} {ips : List IpAddr} {lastErr : String} :
    c.phase = .dialing (ip :: ips) lastErr → isSelfAddress (.new ip cfg.port) cfg.deny = false →
    Move cfg now q slot lock (some c) (.dial (.new ip cfg.port)) slot lock { c with phase := .connecting ips lastErr }
  | connected {slot : Slot E} {lock : Option Nat} {c : Call E} {exchange : E} {ips : List IpAddr} {lastErr : String} :
    c.phase = .connecting ips lastErr →
    Move cfg now q slot lock (some c) (.connected exchange) (slot.store exchange now) none
      { c with phase := .leased ⟨exchange, (slot.store exchange now).generation, false⟩ }
  | refused {slot : Slot E} {lock : Option Nat} {c : Call E} {ips : List IpAddr} {lastErr err : String} :
    c.phase = .connecting ips lastErr →
    Move cfg now q slot lock (some c) (.refused err) slot lock { c with phase := .dialing ips err }
  | exhausted {slot : Slot E} {lock : Option Nat} {c : Call E} {lastErr : String} : c.phase = .dialing [] lastErr →
    Move cfg now q slot lock (some c) .exhausted (slot.backoff now.mono).2 none
      { c with phase := .done (.error (c.acquireError (.connectFailed lastErr (slot.backoff now.mono).1))) }
  | send {slot : Slot E} {lock : Option Nat} {c : Call E} {lease : Lease E} : c.phase = .leased lease →
    Move cfg now q slot lock (some c) (.send lease) slot lock { c with phase := .sending lease }
  | answered {slot : Slot E} {lock : Option Nat} {c : Call E} {lease : Lease E} {response : List UInt8} :
    c.phase = .sending lease →
    Move cfg now q slot lock (some c) (.answered response) slot lock { c with phase := .done (.ok response) }
  | failed {slot : Slot E} {lock : Option Nat} {c : Call E} {lease : Lease E} {failure : SendFailure} :
    c.phase = .sending lease → (failure = .deadline → c.deadline.any (· ≤ now.mono) = true) →
    Move cfg now q slot lock (some c) (.failed lease failure) slot lock { c with phase := .failed lease failure }
  | report {slot : Slot E} {c : Call E} {lease : Lease E} {failure : SendFailure} : c.phase = .failed lease failure →
    Move cfg now q slot none (some c) (.report lease (c.report slot lease failure now.mono).2.1)
      (c.report slot lease failure now.mono).1 none (c.report slot lease failure now.mono).2.2

/-- The channel: the clocks, the slot, who has its lock, and the queries by number. -/
structure Channel (E : Type) where
  clock : Stamp
  slot : Slot E
  lock : Option Nat
  calls : Nat → Option (Call E)

inductive ChannelEvent (E : Type)
  /-- Time passes; the wall clock may also step. -/
  | tick (clock : Stamp)
  | on (q : Nat) (event : CallEvent E)

def channelSystem (E : Type) (cfg : ChannelConfig) : System (Channel E) (ChannelEvent E) where
  init := fun s => ∃ clock, s = ⟨clock, .empty, none, fun _ => none⟩
  step := fun s e s' =>
    match e with
    | .tick clock => s.clock.mono ≤ clock.mono ∧ s' = { s with clock := clock }
    | .on q event => ∃ slot lock c, Move cfg s.clock q s.slot s.lock (s.calls q) event slot lock c ∧
      s' = { s with slot := slot, lock := lock, calls := Function.update s.calls q (some c) }

end DNSRivet.Upstream
