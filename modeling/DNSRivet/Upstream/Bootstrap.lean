/-
`upstream/bootstrap.rs`: the resolver of upstream host names. Calls of `resolve` share one slot for each host
and stack, with a refresh mutex that is held for a whole lookup; the lookup is a task of its own, which goes
on when its caller is cancelled. A call or a task moves alone between two awaits; what it does there is one
event, at the time it reads, and the events of all calls and tasks interleave in any order.
-/
import DNSRivet.Base.Mutex
import DNSRivet.Upstream.Channel
import DNSRivet.Upstream.Entry

namespace DNSRivet.Upstream.Bootstrap

open DNSRivet.Base DNSRivet.Net

def maxStale : Nat := secs 86400

def retryAfterFailure : Nat := secs 30

abbrev Key := String × IpStack

/-! ## The slot of a key -/

structure Entry where
  ips : List IpAddr
  expires : Nat
deriving DecidableEq, Repr

def Entry.isFresh (entry : Entry) (now : Nat) : Bool := now < entry.expires

def Entry.isServable (entry : Entry) (now : Nat) : Bool := now - entry.expires ≤ maxStale

structure Failure where
  err : String
  retryAt : Nat
deriving DecidableEq, Repr

structure Slot where
  /-- Last successful answer, kept past expiry as a fallback. -/
  entry : Option Entry
  /-- Last failed refresh; no new lookup before its `retryAt`. -/
  failure : Option Failure
  /-- Held for the whole lookup so one refresh runs per key at a time. -/
  refresh : Mutex Nat

inductive Plan
  | answer (result : Except String (List IpAddr))
  | refresh (stale : Option (List IpAddr))

namespace Slot

def empty : Slot := ⟨none, none, .unlocked⟩

def plan (slot : Slot) (now : Nat) : Plan × Slot :=
  match slot.entry.filter (·.isFresh now) with
  | some entry => (.answer (.ok entry.ips), slot)
  | none =>
    let slot := { slot with entry := slot.entry.filter (·.isServable now) }
    let stale := slot.entry.map (·.ips)
    match slot.failure.filter fun failure => now < failure.retryAt with
    | some failure => (.answer (stale.elim (.error failure.err) .ok), slot)
    | none => (.refresh stale, slot)

/-- A lookup's addresses with their TTL in seconds, or its error. -/
def record (slot : Slot) (result : Except String (List IpAddr × Nat)) (now : Nat) :
    Except String (List IpAddr) × Slot :=
  match result with
  | .ok (ips, ttl) => (.ok ips, { slot with failure := none, entry := some ⟨ips, now + secs ttl⟩ })
  | .error err =>
    let slot := { slot with failure := some ⟨err, now + retryAfterFailure⟩ }
    match slot.entry.filter (·.isServable now) with
    | some entry => (.ok entry.ips, slot)
    | none => (.error err, { slot with entry := none })

/-- What `invalidate` does to a slot of its host. -/
def expire (slot : Slot) (now : Nat) : Slot :=
  { slot with entry := slot.entry.map fun entry => { entry with expires := min entry.expires now } }

end Slot

/-! ## Calls and lookups -/

inductive CallPhase
  /-- Before the first plan. -/
  | planning
  /-- Another call is refreshing and nothing is stale: about to ask for its mutex. -/
  | locking
  /-- Waiting for the mutex, or with it and about to plan again. -/
  | waiting
  /-- Waiting for its lookup. -/
  | awaiting
  | returned (result : Except String (List IpAddr))
  | cancelled

/-- A task owns the refresh mutex until it has recorded its result. -/
inductive LookupPhase
  | spawned
  | running
  | looked (result : Except String (List IpAddr × Nat))
  | done (result : Except String (List IpAddr))

structure Call where
  key : Key
  phase : CallPhase

structure Lookup where
  key : Key
  phase : LookupPhase

/-- A lookup has the number of the call that spawned it. -/
structure State where
  clock : Nat
  slots : Key → Slot
  calls : Nat → Option Call
  lookups : Nat → Option Lookup

/-- `to_ascii_lowercase`. -/
def lowercase (host : String) : String := host.map Char.toLower

namespace State

def setSlot (s : State) (key : Key) (slot : Slot) : State := { s with slots := Function.update s.slots key slot }

def setCall (s : State) (i : Nat) (call : Call) : State := { s with calls := Function.update s.calls i (some call) }

def setLookup (s : State) (i : Nat) (lookup : Lookup) : State :=
  { s with lookups := Function.update s.lookups i (some lookup) }

/-- Hand the refresh mutex to a new task. -/
def spawn (s : State) (i : Nat) (key : Key) : State := (s.setCall i ⟨key, .awaiting⟩).setLookup i ⟨key, .spawned⟩

/-- Plan and, without an await in between, try the mutex. -/
def planFirst (s : State) (i : Nat) (key : Key) : State :=
  match (s.slots key).plan s.clock with
  | (.answer result, slot) => (s.setSlot key slot).setCall i ⟨key, .returned result⟩
  | (.refresh stale, slot) =>
    match slot.refresh.tryLock i with
    | some refresh => (s.setSlot key { slot with refresh }).spawn i key
    | none =>
      match stale with
      | some ips => (s.setSlot key slot).setCall i ⟨key, .returned (.ok ips)⟩
      | none => (s.setSlot key slot).setCall i ⟨key, .locking⟩

/-- Plan again, with the mutex: an answer gives it back. -/
def planAgain (s : State) (i : Nat) (key : Key) : State :=
  match (s.slots key).plan s.clock with
  | (.answer result, slot) =>
    (s.setSlot key { slot with refresh := slot.refresh.unlock }).setCall i ⟨key, .returned result⟩
  | (.refresh _, slot) => (s.setSlot key slot).spawn i key

/-- Record a result and then give the mutex back. -/
def recordResult (s : State) (i : Nat) (key : Key) (result : Except String (List IpAddr × Nat)) : State :=
  let (answer, slot) := (s.slots key).record result s.clock
  (s.setLookup i ⟨key, .done answer⟩).setSlot key { slot with refresh := slot.refresh.unlock }

/-- Expire the addresses of a host, as of a time read before the slots are locked. -/
def invalidate (s : State) (host : String) (now : Nat) : State :=
  { s with slots := fun key => if key.1 = lowercase host then (s.slots key).expire now else s.slots key }

end State

inductive Event
  | call (i : Nat) (host : String) (stack : IpStack)
  | plan (i : Nat)
  | lock (i : Nat)
  | replan (i : Nat)
  /-- A lookup starts. -/
  | start (i : Nat) (key : Key)
  | finish (i : Nat)
  /-- The result of a lookup is recorded. -/
  | record (i : Nat) (key : Key) (result : Except String (List IpAddr × Nat))
  | join (i : Nat)
  | cancel (i : Nat)
  | invalidate (host : String)

inductive Moves (s : State) : Event → State → Prop
  | call {i : Nat} {host : String} {stack : IpStack} : s.calls i = none →
    Moves s (.call i host stack) (s.setCall i ⟨(lowercase host, stack), .planning⟩)
  | plan {i : Nat} {key : Key} : s.calls i = some ⟨key, .planning⟩ → Moves s (.plan i) (s.planFirst i key)
  | lock {i : Nat} {key : Key} : s.calls i = some ⟨key, .locking⟩ →
    Moves s (.lock i) ((s.setSlot key { s.slots key with refresh := (s.slots key).refresh.lock i }).setCall i
      ⟨key, .waiting⟩)
  | replan {i : Nat} {key : Key} : s.calls i = some ⟨key, .waiting⟩ → (s.slots key).refresh.holder = some i →
    Moves s (.replan i) (s.planAgain i key)
  | start {i : Nat} {key : Key} : s.lookups i = some ⟨key, .spawned⟩ →
    Moves s (.start i key) (s.setLookup i ⟨key, .running⟩)
  | finish {i : Nat} {key : Key} (result : Except String (List IpAddr × Nat)) :
    s.lookups i = some ⟨key, .running⟩ → Moves s (.finish i) (s.setLookup i ⟨key, .looked result⟩)
  | record {i : Nat} {key : Key} {result : Except String (List IpAddr × Nat)} :
    s.lookups i = some ⟨key, .looked result⟩ → Moves s (.record i key result) (s.recordResult i key result)
  | join {i : Nat} {key : Key} {result : Except String (List IpAddr)} : s.calls i = some ⟨key, .awaiting⟩ →
    s.lookups i = some ⟨key, .done result⟩ → Moves s (.join i) (s.setCall i ⟨key, .returned result⟩)
  /-- A call is dropped at an await: a place in the queue or the mutex goes with it, a spawned lookup stays. -/
  | cancel {i : Nat} {key : Key} {phase : CallPhase} : s.calls i = some ⟨key, phase⟩ →
    phase = .planning ∨ phase = .locking ∨ phase = .awaiting → Moves s (.cancel i) (s.setCall i ⟨key, .cancelled⟩)
  | cancelWaiting {i : Nat} {key : Key} : s.calls i = some ⟨key, .waiting⟩ →
    Moves s (.cancel i) ((s.setSlot key { s.slots key with refresh := (s.slots key).refresh.leave i }).setCall i
      ⟨key, .cancelled⟩)
  | invalidate {host : String} {earlier : Nat} : earlier ≤ s.clock →
    Moves s (.invalidate host) (s.invalidate host earlier)

/-- Any number of calls, lookups and invalidations, each event with its time. -/
def resolveSystem : System State (Nat × Event) where
  init := fun s => s.slots = (fun _ => .empty) ∧ s.calls = (fun _ => none) ∧ s.lookups = fun _ => none
  step := fun s e s' => s.clock ≤ e.1 ∧ Moves { s with clock := e.1 } e.2 s'

end DNSRivet.Upstream.Bootstrap
