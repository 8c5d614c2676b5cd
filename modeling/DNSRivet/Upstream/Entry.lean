/-
One configured upstream and one attempt at it. An encrypted channel is a box here: it may return any
bytes, in time or not at all, and the attempt accepts what answers the question; its ID may be
another (DoQ pins it to 0). A legacy attempt accepts genuine replies only (`run_ok`).
-/
import DNSRivet.Net.Text
import DNSRivet.Upstream.Legacy

namespace DNSRivet.Upstream

open DNSRivet.Base DNSRivet.Wire DNSRivet.Net

/-! ## Requests -/

inductive MessageType
  | query
  | response
deriving DecidableEq, Repr

inductive OpCode
  | query
  | status
  | notify
  | update
  | unknown (code : Nat)
deriving DecidableEq, Repr

/-- A message as the encrypted transports' library parses it, as far as forwarding looks at it: the
number of entries of each section, EDNS and signature apart. -/
structure Message where
  messageType : MessageType
  opCode : OpCode
  queries : Nat
  answers : Nat
  authorities : Nat
  additionals : Nat
  signature : Bool
deriving DecidableEq, Repr

/-- One question, no resource records or signatures. -/
def safeEncryptedQuery (message : Message) : Bool :=
  message.messageType == .query && message.opCode == .query && message.queries == 1 && message.answers == 0 &&
    message.authorities == 0 && message.additionals == 0 && !message.signature

/-- `Request::message`, over the library's parser. -/
def requestMessage (fromVec : Bytes → Except String Message) (bytes : Bytes) : Except String Message :=
  match fromVec bytes with
  | .error err => .error ("unparseable query: " ++ err)
  | .ok message =>
    if safeEncryptedQuery message then .ok message
    else .error "unsupported query shape for encrypted forwarding"

/-! ## Entries -/

inductive IpStack
  | both
  | v4
  | v6
deriving DecidableEq, Repr

inductive Backend
  | legacy (host : String) (port : Nat) (ip : Option IpAddr) (stack : IpStack) (deny : List SocketAddr)
  | encrypted
deriving DecidableEq, Repr

structure Entry where
  name : String
  timeoutMs : Nat
  backend : Backend
deriving DecidableEq, Repr

def Backend.isLegacy : Backend → Bool
  | legacy .. => true
  | encrypted => false

/-- What one attempt meets: the library's parser, the bootstrap resolver, the exchange of the n-th
address it dials, its encrypted channel, the time it starts at and how long it takes (milliseconds). -/
structure Network where
  fromVec : Bytes → Except String Message
  resolve : String → IpStack → Async (List IpAddr)
  dial : Nat → SocketAddr → Legacy.Exchange
  channel : Message → Option Nat → Async Bytes
  now : Nat
  millis : Nat

/-- `validate_response` as a step that fails with a text. -/
def checked (query response : Bytes) (label : String) : Async Bytes :=
  match validateResponse query response with
  | .ok () => pure response
  | .error err => throw (label ++ err.display)

/-- The loop of a legacy attempt over its resolved addresses, `dialed` of them dialed so far. -/
def tryAddresses (port : Nat) (deny : List SocketAddr) (query : Bytes) (clientTcp : Bool) (net : Network) :
    List IpAddr → Nat → Option String → Async Bytes
  | [], _, lastErr => throw (lastErr.getD "no addresses")
  | ip :: ips, dialed, _ =>
    let addr := SocketAddr.new ip port
    if isSelfAddress addr deny then
      tryAddresses port deny query clientTcp net ips dialed (some (addr.display ++ " points back at our own listener"))
    else
      match (Legacy.query query clientTcp (net.dial dialed addr)).run with
      | some (.ok response) => pure response
      | some (.error err) => tryAddresses port deny query clientTcp net ips (dialed + 1) (some err)
      | none => .pending

namespace Entry

def attempt (entry : Entry) (query : Bytes) (clientTcp : Bool) (deadline : Option Nat) (net : Network) : Async Bytes :=
  match entry.backend with
  | .legacy host port ip stack deny =>
    match ip with
    | some ip => Legacy.query query clientTcp (net.dial 0 (SocketAddr.new ip port))
    | none => do
      let ips ← net.resolve host stack
      tryAddresses port deny query clientTcp net ips 0 none
  | .encrypted => do
    let message ← Async.ready (requestMessage net.fromVec query)
    let response ← net.channel message deadline
    checked query response "rejected response: "

/-- Legacy transports have no internal deadline; encrypted channels time out internally, and the outer
bound only catches a stuck channel. -/
def outerTimeout (entry : Entry) : Option Nat :=
  if entry.timeoutMs = 0 then none
  else if entry.backend.isLegacy then some entry.timeoutMs else some (entry.timeoutMs + 250)

def run (entry : Entry) (query : Bytes) (clientTcp : Bool) (net : Network) : Async Bytes :=
  let deadline := if 0 < entry.timeoutMs then some (net.now + entry.timeoutMs) else none
  let attempt := entry.attempt query clientTcp deadline net
  match entry.outerTimeout with
  | none => attempt
  | some limit =>
    if attempt.run.isSome ∧ net.millis ≤ limit then attempt
    else throw ("timeout after " ++ toString entry.timeoutMs ++ "ms")

end Entry

/-! ## What an attempt returns -/

theorem checked_ok {q response r : Bytes} {label : String} (h : (checked q response label).run = some (.ok r)) :
    response = r ∧ validateResponse q r = .ok () := by
  unfold checked at h
  split at h
  · rename_i hval
    obtain rfl := Async.pure_ok h
    exact ⟨rfl, hval⟩
  · cases h

theorem tryAddresses_ok {port : Nat} {deny : List SocketAddr} {q r : Bytes} {clientTcp : Bool} {net : Network} :
    ∀ {ips : List IpAddr} {dialed : Nat} {lastErr : Option String},
      (tryAddresses port deny q clientTcp net ips dialed lastErr).run = some (.ok r) → Legacy.Genuine q r
  | [], _, _, h => by cases h
  | ip :: ips, dialed, lastErr, h => by
    unfold tryAddresses at h
    simp only at h
    split at h
    · exact tryAddresses_ok h
    · split at h
      · rename_i hquery
        obtain rfl := Async.pure_ok h
        exact Legacy.query_ok hquery
      · exact tryAddresses_ok h
      · cases h

namespace Entry

/-- An attempt returns replies that answer the question; a legacy one has checked the ID as well. -/
theorem attempt_ok {entry : Entry} {q r : Bytes} {clientTcp : Bool} {deadline : Option Nat} {net : Network}
    (h : (entry.attempt q clientTcp deadline net).run = some (.ok r)) :
    validateResponse q r = .ok () ∧ (entry.backend.isLegacy = true → Legacy.Genuine q r) := by
  unfold attempt at h
  split at h
  · rename_i host port ip stack deny hbackend
    have hgen : Legacy.Genuine q r := by
      cases ip with
      | some ip => exact Legacy.query_ok h
      | none =>
        obtain ⟨ips, -, h⟩ := Async.bind_ok h
        exact tryAddresses_ok h
    exact ⟨hgen.valid, fun _ => hgen⟩
  · rename_i hbackend
    obtain ⟨message, -, h⟩ := Async.bind_ok h
    obtain ⟨response, -, h⟩ := Async.bind_ok h
    obtain ⟨-, hval⟩ := checked_ok h
    refine ⟨hval, fun hlegacy => ?_⟩
    rw [hbackend] at hlegacy
    cases hlegacy

theorem run_ok {entry : Entry} {q r : Bytes} {clientTcp : Bool} {net : Network}
    (h : (entry.run q clientTcp net).run = some (.ok r)) :
    validateResponse q r = .ok () ∧ (entry.backend.isLegacy = true → Legacy.Genuine q r) := by
  unfold run at h
  simp only at h
  generalize (if 0 < entry.timeoutMs then some (net.now + entry.timeoutMs) else none) = deadline at h
  split at h
  · exact attempt_ok h
  · split at h
    · exact attempt_ok h
    · cases h

end Entry

/-! ## Selecting answers -/

/-- The RCODE of a message. -/
def rcode (message : Bytes) : UInt8 := byteAt message 3 &&& 0x0f

def servfail : UInt8 := 2

/-- The ID of a message. -/
def ident (message : Bytes) : UInt8 × UInt8 := (byteAt message 0, byteAt message 1)

/-- What becomes of an attempt's result: an error and a SERVFAIL are no answer, anything else is
passed on under the query's ID. -/
def configuredAnswer (query : Bytes) (result : Except String Bytes) : Option Bytes :=
  match result with
  | .error _ => none
  | .ok response => if rcode response = servfail then none else some (setId response (ident query))

theorem configuredAnswer_some {q b : Bytes} {result : Except String Bytes} (h : configuredAnswer q result = some b) :
    ∃ r, result = .ok r ∧ rcode r ≠ servfail ∧ b = setId r (ident q) := by
  unfold configuredAnswer at h
  split at h
  · cases h
  · rename_i r
    split at h
    · cases h
    · rename_i hrcode
      cases h
      exact ⟨r, rfl, hrcode, rfl⟩

end DNSRivet.Upstream
