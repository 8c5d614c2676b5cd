/-
`upstream/legacy.rs`: plain DNS over UDP, and over TCP to chase a truncated response. What the
sockets do is given per exchange; a wait that never ends has no result. Whatever a server sends, a
reply that comes back carries the query's ID and `validate_response` accepts it, also when the
datagram had to be clipped (`query_ok`).
-/
import DNSRivet.Wire.Truncate

namespace DNSRivet.Upstream

open DNSRivet.Base DNSRivet.Wire

/-- What awaiting something comes to: no result while it is pending, else its `Result`. -/
abbrev Async (α : Type) := ExceptT String Option α

namespace Async

variable {α β : Type}

/-- Never ready. -/
def pending : Async α := (none : Option (Except String α))

/-- A result that is there. -/
def ready (r : Except String α) : Async α := some r

theorem bind_ok {x : Async α} {f : α → Async β} {b : β} (h : (x >>= f).run = some (.ok b)) :
    ∃ a, x.run = some (.ok a) ∧ (f a).run = some (.ok b) := by
  match x, h with
  | some (.ok a), h => exact ⟨a, rfl, h⟩
  | some (.error err), h => cases h
  | none, h => cases h

theorem pure_ok {a b : α} (h : (pure a : Async α).run = some (.ok b)) : a = b := by
  cases h; rfl

end Async

namespace Legacy

/-! ## UDP -/

def maxUdpResponse : Nat := 4096

/-- One UDP socket: what binding, connecting and sending come to, and then the results of the
successive `recv` calls, each datagram whole. -/
structure UdpSocket where
  bind : Except String Unit
  connect : Except String Unit
  send : Bytes → Except String Unit
  received : List (Except String Bytes)

/-- The receive loop, with the buffer of `MAX_UDP_RESPONSE + 1` bytes clipping each datagram. -/
def recvLoop (query : Bytes) : List (Except String Bytes) → Async Bytes
  | [] => .pending
  | .error err :: _ => throw err
  | .ok datagram :: rest =>
    let buf := datagram.take (maxUdpResponse + 1)
    if headerLen ≤ buf.length ∧ buf.take 2 = query.take 2 ∧ validateResponse query buf = .ok () then
      if maxUdpResponse < buf.length then
        -- the edit may cut or rewrite bytes that the question's name points to
        let clipped := truncateTo buf maxUdpResponse
        match validateResponse query clipped with
        | .ok () => pure clipped
        | .error err => throw ("truncated udp response rejected: " ++ err.display)
      else pure buf
    else recvLoop query rest

def queryUdp (query : Bytes) (socket : UdpSocket) : Async Bytes := do
  let _ ← Async.ready socket.bind
  let _ ← Async.ready socket.connect
  let _ ← Async.ready (socket.send query)
  recvLoop query socket.received

/-! ## TCP -/

/-- One TCP connection: what connecting and writing come to, the bytes the server sends, and the
error the stream then ends with, if it does not just stay silent. -/
structure TcpStream where
  connect : Except String Unit
  writeAll : Bytes → Except String Unit
  sent : Bytes
  ending : Option String

/-- `read_exact` of `n` bytes, and the bytes left. -/
def readExact (n : Nat) (sent : Bytes) (ending : Option String) : Async (Bytes × Bytes) :=
  if n ≤ sent.length then pure (sent.take n, sent.drop n)
  else
    match ending with
    | some err => throw err
    | none => .pending

/-- A length as its two bytes. -/
def toBe16 (n : Nat) : Bytes := [UInt8.ofNat (n / 256), UInt8.ofNat n]

def queryTcp (query : Bytes) (stream : TcpStream) : Async Bytes := do
  let _ ← (if query.length < 65536 then pure () else throw "query too large" : Async Unit)
  let _ ← Async.ready stream.connect
  let _ ← Async.ready (stream.writeAll (toBe16 query.length ++ query))
  let (lenbuf, sent) ← readExact 2 stream.sent stream.ending
  let (response, _) ← readExact (be16 (byteAt lenbuf 0) (byteAt lenbuf 1)) sent stream.ending
  if response.length < headerLen ∨ response.take 2 ≠ query.take 2 then throw "tcp response ID mismatch"
  else
    match validateResponse query response with
    | .ok () => pure response
    | .error err => throw ("tcp response rejected: " ++ err.display)

/-! ## A query -/

/-- Whether a response has the TC bit set (RFC 1035 §4.1.1). -/
def isTruncated (response : Bytes) : Bool := headerLen ≤ response.length && byteAt response 2 &&& 0x02 != 0

/-- The sockets one query may use. -/
structure Exchange where
  udp : UdpSocket
  tcp : TcpStream

def query (query : Bytes) (tcpRetry : Bool) (exchange : Exchange) : Async Bytes := do
  let response ← queryUdp query exchange.udp
  if isTruncated response && tcpRetry then queryTcp query exchange.tcp else pure response

/-! ## Replies -/

/-- A reply that may be passed on: it carries the query's ID and answers the query's question. -/
structure Genuine (query response : Bytes) : Prop where
  ident : response.take 2 = query.take 2
  valid : validateResponse query response = .ok ()

theorem recvLoop_ok {q r : Bytes} : ∀ {received : List (Except String Bytes)},
    (recvLoop q received).run = some (.ok r) → Genuine q r
  | [], h => by cases h
  | .error err :: rest, h => by cases h
  | .ok datagram :: rest, h => by
    unfold recvLoop at h
    simp only at h
    split at h
    · rename_i hgood
      obtain ⟨-, hid, hval⟩ := hgood
      split at h
      · split at h
        · rename_i hclip
          obtain rfl := Async.pure_ok h
          exact ⟨(truncateTo_ident _ _).trans hid, hclip⟩
        · cases h
      · obtain rfl := Async.pure_ok h
        exact ⟨hid, hval⟩
    · exact recvLoop_ok h

theorem queryUdp_ok {q r : Bytes} {socket : UdpSocket} (h : (queryUdp q socket).run = some (.ok r)) : Genuine q r := by
  obtain ⟨-, -, h⟩ := Async.bind_ok h
  obtain ⟨-, -, h⟩ := Async.bind_ok h
  obtain ⟨-, -, h⟩ := Async.bind_ok h
  exact recvLoop_ok h

theorem queryTcp_ok {q r : Bytes} {stream : TcpStream} (h : (queryTcp q stream).run = some (.ok r)) : Genuine q r := by
  obtain ⟨-, -, h⟩ := Async.bind_ok h
  obtain ⟨-, -, h⟩ := Async.bind_ok h
  obtain ⟨-, -, h⟩ := Async.bind_ok h
  obtain ⟨⟨lenbuf, sent⟩, -, h⟩ := Async.bind_ok h
  obtain ⟨⟨response, rest⟩, -, h⟩ := Async.bind_ok h
  simp only at h
  split at h
  · cases h
  · rename_i hid
    split at h
    · rename_i hval
      obtain rfl := Async.pure_ok h
      exact ⟨by_contra fun hne => hid (.inr hne), hval⟩
    · cases h

/-- Whatever the server sends, a reply that comes back is genuine. -/
theorem query_ok {q r : Bytes} {tcpRetry : Bool} {exchange : Exchange}
    (h : (query q tcpRetry exchange).run = some (.ok r)) : Genuine q r := by
  obtain ⟨response, hudp, h⟩ := Async.bind_ok h
  split at h
  · exact queryTcp_ok h
  · obtain rfl := Async.pure_ok h
    exact queryUdp_ok hudp

end Legacy

end DNSRivet.Upstream
