/-
The receive loop of `query_udp` over the buffer it really uses: one buffer for all datagrams, each `recv`
overwriting its front and leaving what earlier datagrams left behind it. Those bytes are never read
(`recvBuffered_eq`), so the loop is the one of `Legacy`; it decides on the first datagram that matches the
query, whatever came before (`first_match_decides`).
-/
import DNSRivet.Upstream.Legacy

namespace DNSRivet.Upstream.Legacy

open DNSRivet.Base DNSRivet.Wire

variable {q b : Bytes}

/-! ## One buffer -/

/-- A datagram received into a buffer: the bytes written, and the buffer. -/
def recv (buf datagram : Bytes) : Nat × Bytes :=
  let n := min datagram.length buf.length
  (n, datagram.take n ++ buf.drop n)

/-- The receive loop over one buffer. -/
def recvBuffered (query : Bytes) : Bytes → List (Except String Bytes) → Async Bytes
  | _, [] => .pending
  | _, .error err :: _ => throw err
  | buf, .ok datagram :: rest =>
    let (n, buf) := recv buf datagram
    if headerLen ≤ n ∧ buf.take 2 = query.take 2 ∧ validateResponse query (buf.take n) = .ok () then
      let buf := buf.take n
      if maxUdpResponse < n then
        let buf := truncateTo buf maxUdpResponse
        match validateResponse query buf with
        | .ok () => pure buf
        | .error err => throw ("truncated udp response rejected: " ++ err.display)
      else pure buf
    else recvBuffered query buf rest

def queryUdpBuffered (query : Bytes) (socket : UdpSocket) : Async Bytes := do
  let _ ← Async.ready socket.bind
  let _ ← Async.ready socket.connect
  let _ ← Async.ready (socket.send query)
  recvBuffered query (List.replicate (maxUdpResponse + 1) 0) socket.received

theorem recv_spec {buf : Bytes} (h : buf.length = maxUdpResponse + 1) (datagram : Bytes) :
    (recv buf datagram).1 = (datagram.take (maxUdpResponse + 1)).length ∧
    (recv buf datagram).2.take (recv buf datagram).1 = datagram.take (maxUdpResponse + 1) ∧
    (recv buf datagram).2.length = maxUdpResponse + 1 := by
  have hn : (recv buf datagram).1 = min datagram.length (maxUdpResponse + 1) := by rw [← h]; rfl
  have hbuf : (recv buf datagram).2 = datagram.take (recv buf datagram).1 ++ buf.drop (recv buf datagram).1 := rfl
  have hlen : (datagram.take (recv buf datagram).1).length = (recv buf datagram).1 := by
    rw [List.length_take]
    omega
  refine ⟨by rw [hn, List.length_take, Nat.min_comm], ?_, ?_⟩
  · rw [hbuf, List.take_left' hlen, hn, Nat.min_comm, List.take_eq_take_iff]
    omega
  · rw [hbuf, List.length_append, hlen, List.length_drop]
    omega

/-- What earlier datagrams left in the buffer is never read. -/
theorem recvBuffered_eq (q : Bytes) : ∀ (received : List (Except String Bytes)) (buf : Bytes),
    buf.length = maxUdpResponse + 1 → recvBuffered q buf received = recvLoop q received
  | [], _, _ => rfl
  | .error err :: rest, _, _ => rfl
  | .ok datagram :: rest, buf, h => by
    obtain ⟨hn, hbuf, hlen⟩ := recv_spec h datagram
    rw [hn] at hbuf
    have hid : headerLen ≤ (datagram.take (maxUdpResponse + 1)).length →
        (recv buf datagram).2.take 2 = (datagram.take (maxUdpResponse + 1)).take 2 := by
      intro hl
      unfold headerLen at hl
      rw [← hbuf, List.take_take, Nat.min_eq_left (by omega)]
    unfold recvBuffered recvLoop
    simp only [hn, hbuf]
    rw [recvBuffered_eq q rest _ hlen]
    congr 1
    apply propext
    refine and_congr_right fun hl => ?_
    rw [hid hl]

theorem queryUdpBuffered_eq (q : Bytes) (socket : UdpSocket) : queryUdpBuffered q socket = queryUdp q socket := by
  unfold queryUdpBuffered queryUdp
  simp only [recvBuffered_eq q socket.received _ (List.length_replicate ..)]

/-! ## The datagram that decides -/

/-- What the buffer takes of a datagram. -/
def clip (datagram : Bytes) : Bytes := datagram.take (maxUdpResponse + 1)

/-- What is received of the datagram carries the query's ID and answers its question. -/
def Matches (query datagram : Bytes) : Prop :=
  headerLen ≤ (clip datagram).length ∧ (clip datagram).take 2 = query.take 2 ∧
    validateResponse query (clip datagram) = .ok ()

instance (query datagram : Bytes) : Decidable (Matches query datagram) :=
  inferInstanceAs (Decidable (_ ∧ _ ∧ _))

/-- What the query comes to when this datagram decides it. -/
def decided (query datagram : Bytes) : Except String Bytes :=
  if maxUdpResponse < (clip datagram).length then
    match validateResponse query (truncateTo (clip datagram) maxUdpResponse) with
    | .ok () => .ok (truncateTo (clip datagram) maxUdpResponse)
    | .error err => .error ("truncated udp response rejected: " ++ err.display)
  else .ok (clip datagram)

theorem recvLoop_skip {rest : List (Except String Bytes)} :
    ∀ {ds : List Bytes}, (∀ d ∈ ds, ¬ Matches q d) → recvLoop q (ds.map .ok ++ rest) = recvLoop q rest
  | [], _ => rfl
  | d :: ds, h => by
    have hd : ¬ Matches q d := h d List.mem_cons_self
    unfold Matches clip at hd
    rw [List.map_cons, List.cons_append, recvLoop]
    simp only
    rw [if_neg hd]
    exact recvLoop_skip fun x hx => h x (List.mem_cons_of_mem _ hx)

theorem recvLoop_decided {d : Bytes} {rest : List (Except String Bytes)} (h : Matches q d) :
    (recvLoop q (.ok d :: rest)).run = some (decided q d) := by
  unfold Matches clip at h
  unfold recvLoop decided clip
  simp only
  rw [if_pos h]
  split
  · cases validateResponse q (truncateTo (d.take (maxUdpResponse + 1)) maxUdpResponse) <;> rfl
  · rfl

/-- A result is an error of the socket or the verdict on the first match. -/
theorem recvLoop_found : ∀ {received : List (Except String Bytes)}, (recvLoop q received).run = some (.ok b) →
    ∃ (ds : List Bytes) (d : Bytes) (rest : List (Except String Bytes)), received = ds.map .ok ++ .ok d :: rest ∧
      (∀ x ∈ ds, ¬ Matches q x) ∧ Matches q d ∧ decided q d = .ok b
  | [], h => by cases h
  | .error err :: rest, h => by cases h
  | .ok d :: rest, h => by
    by_cases hm : Matches q d
    · rw [recvLoop_decided hm] at h
      exact ⟨[], d, rest, rfl, by simp, hm, Option.some.inj h⟩
    · have hskip : recvLoop q ([d].map Except.ok ++ rest) = recvLoop q rest := recvLoop_skip (by simpa using hm)
      rw [List.map_singleton, List.singleton_append] at hskip
      rw [hskip] at h
      obtain ⟨ds, d', rest', rfl, hds, hm', hb⟩ := recvLoop_found h
      refine ⟨d :: ds, d', rest', rfl, ?_, hm', hb⟩
      intro x hx
      rcases List.mem_cons.1 hx with rfl | hx
      · exact hm
      · exact hds x hx

/-- A reply that came back from a datagram. -/
structure ReplyOf (query datagram reply : Bytes) : Prop where
  length : reply.length ≤ maxUdpResponse
  genuine : Genuine query reply
  whole : datagram.length ≤ maxUdpResponse → reply = datagram
  clipped : maxUdpResponse < datagram.length → byteAt reply 2 &&& 0x02 ≠ 0

theorem decided_reply {d : Bytes} (hm : Matches q d) (h : decided q d = .ok b) : ReplyOf q d b := by
  have hclip : (clip d).length = min (maxUdpResponse + 1) d.length := List.length_take
  have h12 : headerLen = 12 := rfl
  unfold decided at h
  split at h
  · rename_i hlong
    split at h
    · rename_i hvalid
      cases h
      have ht := truncateTo_truncated hm.1 hlong
      have hlen := truncateTo_length (show headerLen ≤ maxUdpResponse by decide) (clip d)
      have := ht.length
      refine ⟨by omega, ⟨(truncateTo_ident _ _).trans hm.2.1, hvalid⟩, fun hshort => by omega, fun _ => ?_⟩
      rw [ht.flags]
      exact (setTc _).1
    · cases h
  · rename_i hshort
    cases h
    refine ⟨by omega, ⟨hm.2.1, hm.2.2⟩, fun _ => List.take_of_length_le (by omega), fun hlong => by omega⟩

/-- The socket could be opened and took the query. -/
structure Opened (query : Bytes) (socket : UdpSocket) : Prop where
  bind : socket.bind = .ok ()
  connect : socket.connect = .ok ()
  send : socket.send query = .ok ()

theorem queryUdp_opened {socket : UdpSocket} (h : Opened q socket) :
    queryUdp q socket = recvLoop q socket.received := by
  unfold queryUdp
  rw [h.bind, h.connect, h.send]
  rfl

/-- The first datagram that matches decides, whatever came before it and whatever comes after; without one
there is no result. A reply that comes back is that datagram, or, if it was clipped, has TC set. -/
theorem first_match_decides {socket : UdpSocket} (hopen : Opened q socket) :
    (∀ (ds : List Bytes) (d : Bytes) (rest : List (Except String Bytes)),
      socket.received = ds.map .ok ++ .ok d :: rest → (∀ x ∈ ds, ¬ Matches q x) → Matches q d →
      (queryUdpBuffered q socket).run = some (decided q d)) ∧
    (∀ ds : List Bytes, socket.received = ds.map .ok → (∀ x ∈ ds, ¬ Matches q x) →
      (queryUdpBuffered q socket).run = none) ∧
    ∀ b, (queryUdpBuffered q socket).run = some (.ok b) →
      ∃ (ds : List Bytes) (d : Bytes) (rest : List (Except String Bytes)),
        socket.received = ds.map .ok ++ .ok d :: rest ∧
      (∀ x ∈ ds, ¬ Matches q x) ∧ Matches q d ∧ b.length ≤ maxUdpResponse ∧ b.take 2 = q.take 2 ∧
      validateResponse q b = .ok () ∧ (d.length ≤ maxUdpResponse → b = d) ∧
      (maxUdpResponse < d.length → byteAt b 2 &&& 0x02 ≠ 0) := by
  rw [queryUdpBuffered_eq, queryUdp_opened hopen]
  refine ⟨?_, ?_, ?_⟩
  · intro ds d rest hreceived hds hm
    rw [hreceived, recvLoop_skip hds]
    exact recvLoop_decided hm
  · intro ds hreceived hds
    rw [hreceived, ← List.append_nil (ds.map Except.ok), recvLoop_skip hds]
    rfl
  · intro b hb
    obtain ⟨ds, d, rest, hreceived, hds, hm, hdec⟩ := recvLoop_found hb
    have hreply := decided_reply hm hdec
    exact ⟨ds, d, rest, hreceived, hds, hm, hreply.length, hreply.genuine.ident, hreply.genuine.valid, hreply.whole,
      hreply.clipped⟩

/-- An empty answer to the query for the root's A records, under an ID whose second byte is `id`. -/
def emptyAnswer (id : UInt8) : Bytes := [0, id, 0x81, 0x80, 0, 1, 0, 0, 0, 0, 0, 0, 0, 0, 1, 0, 1]

/-- A guess at the ID of that query arrives first. -/
def guessedFirst : UdpSocket := ⟨.ok (), .ok (), fun _ => .ok (), [.ok (emptyAnswer 9), .ok (emptyAnswer 7)]⟩

theorem first_match_decides_guessed :
    (queryUdpBuffered rootA guessedFirst).run = some (decided rootA (emptyAnswer 7)) :=
  (first_match_decides ⟨rfl, rfl, rfl⟩).1 [emptyAnswer 9] (emptyAnswer 7) [] rfl (by decide) (by decide)

end DNSRivet.Upstream.Legacy
