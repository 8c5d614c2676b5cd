/-
`proxy/mod.rs`: the client loops. A client message is answered at once with FORMERR or out of the cache, or
waits for the upstreams, whose answer may come back after any number of other clients' messages. Every
message sent, by whichever path, identifies itself as the response to the message it answers and fits what
the client can take (`responses_identified`); for UDP that size is the same whether the query uses the cache
or not (`payload_sizes_agree`).
-/
import DNSRivet.Proxy.Hits
import DNSRivet.Upstream.Forward
import DNSRivet.Wire.PayloadSize
import DNSRivet.Wire.Truncate

namespace DNSRivet.Proxy

open DNSRivet.Base DNSRivet.Wire DNSRivet.Upstream

variable {L : Lru QueryKey Entry}

def maxQuerySize : Nat := 4096

/-! ## The responses made here -/

/-- Header-echo SERVFAIL: QR=1, RA=1, RCODE=2, question section preserved. -/
def servfail (query : Bytes) : Bytes :=
  if headerLen ≤ query.length then patch (patch query 2 [byteAt query 2 &&& 0x79 ||| 0x80]) 3 [0x82] else query

/-- Header-only FORMERR for multi-question queries. -/
def formerr (query : Bytes) : Bytes :=
  [byteAt query 0, byteAt query 1, byteAt query 2 &&& 0x79 ||| 0x80, 0x81, 0, 0, 0, 0, 0, 0, 0, 0]

/-- The local-answer gate: whether it answered, the response buffer and the cache. -/
def localResponse (cache : Cache L) (now : Nat) (query : Bytes) (qmeta : Option QueryMeta) (response : Bytes) :
    Bool × Bytes × Cache L :=
  -- RFC 9619: malformed multi-question queries must never reach upstreams
  if isMultiQuestionQuery query then (true, formerr query, cache)
  else
    match qmeta with
    | some qmeta => cache.getInto now qmeta (ident query) response
    | none => (false, response, cache)

/-- `forward`, given what the manager's `forward` came to. -/
def forward (cache : Cache L) (now : Nat) (query : Bytes) (qmeta : Option QueryMeta) (answer : Option Bytes) :
    Bytes × Cache L :=
  let response := answer.getD (servfail query)
  match qmeta with
  | some qmeta => (response, cache.insert now qmeta response)
  | none => (response, cache)

/-! ## What is sent -/

/-- The datagram sent for a response. -/
def udpMessage (query : Bytes) (qmeta : Option QueryMeta) (response : Bytes) : Bytes :=
  truncateTo response (qmeta.elim (udpPayloadSize query) (·.udpSize))

/-- The message written after its length on a TCP connection. -/
def tcpMessage (response : Bytes) : Bytes := response.take (min response.length 65535)

def sentMessage (clientTcp : Bool) (query : Bytes) (qmeta : Option QueryMeta) (response : Bytes) : Bytes :=
  if clientTcp then tcpMessage response else udpMessage query qmeta response

/-- A message of a size that the loops take. -/
def Accepted (query : Bytes) : Prop := 12 ≤ query.length ∧ query.length ≤ maxQuerySize

/-! ## Runs -/

/-- A client message that waits for the upstreams. -/
structure Task where
  query : Bytes
  clientTcp : Bool
  qmeta : Option QueryMeta

inductive ProxyEvent
  /-- A client message that is answered at once, and the message sent. -/
  | answered (query : Bytes) (clientTcp : Bool) (sent : Bytes)
  /-- A client message that the manager is asked for. -/
  | asked (query : Bytes) (clientTcp : Bool)
  /-- What the manager made of a waiting message, and the message sent. -/
  | returned (index : Nat) (task : Task) (answer : Option Forwarded) (sent : Bytes)

/-- The client, transport and bytes of the message an event sends. -/
def ProxyEvent.sent : ProxyEvent → Option (Bytes × Bool × Bytes)
  | answered query clientTcp sent => some (query, clientTcp, sent)
  | asked _ _ => none
  | returned _ task _ sent => some (task.query, task.clientTcp, sent)

structure Server (L : Lru QueryKey Entry) where
  clock : Nat
  cache : Cache L
  waiting : List Task

/-- The local-answer gate over an accepted message. A TCP connection hands it the buffer of an earlier answer. -/
def gate (s : Server L) (now : Nat) (query : Bytes) (clientTcp hit : Bool) (out : Bytes) (cache : Cache L) : Prop :=
  Accepted query ∧ ∃ buffer, (clientTcp = false → buffer = []) ∧
    localResponse s.cache now query (s.cache.queryMeta query) buffer = (hit, out, cache)

/-- The messages of any number of clients, each event with its time. The manager's configuration and what
its upstreams do are free at every event. -/
def proxySystem (L : Lru QueryKey Entry) : System (Server L) (Nat × ProxyEvent) where
  init := fun s => (∃ enabled capacity, s.cache = Cache.new L enabled capacity) ∧ s.waiting = []
  step := fun s e s' => s.clock ≤ e.1 ∧ s'.clock = e.1 ∧
    match e.2 with
    | .answered query clientTcp sent =>
      (∃ out, gate s e.1 query clientTcp true out s'.cache ∧
        sent = sentMessage clientTcp query (s.cache.queryMeta query) out) ∧ s'.waiting = s.waiting
    | .asked query clientTcp =>
      (∃ out, gate s e.1 query clientTcp false out s'.cache) ∧
        s'.waiting = s.waiting ++ [⟨query, clientTcp, s.cache.queryMeta query⟩]
    | .returned index task answer sent =>
      s.waiting[index]? = some task ∧ (∃ m, Forwards m task.query task.clientTcp answer) ∧
      (∃ out, forward s.cache e.1 task.query task.qmeta (answer.map (·.response)) = (out, s'.cache) ∧
        sent = sentMessage task.clientTcp task.query task.qmeta out) ∧
      s'.waiting = s.waiting.eraseIdx index

/-! ## Responses that identify themselves -/

/-- `r` is a response to `q` by its header: a whole one, with the ID and opcode of `q` and QR set. -/
structure Identifies (q r : Bytes) : Prop where
  length : headerLen ≤ r.length
  ident : ident r = ident q
  response : byteAt r 2 &&& 0x80 ≠ 0
  opcode : byteAt r 2 &&& 0x78 = byteAt q 2 &&& 0x78

variable {q r : Bytes}

/-- An edit that keeps the ID, QR and the opcode. -/
theorem Identifies.edit {r' : Bytes} (h : Identifies q r) (hl : headerLen ≤ r'.length)
    (hid : Upstream.ident r' = Upstream.ident r)
    (hflags : byteAt r' 2 &&& 0xf8 = byteAt r 2 &&& 0xf8) : Identifies q r' := by
  obtain ⟨hqr, hop⟩ := sameFlags hflags
  exact ⟨hl, hid.trans h.ident, hqr ▸ h.response, hop.trans h.opcode⟩

theorem Identifies.truncated (h : Identifies q r) (limit : Nat) : Identifies q (truncateTo r limit) := by
  by_cases hlong : limit < r.length
  · have ht := truncateTo_truncated h.length hlong
    refine h.edit ht.length ?_ (by rw [ht.flags, (setTc _).2])
    unfold Upstream.ident
    rw [byteAt_congr (ht.ident 0 (by omega)), byteAt_congr (ht.ident 1 (by omega))]
  · unfold truncateTo
    rw [if_pos (.inl (by omega))]
    exact h

theorem Identifies.taken (h : Identifies q r) : Identifies q (tcpMessage r) := by
  have h12 : headerLen = 12 := rfl
  have hl := h.length
  have hbyte : ∀ i < 12, byteAt (tcpMessage r) i = byteAt r i := by
    intro i hi
    exact byteAt_congr (List.getElem?_take_of_lt (by omega))
  refine h.edit ?_ ?_ (by rw [hbyte 2 (by omega)])
  · show headerLen ≤ (r.take _).length
    rw [List.length_take]
    omega
  · unfold Upstream.ident
    rw [hbyte 0 (by omega), hbyte 1 (by omega)]

set_option maxRecDepth 20000 in
theorem echoBits : ∀ b : Fin 256, (UInt8.ofNat b.val &&& 0x79 ||| 0x80) &&& 0x80 ≠ 0 ∧
    (UInt8.ofNat b.val &&& 0x79 ||| 0x80) &&& 0x78 = UInt8.ofNat b.val &&& 0x78 := by
  decide

/-- The flags byte of SERVFAIL and FORMERR: QR is set, the opcode is kept. -/
theorem echoFlags (b : UInt8) : (b &&& 0x79 ||| 0x80) &&& 0x80 ≠ 0 ∧ (b &&& 0x79 ||| 0x80) &&& 0x78 = b &&& 0x78 := by
  simpa using echoBits ⟨b.toNat, b.toNat_lt⟩

theorem formerr_identifies (q : Bytes) : Identifies q (formerr q) := by
  obtain ⟨hqr, hop⟩ := echoFlags (byteAt q 2)
  exact ⟨Nat.le_refl 12, rfl, hqr, hop⟩

theorem servfail_identifies (h : headerLen ≤ q.length) : Identifies q (servfail q) := by
  have h12 : headerLen = 12 := rfl
  obtain ⟨hqr, hop⟩ := echoFlags (byteAt q 2)
  have hlen : (patch q 2 [byteAt q 2 &&& 0x79 ||| 0x80]).length = q.length := patch_length (by simp; omega)
  have hbyte : ∀ i < 2, byteAt (servfail q) i = byteAt q i := by
    intro i hi
    apply byteAt_congr
    unfold servfail
    rw [if_pos h, patch_outside (by simp; omega) (by simp; omega), patch_outside (by simp; omega) (by simp; omega)]
  have hflags : byteAt (servfail q) 2 = byteAt q 2 &&& 0x79 ||| 0x80 := by
    unfold servfail
    rw [if_pos h, byteAt, List.getD_eq_getElem?_getD, patch_outside (by simp; omega) (by simp)]
    rw [show (2 : Nat) = 2 + 0 from rfl, patch_inside (by simp; omega) (by simp)]
    rfl
  refine ⟨?_, ?_, hflags ▸ hqr, hflags ▸ hop⟩
  · unfold servfail
    rw [if_pos h, patch_length (by simp; omega), hlen]
    exact h
  · unfold Upstream.ident
    rw [hbyte 0 (by omega), hbyte 1 (by omega)]

/-- What the manager answers identifies itself. -/
theorem forwarded_identifies {answer : Forwarded} (h : Answers q answer) : Identifies q answer.response := by
  obtain ⟨-, hl, hqr, hop, -⟩ := (validateResponse_ok_iff q answer.reply).1 h.valid
  have h2 : byteAt answer.response 2 = byteAt answer.reply 2 := by
    rw [h.response]
    exact byteAt_congr (setId_other hl (by omega))
  refine ⟨?_, ?_, h2 ▸ hqr, ?_⟩
  · rw [h.response, setId_length hl]
    exact hl
  · rw [h.response, ident_setId hl]
  · rw [h2]
    exact (xor_and_eq_zero.1 hop).symm

/-! ## Hits -/

/-- Everything the cache was handed is a response to a query with the metadata it came with. -/
def InsertsIdentify (es : List (Nat × CacheEvent)) : Prop :=
  ∀ t qmeta r, (t, CacheEvent.insert qmeta r) ∈ es → ∃ q, parseQueryMeta q = some qmeta ∧ Identifies q r

theorem hit_identifies {es : List (Nat × CacheEvent)} {s : CacheState L} {t : Nat} {qmeta : QueryMeta}
    {buffer out : Bytes} (h : Run (cacheSystem L) (es ++ [(t, .get qmeta (ident q) buffer true out)]) s)
    (hins : InsertsIdentify es) (hq : parseQueryMeta q = some qmeta) : Identifies q out := by
  obtain ⟨st, rrs, hst, -, hr, -, hre⟩ := hit_keeps h
  obtain ⟨hmem, -, -⟩ := lastStored_mem hst
  obtain ⟨q0, hq0, hid0⟩ := hins _ _ _ hmem
  obtain ⟨h2, -⟩ := hre.header hr
  refine ⟨hre.length ▸ hid0.length, ?_, h2 ▸ hid0.response, ?_⟩
  · show (out.getD 0 0, out.getD 1 0) = ident q
    rw [List.getD_eq_getElem?_getD, List.getD_eq_getElem?_getD, hre.ident.1, hre.ident.2]
    rfl
  · rw [h2, hid0.opcode, (parseQueryMeta_ok hq0).opcode, (parseQueryMeta_ok hq).opcode]

/-! ## Every message sent -/

/-- The uses of the cache behind a run of the proxy, and the messages that wait. -/
structure ServerOk (s : Server L) : Prop where
  cache : ∃ es clock, Run (cacheSystem L) es ⟨clock, s.cache⟩ ∧ clock ≤ s.clock ∧ InsertsIdentify es
  waiting : ∀ task ∈ s.waiting, Accepted task.query ∧
    ∀ qmeta, task.qmeta = some qmeta → parseQueryMeta task.query = some qmeta

theorem queryMeta_some {cache : Cache L} {qmeta : QueryMeta} (h : cache.queryMeta q = some qmeta) :
    parseQueryMeta q = some qmeta := by
  obtain ⟨_, -, h⟩ := Option.bind_eq_some_iff.1 h
  exact h

/-- What the local-answer gate does: FORMERR, one use of the cache, or nothing. -/
theorem localResponse_cases {cache cache' : Cache L} {now : Nat} {qmeta : Option QueryMeta} {buffer out : Bytes}
    {hit : Bool} (h : localResponse cache now q qmeta buffer = (hit, out, cache')) :
    out = formerr q ∧ cache' = cache ∨
    (∃ qm, qmeta = some qm ∧ cache.getInto now qm (ident q) buffer = (hit, out, cache')) ∨
    hit = false ∧ cache' = cache := by
  unfold localResponse at h
  split at h
  · cases h
    exact .inl ⟨rfl, rfl⟩
  · cases qmeta with
    | none =>
      cases h
      exact .inr (.inr ⟨rfl, rfl⟩)
    | some qm => exact .inr (.inl ⟨qm, rfl, h⟩)

/-- The gate is at most one use of the cache, and what it answers identifies itself. -/
theorem gate_ok {s : Server L} {now : Nat} {clientTcp hit : Bool} {out : Bytes} {cache : Cache L} (hs : ServerOk s)
    (hnow : s.clock ≤ now) (h : gate s now q clientTcp hit out cache) :
    (hit = true → Identifies q out) ∧ ∃ es clock, Run (cacheSystem L) es ⟨clock, cache⟩ ∧ clock ≤ now ∧
      InsertsIdentify es := by
  obtain ⟨-, buffer, -, h⟩ := h
  obtain ⟨es, clock, hrun, hclock, hins⟩ := hs.cache
  rcases localResponse_cases h with ⟨rfl, rfl⟩ | ⟨qmeta, hmeta, hget⟩ | ⟨rfl, rfl⟩
  · exact ⟨fun _ => formerr_identifies q, es, clock, hrun, by omega, hins⟩
  · have hnext : Run (cacheSystem L) (es ++ [(now, .get qmeta (ident q) buffer hit out)]) ⟨now, cache⟩ :=
      hrun.snoc ⟨by show clock ≤ now; omega, rfl, hget⟩
    refine ⟨?_, _, now, hnext, Nat.le_refl _, ?_⟩
    · rintro rfl
      exact hit_identifies hnext hins (queryMeta_some hmeta)
    · intro t qm r hmem
      rcases List.mem_append.1 hmem with hmem | hmem
      · exact hins t qm r hmem
      · cases List.mem_singleton.1 hmem
  · exact ⟨by simp, es, clock, hrun, by omega, hins⟩

/-- What `forward` returns identifies itself, and is the only response it offers the cache. -/
theorem forward_ok {s : Server L} {now : Nat} {task : Task} {m : Manager} {answer : Option Forwarded} {out : Bytes}
    {cache : Cache L} (hs : ServerOk s) (hnow : s.clock ≤ now) (htask : task ∈ s.waiting)
    (hm : Forwards m task.query task.clientTcp answer)
    (h : forward s.cache now task.query task.qmeta (answer.map (·.response)) = (out, cache)) :
    Identifies task.query out ∧ ∃ es clock, Run (cacheSystem L) es ⟨clock, cache⟩ ∧ clock ≤ now ∧
      InsertsIdentify es := by
  obtain ⟨es, clock, hrun, hclock, hins⟩ := hs.cache
  obtain ⟨hacc, hmeta⟩ := hs.waiting task htask
  have hid : Identifies task.query ((answer.map (·.response)).getD (servfail task.query)) := by
    cases answer with
    | none => exact servfail_identifies hacc.1
    | some answer => exact forwarded_identifies (hm.answers answer rfl)
  unfold forward at h
  cases hqm : task.qmeta with
  | none =>
    rw [hqm] at h
    cases h
    exact ⟨hid, es, clock, hrun, by omega, hins⟩
  | some qmeta =>
    rw [hqm] at h
    cases h
    refine ⟨hid, es ++ [(now, .insert qmeta _)], now, hrun.snoc ⟨by show clock ≤ now; omega, rfl, rfl⟩,
      Nat.le_refl _, ?_⟩
    intro t qm r hmem
    rcases List.mem_append.1 hmem with hmem | hmem
    · exact hins t qm r hmem
    · cases List.mem_singleton.1 hmem
      exact ⟨task.query, hmeta qmeta hqm, hid⟩

/-- Cached or not, a datagram is cut at the advertised size. -/
theorem udpMessage_eq {qmeta : Option QueryMeta} (h : ∀ qm, qmeta = some qm → parseQueryMeta q = some qm) (r : Bytes) :
    udpMessage q qmeta r = truncateTo r (advertised q) := by
  unfold udpMessage
  cases qmeta with
  | none => rw [Option.elim_none, udpPayloadSize_eq]
  | some qm => rw [Option.elim_some, udpSize_of_meta (h qm rfl)]

/-- What the message sent for a response owes the client. -/
def Delivers (q : Bytes) (clientTcp : Bool) (message : Bytes) : Prop :=
  Identifies q message ∧ (clientTcp = false → message.length ≤ advertised q)

theorem delivers {qmeta : Option QueryMeta} (hmeta : ∀ qm, qmeta = some qm → parseQueryMeta q = some qm)
    (h : Identifies q r) (clientTcp : Bool) : Delivers q clientTcp (sentMessage clientTcp q qmeta r) := by
  cases clientTcp with
  | true => exact ⟨h.taken, by simp⟩
  | false =>
    have hid := h.truncated (advertised q)
    show Identifies q (udpMessage q qmeta r) ∧ (_ → (udpMessage q qmeta r).length ≤ _)
    rw [udpMessage_eq hmeta]
    refine ⟨hid, fun _ => ?_⟩
    have h512 := (advertised_bounds q).1
    have hl := hid.length
    have := truncateTo_length (show headerLen ≤ advertised q by unfold headerLen; omega) r
    omega

theorem server_step {s s' : Server L} {e : Nat × ProxyEvent} (hs : ServerOk s) (h : (proxySystem L).step s e s') :
    ServerOk s' ∧ ∀ q clientTcp message, e.2.sent = some (q, clientTcp, message) → Delivers q clientTcp message := by
  obtain ⟨now, ev⟩ := e
  obtain ⟨hclock, hnow, h⟩ := h
  simp only at hclock hnow h
  cases ev with
  | answered query tcp sent =>
    obtain ⟨⟨out, hgate, rfl⟩, hwait⟩ := h
    obtain ⟨hid, hcache⟩ := gate_ok hs hclock hgate
    refine ⟨⟨hnow ▸ hcache, hwait ▸ hs.waiting⟩, ?_⟩
    rintro q clientTcp message ⟨⟩
    exact delivers (fun qm => queryMeta_some) (hid rfl) _
  | asked query tcp =>
    obtain ⟨⟨out, hgate⟩, hwait⟩ := h
    obtain ⟨-, hcache⟩ := gate_ok hs hclock hgate
    refine ⟨⟨hnow ▸ hcache, fun task htask => ?_⟩, by simp [ProxyEvent.sent]⟩
    rw [hwait] at htask
    rcases List.mem_append.1 htask with htask | htask
    · exact hs.waiting task htask
    · cases List.mem_singleton.1 htask
      exact ⟨hgate.1, fun qm => queryMeta_some⟩
  | returned index task answer sent =>
    obtain ⟨htask, ⟨m, hm⟩, ⟨out, hout, rfl⟩, hwait⟩ := h
    have htask := List.mem_of_getElem? htask
    obtain ⟨hid, hcache⟩ := forward_ok hs hclock htask hm hout
    refine ⟨⟨hnow ▸ hcache, fun task htask => ?_⟩, ?_⟩
    · rw [hwait] at htask
      exact hs.waiting task (List.mem_of_mem_eraseIdx htask)
    · rintro q clientTcp message ⟨⟩
      exact delivers (hs.waiting task htask).2 hid _

/-- Every message sent in a run delivers what it owes. -/
theorem server_run {es : List (Nat × ProxyEvent)} {s : Server L} (h : Run (proxySystem L) es s) :
    ServerOk s ∧ ∀ e ∈ es, ∀ q clientTcp message, e.2.sent = some (q, clientTcp, message) →
      Delivers q clientTcp message := by
  refine h.invariant (I := fun es s => ServerOk s ∧ ∀ e ∈ es, ∀ q clientTcp message,
    e.2.sent = some (q, clientTcp, message) → Delivers q clientTcp message) ?_ ?_
  · rintro s ⟨hinit, hwait⟩
    refine ⟨⟨⟨[], s.clock, .start hinit, Nat.le_refl _, ?_⟩, ?_⟩, by simp⟩
    · intro t qmeta r hmem
      cases hmem
    · intro task htask
      rw [hwait] at htask
      cases htask
  · rintro es s e s' - ⟨hs, hes⟩ hstep
    obtain ⟨hs', hsent⟩ := server_step hs hstep
    refine ⟨hs', fun e' he' => ?_⟩
    rcases List.mem_append.1 he' with he' | he'
    · exact hes e' he'
    · cases List.mem_singleton.1 he'
      exact hsent

/-- Whatever was cached and whatever the upstreams do, a message sent to a client is a whole response with the
client's ID and opcode, and a datagram is no longer than the client advertised. -/
theorem responses_identified {es : List (Nat × ProxyEvent)} {s : Server L} {e : Nat × ProxyEvent} {clientTcp : Bool}
    {message : Bytes} (h : Run (proxySystem L) es s) (he : e ∈ es) (hsent : e.2.sent = some (q, clientTcp, message)) :
    headerLen ≤ message.length ∧ ident message = ident q ∧ byteAt message 2 &&& 0x80 ≠ 0 ∧
      byteAt message 2 &&& 0x78 = byteAt q 2 &&& 0x78 ∧ (clientTcp = false → message.length ≤ advertised q) := by
  obtain ⟨hid, hfits⟩ := (server_run h).2 e he q clientTcp message hsent
  exact ⟨hid.length, hid.ident, hid.response, hid.opcode, hfits⟩

/-- The two size computations agree, so the cache never changes where a datagram is cut. -/
theorem payload_sizes_agree {qmeta : QueryMeta} (h : parseQueryMeta q = some qmeta) :
    qmeta.udpSize = udpPayloadSize q ∧
    ∀ (cache : Cache L) (response : Bytes), udpMessage q (cache.queryMeta q) response = udpMessage q none response := by
  refine ⟨by rw [udpPayloadSize_eq, udpSize_of_meta h], fun cache response => ?_⟩
  rw [udpMessage_eq fun qm => queryMeta_some, udpMessage_eq (by simp)]

/-- A root query that advertises 1232 bytes. -/
def optQuery : Bytes := [0, 7, 1, 0, 0, 1, 0, 0, 0, 0, 0, 1, 0, 0, 1, 0, 1, 0, 0, 41, 4, 0xd0, 0, 0, 0, 0, 0, 0]

theorem payload_sizes_agree_opt : 1232 = udpPayloadSize optQuery ∧
    ∀ (cache : Cache (Lru.list QueryKey Entry)) (response : Bytes),
      udpMessage optQuery (cache.queryMeta optQuery) response = udpMessage optQuery none response :=
  payload_sizes_agree (show parseQueryMeta optQuery = some ⟨⟨[0], 1, 1, false, true, 0⟩, 1232⟩ by decide +kernel)

/-- The cache after the answer to a first client. -/
def answeredFirst : Cache (Lru.list QueryKey Entry) :=
  (Cache.new _ true 4).insert 0 rootMeta (setId (rootResponse [0]) (1, 2))

/-- What a second client gets 1.5 s later. -/
def hitSecond : Bool × Bytes × Cache (Lru.list QueryKey Entry) :=
  answeredFirst.getInto 1500000000 rootMeta (3, 4) []

/-- The first client is answered by an upstream, the second out of the cache. -/
theorem hitSecond_run : Run (proxySystem (Lru.list QueryKey Entry)) [(0, .asked raceQuery false),
    (0, .returned 0 ⟨raceQuery, false, some rootMeta⟩ (some ⟨rootResponse [0], setId (rootResponse [0]) (1, 2)⟩)
      (setId (rootResponse [0]) (1, 2))), (1500000000, .answered (rootQuery (3, 4)) false hitSecond.2.1)]
    ⟨1500000000, hitSecond.2.2, []⟩ := by
  have hfirst : (Cache.new (Lru.list QueryKey Entry) true 4).queryMeta raceQuery = some rootMeta := by decide
  have hsecond : answeredFirst.queryMeta (rootQuery (3, 4)) = some rootMeta := by decide
  have h0 : Run (proxySystem (Lru.list QueryKey Entry)) [] ⟨0, Cache.new _ true 4, []⟩ := .start ⟨⟨true, 4, rfl⟩, rfl⟩
  have s1 : (proxySystem (Lru.list QueryKey Entry)).step ⟨0, Cache.new _ true 4, []⟩ (0, .asked raceQuery false)
      ⟨0, Cache.new _ true 4, [⟨raceQuery, false, some rootMeta⟩]⟩ := by
    refine ⟨Nat.le_refl 0, rfl, ⟨[], ⟨⟨by decide, by decide⟩, [], fun _ => rfl, ?_⟩⟩, ?_⟩
    · show localResponse _ _ _ ((Cache.new (Lru.list QueryKey Entry) true 4).queryMeta raceQuery) _ = _
      rw [hfirst]
      rfl
    · show _ = [] ++ [Task.mk raceQuery false ((Cache.new (Lru.list QueryKey Entry) true 4).queryMeta raceQuery)]
      rw [hfirst]
      rfl
  have s2 : (proxySystem (Lru.list QueryKey Entry)).step ⟨0, Cache.new _ true 4, [⟨raceQuery, false, some rootMeta⟩]⟩
      (0, .returned 0 ⟨raceQuery, false, some rootMeta⟩ (some ⟨rootResponse [0], setId (rootResponse [0]) (1, 2)⟩)
        (setId (rootResponse [0]) (1, 2))) ⟨0, answeredFirst, []⟩ :=
    ⟨Nat.le_refl 0, rfl, rfl, ⟨doqOnly, doqOnly_forwards (by decide) (by decide)⟩, ⟨_, rfl, by decide⟩, rfl⟩
  have s3 : (proxySystem (Lru.list QueryKey Entry)).step ⟨0, answeredFirst, []⟩
      (1500000000, .answered (rootQuery (3, 4)) false hitSecond.2.1) ⟨1500000000, hitSecond.2.2, []⟩ := by
    refine ⟨Nat.zero_le _, rfl, ⟨hitSecond.2.1, ⟨⟨by decide, by decide⟩, [], fun _ => rfl, ?_⟩, ?_⟩, rfl⟩
    · show localResponse _ _ _ (answeredFirst.queryMeta (rootQuery (3, 4))) _ = _
      have hhit : hitSecond.1 = true := by decide
      have hid : ident (rootQuery (3, 4)) = (3, 4) := rfl
      unfold localResponse
      rw [hsecond, if_neg (by decide), hid, ← hhit, Prod.mk.eta]
      rfl
    · show _ = sentMessage _ _ (answeredFirst.queryMeta (rootQuery (3, 4))) _
      rw [hsecond]
      decide
  exact ((h0.snoc s1).snoc s2).snoc s3

theorem responses_identified_hit : headerLen ≤ hitSecond.2.1.length ∧ ident hitSecond.2.1 = ident (rootQuery (3, 4)) ∧
    byteAt hitSecond.2.1 2 &&& 0x80 ≠ 0 ∧ byteAt hitSecond.2.1 2 &&& 0x78 = byteAt (rootQuery (3, 4)) 2 &&& 0x78 ∧
    (false = false → hitSecond.2.1.length ≤ advertised (rootQuery (3, 4))) :=
  responses_identified hitSecond_run (List.mem_append_right [_, _] (List.mem_singleton_self _)) rfl

end DNSRivet.Proxy
