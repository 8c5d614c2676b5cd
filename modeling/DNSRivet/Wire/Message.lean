/-
`wire.rs`, messages: the fields of a DNS message the cache and the validation read. Counts and
offsets are naturals: every offset the code adds to stays within a few bytes of the message
length, so its checked additions never fail (`Wire.Faultless`). An in-place edit returns the
edited message.
-/
import DNSRivet.Wire.Name

namespace DNSRivet.Wire

open DNSRivet.Base

def typeCname : Nat := 5
def typeSoa : Nat := 6
def typeOpt : Nat := 41

/-- `message[i]`; every use stands behind a check of the message length. -/
def byteAt (message : Bytes) (i : Nat) : UInt8 := message.getD i 0

/-! ## Resource records -/

@[ext] structure ResourceRecord where
  kind : Nat
  «class» : Nat
  ttl : Nat
  ttlOffset : Nat
  rdataOffset : Nat
  rdlen : Nat
  «end» : Nat
deriving DecidableEq, Repr

def parseRr (message : Bytes) (offset : Nat) : Option ResourceRecord := do
  let offset ← skipName message offset
  let kind ← readU16 message offset
  let cls ← readU16 message (offset + 2)
  let ttlOffset := offset + 4
  let ttl ← readU32 message ttlOffset
  let rdlen ← readU16 message (offset + 8)
  let rdataOffset := offset + 10
  let stop := rdataOffset + rdlen
  if stop ≤ message.length then
    some { kind, «class» := cls, ttl, ttlOffset, rdataOffset, rdlen, «end» := stop }
  else none

/-- The loop of `questions_end`. -/
def questionsLoop (message : Bytes) : Nat → Nat → Option Nat
  | 0, offset => some offset
  | n + 1, offset => do
    let stop ← skipName message offset
    if message.length < stop + 4 then none else questionsLoop message n (stop + 4)

def questionsEnd (message : Bytes) : Option Nat := do
  questionsLoop message (← readU16 message 4) headerLen

def totalRrCount (message : Bytes) : Option Nat := do
  some ((← readU16 message 6) + (← readU16 message 8) + (← readU16 message 10))

def soaMinimum (message : Bytes) (rr : ResourceRecord) : Option Nat := do
  let rdataEnd := rr.rdataOffset + rr.rdlen
  let offset ← skipName message rr.rdataOffset
  if rdataEnd < offset then none
  else
    let offset ← skipName message offset
    -- SERIAL, REFRESH, RETRY, EXPIRE, MINIMUM
    if rdataEnd < offset + 20 then none else readU32 message (offset + 16)

/-! ## Cache metadata of a query -/

structure QueryKey where
  qname : Bytes
  qtype : Nat
  qclass : Nat
  doBit : Bool
  edns : Bool
  dnssecHeaderBits : UInt8
deriving DecidableEq, Repr

structure QueryMeta where
  key : QueryKey
  udpSize : Nat
deriving DecidableEq, Repr

/-- `clamp(512, 4096)`. -/
def clampUdp (size : Nat) : Nat := max 512 (min size 4096)

/-- Step over `n` records. -/
def skipRecords (message : Bytes) : Nat → Nat → Option Nat
  | 0, offset => some offset
  | n + 1, offset => do
    let rr ← parseRr message offset
    skipRecords message n rr.end

/-- What the additional-section loop of `parse_query_meta` carries. -/
structure OptScan where
  offset : Nat
  udpSize : Nat
  doBit : Bool
  sawOpt : Bool
deriving DecidableEq, Repr

/-- The additional-section loop of `parse_query_meta`: one option-less version-0 OPT at most. -/
def scanOpt (message : Bytes) : Nat → OptScan → Option OptScan
  | 0, s => some s
  | n + 1, s => do
    let rr ← parseRr message s.offset
    if rr.kind ≠ typeOpt ∨ s.sawOpt = true then none
    else if rr.rdlen ≠ 0 then none
    else if (← message[rr.ttlOffset + 1]?) ≠ 0 then none
    else
      let flags ← readU32 message rr.ttlOffset
      scanOpt message n
        { offset := rr.end, udpSize := clampUdp rr.class, doBit := flags &&& 0x8000 ≠ 0, sawOpt := true }

/-- Cache metadata for a conventional recursive, single-question query. -/
def parseQueryMeta (message : Bytes) : Option QueryMeta := do
  if message.length < headerLen then none
  else
    let flags ← readU16 message 2
    if flags &&& 0x8000 ≠ 0 ∨ flags &&& 0x7800 ≠ 0 ∨ flags &&& 0x0100 = 0 then none
    else if (← readU16 message 4) ≠ 1 then none
    else
      let (qname, offset) ← readName message headerLen
      let qtype ← readU16 message offset
      let qclass ← readU16 message (offset + 2)
      let answerCount ← readU16 message 6
      let authorityCount ← readU16 message 8
      let offset ← skipRecords message (answerCount + authorityCount) (offset + 4)
      let s ← scanOpt message (← readU16 message 10) { offset, udpSize := 512, doBit := false, sawOpt := false }
      if s.offset ≠ message.length then none
      else
        some {
          key := {
            qname, qtype, qclass, doBit := s.doBit, edns := s.sawOpt
            dnssecHeaderBits := byteAt message 3 &&& 0x30 }
          udpSize := s.udpSize }

/-! ## TTL aging -/

/-- The record loop of `adjust_ttls`: the verdict and the message as edited so far. -/
def adjustLoop (elapsed : Nat) : Nat → Bytes → Nat → Bool × Bytes
  | 0, message, offset => (offset == message.length, message)
  | n + 1, message, offset =>
    match parseRr message offset with
    | none => (false, message)
    | some rr =>
      -- OPT's TTL-shaped field contains EDNS flags
      let message :=
        if rr.kind ≠ typeOpt then patch message rr.ttlOffset (toBe32 (rr.ttl - elapsed)) else message
      adjustLoop elapsed n message rr.end

/-- Decrease every resource-record TTL by the number of whole seconds elapsed. -/
def adjustTtls (message : Bytes) (elapsedSecs : Nat) : Bool × Bytes :=
  if message.length < headerLen then (false, message)
  else
    match questionsEnd message with
    | none => (false, message)
    | some offset =>
      match totalRrCount message with
      | none => (false, message)
      | some count => adjustLoop (min elapsedSecs 4294967295) count message offset

/-! ## Cacheability -/

/-- What the record loop of `cache_ttl` carries. -/
structure TtlScan where
  offset : Nat
  positiveMin : Option Nat
  soaMin : Option Nat
  hasRequestedAnswer : Bool
  hasCname : Bool
deriving DecidableEq, Repr

/-- `min` with an optional running minimum. -/
def minWith (acc : Option Nat) (ttl : Nat) : Option Nat := some (acc.elim ttl (min · ttl))

/-- The record loop of `cache_ttl` over the records `index, …` of which `n` remain. -/
def scanTtls (message : Bytes) (queryType answers authorities : Nat) : Nat → Nat → TtlScan → Option TtlScan
  | 0, _, s => some s
  | n + 1, index, s => do
    let rr ← parseRr message s.offset
    let inAnswer := index < answers
    let inAuthority := answers ≤ index ∧ index < answers + authorities
    let positiveMin := if inAnswer ∨ inAuthority then minWith s.positiveMin rr.ttl else s.positiveMin
    let hasRequestedAnswer := s.hasRequestedAnswer || (decide inAnswer && rr.kind == queryType)
    let hasCname := s.hasCname || (decide inAnswer && rr.kind == typeCname)
    let soaMin ← (if inAuthority ∧ rr.kind = typeSoa then
        (soaMinimum message rr).map fun minimum => minWith s.soaMin (min rr.ttl minimum)
      else some s.soaMin)
    scanTtls message queryType answers authorities n (index + 1)
      { offset := rr.end, positiveMin, soaMin, hasRequestedAnswer, hasCname }

/-- A positive TTL, capped. -/
def capTtl (ttl cap : Nat) : Option Nat := if 0 < ttl then some (min ttl cap) else none

/-- How long a successful response is safe to cache. -/
def cacheTtl (message : Bytes) (queryType : Nat) : Option Nat := do
  if message.length < headerLen ∨ byteAt message 2 &&& 0x80 = 0 ∨ byteAt message 2 &&& 0x02 ≠ 0 then none
  else
    let rcode := byteAt message 3 &&& 0x0f
    if ¬ (rcode = 0 ∨ rcode = 3) then none
    else
      let answers ← readU16 message 6
      let authorities ← readU16 message 8
      let additionals ← readU16 message 10
      let offset ← questionsEnd message
      let s ← scanTtls message queryType answers authorities (answers + authorities + additionals) 0
        { offset, positiveMin := none, soaMin := none, hasRequestedAnswer := false, hasCname := false }
      if s.offset ≠ message.length then none
      else if rcode = 3 ∨ (rcode = 0 ∧ s.soaMin.isSome ∧ s.hasRequestedAnswer = false) then
        let ttl ← s.soaMin
        if s.hasCname then capTtl (min ttl (← s.positiveMin)) 600 else capTtl ttl 600
      else capTtl (← s.positiveMin) 86400

/-! ## Truncation -/

/-- Truncate an oversized response to its header and question section and set TC. -/
def truncateTo (message : Bytes) (limit : Nat) : Bytes :=
  if message.length ≤ limit ∨ message.length < headerLen then message
  else
    let message := patch message 2 [byteAt message 2 ||| 0x02]
    let message := patch message 6 [0, 0, 0, 0, 0, 0]
    match questionsEnd message with
    | some stop => if stop ≤ limit then message.take stop else (patch message 4 [0, 0]).take headerLen
    | none => (patch message 4 [0, 0]).take headerLen

/-! ## Response validation -/

/-- Why an upstream response was rejected as an answer to a given query. -/
inductive ValidationError
  | tooShort
  | notAResponse
  | opcodeMismatch
  | qdCountMismatch
  | questionMismatch
deriving DecidableEq, Repr

def ValidationError.display : ValidationError → String
  | tooShort => "response shorter than a DNS header"
  | notAResponse => "QR flag not set"
  | opcodeMismatch => "opcode differs from the query"
  | qdCountMismatch => "QDCOUNT differs from the query"
  | questionMismatch => "question differs from the query"

/-- The response-side visitor of `questions_match`: the bytes compared so far and the verdict. -/
def echoVisit (name : Bytes) (s : Nat × Bool) (label : Bytes) : Nat × Bool :=
  (s.1 + label.length,
    s.2 && (slice name s.1 (s.1 + label.length)).any fun sent => lowerAll sent == lowerAll label)

/-- Compare expanded QNAME/QTYPE/QCLASS. -/
def questionsMatch (query response : Bytes) : Option Bool := do
  let (name, queryEnd) ← walkName query headerLen (fun name label => name ++ label) []
  let sentFields ← slice query queryEnd (queryEnd + 4)
  let ((echoedLen, isMatch), responseEnd) ← walkName response headerLen (echoVisit name) (0, true)
  let echoedFields ← slice response responseEnd (responseEnd + 4)
  some (isMatch && name.length == echoedLen && sentFields == echoedFields)

/-- RFC 5452 §4.2: accept a response only when it matches the outstanding query. -/
def validateResponse (query response : Bytes) : Except ValidationError Unit :=
  if query.length < headerLen ∨ response.length < headerLen then .error .tooShort
  else if byteAt response 2 &&& 0x80 = 0 then .error .notAResponse
  else if (byteAt query 2 ^^^ byteAt response 2) &&& 0x78 ≠ 0 then .error .opcodeMismatch
  else
    match readU16 query 4, readU16 response 4 with
    | some qdQuery, some qdResponse =>
      if qdResponse ≠ qdQuery then .error .qdCountMismatch
      else if qdQuery ≠ 1 then .ok ()
      else if questionsMatch query response = some true then .ok ()
      else .error .questionMismatch
    | _, _ => .error .tooShort

/-- A client QUERY carrying more than one question. -/
def isMultiQuestionQuery (message : Bytes) : Bool :=
  headerLen ≤ message.length && byteAt message 2 &&& 0x80 == 0 && byteAt message 2 &&& 0x78 == 0 &&
    (readU16 message 4).any (1 < ·)

def udpPayloadLoop (message : Bytes) : Nat → Nat → Nat
  | 0, _ => 512
  | n + 1, offset =>
    match parseRr message offset with
    | none => 512
    | some rr => if rr.kind = typeOpt then clampUdp rr.class else udpPayloadLoop message n rr.end

/-- The payload size the client advertised, also for queries that bypass the cache. -/
def udpPayloadSize (message : Bytes) : Nat :=
  match questionsEnd message, readU16 message 6, readU16 message 8 with
  | some offset, some answerCount, some authorityCount =>
    match skipRecords message (answerCount + authorityCount) offset, readU16 message 10 with
    | some offset, some additionalCount => udpPayloadLoop message additionalCount offset
    | _, _ => 512
  | _, _, _ => 512

end DNSRivet.Wire
