/-
`wire.rs` with every panic, overflow and endless loop the code could run into: each index, slice
and copy is checked, each `usize` addition and subtraction is checked, and the loop of `walk_name`
runs on fuel whose exhaustion is a fault. The functions of `Wire.Name` and `Wire.Message` say what
the same code computes when nothing goes wrong.
-/
import DNSRivet.Base.Checked
import DNSRivet.Wire.Records

namespace DNSRivet.Wire.Faults

open DNSRivet.Base Checked Attempt

/-! ## Names -/

def readU16 (message : Bytes) (offset : Nat) : Attempt Nat := do
  let a ← ofOption message[offset]?
  let next ← add offset 1
  let b ← ofOption message[next]?
  return be16 a b

def readU32 (message : Bytes) (offset : Nat) : Attempt Nat := do
  let a ← ofOption message[offset]?
  let second ← add offset 1
  let b ← ofOption message[second]?
  let third ← add offset 2
  let c ← ofOption message[third]?
  let fourth ← add offset 3
  let d ← ofOption message[fourth]?
  return be32 a b c d

/-- The variables of the loop of `walk_name`. -/
structure Walk where
  cursor : Nat
  stop : Option Nat
  jumps : Nat
  nameLen : Nat

/-- How a pass of the loop of `walk_name` ends when it does not reject the name: a jump, a label
for the visitor, or the root label for the visitor and the offset to return. -/
inductive Pass
  | jump (walk : Walk)
  | label (label : Bytes) (walk : Walk)
  | root (label : Bytes) (stop : Nat)

/-- One pass of the loop, up to the call of the visitor. -/
def walkPass (message : Bytes) (walk : Walk) : Attempt Pass := do
  let len ← ofOption message[walk.cursor]?
  if len &&& 0xc0 = 0xc0 then
    let second ← add walk.cursor 1
    let next ← ofOption message[second]?
    let pointer := ((len &&& 0x3f).toNat <<< 8) ||| next.toNat
    if message.length ≤ pointer ∨ 128 ≤ walk.jumps then ofOption none
    else
      let past ← add walk.cursor 2
      let jumps ← add walk.jumps 1
      return .jump { walk with cursor := pointer, stop := some (walk.stop.getD past), jumps }
  else if len &&& 0xc0 ≠ 0 ∨ 63 < len then ofOption none
  else
    let cursor ← add walk.cursor 1
    if len = 0 then
      let first ← sub cursor 1
      let label ← range message first cursor
      return .root label (walk.stop.getD cursor)
    else
      let labelEnd ← checkedAdd cursor len.toNat
      let first ← sub cursor 1
      let label ← ofOption (slice message first labelEnd)
      let labelLen ← add 1 len.toNat
      let nameLen ← add walk.nameLen labelLen
      -- the expanded name must leave one byte for its terminating root label
      if 255 ≤ nameLen then ofOption none
      else return .label label { walk with cursor := labelEnd, nameLen }

variable {σ : Type}

/-- The loop of `walk_name`: the visitor's state, the jumps taken and the offset returned, if any. -/
def walkLoop (message : Bytes) (visit : σ → Bytes → Checked σ) :
    Nat → Walk → σ → Checked (σ × Nat × Option Nat)
  | 0, _, _ => .error .endless
  | fuel + 1, walk, s => do
    match ← (walkPass message walk).run with
    | none => return (s, walk.jumps, none)
    | some (.jump walk) => walkLoop message visit fuel walk s
    | some (.label label walk) =>
      let s ← visit s label
      walkLoop message visit fuel walk s
    | some (.root label stop) =>
      let s ← visit s label
      return (s, walk.jumps, some stop)

/-- Validate the full expanded name, visiting each wire label (length included). -/
def walk (message : Bytes) (start : Nat) (visit : σ → Bytes → Checked σ) (s : σ) : Checked (σ × Nat × Option Nat) :=
  walkLoop message visit walkFuel { cursor := start, stop := none, jumps := 0, nameLen := 0 } s

/-- `walk_name(…)?`, with what its visitor leaves behind. -/
def walkName (message : Bytes) (start : Nat) (visit : σ → Bytes → Checked σ) (s : σ) : Attempt (σ × Nat) := do
  let (s, _, result) ← walk message start visit s
  let stop ← ofOption result
  return (s, stop)

def skipName (message : Bytes) (offset : Nat) : Attempt Nat := do
  let ((), stop) ← walkName message offset (fun _ _ => return ()) ()
  return stop

/-- A 255-byte buffer and the length of the name in it. -/
structure NameBuf where
  name : Bytes
  nameLen : Nat

def NameBuf.new : NameBuf := { name := List.replicate 255 0, nameLen := 0 }

/-- The visitor that appends a label to the buffer. -/
def NameBuf.push (buf : NameBuf) (label : Bytes) : Checked NameBuf := do
  let stop ← add buf.nameLen label.length
  let name ← copyInto buf.name buf.nameLen stop label
  let nameLen ← add buf.nameLen label.length
  return { name, nameLen }

/-- Decode a possibly-compressed name into canonical lowercase wire form. -/
def readName (message : Bytes) (start : Nat) : Attempt (Bytes × Nat) := do
  let (buf, stop) ← walkName message start NameBuf.push .new
  let written ← range buf.name 0 buf.nameLen
  let name ← copyInto buf.name 0 buf.nameLen (lowerAll written)
  let lowered ← range name 0 buf.nameLen
  return (lowered, stop)

/-! ## Records -/

def parseRr (message : Bytes) (offset : Nat) : Attempt ResourceRecord := do
  let offset ← skipName message offset
  let kind ← readU16 message offset
  let clsOffset ← add offset 2
  let cls ← readU16 message clsOffset
  let ttlOffset ← checkedAdd offset 4
  let ttl ← readU32 message ttlOffset
  let rdlenOffset ← add offset 8
  let rdlen ← readU16 message rdlenOffset
  let rdataOffset ← checkedAdd offset 10
  let stop ← checkedAdd rdataOffset rdlen
  if stop ≤ message.length then
    return { kind, «class» := cls, ttl, ttlOffset, rdataOffset, rdlen, «end» := stop }
  else ofOption none

/-- The loop of `questions_end`. -/
def questionsLoop (message : Bytes) : Nat → Nat → Attempt Nat
  | 0, offset => return offset
  | n + 1, offset => do
    let stop ← skipName message offset
    let offset ← checkedAdd stop 4
    if message.length < offset then ofOption none else questionsLoop message n offset

def questionsEnd (message : Bytes) : Attempt Nat := do
  let count ← readU16 message 4
  questionsLoop message count headerLen

def totalRrCount (message : Bytes) : Attempt Nat := do
  let answers ← readU16 message 6
  let authorities ← readU16 message 8
  let both ← add answers authorities
  let additionals ← readU16 message 10
  add both additionals

def soaMinimum (message : Bytes) (rr : ResourceRecord) : Attempt Nat := do
  let rdataEnd ← checkedAdd rr.rdataOffset rr.rdlen
  let offset ← skipName message rr.rdataOffset
  if rdataEnd < offset then ofOption none
  else
    let offset ← skipName message offset
    -- SERIAL, REFRESH, RETRY, EXPIRE, MINIMUM
    let stop ← checkedAdd offset 20
    if rdataEnd < stop then ofOption none
    else
      let minimum ← add offset 16
      readU32 message minimum

/-- Step over `n` records. -/
def skipRecords (message : Bytes) : Nat → Nat → Attempt Nat
  | 0, offset => return offset
  | n + 1, offset => do
    let rr ← parseRr message offset
    skipRecords message n rr.end

/-! ## Cache metadata of a query -/

/-- The additional-section loop of `parse_query_meta`. -/
def scanOpt (message : Bytes) : Nat → OptScan → Attempt OptScan
  | 0, s => return s
  | n + 1, s => do
    let rr ← parseRr message s.offset
    if rr.kind ≠ typeOpt ∨ s.sawOpt = true then ofOption none
    else if rr.rdlen ≠ 0 then ofOption none
    else
      let versionOffset ← add rr.ttlOffset 1
      let version ← ofOption message[versionOffset]?
      if version ≠ 0 then ofOption none
      else
        let flags ← readU32 message rr.ttlOffset
        scanOpt message n
          { offset := rr.end, udpSize := clampUdp rr.class, doBit := flags &&& 0x8000 ≠ 0, sawOpt := true }

def parseQueryMeta (message : Bytes) : Attempt QueryMeta := do
  if message.length < headerLen then ofOption none
  else
    let flags ← readU16 message 2
    if flags &&& 0x8000 ≠ 0 ∨ flags &&& 0x7800 ≠ 0 ∨ flags &&& 0x0100 = 0 then ofOption none
    else
      let questions ← readU16 message 4
      if questions ≠ 1 then ofOption none
      else
        let (qname, offset) ← readName message headerLen
        let qtype ← readU16 message offset
        let qclassOffset ← add offset 2
        let qclass ← readU16 message qclassOffset
        let offset ← add offset 4
        let answerCount ← readU16 message 6
        let authorityCount ← readU16 message 8
        let count ← add answerCount authorityCount
        let offset ← skipRecords message count offset
        let additionalCount ← readU16 message 10
        let s ← scanOpt message additionalCount { offset, udpSize := 512, doBit := false, sawOpt := false }
        if s.offset ≠ message.length then ofOption none
        else
          let bits ← (index message 3 : Checked UInt8)
          return {
            key := { qname, qtype, qclass, doBit := s.doBit, edns := s.sawOpt, dnssecHeaderBits := bits &&& 0x30 }
            udpSize := s.udpSize }

/-- The additional-section loop of `udp_payload_size`. -/
def udpPayloadLoop (message : Bytes) : Nat → Nat → Checked Nat
  | 0, _ => return 512
  | n + 1, offset => do
    match ← (parseRr message offset).run with
    | none => return 512
    | some rr => if rr.kind = typeOpt then return clampUdp rr.class else udpPayloadLoop message n rr.end

def udpPayloadSize (message : Bytes) : Checked Nat := do
  let some offset ← (questionsEnd message).run | return 512
  let some answerCount ← (readU16 message 6).run | return 512
  let some authorityCount ← (readU16 message 8).run | return 512
  let count ← add answerCount authorityCount
  let some offset ← (skipRecords message count offset).run | return 512
  let some additionalCount ← (readU16 message 10).run | return 512
  udpPayloadLoop message additionalCount offset

/-! ## TTL aging -/

/-- The record loop of `adjust_ttls`: the verdict and the message as edited so far. -/
def adjustLoop (elapsed : Nat) : Nat → Bytes → Nat → Checked (Bool × Bytes)
  | 0, message, offset => return (offset == message.length, message)
  | n + 1, message, offset => do
    match ← (parseRr message offset).run with
    | none => return (false, message)
    | some rr =>
      if rr.kind ≠ typeOpt then
        let stop ← add rr.ttlOffset 4
        let message ← copyInto message rr.ttlOffset stop (toBe32 (rr.ttl - elapsed))
        adjustLoop elapsed n message rr.end
      else adjustLoop elapsed n message rr.end

/-- Decrease every resource-record TTL by the number of whole seconds elapsed. -/
def adjustTtls (message : Bytes) (elapsedSecs : Nat) : Checked (Bool × Bytes) := do
  if message.length < headerLen then return (false, message)
  else
    let some offset ← (questionsEnd message).run | return (false, message)
    let some count ← (totalRrCount message).run | return (false, message)
    adjustLoop (min elapsedSecs 4294967295) count message offset

/-! ## Cacheability -/

/-- The record loop of `cache_ttl` over the records `index, …` of which `n` remain. -/
def scanTtls (message : Bytes) (queryType answers authorities : Nat) : Nat → Nat → TtlScan → Attempt TtlScan
  | 0, _, s => return s
  | n + 1, index, s => do
    let rr ← parseRr message s.offset
    let inAnswer := index < answers
    let authoritiesEnd ← (if answers ≤ index then add answers authorities else return index)
    let inAuthority := answers ≤ index ∧ index < authoritiesEnd
    let positiveMin := if inAnswer ∨ inAuthority then minWith s.positiveMin rr.ttl else s.positiveMin
    let hasRequestedAnswer := s.hasRequestedAnswer || (decide inAnswer && rr.kind == queryType)
    let hasCname := s.hasCname || (decide inAnswer && rr.kind == typeCname)
    if inAuthority ∧ rr.kind = typeSoa then
      let minimum ← soaMinimum message rr
      let soaMin := minWith s.soaMin (min rr.ttl minimum)
      scanTtls message queryType answers authorities n (index + 1)
        { offset := rr.end, positiveMin, soaMin, hasRequestedAnswer, hasCname }
    else
      scanTtls message queryType answers authorities n (index + 1)
        { offset := rr.end, positiveMin, soaMin := s.soaMin, hasRequestedAnswer, hasCname }

/-- How long a successful response is safe to cache. -/
def cacheTtl (message : Bytes) (queryType : Nat) : Attempt Nat := do
  if message.length < headerLen then ofOption none
  else
    let high ← (index message 2 : Checked UInt8)
    if high &&& 0x80 = 0 then ofOption none
    else
      let high ← (index message 2 : Checked UInt8)
      if high &&& 0x02 ≠ 0 then ofOption none
      else
        let low ← (index message 3 : Checked UInt8)
        let rcode := low &&& 0x0f
        if ¬ (rcode = 0 ∨ rcode = 3) then ofOption none
        else
          let answers ← readU16 message 6
          let authorities ← readU16 message 8
          let additionals ← readU16 message 10
          let offset ← questionsEnd message
          let both ← add answers authorities
          let count ← add both additionals
          let s ← scanTtls message queryType answers authorities count 0
            { offset, positiveMin := none, soaMin := none, hasRequestedAnswer := false, hasCname := false }
          if s.offset ≠ message.length then ofOption none
          else if rcode = 3 ∨ (rcode = 0 ∧ s.soaMin.isSome ∧ s.hasRequestedAnswer = false) then
            let ttl ← ofOption s.soaMin
            if s.hasCname then
              let positive ← ofOption s.positiveMin
              ofOption (capTtl (min ttl positive) 600)
            else ofOption (capTtl ttl 600)
          else
            let ttl ← ofOption s.positiveMin
            ofOption (capTtl ttl 86400)

/-! ## Truncation -/

/-- Truncate an oversized response to its header and question section and set TC. -/
def truncateTo (message : Bytes) (limit : Nat) : Checked Bytes := do
  if message.length ≤ limit ∨ message.length < headerLen then return message
  else
    let high ← index message 2
    let message ← store message 2 (high ||| 0x02)
    let message ← fill message 6 12 0
    match ← (questionsEnd message).run with
    | some stop =>
      if stop ≤ limit then return message.take stop
      else
        let message ← fill message 4 6 0
        return message.take headerLen
    | none =>
      let message ← fill message 4 6 0
      return message.take headerLen

/-! ## Response validation -/

/-- The response-side visitor of `questions_match`. -/
def echoVisit (buf : NameBuf) (s : Nat × Bool) (label : Bytes) : Checked (Nat × Bool) := do
  let name ← range buf.name 0 buf.nameLen
  let stop ← add s.1 label.length
  let isMatch := s.2 && (slice name s.1 stop).any fun sent => lowerAll sent == lowerAll label
  let echoedLen ← add s.1 label.length
  return (echoedLen, isMatch)

/-- Compare expanded QNAME/QTYPE/QCLASS without allocating canonical names. -/
def questionsMatch (query response : Bytes) : Attempt Bool := do
  let (buf, queryEnd) ← walkName query headerLen NameBuf.push .new
  let sentEnd ← add queryEnd 4
  let sentFields ← ofOption (slice query queryEnd sentEnd)
  let ((echoedLen, isMatch), responseEnd) ← walkName response headerLen (echoVisit buf) (0, true)
  let echoedEnd ← add responseEnd 4
  let echoedFields ← ofOption (slice response responseEnd echoedEnd)
  return isMatch && buf.nameLen == echoedLen && sentFields == echoedFields

/-- RFC 5452 §4.2: accept a response only when it matches the outstanding query. -/
def validateResponse (query response : Bytes) : Checked (Except ValidationError Unit) := do
  if query.length < headerLen ∨ response.length < headerLen then return .error .tooShort
  else
    let high ← index response 2
    if high &&& 0x80 = 0 then return .error .notAResponse
    else
      let sent ← index query 2
      let high ← index response 2
      if (sent ^^^ high) &&& 0x78 ≠ 0 then return .error .opcodeMismatch
      else
        let some qdQuery ← (readU16 query 4).run | return .error .tooShort
        let some qdResponse ← (readU16 response 4).run | return .error .tooShort
        if qdResponse ≠ qdQuery then return .error .qdCountMismatch
        else if qdQuery ≠ 1 then return .ok ()
        else
          match ← (questionsMatch query response).run with
          | some true => return .ok ()
          | _ => return .error .questionMismatch

end DNSRivet.Wire.Faults
