/-
`proxy/cache.rs`: the response cache, over any LRU map, and its runs. Instants are nanoseconds on
the monotonic clock; the operations take the reading `now` they make under the lock. A run is a
sequence of inserts and gets at non-decreasing times, each get with the buffer it was handed and
what it left there.
-/
import DNSRivet.Base.Lru
import DNSRivet.Base.System
import DNSRivet.Wire.Records

namespace DNSRivet.Proxy

open DNSRivet.Base DNSRivet.Wire

def nanosPerSec : Nat := 1000000000

structure Entry where
  response : Bytes
  /-- TTLs in `response` and `ttl` are relative to this whole-second boundary. -/
  agedAt : Nat
  ttl : Nat
deriving DecidableEq, Repr

structure Cache (L : Lru QueryKey Entry) where
  entries : Option L.Carrier

namespace Cache

variable {L : Lru QueryKey Entry}

def new (L : Lru QueryKey Entry) (enabled : Bool) (capacity : Nat) : Cache L :=
  ⟨if enabled then some (L.new (max capacity 1)) else none⟩

def queryMeta (cache : Cache L) (query : Bytes) : Option QueryMeta := do
  let _ ← cache.entries
  parseQueryMeta query

/-- Whether it is a hit, the caller's buffer afterwards (unchanged by a miss), and the cache. -/
def getInto (cache : Cache L) (now : Nat) (qmeta : QueryMeta) (requestId : UInt8 × UInt8) (response : Bytes) :
    Bool × Bytes × Cache L :=
  match cache.entries with
  | none => (false, response, cache)
  | some entries =>
    match L.getMut entries qmeta.key with
    | none => (false, response, cache)
    | some (entry, write) =>
      let elapsed := (now - entry.agedAt) / nanosPerSec
      if entry.ttl ≤ elapsed then (false, response, ⟨some (L.pop entries qmeta.key)⟩)
      else if 0 < elapsed then
        -- the stored copy is edited in place, also by a call that fails
        let (ok, aged) := adjustTtls entry.response elapsed
        if ok then
          (true, setId aged requestId,
            ⟨some (write ⟨aged, entry.agedAt + elapsed * nanosPerSec, entry.ttl - elapsed⟩)⟩)
        else (false, response, ⟨some (L.pop (write { entry with response := aged }) qmeta.key)⟩)
      else (true, setId entry.response requestId, ⟨some (write entry)⟩)

def insert (cache : Cache L) (now : Nat) (qmeta : QueryMeta) (response : Bytes) : Cache L :=
  match cache.entries with
  | none => cache
  | some entries =>
    match cacheTtl response qmeta.key.qtype with
    | none => cache
    | some ttl => ⟨some (L.put entries qmeta.key ⟨setId response (0, 0), now, ttl⟩)⟩

end Cache

/-! ## Runs -/

/-- One use of the cache. -/
inductive CacheEvent
  | insert (qmeta : QueryMeta) (response : Bytes)
  /-- A get with the buffer it was handed, its verdict and the buffer it left. -/
  | get (qmeta : QueryMeta) (requestId : UInt8 × UInt8) (buffer : Bytes) (hit : Bool) (out : Bytes)

/-- The cache and the time of its last use. -/
structure CacheState (L : Lru QueryKey Entry) where
  clock : Nat
  cache : Cache L

/-- The uses of a cache at non-decreasing times, each event with its time. -/
def cacheSystem (L : Lru QueryKey Entry) : System (CacheState L) (Nat × CacheEvent) where
  init := fun s => ∃ enabled capacity, s.cache = Cache.new L enabled capacity
  step := fun s e s' => s.clock ≤ e.1 ∧ s'.clock = e.1 ∧
    match e.2 with
    | .insert qmeta response => s'.cache = s.cache.insert e.1 qmeta response
    | .get qmeta id buffer hit out => s.cache.getInto e.1 qmeta id buffer = (hit, out, s'.cache)

/-- A response the cache took in: when, for which query, its bytes and its cache TTL. -/
structure Stored where
  time : Nat
  qmeta : QueryMeta
  response : Bytes
  ttl : Nat
deriving DecidableEq, Repr

/-- What one event makes of the last response taken in under `key`. -/
def stores (key : QueryKey) (last : Option Stored) (e : Nat × CacheEvent) : Option Stored :=
  match e.2 with
  | .insert qmeta response =>
    if qmeta.key = key then
      match cacheTtl response key.qtype with
      | some ttl => some ⟨e.1, qmeta, response, ttl⟩
      | none => last
    else last
  | .get .. => last

/-- The response most recently taken in under `key`. -/
def lastStored (es : List (Nat × CacheEvent)) (key : QueryKey) : Option Stored := es.foldl (stores key) none

theorem lastStored_snoc (es : List (Nat × CacheEvent)) (e : Nat × CacheEvent) (key : QueryKey) :
    lastStored (es ++ [e]) key = stores key (lastStored es key) e := by
  simp only [lastStored, List.foldl_append, List.foldl_cons, List.foldl_nil]

/-- What was last taken in under a key is an insert of the run, under that key and cacheable. -/
theorem lastStored_mem {es : List (Nat × CacheEvent)} {key : QueryKey} {st : Stored} (h : lastStored es key = some st) :
    (st.time, CacheEvent.insert st.qmeta st.response) ∈ es ∧ st.qmeta.key = key ∧
      cacheTtl st.response key.qtype = some st.ttl := by
  induction es using List.reverseRecOn with
  | nil => cases h
  | append_singleton es e ih =>
    rw [lastStored_snoc] at h
    obtain ⟨t, ev⟩ := e
    have hold : lastStored es key = some st → _ := fun h0 =>
      (⟨List.mem_append_left _ (ih h0).1, (ih h0).2⟩ :
        (st.time, CacheEvent.insert st.qmeta st.response) ∈ es ++ [(t, ev)] ∧ st.qmeta.key = key ∧
          cacheTtl st.response key.qtype = some st.ttl)
    cases ev with
    | get => exact hold h
    | insert qmeta response =>
      simp only [stores] at h
      split at h
      · rename_i hk
        split at h
        · rename_i ttl ht
          cases h
          exact ⟨List.mem_append_right _ (List.mem_singleton_self _), hk, ht⟩
        · exact hold h
      · exact hold h

end DNSRivet.Proxy
