/-
`parse_upstream`: one `[upstream.N]` section, from the fields as the file has them to the upstream the program
dials. Warnings are passed along and only ever added to. A text is a list of characters while it is being split.
-/
import DNSRivet.Config.Endpoint
import DNSRivet.OsDns.Backup
import DNSRivet.Upstream.Bootstrap

namespace DNSRivet.Config

open DNSRivet.Base DNSRivet.Net
open DNSRivet.OsDns (quoted)
open DNSRivet.Upstream (IpStack)
open DNSRivet.Upstream.Bootstrap (lowercase)

/-! ## Sections -/

structure RawUpstream where
  name : String
  /-- The field `type`. -/
  kind : String
  endpoint : String
  bootstrapIp : String
  /-- `none` (omitted) is `defaultTimeoutMs`; an explicit 0 is no timeout at all. -/
  timeout : Option UInt64
  ipStack : String
deriving DecidableEq, Repr

/-- Applied when an upstream omits `timeout`. -/
def defaultTimeoutMs : UInt64 := 5000

inductive Proto
  | doh
  | doh3
  | dot
  | doq
  | legacy
deriving DecidableEq, Repr

def Proto.asStr : Proto → String
  | doh => "doh"
  | doh3 => "doh3"
  | dot => "dot"
  | doq => "doq"
  | legacy => "legacy"

def Proto.defaultPort : Proto → Nat
  | doh | doh3 => 443
  | dot | doq => 853
  | legacy => 53

structure Upstream where
  name : String
  proto : Proto
  /-- Hostname or IP literal: TLS server name and connect target. -/
  host : String
  port : Nat
  /-- URL path and query for doh and doh3; empty otherwise. -/
  path : String
  /-- Filled from `bootstrap_ip` or an IP-literal host. -/
  bootstrapIp : Option IpAddr
  timeoutMs : UInt64
  ipStack : IpStack
deriving DecidableEq, Repr

/-! ## The steps of the parser -/

/-- The protocol of the field `type`. -/
def explicitProto (ctx kind : String) : Except String (Option Proto) :=
  match lowercase kind with
  | "" => .ok none
  | "doh" => .ok (some .doh)
  | "doh3" => .ok (some .doh3)
  | "dot" => .ok (some .dot)
  | "doq" => .ok (some .doq)
  | "legacy" => .ok (some .legacy)
  | other => .error (ctx ++ " invalid type " ++ quoted other ++ " (expected doh, doh3, dot, doq or legacy)")

/-- The protocol of the endpoint's scheme. -/
def inferredProto (ctx : String) (scheme : Option String) : Except String (Option Proto) :=
  match scheme with
  | some "https" => .ok (some .doh)
  | some "h3" => .ok (some .doh3)
  | some "quic" => .ok (some .doq)
  | some "tls" => .ok (some .dot)
  | some "dot" => .ok (some .dot)
  | some other => .error (ctx ++ " unsupported endpoint scheme " ++ quoted other ++ "://")
  | none => .ok none

/-- An endpoint that names its address needs no type. -/
def isIpEndpoint (rest : List Char) : Bool :=
  (parseIpAddr (String.ofList rest)).isSome ||
    (splitHostPort rest 53).any fun p => (parseIpAddr (String.ofList p.1)).isSome

def chooseProto (ctx : String) (raw : RawUpstream) (scheme : Option String) (rest : List Char) :
    Option Proto → Option Proto → Except String Proto
  | some t, none => .ok t
  | none, some i => .ok i
  | some t, some i =>
    -- `https://` carries both doh and doh3
    if i = t ∨ i = .doh ∧ t = .doh3 then .ok t
    else .error (ctx ++ " endpoint scheme " ++ scheme.getD "" ++ ":// conflicts with type " ++ quoted raw.kind)
  | none, none =>
    if isIpEndpoint rest then .ok .legacy
    else .error (ctx ++ " type is required for endpoint " ++ quoted raw.endpoint)

/-- `host[:port]` and, for doh and doh3, the URL path. -/
def splitPath (ctx : String) (proto : Proto) (scheme : Option String) (rest : List Char) (warnings : List String) :
    Except String (List Char × String × List String) :=
  if proto = .doh ∨ proto = .doh3 then
    let hostport := rest.takeWhile (· ≠ '/')
    let path := String.ofList (rest.dropWhile (· ≠ '/'))
    if path = "" ∨ path = "/" then
      let warnings := if scheme.isNone then
          warnings ++ [ctx ++ " bare " ++ proto.asStr ++ " endpoint; assuming https://" ++ String.ofList hostport ++
            "/dns-query"]
        else warnings
      .ok (hostport, "/dns-query", warnings)
    else .ok (hostport, path, warnings)
  else if '/' ∈ rest then .error (ctx ++ " " ++ proto.asStr ++ " endpoint must be host[:port], not a URL")
  else .ok (rest, "", warnings)

def parseHost (ctx : String) (hostport : List Char) (defaultPort : Nat) : Except String (List Char × Nat) :=
  match splitHostPort hostport defaultPort with
  | some p => .ok p
  | none => .error (ctx ++ " invalid endpoint host: " ++ quoted (String.ofList hostport))

def parseBootstrapIp (ctx bootstrapIp : String) : Except String (Option IpAddr) :=
  if bootstrapIp = "" then .ok none
  else
    match parseIpAddr bootstrapIp with
    | some ip => .ok (some ip)
    | none => .error (ctx ++ " invalid bootstrap_ip: " ++ quoted bootstrapIp)

def parseIpStack (ctx ipStack : String) (warnings : List String) : Except String (IpStack × List String) :=
  match lowercase ipStack with
  | "" => .ok (.both, warnings)
  | "both" => .ok (.both, warnings)
  | "v4" => .ok (.v4, warnings)
  | "v6" => .ok (.v6, warnings)
  | "split" => .ok (.both, warnings ++ [ctx ++ " ip_stack \"split\" treated as \"both\" in this build"])
  | other => .error (ctx ++ " invalid ip_stack: " ++ quoted other)

def parseUpstream (key : String) (raw : RawUpstream) (warnings : List String) :
    Except String (Upstream × List String) := do
  let ctx := "[upstream." ++ key ++ "]"
  if raw.endpoint = "" then throw (ctx ++ " endpoint is required")
  let explicit ← explicitProto ctx raw.kind
  let scheme := (splitScheme raw.endpoint.toList).1.map String.ofList
  let rest := (splitScheme raw.endpoint.toList).2
  let inferred ← inferredProto ctx scheme
  let proto ← chooseProto ctx raw scheme rest explicit inferred
  let (hostport, path, warnings) ← splitPath ctx proto scheme rest warnings
  let (host, port) ← parseHost ctx hostport proto.defaultPort
  let bootstrapIp ← parseBootstrapIp ctx raw.bootstrapIp
  -- IP-literal hosts are already resolved
  let bootstrapIp := bootstrapIp.or (parseIpAddr (String.ofList host))
  let (ipStack, warnings) ← parseIpStack ctx raw.ipStack warnings
  return ({
    name := if raw.name = "" then "upstream." ++ key else raw.name
    proto := proto
    host := String.ofList host
    port := port
    path := path
    bootstrapIp := bootstrapIp
    timeoutMs := raw.timeout.getD defaultTimeoutMs
    ipStack := ipStack }, warnings)

/-! ## The host -/

/-- What an endpoint has between its scheme and its path. -/
def hostportOf (endpoint : String) : List Char := (splitScheme endpoint.toList).2.takeWhile (· ≠ '/')

theorem bind_eq_ok {ε α β : Type} {x : Except ε α} {f : α → Except ε β} {b : β} :
    x >>= f = .ok b ↔ ∃ a, x = .ok a ∧ f a = .ok b := by
  cases x with
  | error err => simp [bind, Except.bind]
  | ok a => simp [bind, Except.bind]

theorem splitPath_hostport {ctx : String} {proto : Proto} {scheme : Option String} {rest hostport : List Char}
    {warnings warnings' : List String} {path : String}
    (h : splitPath ctx proto scheme rest warnings = .ok (hostport, path, warnings')) :
    hostport = rest.takeWhile (· ≠ '/') := by
  unfold splitPath at h
  dsimp only at h
  split_ifs at h with hdoh hpath hscheme hslash
  · cases h; rfl
  · cases h; rfl
  · cases h; rfl
  · cases h
    symm
    rw [List.takeWhile_eq_self_iff]
    intro c hc
    simpa using fun he : c = '/' => hslash (he ▸ hc)

/-- The host, the port and the timeout of an upstream are those of its section. -/
theorem parseUpstream_ok {key : String} {raw : RawUpstream} {warnings warnings' : List String} {upstream : Upstream}
    (h : parseUpstream key raw warnings = .ok (upstream, warnings')) :
    splitHostPort (hostportOf raw.endpoint) upstream.proto.defaultPort = some (upstream.host.toList, upstream.port) ∧
      upstream.timeoutMs = raw.timeout.getD defaultTimeoutMs := by
  unfold parseUpstream at h
  dsimp only at h
  by_cases hempty : raw.endpoint = ""
  · rw [if_pos hempty] at h
    cases h
  · rw [if_neg hempty] at h
    simp only [bind_eq_ok, Prod.exists] at h
    obtain ⟨explicit, -, inferred, -, proto, -, hostport, path, warnings₁, hpath, host, port, hhost, bootstrapIp, -,
      ipStack, warnings₂, -, hok⟩ := h
    cases hok
    refine ⟨?_, rfl⟩
    rw [hostportOf, ← splitPath_hostport hpath, String.toList_ofList]
    unfold parseHost at hhost
    split at hhost
    · rename_i p hsplit
      cases hhost
      exact hsplit
    · cases hhost

/-! ## Warnings -/

theorem splitPath_any {ctx path : String} {proto : Proto} {scheme : Option String} {rest hostport : List Char}
    {warnings warnings' : List String} (h : splitPath ctx proto scheme rest warnings = .ok (hostport, path, warnings'))
    (before : List String) : ∃ after, splitPath ctx proto scheme rest before = .ok (hostport, path, after) := by
  unfold splitPath at h ⊢
  dsimp only at h ⊢
  split_ifs at h ⊢
  all_goals cases h
  all_goals exact ⟨_, rfl⟩

theorem parseIpStack_any {ctx ipStack : String} {stack : IpStack} {warnings warnings' : List String}
    (h : parseIpStack ctx ipStack warnings = .ok (stack, warnings')) (before : List String) :
    ∃ after, parseIpStack ctx ipStack before = .ok (stack, after) := by
  unfold parseIpStack at h ⊢
  split at h
  all_goals cases h
  all_goals exact ⟨_, rfl⟩

/-- The upstream of a section does not depend on the warnings before it. -/
theorem parseUpstream_any {key : String} {raw : RawUpstream} {warnings warnings' : List String} {upstream : Upstream}
    (h : parseUpstream key raw warnings = .ok (upstream, warnings')) (before : List String) :
    ∃ after, parseUpstream key raw before = .ok (upstream, after) := by
  unfold parseUpstream at h ⊢
  dsimp only at h ⊢
  by_cases hempty : raw.endpoint = ""
  · rw [if_pos hempty] at h
    cases h
  · rw [if_neg hempty] at h ⊢
    simp only [bind_eq_ok, Prod.exists] at h ⊢
    obtain ⟨explicit, h₁, inferred, h₂, proto, h₃, hostport, path, warnings₁, h₄, host, port, h₅, bootstrapIp, h₆,
      ipStack, warnings₂, h₇, hok⟩ := h
    obtain ⟨after₁, h₄'⟩ := splitPath_any h₄ before
    obtain ⟨after₂, h₇'⟩ := parseIpStack_any h₇ after₁
    cases hok
    exact ⟨after₂, explicit, h₁, inferred, h₂, proto, h₃, hostport, path, after₁, h₄', host, port, h₅, bootstrapIp, h₆,
      ipStack, after₂, h₇', rfl⟩

/-- `split_host_port` takes the documented forms, and takes them for what they say, exactly on the texts that have a
host and an unsigned port; an upstream that is accepted has a host to dial exactly when its endpoint names one. -/
theorem splitHostPort_documented (s : List Char) (defaultPort : Nat) (key : String) (raw : RawUpstream)
    (warnings warnings' : List String) (upstream : Upstream) :
    ((∀ host port, splitHostPort s defaultPort = some (host, port) ↔ Endpoint defaultPort s host port) ↔
      ¬Hostless IsIpv6 s ∧ ¬Signed s) ∧
    (parseUpstream key raw warnings = .ok (upstream, warnings') →
      (Usable upstream.host.toList ↔ ¬Hostless Usable (hostportOf raw.endpoint))) := by
  refine ⟨splitHostPort_grammar, fun h => ?_⟩
  exact (splitHostPort_eq_some_iff.1 (parseUpstream_ok h).1).usable_iff

/-- A section of one endpoint. -/
def dotSection (endpoint : String) : RawUpstream := ⟨"", "dot", endpoint, "", none, ""⟩

theorem splitHostPort_documented_dot : ¬Hostless Usable "dns.example:853".toList :=
  ((splitHostPort_documented "dns.example:853".toList 853 "0" (dotSection "dns.example:853") [] []
    ⟨"upstream.0", .dot, "dns.example", 853, "", none, 5000, .both⟩).2 (by decide +kernel)).1
    (.inl ⟨by decide, by decide, by decide⟩)

/-- An endpoint without a host passes the check, and so does a port with a sign. -/
theorem splitHostPort_emptyHost :
    (splitHostPort ":53".toList 853 = some ([], 53) ∧ ¬Endpoint 853 ":53".toList [] 53) ∧
    (∃ upstream, parseUpstream "0" (dotSection ":53") [] = .ok (upstream, []) ∧ ¬Usable upstream.host.toList) ∧
    splitHostPort "dns.example:+53".toList 853 = some ("dns.example".toList, 53) ∧
      ¬Endpoint 853 "dns.example:+53".toList "dns.example".toList 53 := by
  have hport : IsPort "53".toList 53 := ⟨by decide, List.all_eq_true.1 (by decide), by decide, by decide⟩
  refine ⟨⟨by decide, fun h => not_usable_nil h.usable⟩, ⟨⟨"upstream.0", .dot, "", 53, "", none, 5000, .both⟩,
    by decide +kernel, not_usable_nil⟩, by decide +kernel, fun h => ?_⟩
  exact h.not_signed (@Signed.hostPort "dns.example".toList "53".toList 53 ⟨by decide, by decide, by decide⟩ hport)

end DNSRivet.Config
