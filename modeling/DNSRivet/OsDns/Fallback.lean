/-
The system fallback list: the resolvers that were in use before the takeover, kept for the moment
all upstreams are down. It is filtered once at start-up against the listeners
(`fallback_servers`) and replaced by every watchdog capture, filtered against the takeover address
(`capture_runtime_fallback`); `forward_to_system` then dials it without the self-dial check that
every other path makes. `fallback_avoids_self` says exactly when that is safe.
-/
import DNSRivet.Net.Addr

namespace DNSRivet.OsDns

open DNSRivet.Net

/-! ## The filters -/

/-- Keep the first of equal addresses that pass: `retain` with a `seen` set. -/
def retainNew (keep : SocketAddr → Bool) : List SocketAddr → List SocketAddr → List SocketAddr
  | _, [] => []
  | seen, a :: rest =>
    if keep a && !seen.contains a then a :: retainNew keep (a :: seen) rest else retainNew keep seen rest

def filterFallbackServers (servers : List SocketAddr) (denied : List IpAddr) : List SocketAddr :=
  retainNew (fun address => !address.ip.isLoopback && !address.ip.isUnspecified && !address.ip.isMulticast &&
    !denied.contains address.ip) [] servers

def usableRuntimeFallback (current : List SocketAddr) (server : IpAddr) : Except String (List SocketAddr) :=
  let usable := filterFallbackServers current [server]
  if usable.isEmpty then
    .error "macOS exposed no non-loopback global DNS server while the takeover was active"
  else .ok usable

/-- What a watchdog tick captures, from what `scutil` reported. -/
def captureRuntimeFallback (effective : Except String (List SocketAddr)) (server : IpAddr) :
    Except String (List SocketAddr) :=
  match effective with
  | .ok current => usableRuntimeFallback current server
  | .error err => .error ("could not read current system DNS: " ++ err)

/-- The start-up list of `serve`, from the candidates `fallback_servers` found. -/
def startupFallback (candidates : Except String (List SocketAddr)) (listeners : List SocketAddr) : List SocketAddr :=
  match candidates with
  | .ok servers => filterFallbackServers servers (listeners.map SocketAddr.ip)
  | .error _ => []

/-- The address a takeover points the services at: the first IPv4 loopback listener on port 53, else
the first loopback one. -/
def takeoverAddress (listeners : List SocketAddr) : Except String IpAddr :=
  match (listeners.find? fun addr => addr.port == 53 && addr.ip.isLoopback && addr.isIpv4).or
      (listeners.find? fun addr => addr.port == 53 && addr.ip.isLoopback) with
  | some addr => .ok addr.ip
  | none => .error "service mode requires a loopback listener on port 53 (normally 127.0.0.1:53)"

/-! ## Watchdog outcomes -/

inductive TickOutcome
  | notActive
  | clean (captured : Option (List SocketAddr)) (captureError : Option String)
  | reasserted (corrected : List String) (captured : List SocketAddr) (captureError : Option String)
deriving DecidableEq, Repr

/-- The outcome of a tick that found no drift. -/
def TickOutcome.ofClean : Except String (List SocketAddr) → TickOutcome
  | .ok servers => .clean (some servers) none
  | .error err => .clean none (some err)

/-- The outcome of a tick that corrected drift. -/
def TickOutcome.ofReasserted (corrected : List String) : Except String (List SocketAddr) → TickOutcome
  | .ok servers => .reasserted corrected servers none
  | .error err => .reasserted corrected [] (some err)

/-- What `watchdog_loop` makes of the fallback list after a tick. -/
def refreshFallback (fallback : List SocketAddr) : Except String TickOutcome → List SocketAddr
  | .ok (.clean (some captured) _) => captured
  | .ok (.reasserted _ captured _) => if captured.isEmpty then fallback else captured
  | _ => fallback

/-- A watchdog tick as far as the fallback list goes: it captured nothing, or it captured from what
`scutil` reported, with or without drift to correct. -/
inductive Tick
  | idle
  | failed (err : String)
  | clean (effective : Except String (List SocketAddr))
  | reasserted (corrected : List String) (effective : Except String (List SocketAddr))

/-- The fallback list after a tick of the watchdog, which runs only with a takeover address. -/
def tickFallback (listeners : List SocketAddr) (fallback : List SocketAddr) (tick : Tick) : List SocketAddr :=
  match takeoverAddress listeners with
  | .error _ => fallback
  | .ok server =>
    match tick with
    | .idle => refreshFallback fallback (.ok .notActive)
    | .failed err => refreshFallback fallback (.error err)
    | .clean effective => refreshFallback fallback (.ok (.ofClean (captureRuntimeFallback effective server)))
    | .reasserted corrected effective =>
      refreshFallback fallback (.ok (.ofReasserted corrected (captureRuntimeFallback effective server)))

/-- The fallback list of the `Manager` after start-up and the given ticks. -/
def systemFallback (listeners : List SocketAddr) (candidates : Except String (List SocketAddr)) (ticks : List Tick) :
    List SocketAddr :=
  ticks.foldl (tickFallback listeners) (startupFallback candidates listeners)

/-! ## What the filters let through -/

/-- `a` gets past a filter that denies the addresses `denied` as they are written, and dials one of the
listeners: on that listener's port, it is an IPv4-mapped loopback or unspecified address, or an
ordinary address that is the listener's, written otherwise than any denied one. -/
def Slips (denied : List IpAddr) (listeners : List SocketAddr) (a : SocketAddr) : Prop :=
  a.ip ∉ denied ∧ ∃ l ∈ listeners, l.port = a.port ∧
    (a.ip.mappedLocal = true ∨
      a.ip.isLoopback = false ∧ a.ip.isUnspecified = false ∧ a.ip.isMulticast = false ∧
        l.ip.toCanonical = a.ip.toCanonical)

theorem mem_retainNew {keep : SocketAddr → Bool} {a : SocketAddr} :
    ∀ {seen servers : List SocketAddr}, a ∈ retainNew keep seen servers ↔ a ∈ servers ∧ keep a = true ∧ a ∉ seen
  | seen, [] => by simp [retainNew]
  | seen, b :: rest => by
    unfold retainNew
    split
    · rename_i hb
      simp only [Bool.and_eq_true, Bool.not_eq_true', List.contains_eq_mem, decide_eq_false_iff_not] at hb
      rw [List.mem_cons, mem_retainNew, List.mem_cons, List.mem_cons]
      constructor
      · rintro (rfl | ⟨h1, h2, h3⟩)
        · exact ⟨.inl rfl, hb.1, hb.2⟩
        · exact ⟨.inr h1, h2, fun h => h3 (.inr h)⟩
      · rintro ⟨rfl | h1, h2, h3⟩
        · exact .inl rfl
        · by_cases hab : a = b
          · exact .inl hab
          · exact .inr ⟨h1, h2, by rintro (h | h); exacts [hab h, h3 h]⟩
    · rename_i hb
      simp only [Bool.and_eq_true, Bool.not_eq_true', List.contains_eq_mem, decide_eq_false_iff_not, not_and,
        not_not] at hb
      rw [mem_retainNew, List.mem_cons]
      constructor
      · rintro ⟨h1, h2, h3⟩; exact ⟨.inr h1, h2, h3⟩
      · rintro ⟨rfl | h1, h2, h3⟩
        · exact absurd (hb h2) h3
        · exact ⟨h1, h2, h3⟩

theorem mem_filterFallbackServers {servers : List SocketAddr} {denied : List IpAddr} {a : SocketAddr} :
    a ∈ filterFallbackServers servers denied ↔ a ∈ servers ∧ a.ip.isLoopback = false ∧ a.ip.isUnspecified = false ∧
      a.ip.isMulticast = false ∧ a.ip ∉ denied := by
  unfold filterFallbackServers
  rw [mem_retainNew]
  simp only [Bool.and_eq_true, Bool.not_eq_true', List.contains_eq_mem, decide_eq_false_iff_not, List.not_mem_nil,
    not_false_eq_true, and_true, and_assoc]

/-- A filtered list holds a self address exactly when an address of the list slips through. -/
theorem filter_self_iff {servers : List SocketAddr} {denied : List IpAddr} {listeners : List SocketAddr} :
    (∃ a ∈ filterFallbackServers servers denied, isSelfAddress a listeners = true) ↔
      ∃ a ∈ servers, Slips denied listeners a := by
  constructor
  · rintro ⟨a, ha, hs⟩
    obtain ⟨hmem, hl, hu, hm, hd⟩ := mem_filterFallbackServers.1 ha
    obtain ⟨l, hlmem, hport, hself⟩ := isSelfAddress_iff.1 hs
    refine ⟨a, hmem, hd, l, hlmem, hport, ?_⟩
    rcases hself with hsame | hlocal
    · exact .inr ⟨hl, hu, hm, hsame⟩
    · exact .inl ((toCanonical_local hl hu).1 hlocal)
  · rintro ⟨a, hmem, hd, l, hlmem, hport, hslip⟩
    rcases hslip with hmapped | ⟨hl, hu, hm, hsame⟩
    · obtain ⟨hl, hu, hm⟩ := mappedLocal_ordinary hmapped
      exact ⟨a, mem_filterFallbackServers.2 ⟨hmem, hl, hu, hm, hd⟩,
        isSelfAddress_iff.2 ⟨l, hlmem, hport, .inr ((toCanonical_local hl hu).2 hmapped)⟩⟩
    · exact ⟨a, mem_filterFallbackServers.2 ⟨hmem, hl, hu, hm, hd⟩,
        isSelfAddress_iff.2 ⟨l, hlmem, hport, .inl hsame⟩⟩

/-! ## Every run -/

/-- The addresses `scutil` reported in a tick that captured. -/
def Tick.reported : Tick → List SocketAddr
  | .clean (.ok current) => current
  | .reasserted _ (.ok current) => current
  | _ => []

/-- A tick either leaves the list alone or replaces it by the filtered report, which is not empty. -/
theorem tickFallback_cases {listeners : List SocketAddr} {server : IpAddr} (h : takeoverAddress listeners = .ok server)
    (fallback : List SocketAddr) (tick : Tick) :
    tickFallback listeners fallback tick = fallback ∧ filterFallbackServers tick.reported [server] = [] ∨
    tickFallback listeners fallback tick = filterFallbackServers tick.reported [server] := by
  have hcap : ∀ current : List SocketAddr,
      usableRuntimeFallback current server =
        if filterFallbackServers current [server] = [] then
          .error "macOS exposed no non-loopback global DNS server while the takeover was active"
        else .ok (filterFallbackServers current [server]) := by
    intro current
    simp only [usableRuntimeFallback, List.isEmpty_iff]
  unfold tickFallback
  rw [h]
  cases tick with
  | idle => exact .inl ⟨rfl, rfl⟩
  | failed err => exact .inl ⟨rfl, rfl⟩
  | clean effective =>
    cases effective with
    | error err => exact .inl ⟨rfl, rfl⟩
    | ok current =>
      simp only [captureRuntimeFallback, hcap, Tick.reported]
      split
      · rename_i hempty
        exact .inl ⟨rfl, hempty⟩
      · exact .inr rfl
  | reasserted corrected effective =>
    cases effective with
    | error err => exact .inl ⟨rfl, rfl⟩
    | ok current =>
      simp only [captureRuntimeFallback, hcap, Tick.reported]
      split
      · rename_i hempty
        exact .inl ⟨rfl, hempty⟩
      · rename_i hfull
        refine .inr ?_
        simp only [TickOutcome.ofReasserted, refreshFallback, List.isEmpty_iff, if_neg hfull]

/-- The candidates of a start-up. -/
def candidateList : Except String (List SocketAddr) → List SocketAddr
  | .ok servers => servers
  | .error _ => []

theorem startupFallback_eq (candidates : Except String (List SocketAddr)) (listeners : List SocketAddr) :
    startupFallback candidates listeners =
      filterFallbackServers (candidateList candidates) (listeners.map SocketAddr.ip) := by
  cases candidates <;> rfl

theorem systemFallback_snoc (listeners : List SocketAddr) (candidates : Except String (List SocketAddr))
    (ticks : List Tick) (tick : Tick) :
    systemFallback listeners candidates (ticks ++ [tick]) =
      tickFallback listeners (systemFallback listeners candidates ticks) tick := by
  simp only [systemFallback, List.foldl_append, List.foldl_cons, List.foldl_nil]

/-- The filtered list holds no self address when nothing slips through. -/
theorem filter_self_free {servers : List SocketAddr} {denied : List IpAddr} {listeners : List SocketAddr}
    (h : ∀ a ∈ servers, ¬ Slips denied listeners a) :
    ∀ a ∈ filterFallbackServers servers denied, isSelfAddress a listeners = false := by
  intro a ha
  by_contra hself
  obtain ⟨b, hb, hslip⟩ := filter_self_iff.1 ⟨a, ha, by simpa using hself⟩
  exact h b hb hslip

/-- One tick keeps the list free of self addresses when nothing it reported slips through. -/
theorem tickFallback_self_free {listeners : List SocketAddr} {fallback : List SocketAddr} {tick : Tick}
    (h : ∀ server, takeoverAddress listeners = .ok server → ∀ a ∈ tick.reported, ¬ Slips [server] listeners a)
    (hf : ∀ a ∈ fallback, isSelfAddress a listeners = false) :
    ∀ a ∈ tickFallback listeners fallback tick, isSelfAddress a listeners = false := by
  cases hs : takeoverAddress listeners with
  | error err =>
    simp only [tickFallback, hs]
    exact hf
  | ok server =>
    rcases tickFallback_cases hs fallback tick with ⟨heq, -⟩ | heq
    · rw [heq]; exact hf
    · rw [heq]; exact filter_self_free (h server hs)

/-- The fallback list is free of self addresses after start-up and after every tick of a run exactly
when no candidate slips past the listeners' own spellings and no address reported to a tick slips
past the takeover address. -/
theorem fallback_avoids_self (listeners : List SocketAddr) (candidates : Except String (List SocketAddr))
    (ticks : List Tick) :
    (∀ done, done <+: ticks → ∀ a ∈ systemFallback listeners candidates done, isSelfAddress a listeners = false) ↔
      (∀ a ∈ candidateList candidates, ¬ Slips (listeners.map SocketAddr.ip) listeners a) ∧
      ∀ server, takeoverAddress listeners = .ok server →
        ∀ tick ∈ ticks, ∀ a ∈ tick.reported, ¬ Slips [server] listeners a := by
  constructor
  · intro h
    constructor
    · intro a ha hslip
      obtain ⟨b, hb, hself⟩ := filter_self_iff.2 ⟨a, ha, hslip⟩
      have hfree := h [] (List.nil_prefix) b (by rw [← startupFallback_eq] at hb; exact hb)
      rw [hself] at hfree; cases hfree
    · intro server hs tick htick a ha hslip
      obtain ⟨before, after, rfl⟩ := List.append_of_mem htick
      obtain ⟨b, hb, hself⟩ := filter_self_iff.2 ⟨a, ha, hslip⟩
      -- the report left something usable, so the tick replaced the list by it
      have hlist : systemFallback listeners candidates (before ++ [tick]) =
          filterFallbackServers tick.reported [server] := by
        rw [systemFallback_snoc]
        rcases tickFallback_cases hs (systemFallback listeners candidates before) tick with ⟨-, hempty⟩ | heq
        · rw [hempty] at hb; exact absurd hb List.not_mem_nil
        · exact heq
      have hfree := h (before ++ [tick]) ⟨after, by simp⟩ b (by rw [hlist]; exact hb)
      rw [hself] at hfree; cases hfree
  · rintro ⟨hstart, hticks⟩ done hdone
    induction done using List.reverseRecOn with
    | nil =>
      show ∀ a ∈ startupFallback candidates listeners, _
      rw [startupFallback_eq]
      exact filter_self_free hstart
    | append_singleton done tick ih =>
      rw [systemFallback_snoc]
      refine tickFallback_self_free (fun server hs => hticks server hs tick (hdone.subset (by simp))) ?_
      exact ih ((List.prefix_append done [tick]).trans hdone)

/-- A listener on the network, beside the loopback one that the takeover points services at. -/
def sharedListeners : List SocketAddr := [.v4 ⟨127, 0, 0, 1⟩ 53, .v4 ⟨192, 168, 1, 5⟩ 53]

/-- Loopback as an IPv4-mapped IPv6 address. -/
def mappedLoopback : SocketAddr := .v6 ⟨[0, 0, 0, 0, 0, 0xffff, 0x7f00, 1], rfl⟩ 53 0 0

/-- A start-up candidate that is loopback in IPv4-mapped spelling stays in the list, and so does the
address of a network listener that a tick finds reported. -/
theorem fallback_reaches_self :
    (∃ a ∈ systemFallback sharedListeners (.ok [mappedLoopback]) [], isSelfAddress a sharedListeners = true) ∧
    ∃ a ∈ systemFallback sharedListeners (.ok []) [.clean (.ok [.v4 ⟨192, 168, 1, 5⟩ 53])],
      isSelfAddress a sharedListeners = true := by
  decide

end DNSRivet.OsDns
