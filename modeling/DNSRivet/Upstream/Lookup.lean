/-
One lookup of `upstream/bootstrap.rs`: bootstrap servers are asked in order and the first one with addresses
wins. The records of its two replies become the dial list as they come: nothing compares their type with the
one asked for, and deduplication looks at neighbours only. `lookup_clean_iff` says for which replies that list
is what its callers take it for.
-/
import DNSRivet.Base.Sort
import DNSRivet.OsDns.Backup
import DNSRivet.Upstream.Bootstrap

namespace DNSRivet.Upstream.Bootstrap

open DNSRivet.Base DNSRivet.Net
open DNSRivet.OsDns (quoted)
open scoped List

def minTtlSecs : Nat := 60

def maxTtlSecs : Nat := 86400

/-! ## Queries -/

inductive RecordType
  | a
  | aaaa
deriving DecidableEq, Repr

inductive RData
  | a (ip : Ipv4Addr)
  | aaaa (ip : Ipv6Addr)
  | other
deriving DecidableEq, Repr

structure Record where
  ttl : UInt32
  data : RData
deriving DecidableEq, Repr

/-- What a lookup meets: the library's names, and the answers decoded from the n-th server's reply to a query,
or why there are none. -/
structure Servers (Name : Type) where
  fromStr : String → Except String Name
  exchange : Nat → SocketAddr → Name → RecordType → Except String (List Record)

/-- `IpAddr::is_ipv6`. -/
def isIpv6 (ip : IpAddr) : Bool := !ip.isIpv4

def addRecord (reply : List IpAddr × UInt32) (record : Record) : List IpAddr × UInt32 :=
  match record.data with
  | .a ip => (reply.1 ++ [.v4 ip], min reply.2 record.ttl)
  | .aaaa ip => (reply.1 ++ [.v6 ip], min reply.2 record.ttl)
  | .other => reply

section Lookup

variable {Name : Type} (net : Servers Name) (host : String) (name : Name) (stack : IpStack)

def query (n : Nat) (server : SocketAddr) (rtype : RecordType) : Except String (List IpAddr × UInt32) :=
  match net.exchange n server name rtype with
  | .ok answers => .ok (answers.foldl addRecord ([], 0xffffffff))
  | .error err => .error err

def queryIf (wanted : Bool) (n : Nat) (server : SocketAddr) (rtype : RecordType) :
    Option (Except String (List IpAddr × UInt32)) :=
  if wanted then some (query net name n server rtype) else none

def orderedServers (servers : List SocketAddr) : List SocketAddr :=
  sortByKey (fun server => match stack with
    | .v4 => !server.isIpv4
    | .v6 => server.isIpv4
    | .both => false) servers

/-- The loop's variables: what the results of one server add up to. -/
structure Gathered where
  ips : List IpAddr
  minTtl : Nat
  lastErr : String
deriving DecidableEq, Repr

def gather (g : Gathered) : Except String (List IpAddr × UInt32) → Gathered
  | .ok (got, ttl) => { g with minTtl := min g.minTtl ttl.toNat, ips := g.ips ++ got }
  | .error err => { g with lastErr := err }

/-- `Ord::clamp`. -/
def clamp (n lo hi : Nat) : Nat := if n < lo then lo else if hi < n then hi else n

/-- IPv4 is dialled first. -/
def dialList (ips : List IpAddr) : List IpAddr := (sortByKey isIpv6 ips).destutter (· ≠ ·)

def askServer (n : Nat) (lastErr : String) (server : SocketAddr) : Gathered :=
  let a := queryIf net name (stack != .v6) n server .a
  let aaaa := queryIf net name (stack != .v4) n server .aaaa
  [a, aaaa].reduceOption.foldl gather ⟨[], maxTtlSecs, lastErr⟩

/-- The loop over the servers from the n-th on. -/
def lookupServers : Nat → String → List SocketAddr → Except String (List IpAddr × Nat)
  | _, lastErr, [] => .error ("bootstrap failed for " ++ host ++ ": " ++ lastErr)
  | n, lastErr, server :: servers =>
    let g := askServer net name stack n lastErr server
    if g.ips.isEmpty then lookupServers (n + 1) g.lastErr servers
    else .ok (dialList g.ips, clamp g.minTtl minTtlSecs maxTtlSecs)

/-- Queries bootstrap servers in order; the first one with addresses wins. -/
def lookup (servers : List SocketAddr) : Except String (List IpAddr × Nat) :=
  match net.fromStr host with
  | .error e => .error ("invalid hostname " ++ quoted host ++ ": " ++ e)
  | .ok name => lookupServers net host name stack 0 "no bootstrap servers" (orderedServers stack servers)

/-! ## What the replies hold -/

def Record.address (record : Record) : Option IpAddr :=
  match record.data with
  | .a ip => some (.v4 ip)
  | .aaaa ip => some (.v6 ip)
  | .other => none

/-- The addresses of one reply, in the order of its records. -/
def answered (n : Nat) (server : SocketAddr) (rtype : RecordType) : List IpAddr :=
  match net.exchange n server name rtype with
  | .ok answers => answers.filterMap Record.address
  | .error _ => []

def wanted : IpStack → List RecordType
  | .both => [.a, .aaaa]
  | .v4 => [.a]
  | .v6 => [.aaaa]

/-- The addresses one server replies with: those of its reply to A, then those of its reply to AAAA. -/
def addresses (n : Nat) (server : SocketAddr) : List IpAddr :=
  (wanted stack).flatMap (answered net name n server)

/-- The addresses of the first server, in the order they are asked, that replies with any. -/
def firstAddresses (servers : List SocketAddr) : Option (List IpAddr) :=
  ((orderedServers stack servers).mapIdx (addresses net name stack)).find? (· ≠ [])

end Lookup

/-- What the callers of a lookup take its result for. -/
structure CleanDialList (stack : IpStack) (ips : List IpAddr) (ttl : Nat) : Prop where
  ne_nil : ips ≠ []
  nodup : ips.Nodup
  v4 : stack = .v4 → ∀ ip ∈ ips, ip.isIpv4 = true
  v6 : stack = .v6 → ∀ ip ∈ ips, isIpv6 ip = true
  v4_first : ips.Pairwise fun x y => y.isIpv4 = true → x.isIpv4 = true
  ttl_ge : minTtlSecs ≤ ttl
  ttl_le : ttl ≤ maxTtlSecs

/-- The replies keep to the family that was asked for, and no address comes back in them after another one of
its family. -/
structure Orderly (stack : IpStack) (found : List IpAddr) : Prop where
  v4 : stack = .v4 → ∀ ip ∈ found, ip.isIpv4 = true
  v6 : stack = .v6 → ∀ ip ∈ found, isIpv6 ip = true
  settled : ∀ x y, x ≠ y → isIpv6 x = isIpv6 y → ¬[x, y, x] <+ found

variable {Name : Type} {net : Servers Name} {host : String} {name : Name} {stack : IpStack}

/-- A single stack asks the servers it can reach over its own family first, each family in its order. -/
theorem orderedServers_eq (servers : List SocketAddr) :
    orderedServers .v4 servers = servers.filter (·.isIpv4) ++ servers.filter (!·.isIpv4) ∧
      orderedServers .v6 servers = servers.filter (!·.isIpv4) ++ servers.filter (·.isIpv4) := by
  refine ⟨?_, sortByKey_bool _ servers⟩
  exact (sortByKey_bool _ servers).trans (by simp only [Bool.not_not])

/-! ## One server -/

theorem foldl_addRecord (answers : List Record) (ips : List IpAddr) (ttl : UInt32) :
    (answers.foldl addRecord (ips, ttl)).1 = ips ++ answers.filterMap Record.address := by
  induction answers generalizing ips ttl with
  | nil => simp
  | cons record answers ih =>
    have hadd : (addRecord (ips, ttl) record).1 = ips ++ record.address.toList := by
      unfold addRecord Record.address
      cases record.data <;> simp
    rw [List.foldl_cons, ih, hadd, List.filterMap_cons]
    cases record.address <;> simp

/-- A result adds the addresses of its reply. -/
theorem gather_query (g : Gathered) (n : Nat) (server : SocketAddr) (rtype : RecordType) :
    (gather g (query net name n server rtype)).ips = g.ips ++ answered net name n server rtype := by
  unfold query answered
  cases net.exchange n server name rtype with
  | ok answers => simp only [gather, foldl_addRecord, List.nil_append]
  | error err => simp only [gather, List.append_nil]

theorem askServer_ips (n : Nat) (lastErr : String) (server : SocketAddr) :
    (askServer net name stack n lastErr server).ips = addresses net name stack n server := by
  cases stack with
  | both => exact (gather_query _ n server .aaaa).trans (by rw [gather_query]; simp [addresses, wanted])
  | v4 => exact (gather_query _ n server .a).trans (by simp [addresses, wanted])
  | v6 => exact (gather_query _ n server .aaaa).trans (by simp [addresses, wanted])

theorem clamp_bounds {n lo hi : Nat} (h : lo ≤ hi) : lo ≤ clamp n lo hi ∧ clamp n lo hi ≤ hi := by
  unfold clamp
  split_ifs <;> omega

/-! ## The loop -/

/-- The loop ends at the first server that replies with addresses and makes the dial list of these. -/
theorem lookupServers_found {found : List IpAddr} :
    ∀ {servers : List SocketAddr} {n : Nat} {lastErr : String},
      (servers.mapIdx fun i => addresses net name stack (n + i)).find? (· ≠ []) = some found →
        ∃ ttl, lookupServers net host name stack n lastErr servers = .ok (dialList found, ttl) ∧
          minTtlSecs ≤ ttl ∧ ttl ≤ maxTtlSecs
  | [], n, lastErr, h => by cases h
  | server :: servers, n, lastErr, h => by
    rw [List.mapIdx_cons] at h
    simp only [lookupServers, askServer_ips, List.isEmpty_iff]
    by_cases hnil : addresses net name stack n server = []
    · rw [List.find?_cons_of_neg (by simpa using hnil)] at h
      rw [if_pos hnil]
      exact lookupServers_found (by simpa only [Nat.add_right_comm, Nat.add_assoc] using h)
    · rw [List.find?_cons_of_pos (by simpa using hnil)] at h
      cases h
      rw [if_neg hnil]
      exact ⟨_, rfl, clamp_bounds (by decide)⟩

theorem lookupServers_none :
    ∀ {servers : List SocketAddr} {n : Nat} {lastErr : String},
      (servers.mapIdx fun i => addresses net name stack (n + i)).find? (· ≠ []) = none →
        ∃ err, lookupServers net host name stack n lastErr servers = .error err
  | [], n, lastErr, h => ⟨_, rfl⟩
  | server :: servers, n, lastErr, h => by
    rw [List.mapIdx_cons] at h
    have hnil : addresses net name stack n server = [] := by
      simpa using List.find?_eq_none.1 h _ (List.mem_cons_self ..)
    rw [List.find?_cons_of_neg (by simpa using hnil)] at h
    simp only [lookupServers, askServer_ips, List.isEmpty_iff, if_pos hnil]
    exact lookupServers_none (by simpa only [Nat.add_right_comm, Nat.add_assoc] using h)

/-! ## The dial list -/

@[simp] theorem mem_dialList {ip : IpAddr} {ips : List IpAddr} : ip ∈ dialList ips ↔ ip ∈ ips := by
  rw [dialList, ← List.singleton_sublist, sublist_destutter_iff (List.isChain_singleton _), List.singleton_sublist,
    mem_sortByKey]

theorem dialList_ne_nil {ips : List IpAddr} (h : ips ≠ []) : dialList ips ≠ [] := by
  obtain ⟨ip, hip⟩ := List.exists_mem_of_ne_nil ips h
  exact List.ne_nil_of_mem (mem_dialList.2 hip)

/-- Whatever the replies hold, IPv4 is dialled first. -/
theorem dialList_v4_first (ips : List IpAddr) :
    (dialList ips).Pairwise fun x y => y.isIpv4 = true → x.isIpv4 = true := by
  refine ((sortByKey_pairwise isIpv6 ips).sublist (List.destutter_sublist _ _)).imp fun {x y} hle hy => ?_
  have himp : isIpv6 x = true → isIpv6 y = true := Bool.le_iff_imp.1 hle
  by_contra hx
  simp [isIpv6, hx, hy] at himp

/-- What callers take the list for depends on the replies alone. -/
theorem cleanDialList_iff {found : List IpAddr} {ttl : Nat} (hne : found ≠ []) (hge : minTtlSecs ≤ ttl)
    (hle : ttl ≤ maxTtlSecs) : CleanDialList stack (dialList found) ttl ↔ Orderly stack found := by
  constructor
  · intro h
    refine ⟨fun hs ip hip => ?_, fun hs ip hip => ?_, nodup_destutter_sortByKey_iff.1 h.nodup⟩
    · exact h.v4 hs ip (mem_dialList.2 hip)
    · exact h.v6 hs ip (mem_dialList.2 hip)
  · intro h
    exact {
      ne_nil := dialList_ne_nil hne
      nodup := nodup_destutter_sortByKey_iff.2 h.settled
      v4 := fun hs ip hip => h.v4 hs ip (mem_dialList.1 hip)
      v6 := fun hs ip hip => h.v6 hs ip (mem_dialList.1 hip)
      v4_first := dialList_v4_first found
      ttl_ge := hge
      ttl_le := hle }

theorem firstAddresses_ne_nil {servers : List SocketAddr} {found : List IpAddr}
    (h : firstAddresses net name stack servers = some found) : found ≠ [] := by
  simpa using List.find?_some h

theorem lookup_found {servers : List SocketAddr} {found : List IpAddr} (hname : net.fromStr host = .ok name)
    (h : firstAddresses net name stack servers = some found) :
    ∃ ttl, lookup net host stack servers = .ok (dialList found, ttl) ∧ minTtlSecs ≤ ttl ∧ ttl ≤ maxTtlSecs := by
  simp only [lookup, hname]
  apply lookupServers_found
  simpa only [firstAddresses, Nat.zero_add] using h

/-- A lookup that succeeds made its list of the addresses of the first server that had any. -/
theorem lookup_ok {servers : List SocketAddr} {ips : List IpAddr} {ttl : Nat}
    (h : lookup net host stack servers = .ok (ips, ttl)) :
    ∃ name found, net.fromStr host = .ok name ∧ firstAddresses net name stack servers = some found ∧
      ips = dialList found ∧ minTtlSecs ≤ ttl ∧ ttl ≤ maxTtlSecs := by
  cases hname : net.fromStr host with
  | error e =>
    simp only [lookup, hname] at h
    cases h
  | ok name =>
    cases hfound : firstAddresses net name stack servers with
    | none =>
      obtain ⟨err, herr⟩ : ∃ err, lookupServers net host name stack 0 "no bootstrap servers"
          (orderedServers stack servers) = .error err :=
        lookupServers_none (by simpa only [firstAddresses, Nat.zero_add] using hfound)
      simp only [lookup, hname, herr] at h
      cases h
    | some found =>
      obtain ⟨ttl', hok, hge, hle⟩ := lookup_found hname hfound
      rw [hok] at h
      cases h
      exact ⟨name, found, rfl, hfound, rfl, hge, hle⟩

/-- A lookup's result is a clean dial list, for every result it can have, exactly when the replies of the first
server with addresses are orderly. -/
theorem lookup_clean_iff (net : Servers Name) (host : String) (stack : IpStack) (servers : List SocketAddr) :
    (∀ ips ttl, lookup net host stack servers = .ok (ips, ttl) → CleanDialList stack ips ttl) ↔
      ∀ name found, net.fromStr host = .ok name → firstAddresses net name stack servers = some found →
        Orderly stack found := by
  constructor
  · intro h name found hname hfound
    obtain ⟨ttl, hok, hge, hle⟩ := lookup_found hname hfound
    exact (cleanDialList_iff (firstAddresses_ne_nil hfound) hge hle).1 (h _ _ hok)
  · intro h ips ttl hok
    obtain ⟨name, found, hname, hfound, rfl, hge, hle⟩ := lookup_ok hok
    exact (cleanDialList_iff (firstAddresses_ne_nil hfound) hge hle).2 (h name found hname hfound)

/-- An address that comes back, and a reply to A that holds the other family. -/
def flapping : Servers String where
  fromStr := .ok
  exchange := fun _ _ name rtype => match rtype with
    | .a =>
      if name = "dns.example" then
        .ok [⟨300, .a ⟨192, 0, 2, 1⟩⟩, ⟨300, .a ⟨192, 0, 2, 2⟩⟩, ⟨300, .a ⟨192, 0, 2, 1⟩⟩]
      else .ok [⟨300, .aaaa Ipv6Addr.localhost⟩]
    | .aaaa => .ok []

theorem flapping_not_clean :
    (∃ ips ttl, lookup flapping "dns.example" .both [.v4 ⟨1, 1, 1, 1⟩ 53] = .ok (ips, ttl) ∧
      ¬CleanDialList .both ips ttl) ∧
    ∃ ips ttl, lookup flapping "v6.example" .v4 [.v4 ⟨1, 1, 1, 1⟩ 53] = .ok (ips, ttl) ∧
      ¬CleanDialList .v4 ips ttl := by
  refine ⟨⟨[.v4 ⟨192, 0, 2, 1⟩, .v4 ⟨192, 0, 2, 2⟩, .v4 ⟨192, 0, 2, 1⟩], 300, by decide +kernel, fun h => ?_⟩,
    ⟨[.v6 Ipv6Addr.localhost], 300, by decide +kernel, fun h => ?_⟩⟩
  · exact absurd h.nodup (by decide)
  · exact absurd (h.v4 rfl (.v6 Ipv6Addr.localhost) (by decide)) (by decide)

/-- A slot that records a lookup keeps its addresses fresh for a minute at least and for a day at most. -/
theorem record_lookup_expires {servers : List SocketAddr} {ips : List IpAddr} {ttl : Nat} {slot : Slot} {now : Nat}
    (h : lookup net host stack servers = .ok (ips, ttl)) :
    ∃ entry, (slot.record (lookup net host stack servers) now).2.entry = some entry ∧
      now + secs 60 ≤ entry.expires ∧ entry.expires ≤ now + secs 86400 := by
  obtain ⟨name, found, -, -, -, hge, hle⟩ := lookup_ok h
  rw [h]
  refine ⟨⟨ips, now + secs ttl⟩, rfl, ?_⟩
  simp only [minTtlSecs, maxTtlSecs, secs] at *
  omega

end DNSRivet.Upstream.Bootstrap
