/-
`std::net` addresses: the predicates the resolver lists are filtered by, and the canonical form that
the self-dial rule compares. An IPv6 address is eight segments; an IPv4-mapped one is
`::ffff:a.b.c.d`.
-/
import Mathlib

namespace DNSRivet.Net

structure Ipv4Addr where
  a : UInt8
  b : UInt8
  c : UInt8
  d : UInt8
deriving DecidableEq, Repr

/-- An IPv6 address: its eight segments. -/
structure Ipv6Addr where
  segments : List UInt16
  length_eq : segments.length = 8
deriving DecidableEq, Repr

inductive IpAddr
  | v4 (ip : Ipv4Addr)
  | v6 (ip : Ipv6Addr)
deriving DecidableEq, Repr

inductive SocketAddr
  | v4 (ip : Ipv4Addr) (port : Nat)
  | v6 (ip : Ipv6Addr) (port flowinfo scopeId : Nat)
deriving DecidableEq, Repr

namespace Ipv4Addr

def isLoopback (ip : Ipv4Addr) : Bool := ip.a == 127

def isUnspecified (ip : Ipv4Addr) : Bool := ip == ⟨0, 0, 0, 0⟩

def isMulticast (ip : Ipv4Addr) : Bool := 224 ≤ ip.a && ip.a ≤ 239

end Ipv4Addr

namespace Ipv6Addr

/-- The address `::1`. -/
def localhost : Ipv6Addr := ⟨[0, 0, 0, 0, 0, 0, 0, 1], rfl⟩

/-- The address `::`. -/
def unspecified : Ipv6Addr := ⟨[0, 0, 0, 0, 0, 0, 0, 0], rfl⟩

def isLoopback (ip : Ipv6Addr) : Bool := ip == localhost

def isUnspecified (ip : Ipv6Addr) : Bool := ip == unspecified

def isMulticast (ip : Ipv6Addr) : Bool := ip.segments.head?.any fun s => s &&& 0xff00 == 0xff00

/-- The two octets of a segment. -/
def octets (s : UInt16) : UInt8 × UInt8 := ((s >>> 8).toUInt8, s.toUInt8)

/-- The IPv4 address of an IPv4-mapped address. -/
def toIpv4Mapped (ip : Ipv6Addr) : Option Ipv4Addr :=
  match ip.segments with
  | [0, 0, 0, 0, 0, 0xffff, g, h] => some ⟨(octets g).1, (octets g).2, (octets h).1, (octets h).2⟩
  | _ => none

end Ipv6Addr

namespace IpAddr

def isLoopback : IpAddr → Bool
  | v4 ip => ip.isLoopback
  | v6 ip => ip.isLoopback

def isUnspecified : IpAddr → Bool
  | v4 ip => ip.isUnspecified
  | v6 ip => ip.isUnspecified

def isMulticast : IpAddr → Bool
  | v4 ip => ip.isMulticast
  | v6 ip => ip.isMulticast

def isIpv4 : IpAddr → Bool
  | v4 _ => true
  | v6 _ => false

/-- An IPv4-mapped address as the IPv4 address it stands for, any other as it is. -/
def toCanonical : IpAddr → IpAddr
  | v4 ip => v4 ip
  | v6 ip =>
    match ip.toIpv4Mapped with
    | some mapped => v4 mapped
    | none => v6 ip

/-- An IPv4-mapped loopback or unspecified address. -/
def mappedLocal : IpAddr → Bool
  | v4 _ => false
  | v6 ip => ip.toIpv4Mapped.any fun mapped => mapped.isLoopback || mapped.isUnspecified

end IpAddr

namespace SocketAddr

/-- `SocketAddr::new`. -/
def new (ip : IpAddr) (port : Nat) : SocketAddr :=
  match ip with
  | .v4 ip => v4 ip port
  | .v6 ip => v6 ip port 0 0

def ip : SocketAddr → IpAddr
  | v4 ip _ => .v4 ip
  | v6 ip _ _ _ => .v6 ip

def port : SocketAddr → Nat
  | v4 _ port => port
  | v6 _ port _ _ => port

def isIpv4 : SocketAddr → Bool
  | v4 _ _ => true
  | v6 _ _ _ _ => false

end SocketAddr

/-! ## Canonical forms -/

/-- An address that is neither loopback nor unspecified as it stands is so in canonical form exactly
when it is IPv4-mapped. -/
theorem toCanonical_local {ip : IpAddr} (hl : ip.isLoopback = false) (hu : ip.isUnspecified = false) :
    (ip.toCanonical.isLoopback = true ∨ ip.toCanonical.isUnspecified = true) ↔ ip.mappedLocal = true := by
  cases ip with
  | v4 ip =>
    simp only [IpAddr.toCanonical, IpAddr.mappedLocal, hl, hu, Bool.false_eq_true, or_self]
  | v6 ip =>
    simp only [IpAddr.toCanonical, IpAddr.mappedLocal]
    cases hm : ip.toIpv4Mapped with
    | none => simp only [hl, hu, Option.any_none, Bool.false_eq_true, or_self]
    | some mapped =>
      simp only [IpAddr.isLoopback, IpAddr.isUnspecified, Option.any_some, Bool.or_eq_true]

/-- An IPv4-mapped address starts with a zero segment. -/
theorem toIpv4Mapped_segments {ip : Ipv6Addr} {mapped : Ipv4Addr} (h : ip.toIpv4Mapped = some mapped) :
    ∃ g h, ip.segments = [0, 0, 0, 0, 0, 0xffff, g, h] := by
  unfold Ipv6Addr.toIpv4Mapped at h
  split at h
  · rename_i g h' heq
    exact ⟨g, h', heq⟩
  · cases h

/-- The filters take an IPv4-mapped loopback or unspecified address for an ordinary one. -/
theorem mappedLocal_ordinary {ip : IpAddr} (h : ip.mappedLocal = true) :
    ip.isLoopback = false ∧ ip.isUnspecified = false ∧ ip.isMulticast = false := by
  cases ip with
  | v4 ip => cases h
  | v6 ip =>
    obtain ⟨mapped, hm, -⟩ := (Option.any_eq_true _ _).1 h
    obtain ⟨g, h', hs⟩ := toIpv4Mapped_segments hm
    refine ⟨beq_eq_false_iff_ne.2 ?_, beq_eq_false_iff_ne.2 ?_, ?_⟩
    · rintro rfl; cases hs
    · rintro rfl; cases hs
    · simp only [IpAddr.isMulticast, Ipv6Addr.isMulticast, hs, List.head?_cons, Option.any_some]
      decide

/-! ## The self-dial rule -/

/-- One self-dial rule for literal, bootstrap-resolved, and encrypted targets. -/
def isSelfAddress (addr : SocketAddr) (listeners : List SocketAddr) : Bool :=
  let ip := addr.ip.toCanonical
  listeners.any fun listener =>
    listener.port == addr.port && (listener.ip.toCanonical == ip || ip.isLoopback || ip.isUnspecified)

theorem isSelfAddress_iff {a : SocketAddr} {listeners : List SocketAddr} :
    isSelfAddress a listeners = true ↔ ∃ l ∈ listeners, l.port = a.port ∧
      (l.ip.toCanonical = a.ip.toCanonical ∨ a.ip.toCanonical.isLoopback = true ∨
        a.ip.toCanonical.isUnspecified = true) := by
  simp only [isSelfAddress, List.any_eq_true, Bool.and_eq_true, Bool.or_eq_true, beq_iff_eq, or_assoc]

end DNSRivet.Net
