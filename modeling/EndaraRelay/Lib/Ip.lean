import Mathlib.Tactic.Common

/-!
# Internet addresses

Addresses of both families with the classes that a guard asks about. An IPv4 address has a second
spelling, the mapped IPv6 address `::ffff:a.b.c.d`; `Ip.canonical` is the address that is denoted.

No class of IPv6 addresses contains a mapped one, so a guard that looks at the family alone does not see
what a mapped address denotes.
-/

namespace Verif

/-- The octets of an IPv4 address. -/
structure Ipv4 where
  a : UInt8
  b : UInt8
  c : UInt8
  d : UInt8
deriving DecidableEq

/-- The segments of an IPv6 address. -/
structure Ipv6 where
  s₀ : UInt16
  s₁ : UInt16
  s₂ : UInt16
  s₃ : UInt16
  s₄ : UInt16
  s₅ : UInt16
  s₆ : UInt16
  s₇ : UInt16
deriving DecidableEq

inductive Ip where
  | v4 (ip : Ipv4)
  | v6 (ip : Ipv6)
deriving DecidableEq

namespace Ipv4

/-- `127.0.0.0/8`. -/
def isLoopback (ip : Ipv4) : Bool := ip.a = 127

/-- `169.254.0.0/16`. -/
def isLinkLocal (ip : Ipv4) : Bool := ip.a = 169 && ip.b = 254

def isUnspecified (ip : Ipv4) : Bool := ip = ⟨0, 0, 0, 0⟩

/-- `224.0.0.0/4`. -/
def isMulticast (ip : Ipv4) : Bool := 224 ≤ ip.a && ip.a ≤ 239

def isBroadcast (ip : Ipv4) : Bool := ip = ⟨255, 255, 255, 255⟩

end Ipv4

namespace Ipv6

/-- `::1`. -/
def isLoopback (ip : Ipv6) : Bool := ip = ⟨0, 0, 0, 0, 0, 0, 0, 1⟩

def isUnspecified (ip : Ipv6) : Bool := ip = ⟨0, 0, 0, 0, 0, 0, 0, 0⟩

/-- `ff00::/8`. -/
def isMulticast (ip : Ipv6) : Bool := ip.s₀ &&& 0xff00 = 0xff00

/-- `fe80::/10`. -/
def isUnicastLinkLocal (ip : Ipv6) : Bool := ip.s₀ &&& 0xffc0 = 0xfe80

/-- The IPv4 address that a mapped address denotes. -/
def toIpv4Mapped (ip : Ipv6) : Option Ipv4 :=
  if ip.s₀ = 0 ∧ ip.s₁ = 0 ∧ ip.s₂ = 0 ∧ ip.s₃ = 0 ∧ ip.s₄ = 0 ∧ ip.s₅ = 0xffff then
    some ⟨(ip.s₆ >>> 8).toUInt8, ip.s₆.toUInt8, (ip.s₇ >>> 8).toUInt8, ip.s₇.toUInt8⟩
  else none

end Ipv6

namespace Ip

/-- The IPv4 address behind a mapped spelling. -/
def mapped : Ip → Option Ipv4
  | v4 _ => none
  | v6 ip => ip.toIpv4Mapped

/-- The address that is denoted. -/
def canonical (ip : Ip) : Ip :=
  match ip.mapped with
  | some inner => .v4 inner
  | none => ip

theorem canonical_of_mapped {ip : Ip} {inner : Ipv4} (h : ip.mapped = some inner) :
    ip.canonical = .v4 inner := by
  unfold canonical
  rw [h]

theorem canonical_of_not_mapped {ip : Ip} (h : ip.mapped = none) : ip.canonical = ip := by
  unfold canonical
  rw [h]

end Ip

end Verif
