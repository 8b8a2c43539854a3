import HiveGuard.Core.Net
import HiveGuard.Library.Dictionary

/-!
# The whitelist

A whitelist has a hard-coded layer and a configured one.  A ban subject is a
network, so it is tested for overlap, not for containment of its address.
-/

namespace HiveGuard.Core

open Library.Dictionary

/-- Hard-coded networks that can never be banned. -/
def immutableProtected : List IpNet :=
  [ -- Loopback: 127.0.0.0/8, ::1/128
    .v4 ⟨0x7f000000, 8, by decide⟩,
    .v6 ⟨0x1, 128, by decide⟩,
    -- RFC 1918: 10.0.0.0/8, 172.16.0.0/12, 192.168.0.0/16
    .v4 ⟨0x0a000000, 8, by decide⟩,
    .v4 ⟨0xac100000, 12, by decide⟩,
    .v4 ⟨0xc0a80000, 16, by decide⟩,
    -- Link-local: 169.254.0.0/16, fe80::/10
    .v4 ⟨0xa9fe0000, 16, by decide⟩,
    .v6 ⟨0xfe800000000000000000000000000000, 10, by decide⟩,
    -- RFC 5737: 192.0.2.0/24, 198.51.100.0/24, 203.0.113.0/24
    .v4 ⟨0xc0000200, 24, by decide⟩,
    .v4 ⟨0xc6336400, 24, by decide⟩,
    .v4 ⟨0xcb007100, 24, by decide⟩,
    -- Unspecified: 0.0.0.0/8, ::/128
    .v4 ⟨0x00000000, 8, by decide⟩,
    .v6 ⟨0x0, 128, by decide⟩,
    -- Multicast: 224.0.0.0/4, ff00::/8
    .v4 ⟨0xe0000000, 4, by decide⟩,
    .v6 ⟨0xff000000000000000000000000000000, 8, by decide⟩,
    -- Unique local: fc00::/7
    .v6 ⟨0xfc000000000000000000000000000000, 7, by decide⟩ ]

/-- A whitelist of networks that should never be banned.  The hard-coded layer
is fixed when the manager is built and has no mutator. -/
structure WhitelistManager where
  entries : Dict IpNet Unit
  immutable : List IpNet
  immutable_eq : immutable = immutableProtected

namespace WhitelistManager

def new : WhitelistManager where
  entries := ∅
  immutable := immutableProtected
  immutable_eq := rfl

def add (self : WhitelistManager) (net : IpNet) : WhitelistManager :=
  { self with entries := self.entries.insert net () }

/-- Remove an entry; reports whether it was there. -/
def remove (self : WhitelistManager) (net : IpNet) : Bool × WhitelistManager :=
  ((self.entries.lookup net).isSome, { self with entries := self.entries.erase net })

/-- Does `net` share any address with a whitelisted or immutable network? -/
def overlaps (self : WhitelistManager) (net : IpNet) : Bool :=
  (self.immutable ++ self.entries.keys).any fun listed => netsOverlap listed net

/-- Does a single whitelisted or immutable network hold all of `net`? -/
def covers (self : WhitelistManager) (net : IpNet) : Bool :=
  (self.immutable ++ self.entries.keys).any fun listed =>
    listed.contains net.addr && decide (listed.prefixLen ≤ net.prefixLen)

/-- A network is protected when it meets one of the listed networks. -/
def Protects (listed : IpNet → Prop) (net : IpNet) : Prop :=
  ∃ entry, listed entry ∧ IpNet.SharesAddress entry net

/-- The networks of both layers. -/
def Listed (self : WhitelistManager) (entry : IpNet) : Prop :=
  entry ∈ immutableProtected ∨ entry ∈ self.entries

/-- The overlap test is exact for both layers. -/
theorem overlaps_iff (self : WhitelistManager) (net : IpNet) :
    self.overlaps net = true ↔ Protects self.Listed net := by
  simp only [overlaps, List.any_eq_true, List.mem_append, netsOverlap_iff, Protects,
    Listed, self.immutable_eq, AList.mem_keys]

/-- A covered network lies in one of the listed networks. -/
theorem within_of_covers {self : WhitelistManager} {net : IpNet}
    (covered : self.covers net = true) : ∃ entry, self.Listed entry ∧ net.Within entry := by
  simp only [covers, List.any_eq_true, List.mem_append, self.immutable_eq,
    Bool.and_eq_true, decide_eq_true_eq] at covered
  rcases covered with ⟨entry, listed, holdsAddr, shorter⟩
  have shares : IpNet.SharesAddress net entry := ⟨net.addr, net.contains_addr, holdsAddr⟩
  exact ⟨entry, listed, shares.within shorter⟩

/-- The tests by one address per side are exact on sets of addresses: two networks overlap
when some address belongs to both, a whitelist overlaps a network when some address of it
lies in an entry of either layer, and it covers a network only if all of its addresses lie
in one entry. -/
theorem network_tests_exact (first second : IpNet) (whitelist : WhitelistManager) (net : IpNet) :
    (netsOverlap first second = true ↔ ∃ ip, first.contains ip = true ∧ second.contains ip = true) ∧
    (whitelist.overlaps net = true ↔ ∃ ip, net.contains ip = true ∧
        ∃ entry, (entry ∈ immutableProtected ∨ entry ∈ whitelist.entries) ∧
          entry.contains ip = true) ∧ (whitelist.covers net = true →
      ∃ entry, (entry ∈ immutableProtected ∨ entry ∈ whitelist.entries) ∧
        ∀ ip, net.contains ip = true → entry.contains ip = true) := by
  refine ⟨netsOverlap_iff first second, ?_, within_of_covers⟩
  rw [overlaps_iff]
  constructor
  · rintro ⟨entry, listed, ip, inEntry, inNet⟩
    exact ⟨ip, inNet, entry, listed, inEntry⟩
  · rintro ⟨ip, inNet, entry, listed, inEntry⟩
    exact ⟨entry, listed, ip, inEntry, inNet⟩

end WhitelistManager

end HiveGuard.Core
