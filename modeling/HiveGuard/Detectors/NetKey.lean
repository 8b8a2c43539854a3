import HiveGuard.Core.NetOrder
import HiveGuard.Detectors.Event

/-!
# Counting keys of addresses

Detectors count IPv6 sources by a prefix, and some count whole subnets.  The networks they
count by are truncated, so that all their addresses lead to the same one.
-/

namespace HiveGuard.Detectors.NetKey

open HiveGuard.Core

theorem length_le_width (length : Fin 256) :
    (if length.val = 0 ∨ 128 ≤ length.val then 128 else length.val) ≤ 128 := by
  split <;> omega

/-- The network a source is counted by: an IPv4 address itself, an IPv6 address with its
prefix. -/
def sourceKey (ip : IpAddr) (ipv6Prefix : Fin 256) : IpNet :=
  match ip with
  | .v4 addr => .v4 (.host addr)
  | .v6 addr =>
    (IpNet.v6 ⟨addr, if ipv6Prefix.val = 0 ∨ 128 ≤ ipv6Prefix.val then 128 else ipv6Prefix.val,
      length_le_width ipv6Prefix⟩).trunc

/-- The subnet of an address for its family's prefix; the prefix zero turns it off. -/
def subnetOf (ip : IpAddr) (v4Prefix v6Prefix : Fin 256) : Option IpNet :=
  match ip with
  | .v4 addr =>
    if 0 < v4Prefix.val then (IpNet.new (.v4 addr) (min v4Prefix.val 32)).map IpNet.trunc
    else none
  | .v6 addr =>
    if 0 < v6Prefix.val then (IpNet.new (.v6 addr) (min v6Prefix.val 128)).map IpNet.trunc
    else none

/-- A subnet holds the address it was made for, and has no host bits. -/
theorem subnetOf_spec {ip : IpAddr} {v4Prefix v6Prefix : Fin 256} {subnet : IpNet}
    (made : subnetOf ip v4Prefix v6Prefix = some subnet) :
    subnet.contains ip = true ∧ subnet.Canonical := by
  have truncated : ∀ len, (IpNet.new ip len).map IpNet.trunc = some subnet →
      subnet.contains ip = true ∧ subnet.Canonical := by
    intro len mapped
    obtain ⟨net, isNew, rfl⟩ := Option.map_eq_some_iff.mp mapped
    refine ⟨?_, IpNet.canonical_trunc net⟩
    rw [IpNet.contains_trunc, ← (IpNet.addr_of_new isNew).1]
    exact IpNet.contains_addr net
  cases ip with
  | v4 addr =>
    rw [subnetOf, Option.ite_none_right_eq_some] at made
    exact truncated _ made.2
  | v6 addr =>
    rw [subnetOf, Option.ite_none_right_eq_some] at made
    exact truncated _ made.2

end HiveGuard.Detectors.NetKey
