import HiveGuard.Library.Cidr

/-!
# Addresses and networks of both families

`IpAddr` and `IpNet` follow the standard library's and the `ipnet` crate's
types.  A network keeps the address it was built from, host bits included;
`trunc` clears them.  Addresses and networks of different families never match.
-/

namespace HiveGuard.Core

open Library.Cidr

inductive IpAddr where
  | v4 (addr : BitVec 32)
  | v6 (addr : BitVec 128)
  deriving DecidableEq

/-- An IPv4 or IPv6 network, possibly with host bits set. -/
inductive IpNet where
  | v4 (net : Block 32)
  | v6 (net : Block 128)
  deriving DecidableEq

namespace IpNet

/-- The address the network was written with. -/
def addr : IpNet → IpAddr
  | v4 net => .v4 net.addr
  | v6 net => .v6 net.addr

def prefixLen : IpNet → Nat
  | v4 net => net.prefixLen
  | v6 net => net.prefixLen

/-- Membership of an address; networks hold addresses of their own family
only. -/
def contains : IpNet → IpAddr → Bool
  | v4 net, .v4 ip => net.contains ip
  | v6 net, .v6 ip => net.contains ip
  | _, _ => false

/-- The network with its host bits cleared. -/
def trunc : IpNet → IpNet
  | v4 net => v4 net.trunc
  | v6 net => v6 net.trunc

/-- `IpNet::new`: rejects a prefix longer than the address. -/
def new (ip : IpAddr) (len : Nat) : Option IpNet :=
  match ip with
  | .v4 addr => if fits : len ≤ 32 then some (v4 ⟨addr, len, fits⟩) else none
  | .v6 addr => if fits : len ≤ 128 then some (v6 ⟨addr, len, fits⟩) else none

/-- The IPv4 network of an address and a prefix length, at most the whole address. -/
def ofV4 (addr : BitVec 32) (len : Nat) : IpNet :=
  v4 ⟨addr, min len 32, Nat.min_le_right len 32⟩

/-- The two networks have an address in common. -/
def SharesAddress (first second : IpNet) : Prop :=
  ∃ ip, first.contains ip = true ∧ second.contains ip = true

@[simp]
theorem contains_trunc (net : IpNet) (ip : IpAddr) :
    net.trunc.contains ip = net.contains ip := by
  cases net <;> cases ip <;> simp [contains, trunc]

@[simp]
theorem trunc_trunc (net : IpNet) : net.trunc.trunc = net.trunc := by
  cases net <;> simp [trunc]

theorem SharesAddress.symm {first second : IpNet} (shares : SharesAddress first second) :
    SharesAddress second first := by
  obtain ⟨ip, inFirst, inSecond⟩ := shares
  exact ⟨ip, inSecond, inFirst⟩

@[simp]
theorem sharesAddress_trunc_left {first second : IpNet} :
    SharesAddress first.trunc second ↔ SharesAddress first second := by
  simp [SharesAddress]

@[simp]
theorem sharesAddress_trunc_right {first second : IpNet} :
    SharesAddress first second.trunc ↔ SharesAddress first second := by
  simp [SharesAddress]

theorem sharesAddress_v4 {first second : Block 32} :
    SharesAddress (v4 first) (v4 second) ↔
      ∃ ip, first.contains ip = true ∧ second.contains ip = true := by
  constructor
  · rintro ⟨ip, inFirst, inSecond⟩
    cases ip with
    | v4 ip => exact ⟨ip, inFirst, inSecond⟩
    | v6 ip => simp [contains] at inFirst
  · rintro ⟨ip, inFirst, inSecond⟩
    exact ⟨.v4 ip, inFirst, inSecond⟩

theorem sharesAddress_v6 {first second : Block 128} :
    SharesAddress (v6 first) (v6 second) ↔
      ∃ ip, first.contains ip = true ∧ second.contains ip = true := by
  constructor
  · rintro ⟨ip, inFirst, inSecond⟩
    cases ip with
    | v4 ip => simp [contains] at inFirst
    | v6 ip => exact ⟨ip, inFirst, inSecond⟩
  · rintro ⟨ip, inFirst, inSecond⟩
    exact ⟨.v6 ip, inFirst, inSecond⟩

theorem not_sharesAddress_v4_v6 {first : Block 32} {second : Block 128} :
    ¬SharesAddress (v4 first) (v6 second) := by
  rintro ⟨ip, inFirst, inSecond⟩
  cases ip <;> simp [contains] at inFirst inSecond

/-- Every address of the inner network is one of the outer network. -/
def Within (inner outer : IpNet) : Prop :=
  ∀ ip, inner.contains ip = true → outer.contains ip = true

theorem within_v4 {inner outer : Block 32}
    (within : ∀ ip, inner.contains ip = true → outer.contains ip = true) :
    (v4 inner).Within (v4 outer) := by
  intro ip member
  cases ip with
  | v4 ip => exact within ip member
  | v6 ip => simp [contains] at member

theorem within_v6 {inner outer : Block 128}
    (within : ∀ ip, inner.contains ip = true → outer.contains ip = true) :
    (v6 inner).Within (v6 outer) := by
  intro ip member
  cases ip with
  | v4 ip => simp [contains] at member
  | v6 ip => exact within ip member

/-- Of two networks that meet, the one with the longer prefix is within the other. -/
theorem SharesAddress.within {inner outer : IpNet} (shares : SharesAddress inner outer)
    (longer : outer.prefixLen ≤ inner.prefixLen) : inner.Within outer := by
  cases inner with
  | v4 inner =>
    cases outer with
    | v4 outer =>
      obtain ⟨common, inInner, inOuter⟩ := sharesAddress_v4.mp shares
      exact within_v4 fun ip => Block.contains_of_common longer inOuter inInner
    | v6 outer => exact absurd shares not_sharesAddress_v4_v6
  | v6 inner =>
    cases outer with
    | v4 outer => exact absurd shares.symm not_sharesAddress_v4_v6
    | v6 outer =>
      obtain ⟨common, inInner, inOuter⟩ := sharesAddress_v6.mp shares
      exact within_v6 fun ip => Block.contains_of_common longer inOuter inInner

/-- Networks of one length that meet are the same but for their host bits. -/
theorem SharesAddress.trunc_eq {first second : IpNet} (shares : SharesAddress first second)
    (sameLen : first.prefixLen = second.prefixLen) : first.trunc = second.trunc := by
  cases first with
  | v4 first =>
    cases second with
    | v4 second =>
      obtain ⟨common, inFirst, inSecond⟩ := sharesAddress_v4.mp shares
      exact congrArg v4 (Block.trunc_eq_of_common sameLen inFirst inSecond)
    | v6 second => exact absurd shares not_sharesAddress_v4_v6
  | v6 first =>
    cases second with
    | v4 second => exact absurd shares.symm not_sharesAddress_v4_v6
    | v6 second =>
      obtain ⟨common, inFirst, inSecond⟩ := sharesAddress_v6.mp shares
      exact congrArg v6 (Block.trunc_eq_of_common sameLen inFirst inSecond)

theorem contains_addr (net : IpNet) : net.contains net.addr = true := by
  cases net with
  | v4 block => exact Block.contains_addr block
  | v6 block => exact Block.contains_addr block

/-- A network that holds another one has no longer prefix. -/
theorem Within.prefixLen_le {inner outer : IpNet} (within : inner.Within outer) :
    outer.prefixLen ≤ inner.prefixLen := by
  have common := within inner.addr inner.contains_addr
  cases inner with
  | v4 inner =>
    cases outer with
    | v4 outer => exact Block.prefixLen_le_of_within fun ip => within (.v4 ip)
    | v6 outer => contradiction
  | v6 inner =>
    cases outer with
    | v4 outer => contradiction
    | v6 outer => exact Block.prefixLen_le_of_within fun ip => within (.v6 ip)

/-- A network made from the address of a network. -/
theorem addr_of_new {ip : IpAddr} {len : Nat} {net : IpNet} (made : new ip len = some net) :
    net.addr = ip ∧ net.prefixLen = len := by
  cases ip with
  | v4 ip =>
    simp only [new, Option.dite_none_right_eq_some, Option.some.injEq] at made
    obtain ⟨fits, rfl⟩ := made
    exact ⟨rfl, rfl⟩
  | v6 ip =>
    simp only [new, Option.dite_none_right_eq_some, Option.some.injEq] at made
    obtain ⟨fits, rfl⟩ := made
    exact ⟨rfl, rfl⟩

theorem new_addr (net : IpNet) : new net.addr net.prefixLen = some net := by
  cases net with
  | v4 block => exact dif_pos block.prefixLen_le
  | v6 block => exact dif_pos block.prefixLen_le

/-- The network of the same length around one of its addresses. -/
theorem new_of_contains {net : IpNet} {ip : IpAddr} (member : net.contains ip = true) :
    ∃ around, new ip net.prefixLen = some around ∧ around.trunc = net.trunc := by
  have made : ∃ around, new ip net.prefixLen = some around := by
    cases net with
    | v4 block =>
      cases ip with
      | v4 ip => exact ⟨_, dif_pos block.prefixLen_le⟩
      | v6 ip => contradiction
    | v6 block =>
      cases ip with
      | v4 ip => contradiction
      | v6 ip => exact ⟨_, dif_pos block.prefixLen_le⟩
  obtain ⟨around, made⟩ := made
  obtain ⟨addr_eq, len_eq⟩ := addr_of_new made
  have shares : SharesAddress around net := ⟨ip, addr_eq ▸ around.contains_addr, member⟩
  exact ⟨around, made, shares.trunc_eq len_eq⟩

@[simp]
theorem prefixLen_trunc (net : IpNet) : net.trunc.prefixLen = net.prefixLen := by
  cases net <;> rfl

/-- A network around another one is the same with or without the inner host bits. -/
theorem new_addr_trunc {net : IpNet} {len : Nat} (shorter : len ≤ net.prefixLen) :
    (new net.trunc.addr len).map trunc = (new net.addr len).map trunc := by
  cases net with
  | v4 block =>
    have fits : len ≤ 32 := shorter.trans block.prefixLen_le
    have blocks_eq := Block.trunc_around_trunc shorter
    simp only [addr, trunc, new, dif_pos fits, Option.map_some]
    exact congrArg (fun block => some (v4 block)) blocks_eq
  | v6 block =>
    have fits : len ≤ 128 := shorter.trans block.prefixLen_le
    have blocks_eq := Block.trunc_around_trunc shorter
    simp only [addr, trunc, new, dif_pos fits, Option.map_some]
    exact congrArg (fun block => some (v6 block)) blocks_eq

end IpNet

/-- Do two CIDR blocks intersect?  Each block's address is tested against the
other block. -/
def netsOverlap (first second : IpNet) : Bool :=
  first.contains second.addr || second.contains first.addr

/-- The test by two addresses decides whether the networks have any address in
common, for both families and any host bits. -/
theorem netsOverlap_iff (first second : IpNet) :
    netsOverlap first second = true ↔ IpNet.SharesAddress first second := by
  cases first with
  | v4 first =>
    cases second with
    | v4 second => exact (Block.overlaps_iff first second).trans IpNet.sharesAddress_v4.symm
    | v6 second => exact iff_of_false Bool.false_ne_true IpNet.not_sharesAddress_v4_v6
  | v6 first =>
    cases second with
    | v4 second =>
      exact iff_of_false Bool.false_ne_true fun shares =>
        IpNet.not_sharesAddress_v4_v6 shares.symm
    | v6 second => exact (Block.overlaps_iff first second).trans IpNet.sharesAddress_v6.symm

end HiveGuard.Core
