import HiveGuard.Core.Net
import HiveGuard.Library.CidrOrder
import HiveGuard.Library.Sweep

/-!
# The order of networks

Networks of the `ipnet` crate are ordered by family, address and prefix length, and one
contains another of its family by its lowest and highest addresses.
-/

namespace HiveGuard.Core.IpNet

open Library.Cidr Library.Sweep

def isV4 : IpNet → Bool
  | v4 _ => true
  | v6 _ => false

def isV6 : IpNet → Bool
  | v4 _ => false
  | v6 _ => true

/-- Each network of a list is in the part of its family. -/
theorem exists_mem_families_iff {nets : List IpNet} {condition : IpNet → Prop} :
    ((∃ net ∈ nets.filter isV4, condition net) ∨ ∃ net ∈ nets.filter isV6, condition net) ↔
      ∃ net ∈ nets, condition net := by
  simp only [List.mem_filter]
  constructor
  · rintro (⟨net, ⟨member, -⟩, holds⟩ | ⟨net, ⟨member, -⟩, holds⟩)
    · exact ⟨net, member, holds⟩
    · exact ⟨net, member, holds⟩
  · rintro ⟨net, member, holds⟩
    cases net with
    | v4 block => exact .inl ⟨v4 block, ⟨member, rfl⟩, holds⟩
    | v6 block => exact .inr ⟨v6 block, ⟨member, rfl⟩, holds⟩

/-- IPv4 networks come before IPv6 networks. -/
def orderKey : IpNet → Block 32 ⊕ₗ Block 128
  | v4 net => toLex (.inl net)
  | v6 net => toLex (.inr net)

theorem orderKey_injective : Function.Injective orderKey := by
  intro first second equal
  cases first <;> cases second <;> cases equal <;> rfl

instance instLinearOrderIpNet : LinearOrder IpNet :=
  LinearOrder.lift' orderKey orderKey_injective

theorem v4_le_v4_iff {first second : Block 32} : v4 first ≤ v4 second ↔ first ≤ second :=
  Sum.Lex.inl_le_inl_iff

theorem v6_le_v6_iff {first second : Block 128} : v6 first ≤ v6 second ↔ first ≤ second :=
  Sum.Lex.inr_le_inr_iff

theorem not_v6_le_v4 {first : Block 128} {second : Block 32} : ¬v6 first ≤ v4 second :=
  Sum.Lex.not_inr_le_inl

/-- Containment of networks; networks of different families never contain each other. -/
def containsNet : IpNet → IpNet → Bool
  | v4 outer, v4 inner => outer.covers inner
  | v6 outer, v6 inner => outer.covers inner
  | _, _ => false

/-- The network has no host bits. -/
def Canonical (net : IpNet) : Prop :=
  net.trunc = net

theorem canonical_trunc (net : IpNet) : net.trunc.Canonical :=
  trunc_trunc net

theorem canonical_v4_iff {net : Block 32} : (v4 net).Canonical ↔ net.Canonical := by
  rw [Canonical, trunc, v4.injEq, Block.trunc_eq_iff]

theorem canonical_v6_iff {net : Block 128} : (v6 net).Canonical ↔ net.Canonical := by
  rw [Canonical, trunc, v6.injEq, Block.trunc_eq_iff]

theorem within_of_containsNet {outer inner : IpNet} (covered : outer.containsNet inner = true) :
    inner.Within outer := by
  cases outer with
  | v4 outer =>
    cases inner with
    | v4 inner => exact within_v4 (Block.covers_iff.mp covered)
    | v6 inner => exact absurd covered Bool.false_ne_true
  | v6 outer =>
    cases inner with
    | v4 inner => exact absurd covered Bool.false_ne_true
    | v6 inner => exact within_v6 (Block.covers_iff.mp covered)

theorem containsNet_of_le {first second : IpNet} (secondCanonical : second.Canonical)
    (ordered : first ≤ second) (shares : SharesAddress first second) :
    first.containsNet second = true := by
  cases first with
  | v4 first =>
    cases second with
    | v4 second =>
      obtain ⟨ip, inFirst, inSecond⟩ := sharesAddress_v4.mp shares
      exact Block.covers_of_le (canonical_v4_iff.mp secondCanonical)
        (v4_le_v4_iff.mp ordered) inFirst inSecond
    | v6 second => exact absurd shares not_sharesAddress_v4_v6
  | v6 first =>
    cases second with
    | v4 second => exact absurd ordered not_v6_le_v4
    | v6 second =>
      obtain ⟨ip, inFirst, inSecond⟩ := sharesAddress_v6.mp shares
      exact Block.covers_of_le (canonical_v6_iff.mp secondCanonical)
        (v6_le_v6_iff.mp ordered) inFirst inSecond

theorem containsNet_between {first middle last : IpNet} (middleCanonical : middle.Canonical)
    (firstMiddle : first ≤ middle) (middleLast : middle ≤ last)
    (covered : first.containsNet last = true) : first.containsNet middle = true := by
  -- The outer networks are of one family, and so is everything between them.
  cases first with
  | v4 first =>
    cases last with
    | v4 last =>
      cases middle with
      | v4 middle =>
        exact Block.covers_between (canonical_v4_iff.mp middleCanonical)
          (v4_le_v4_iff.mp firstMiddle) (v4_le_v4_iff.mp middleLast) covered
      | v6 middle => exact absurd middleLast not_v6_le_v4
    | v6 last => exact absurd covered Bool.false_ne_true
  | v6 first =>
    cases last with
    | v4 last => exact absurd covered Bool.false_ne_true
    | v6 last =>
      cases middle with
      | v4 middle => exact absurd firstMiddle not_v6_le_v4
      | v6 middle =>
        exact Block.covers_between (canonical_v6_iff.mp middleCanonical)
          (v6_le_v6_iff.mp firstMiddle) (v6_le_v6_iff.mp middleLast) covered

theorem nesting : Nesting Canonical containsNet fun net ip => net.contains ip = true where
  sound covered member := within_of_containsNet covered _ member
  nested secondCanonical ordered inFirst inSecond :=
    containsNet_of_le secondCanonical ordered ⟨_, inFirst, inSecond⟩
  convex := containsNet_between

end HiveGuard.Core.IpNet
