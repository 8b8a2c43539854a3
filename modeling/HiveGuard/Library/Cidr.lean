import Mathlib

/-!
# Address blocks in CIDR form

A block of `w`-bit addresses is an address together with a prefix length.  The
bits below the prefix, the host bits, need not be zero.  Membership is the
interval test between the lowest and the highest address of the block.

Two facts carry every use of blocks below.  Membership only looks at the bits
above the host part, and two blocks are therefore nested or disjoint.  In
particular a test of each block's own address against the other block decides
whether they share an address, whatever the host bits are.
-/

namespace HiveGuard.Library.Cidr

/-- A `w`-bit address with a prefix length. -/
structure Block (w : Nat) where
  addr : BitVec w
  prefixLen : Nat
  prefixLen_le : prefixLen ≤ w
  deriving DecidableEq

namespace Block

variable {w : Nat} (block : Block w)

def host (addr : BitVec w) : Block w :=
  ⟨addr, w, le_refl w⟩

/-- Number of bits below the prefix. -/
def hostBits : Nat :=
  w - block.prefixLen

/-- Ones above the host part, zeros below. -/
def netmask : BitVec w :=
  BitVec.allOnes w <<< block.hostBits

/-- The lowest address of the block. -/
def network : BitVec w :=
  block.addr &&& block.netmask

/-- The highest address of the block. -/
def broadcast : BitVec w :=
  block.addr ||| ~~~block.netmask

/-- Interval membership of an address. -/
def contains (address : BitVec w) : Bool :=
  decide (block.network ≤ address) && decide (address ≤ block.broadcast)

/-- The same block with all host bits cleared. -/
def trunc : Block w :=
  { block with addr := block.network }

@[simp]
theorem trunc_hostBits : block.trunc.hostBits = block.hostBits :=
  rfl

/-- Clearing the low bits of a number by a mask. -/
theorem and_shiftLeft_allOnes_toNat (address : BitVec w) (host : Nat) :
    (address &&& (BitVec.allOnes w <<< host)).toNat = address.toNat / 2 ^ host * 2 ^ host := by
  have shifted : address &&& (BitVec.allOnes w <<< host) = (address >>> host) <<< host := by
    apply BitVec.eq_of_getLsbD_eq
    intro i bound
    simp only [BitVec.getLsbD_and, BitVec.getLsbD_shiftLeft, BitVec.getLsbD_ushiftRight,
      BitVec.getLsbD_allOnes]
    by_cases below : i < host
    · simp [below]
    · have inside : i - host < w := by omega
      have restored : host + (i - host) = i := by omega
      simp [below, bound, inside, restored]
  rw [shifted, BitVec.toNat_shiftLeft, BitVec.toNat_ushiftRight, Nat.shiftLeft_eq,
    Nat.shiftRight_eq_div_pow]
  apply Nat.mod_eq_of_lt
  exact Nat.lt_of_le_of_lt (Nat.div_mul_le_self _ _) address.isLt

theorem network_toNat :
    block.network.toNat = block.addr.toNat / 2 ^ block.hostBits * 2 ^ block.hostBits :=
  and_shiftLeft_allOnes_toNat block.addr block.hostBits

/-- Ones in the host part, zeros above. -/
theorem not_netmask_eq :
    ~~~block.netmask = BitVec.allOnes w >>> block.prefixLen := by
  apply BitVec.eq_of_getLsbD_eq
  intro i bound
  have prefix_le := block.prefixLen_le
  simp only [netmask, hostBits, BitVec.getLsbD_not, BitVec.getLsbD_shiftLeft,
    BitVec.getLsbD_ushiftRight, BitVec.getLsbD_allOnes]
  by_cases below : i < w - block.prefixLen
  · have inside : block.prefixLen + i < w := by omega
    simp [below, bound, inside]
  · have inside : i - (w - block.prefixLen) < w := by omega
    have outside : ¬ block.prefixLen + i < w := by omega
    simp [below, bound, inside, outside]

theorem two_pow_width :
    2 ^ w = 2 ^ block.prefixLen * 2 ^ block.hostBits := by
  rw [← Nat.pow_add, hostBits, Nat.add_sub_cancel' block.prefixLen_le]

theorem not_netmask_toNat :
    (~~~block.netmask).toNat = 2 ^ block.hostBits - 1 := by
  rw [not_netmask_eq, BitVec.toNat_ushiftRight, BitVec.toNat_allOnes,
    Nat.shiftRight_eq_div_pow, two_pow_width block, Nat.mul_comm]
  have hostPositive : 0 < 2 ^ block.hostBits := Nat.two_pow_pos _
  have larger : 2 ^ block.prefixLen ≤ 2 ^ block.hostBits * 2 ^ block.prefixLen :=
    Nat.le_mul_of_pos_left _ hostPositive
  have prefixPositive : 0 < 2 ^ block.prefixLen := Nat.two_pow_pos _
  apply (Nat.div_eq_iff prefixPositive).mpr
  rw [Nat.sub_mul, Nat.one_mul]
  generalize 2 ^ block.hostBits * 2 ^ block.prefixLen = total at larger ⊢
  omega

/-- The network part and the host mask do not overlap, so their union is their
sum. -/
theorem broadcast_eq_add :
    block.broadcast = block.network + ~~~block.netmask := by
  have disjoint : block.network &&& ~~~block.netmask = 0#w := by
    apply BitVec.eq_of_getLsbD_eq
    intro i bound
    simp only [network, BitVec.getLsbD_and, BitVec.getLsbD_not, bound, decide_true,
      Bool.true_and, BitVec.getLsbD_zero]
    cases block.addr.getLsbD i <;> cases block.netmask.getLsbD i <;> rfl
  rw [BitVec.add_eq_or_of_and_eq_zero _ _ disjoint]
  apply BitVec.eq_of_getLsbD_eq
  intro i bound
  simp only [broadcast, network, BitVec.getLsbD_or, BitVec.getLsbD_and,
    BitVec.getLsbD_not, bound, decide_true, Bool.true_and]
  cases block.addr.getLsbD i <;> cases block.netmask.getLsbD i <;> rfl

theorem broadcast_toNat :
    block.broadcast.toNat = block.addr.toNat / 2 ^ block.hostBits * 2 ^ block.hostBits +
        (2 ^ block.hostBits - 1) := by
  have quotient : block.addr.toNat / 2 ^ block.hostBits < 2 ^ block.prefixLen := by
    rw [Nat.div_lt_iff_lt_mul (Nat.two_pow_pos _), ← two_pow_width]
    exact block.addr.isLt
  have scaled : (block.addr.toNat / 2 ^ block.hostBits + 1) * 2 ^ block.hostBits ≤ 2 ^ w := by
    rw [two_pow_width block]
    exact Nat.mul_le_mul_right _ quotient
  have hostPositive : 0 < 2 ^ block.hostBits := Nat.two_pow_pos _
  rw [broadcast_eq_add, BitVec.toNat_add, network_toNat, not_netmask_toNat]
  apply Nat.mod_eq_of_lt
  rw [Nat.add_mul, Nat.one_mul] at scaled
  omega

/-- Membership compares the bits above the host part. -/
theorem contains_iff (address : BitVec w) :
    block.contains address = true ↔
      address.toNat / 2 ^ block.hostBits = block.addr.toNat / 2 ^ block.hostBits := by
  have hostPositive : 0 < 2 ^ block.hostBits := Nat.two_pow_pos _
  simp only [contains, Bool.and_eq_true, decide_eq_true_eq, BitVec.le_def,
    network_toNat, broadcast_toNat]
  rw [Nat.div_eq_iff hostPositive]
  constructor
  · rintro ⟨lower, upper⟩
    exact ⟨lower, by omega⟩
  · rintro ⟨lower, upper⟩
    exact ⟨lower, by omega⟩

@[simp]
theorem contains_addr : block.contains block.addr = true :=
  (contains_iff block block.addr).mpr rfl

@[simp]
theorem contains_trunc (address : BitVec w) :
    block.trunc.contains address = block.contains address := by
  rw [Bool.eq_iff_iff, contains_iff, contains_iff, trunc_hostBits]
  have truncated : block.trunc.addr.toNat / 2 ^ block.hostBits =
      block.addr.toNat / 2 ^ block.hostBits := by
    change block.network.toNat / 2 ^ block.hostBits = _
    rw [network_toNat, Nat.mul_div_cancel _ (Nat.two_pow_pos _)]
  rw [truncated]

/-- A block with the shorter prefix that meets another block contains it. -/
theorem contains_of_common {wide narrow : Block w}
    (shorter : wide.prefixLen ≤ narrow.prefixLen) {common : BitVec w}
    (inWide : wide.contains common = true) (inNarrow : narrow.contains common = true)
    {address : BitVec w} (member : narrow.contains address = true) :
    wide.contains address = true := by
  rw [contains_iff] at inWide inNarrow member ⊢
  have host_le : narrow.hostBits ≤ wide.hostBits := by
    simp only [hostBits]
    omega
  have coarsen : ∀ value : Nat, value / 2 ^ wide.hostBits =
      value / 2 ^ narrow.hostBits / 2 ^ (wide.hostBits - narrow.hostBits) := by
    intro value
    rw [Nat.div_div_eq_div_mul, ← Nat.pow_add, Nat.add_sub_cancel' host_le]
  rw [← inWide, coarsen, coarsen common.toNat, member, inNarrow]

/-- A block holds no block of a shorter prefix. -/
theorem prefixLen_le_of_within {inner outer : Block w}
    (within : ∀ address, inner.contains address = true → outer.contains address = true) :
    outer.prefixLen ≤ inner.prefixLen := by
  by_contra longer
  have host_lt : outer.hostBits < inner.hostBits := by
    have fits := outer.prefixLen_le
    simp only [hostBits]
    omega
  have double : 2 * 2 ^ outer.hostBits ≤ 2 ^ inner.hostBits := by
    rw [← Nat.pow_succ']
    exact Nat.pow_le_pow_right (by decide) host_lt
  have positive : 0 < 2 ^ outer.hostBits := Nat.two_pow_pos _
  have ends_in : inner.contains inner.network = true ∧ inner.contains inner.broadcast = true := by
    simp only [contains, Bool.and_eq_true, decide_eq_true_eq, BitVec.le_def, network_toNat,
      broadcast_toNat]
    omega
  -- The ends of the inner block are further apart than any two addresses of the outer one.
  have first := (contains_iff outer _).mp (within _ ends_in.1)
  have last := (contains_iff outer _).mp (within _ ends_in.2)
  have same := first.trans last.symm
  rw [network_toNat, broadcast_toNat] at same
  have further := Nat.div_le_div_right (c := 2 ^ outer.hostBits)
    (show inner.addr.toNat / 2 ^ inner.hostBits * 2 ^ inner.hostBits + 2 ^ outer.hostBits ≤
      inner.addr.toNat / 2 ^ inner.hostBits * 2 ^ inner.hostBits +
        (2 ^ inner.hostBits - 1) by omega)
  rw [Nat.add_div_right _ positive] at further
  omega

/-- The two-address test: each block's own address against the other block. -/
def overlaps (first second : Block w) : Bool :=
  first.contains second.addr || second.contains first.addr

/-- The two-address test is exact for arbitrary host bits. -/
theorem overlaps_iff (first second : Block w) :
    first.overlaps second = true ↔
      ∃ address, first.contains address = true ∧ second.contains address = true := by
  simp only [overlaps, Bool.or_eq_true]
  constructor
  · rintro (inFirst | inSecond)
    · exact ⟨second.addr, inFirst, contains_addr second⟩
    · exact ⟨first.addr, contains_addr first, inSecond⟩
  · rintro ⟨address, inFirst, inSecond⟩
    rcases Nat.le_total first.prefixLen second.prefixLen with shorter | shorter
    · exact .inl (contains_of_common shorter inFirst inSecond (contains_addr second))
    · exact .inr (contains_of_common shorter inSecond inFirst (contains_addr first))

/-- Two blocks of one prefix length that share an address truncate to the same
block. -/
theorem trunc_eq_of_common {first second : Block w}
    (sameLen : first.prefixLen = second.prefixLen) {address : BitVec w}
    (inFirst : first.contains address = true) (inSecond : second.contains address = true) :
    first.trunc = second.trunc := by
  rw [contains_iff] at inFirst inSecond
  have sameHost : first.hostBits = second.hostBits := by simp only [hostBits, sameLen]
  have sameNetwork : first.network = second.network := by
    apply BitVec.eq_of_toNat_eq
    rw [network_toNat, network_toNat, ← inFirst, ← inSecond, sameHost]
  simp only [trunc, sameNetwork, sameLen]

@[simp]
theorem trunc_trunc : block.trunc.trunc = block.trunc :=
  trunc_eq_of_common rfl ((contains_trunc block block.addr).trans (contains_addr block))
    (contains_addr block)

/-- The wider block of a prefix length around the address of a block. -/
def around {len : Nat} (shorter : len ≤ block.prefixLen) : Block w :=
  ⟨block.addr, len, shorter.trans block.prefixLen_le⟩

/-- The wider block does not depend on the host bits. -/
theorem trunc_around_trunc {block : Block w} {len : Nat} (shorter : len ≤ block.prefixLen) :
    (block.trunc.around shorter).trunc = (block.around shorter).trunc := by
  have inBlock : block.contains block.network = true := by
    rw [← contains_trunc]
    exact contains_addr block.trunc
  have inAround : (block.around shorter).contains block.network = true :=
    @contains_of_common w (block.around shorter) block shorter block.addr
      (contains_addr (block.around shorter)) (contains_addr block) block.network inBlock
  exact trunc_eq_of_common rfl (contains_addr (block.trunc.around shorter)) inAround

end Block

end HiveGuard.Library.Cidr
