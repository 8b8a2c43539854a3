import HiveGuard.Library.Cidr

/-!
# The order of address blocks

Blocks are ordered by address and then by prefix length.  Among blocks without host bits
the outer one of a nested pair comes first, and a block that comes between the two is
inside the outer one as well.
-/

namespace HiveGuard.Library.Cidr.Block

variable {w : Nat}

/-- Address first, prefix length second. -/
def orderKey (block : Block w) : Nat ×ₗ Nat :=
  toLex (block.addr.toNat, block.prefixLen)

theorem orderKey_injective : Function.Injective (orderKey (w := w)) := by
  intro first second equal
  have parts : (first.addr.toNat, first.prefixLen) = (second.addr.toNat, second.prefixLen) :=
    equal
  obtain ⟨sameAddr, samePrefixLen⟩ := Prod.mk.inj parts
  rw [BitVec.toNat_inj] at sameAddr
  cases first
  cases second
  subst sameAddr samePrefixLen
  rfl

instance instLinearOrderBlock : LinearOrder (Block w) :=
  LinearOrder.lift' orderKey orderKey_injective

theorem le_iff {first second : Block w} : first ≤ second ↔ first.addr < second.addr ∨
      first.addr = second.addr ∧ first.prefixLen ≤ second.prefixLen := by
  rw [BitVec.lt_def, ← BitVec.toNat_inj]
  exact Prod.Lex.toLex_le_toLex

/-- The block has no host bits. -/
def Canonical (block : Block w) : Prop :=
  block.network = block.addr

theorem trunc_eq_iff {block : Block w} : block.trunc = block ↔ block.Canonical := by
  rw [trunc, Canonical]
  constructor
  · intro equal
    exact congrArg addr equal
  · intro equal
    rw [equal]

/-- Containment of blocks by their lowest and highest addresses. -/
def covers (outer inner : Block w) : Bool :=
  decide (outer.network ≤ inner.network) && decide (inner.broadcast ≤ outer.broadcast)

theorem contains_bounds {block : Block w} {address : BitVec w} :
    block.contains address = true ↔ block.network ≤ address ∧ address ≤ block.broadcast := by
  simp [contains]

theorem network_le_broadcast (block : Block w) : block.network ≤ block.broadcast := by
  obtain ⟨lower, upper⟩ := contains_bounds.mp (contains_addr block)
  exact BitVec.le_trans lower upper

theorem covers_iff {outer inner : Block w} : outer.covers inner = true ↔
    ∀ address, inner.contains address = true → outer.contains address = true := by
  simp only [covers, Bool.and_eq_true, decide_eq_true_eq, contains_bounds]
  constructor
  · rintro ⟨lower, upper⟩ address ⟨above, below⟩
    exact ⟨BitVec.le_trans lower above, BitVec.le_trans below upper⟩
  · intro within
    have ordered := inner.network_le_broadcast
    exact ⟨(within inner.network ⟨BitVec.le_refl _, ordered⟩).1,
      (within inner.broadcast ⟨ordered, BitVec.le_refl _⟩).2⟩

/-- The first of two blocks that meet cannot be the inner one, as that would start
later or be no shorter. -/
theorem covers_of_le {first second : Block w} {address : BitVec w}
    (secondCanonical : second.Canonical) (ordered : first ≤ second)
    (inFirst : first.contains address = true) (inSecond : second.contains address = true) :
    first.covers second = true := by
  rw [covers_iff]
  intro other member
  rcases Nat.lt_or_ge second.prefixLen first.prefixLen with shorter | longer
  · have inner : second.contains first.addr = true :=
      contains_of_common (Nat.le_of_lt shorter) inSecond inFirst (contains_addr first)
    have starts : second.addr ≤ first.addr := by
      rw [← secondCanonical]
      exact (contains_bounds.mp inner).1
    rcases le_iff.mp ordered with before | ⟨-, notShorter⟩
    · exact absurd starts (BitVec.not_le.mpr before)
    · omega
  · exact contains_of_common longer inFirst inSecond member

theorem addr_le_of_le {first second : Block w} (ordered : first ≤ second) :
    first.addr ≤ second.addr := by
  rcases le_iff.mp ordered with before | ⟨equal, -⟩
  · exact BitVec.le_of_lt before
  · rw [equal]
    exact BitVec.le_refl _

/-- A block between the outer and the inner one starts inside the outer one. -/
theorem covers_between {first middle last : Block w} (middleCanonical : middle.Canonical)
    (firstMiddle : first ≤ middle) (middleLast : middle ≤ last)
    (covered : first.covers last = true) : first.covers middle = true := by
  have firstStart := contains_bounds.mp (contains_addr first)
  have lastStart := contains_bounds.mp (covers_iff.mp covered last.addr (contains_addr last))
  have middleStart : first.contains middle.addr = true :=
    contains_bounds.mpr ⟨BitVec.le_trans firstStart.1 (addr_le_of_le firstMiddle),
      BitVec.le_trans (addr_le_of_le middleLast) lastStart.2⟩
  exact covers_of_le middleCanonical firstMiddle middleStart (contains_addr middle)

end HiveGuard.Library.Cidr.Block
