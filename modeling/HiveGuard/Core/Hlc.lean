import Mathlib

/-!
# Hybrid logical clock timestamps

Timestamps are ordered by wall time, then by the logical counter, then by the
hash of the originating node.  The order is total, and two timestamps compare
equal only when all three parts agree.
-/

namespace HiveGuard.Core

/-! The fixed-width integers of the code are `Fin` types; these instances give
them literals. -/

instance neZeroU8 : NeZero 256 :=
  ⟨by decide⟩

instance neZeroU32 : NeZero (2 ^ 32) :=
  ⟨by decide⟩

instance neZeroU64 : NeZero (2 ^ 64) :=
  ⟨by decide⟩

/-- Hybrid logical clock timestamp. -/
structure HlcTimestamp where
  wallTimeMs : Fin (2 ^ 64)
  counter : Fin (2 ^ 32)
  nodeIdHash : Fin (2 ^ 32)
  deriving DecidableEq

namespace HlcTimestamp

/-- Wall time first, then the counter, then the node hash. -/
def cmp (first second : HlcTimestamp) : Ordering :=
  (compare first.wallTimeMs second.wallTimeMs).then
    ((compare first.counter second.counter).then
      (compare first.nodeIdHash second.nodeIdHash))

/-- The timestamp as a lexicographic triple. -/
def key (stamp : HlcTimestamp) : Fin (2 ^ 64) ×ₗ Fin (2 ^ 32) ×ₗ Fin (2 ^ 32) :=
  toLex (stamp.wallTimeMs, toLex (stamp.counter, stamp.nodeIdHash))

theorem key_injective : Function.Injective key := by
  rintro ⟨firstWall, firstCounter, firstNode⟩ ⟨secondWall, secondCounter, secondNode⟩ equal
  simp only [key, toLex_inj, Prod.mk.injEq] at equal
  obtain ⟨rfl, rfl, rfl⟩ := equal
  rfl

instance : LinearOrder HlcTimestamp :=
  LinearOrder.lift' key key_injective

/-- The linear order on timestamps is the one `cmp` computes. -/
theorem cmp_eq_lt_iff (first second : HlcTimestamp) :
    first.cmp second = .lt ↔ first < second := by
  have lex : first < second ↔ key first < key second := Iff.rfl
  rw [lex, key, key, Prod.Lex.toLex_lt_toLex, Prod.Lex.toLex_lt_toLex, cmp]
  simp only [Ordering.then_eq_lt, compare_lt_iff_lt, compare_eq_iff_eq]

end HlcTimestamp

end HiveGuard.Core
