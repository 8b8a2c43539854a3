import Mathlib

/-!
# Fixed-width arithmetic with an overflow flag

A program built without overflow checks computes modulo the width of its integers;
one built with checks stops at the first overflow.  A `Machine` result describes
both: the value of the wrapping build, and whether the checked build stopped.
-/

namespace HiveGuard.Library

universe u

/-- A wrapped value, and whether some operation on the way to it overflowed. -/
structure Machine (α : Type u) where
  value : α
  overflowed : Bool
  deriving DecidableEq

namespace Machine

variable {α β : Type u}

instance : Monad Machine where
  pure value := ⟨value, false⟩
  bind first next :=
    ⟨(next first.value).value, first.overflowed || (next first.value).overflowed⟩

@[simp]
theorem value_pure (value : α) : (pure value : Machine α).value = value :=
  rfl

@[simp]
theorem overflowed_pure (value : α) : (pure value : Machine α).overflowed = false :=
  rfl

@[simp]
theorem value_bind (first : Machine α) (next : α → Machine β) :
    (first >>= next).value = (next first.value).value :=
  rfl

@[simp]
theorem overflowed_bind (first : Machine α) (next : α → Machine β) :
    (first >>= next).overflowed = (first.overflowed || (next first.value).overflowed) :=
  rfl

theorem pure_bind (value : α) (next : α → Machine β) : (pure value >>= next) = next value :=
  rfl

variable {width : Nat}

/-- Addition of unsigned integers below the width. -/
def add (first second : Fin width) : Machine (Fin width) :=
  ⟨first + second, decide (width ≤ first.val + second.val)⟩

theorem overflowed_add_eq_false_iff (first second : Fin width) :
    (add first second).overflowed = false ↔ first.val + second.val < width := by
  rw [add, decide_eq_false_iff_not, Nat.not_le]

theorem val_add (first second : Fin width) :
    (add first second).value.val = (first.val + second.val) % width :=
  rfl

theorem val_add_of_lt {first second : Fin width} (fits : first.val + second.val < width) :
    (add first second).value.val = first.val + second.val := by
  rw [val_add, Nat.mod_eq_of_lt fits]

/-- Multiplication of unsigned integers below the width. -/
def mul (first second : Fin width) : Machine (Fin width) :=
  ⟨first * second, decide (width ≤ first.val * second.val)⟩

theorem overflowed_mul_eq_false_iff (first second : Fin width) :
    (mul first second).overflowed = false ↔ first.val * second.val < width := by
  rw [mul, decide_eq_false_iff_not, Nat.not_le]

theorem val_mul_of_lt {first second : Fin width} (fits : first.val * second.val < width) :
    (mul first second).value.val = first.val * second.val :=
  Nat.mod_eq_of_lt fits

/-- A product that fits is returned without overflow. -/
theorem mul_eq_pure {first second product : Fin width}
    (same : first.val * second.val = product.val) : mul first second = pure product := by
  have fits : first.val * second.val < width := same ▸ product.isLt
  have value : first * second = product := Fin.ext ((val_mul_of_lt fits).trans same)
  rw [mul, value, decide_eq_false fits.not_ge]
  rfl

/-- Subtraction of unsigned integers below the width. -/
def sub (width first second : Nat) : Machine Nat :=
  ⟨(first + (width - second)) % width, decide (first < second)⟩

theorem overflowed_sub_eq_false_iff (width first second : Nat) :
    (sub width first second).overflowed = false ↔ second ≤ first := by
  rw [sub, decide_eq_false_iff_not, Nat.not_lt]

theorem val_sub_of_le {width first second : Nat} (ordered : second ≤ first)
    (fits : first < width) : (sub width first second).value = first - second := by
  have shifted : first + (width - second) = first - second + width := by omega
  rw [sub, shifted, Nat.add_mod_right, Nat.mod_eq_of_lt (by omega)]

end Machine

end HiveGuard.Library
