import Mathlib

/-!
# Functions that may panic

A function with an optional result can end in three ways: with a value, with nothing,
or in a panic.  A computation is a value of `Option (Option α)`; the outer `none` is the
panic.  `Returns` says that there is none, with one rule for each way of composing.
-/

namespace HiveGuard.Library

/-- A computation that may end with nothing or panic. -/
def Fallible (α : Type) : Type :=
  Option (Option α)

namespace Fallible

variable {α β : Type}

instance instMonad : Monad Fallible where
  pure value := some (some value)
  bind computation next :=
    match computation with
    | none => none
    | some none => some none
    | some (some value) => next value

/-- An optional value; nothing ends the computation, as the `?` operator does. -/
def attempt (value : Option α) : Fallible α :=
  some value

/-- An operation that panics where it has no result. -/
def checked (value : Option α) : Fallible α :=
  value.map some

/-- The computation ends with a value. -/
def Produces (computation : Fallible α) : Prop :=
  ∃ value, computation = pure value

/-- The computation does not panic. -/
def Returns (computation : Fallible α) : Prop :=
  computation ≠ none

instance instDecidableReturns (computation : Fallible α) : Decidable (Returns computation) :=
  match computation with
  | none => isFalse fun returns => returns rfl
  | some _ => isTrue (Option.some_ne_none _)

section Rules

variable {computation : Fallible α} {next : α → Fallible β}

@[simp]
theorem returns_pure (value : α) : Returns (pure value : Fallible α) :=
  Option.some_ne_none _

@[simp]
theorem returns_attempt (value : Option α) : Returns (attempt value) :=
  Option.some_ne_none _

theorem returns_bind (first : Returns computation) (later : ∀ value, Returns (next value)) :
    Returns (computation >>= next) := by
  rcases computation with _ | _ | value
  · exact absurd rfl first
  · exact Option.some_ne_none _
  · exact later value

theorem returns_bind_iff : Returns (computation >>= next) ↔
    Returns computation ∧ ∀ value, computation = pure value → Returns (next value) := by
  rcases computation with _ | _ | value
  · exact iff_of_false (fun returns => returns rfl) (fun returns => returns.1 rfl)
  · refine iff_of_true (Option.some_ne_none _) ⟨Option.some_ne_none _, ?_⟩
    intro value same
    cases same
  · constructor
    · intro returns
      refine ⟨Option.some_ne_none _, ?_⟩
      intro other same
      cases same
      exact returns
    · exact fun returns => returns.2 value rfl

theorem produces_pure (value : α) : Produces (pure value : Fallible α) :=
  ⟨value, rfl⟩

theorem not_produces_attempt_none : ¬Produces (attempt none : Fallible α) := by
  rintro ⟨value, same⟩
  cases same

/-- A computation that returns has a value or nothing. -/
theorem returns_iff : Returns computation ↔ Produces computation ∨ computation = attempt none := by
  rcases computation with _ | _ | value
  · refine iff_of_false (fun returns => returns rfl) ?_
    rintro (⟨value, same⟩ | same) <;> cases same
  · exact iff_of_true (Option.some_ne_none _) (.inr rfl)
  · exact iff_of_true (Option.some_ne_none _) (.inl ⟨value, rfl⟩)

theorem attempt_bind_some (value : α) : (attempt (some value) >>= next) = next value :=
  rfl

theorem attempt_bind_none : (attempt none >>= next) = (attempt none : Fallible β) :=
  rfl

theorem checked_bind_some (value : α) : (checked (some value) >>= next) = next value :=
  rfl

theorem checked_bind_none : (checked none >>= next) = (none : Fallible β) :=
  rfl

end Rules

end Fallible

end HiveGuard.Library
