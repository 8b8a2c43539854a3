import Mathlib

/-!
# Reasoning about stateful fallible actions

An `EStateM ε σ` action mutates a state and may stop with an error; the
mutations made before the error stay.  A property of a long action is assembled
from the properties of its parts, either by inverting a run that returned or
failed, or by conditions on how the run may end.
-/

namespace HiveGuard.Library.Effect

universe u

variable {ε σ τ α β : Type u}

/-- The state an action leaves behind, whether it returned or failed. -/
def finalState : EStateM.Result ε σ α → σ
  | .ok _ state => state
  | .error _ state => state

@[simp]
theorem finalState_ok (value : α) (state : σ) :
    finalState (.ok value state : EStateM.Result ε σ α) = state :=
  rfl

@[simp]
theorem finalState_error (error : ε) (state : σ) :
    finalState (.error error state : EStateM.Result ε σ α) = state :=
  rfl

/-- Did the action return a value? -/
def succeeded : EStateM.Result ε σ α → Bool
  | .ok _ _ => true
  | .error _ _ => false

/-- The value an action returned. -/
def returned : EStateM.Result ε σ α → Option α
  | .ok value _ => some value
  | .error _ _ => none

theorem eq_ok_of_returned {result : EStateM.Result ε σ α} {value : α}
    (found : returned result = some value) : result = .ok value (finalState result) := by
  cases result with
  | ok other state =>
    cases found
    rfl
  | error error state => contradiction

theorem exists_of_succeeded (result : EStateM.Result ε σ α) (success : succeeded result = true) :
    ∃ value state, result = .ok value state := by
  cases result with
  | ok value state => exact ⟨value, state, rfl⟩
  | error error state => contradiction

theorem eq_ok_of_succeeded {result : EStateM.Result ε σ PUnit}
    (success : succeeded result = true) : result = .ok PUnit.unit (finalState result) := by
  obtain ⟨value, state, rfl⟩ := exists_of_succeeded result success
  rfl

variable {first : EStateM ε σ α}

/-- Actions are equal when all their runs are. -/
theorem ext_run {second : EStateM ε σ α}
    (agree : ∀ source, first.run source = second.run source) : first = second :=
  funext agree

variable {source target : σ}

/-- A sequence returns exactly when both of its parts do. -/
theorem bind_eq_ok_iff {next : α → EStateM ε σ β} {result : β} :
    (first >>= next).run source = .ok result target ↔
      ∃ value middle, first.run source = .ok value middle ∧
        (next value).run middle = .ok result target := by
  rw [EStateM.run_bind]
  cases first.run source with
  | ok value middle => simp [and_assoc]
  | error error middle => simp

/-- A sequence that fails does so in its first or in its second part. -/
theorem bind_eq_error_iff {next : α → EStateM ε σ β} {failure : ε} :
    (first >>= next).run source = .error failure target ↔ first.run source = .error failure target ∨
        ∃ value middle, first.run source = .ok value middle ∧
          (next value).run middle = .error failure target := by
  rw [EStateM.run_bind]
  cases first.run source with
  | ok value middle => simp [and_assoc]
  | error error middle => simp

/-- A handler starts from the state the failed action left. -/
theorem run_tryCatch (action : EStateM ε σ α) (handler : ε → EStateM ε σ α) (source : σ) :
    (tryCatch action handler).run source =
      match action.run source with
      | .ok value target => .ok value target
      | .error error target => (handler error).run target := by
  simp only [tryCatch, tryCatchThe, MonadExceptOf.tryCatch, EStateM.tryCatch, EStateM.run]
  cases action source <;> rfl

/-- A value that must be there. -/
def expect (error : ε) : Option α → EStateM ε σ α
  | some value => pure value
  | none => throw error

/-! ## Conditions on the end of a run -/

/-- The run from `source` ends as required: by returning a value or by failing,
with a condition on the final state for each. -/
def Ends (action : EStateM ε σ α) (source : σ) (returns : α → σ → Prop)
    (fails : ε → σ → Prop) : Prop :=
  match action.run source with
  | .ok value target => returns value target
  | .error error target => fails error target

section Rules

variable {returns : α → σ → Prop} {fails : ε → σ → Prop} {source : σ}

theorem Ends.bind {first : EStateM ε σ β} {next : β → EStateM ε σ α}
    (firstEnds : Ends first source (fun value target => Ends (next value) target returns fails)
      fails) : Ends (first >>= next) source returns fails := by
  rw [Ends] at firstEnds ⊢
  rw [EStateM.run_bind]
  cases run : first.run source with
  | ok value middle =>
    rw [run] at firstEnds
    exact firstEnds
  | error error middle =>
    rw [run] at firstEnds
    exact firstEnds

theorem Ends.get_bind {next : σ → EStateM ε σ α}
    (nextEnds : Ends (next source) source returns fails) :
    Ends (get >>= next) source returns fails :=
  nextEnds

theorem Ends.set_bind {state : σ} {next : PUnit → EStateM ε σ α}
    (nextEnds : Ends (next PUnit.unit) state returns fails) :
    Ends (set state >>= next) source returns fails :=
  nextEnds

theorem Ends.modify_bind {change : σ → σ} {next : PUnit → EStateM ε σ α}
    (nextEnds : Ends (next PUnit.unit) (change source) returns fails) :
    Ends (modify change >>= next) source returns fails :=
  nextEnds

theorem Ends.expect {value : Option α} {error : ε}
    (present : ∀ result, value = some result → returns result source)
    (absent : value = none → fails error source) :
    Ends (expect error value) source returns fails := by
  cases value with
  | none => exact absent rfl
  | some result => exact present result rfl

variable {action : EStateM ε σ α}

/-- Two conditions on the same run. -/
theorem Ends.and {others : α → σ → Prop} {otherFails : ε → σ → Prop}
    (first : Ends action source returns fails) (second : Ends action source others otherFails) :
    Ends action source (fun value target => returns value target ∧ others value target)
      fun error target => fails error target ∧ otherFails error target := by
  rw [Ends] at first second ⊢
  cases run : action.run source with
  | ok value target =>
    rw [run] at first second
    exact ⟨first, second⟩
  | error error target =>
    rw [run] at first second
    exact ⟨first, second⟩

theorem Ends.imp {stronger : α → σ → Prop} {strongerFails : ε → σ → Prop}
    (ends : Ends action source stronger strongerFails)
    (returned : ∀ value target, stronger value target → returns value target)
    (failed : ∀ error target, strongerFails error target → fails error target) :
    Ends action source returns fails := by
  rw [Ends] at ends ⊢
  cases run : action.run source with
  | ok value target =>
    rw [run] at ends
    exact returned value target ends
  | error error target =>
    rw [run] at ends
    exact failed error target ends

/-- The error of a failed run is exchanged for another. -/
theorem Ends.adaptExcept {ε' : Type u} {change : ε → ε'} {changedFails : ε' → σ → Prop}
    (ends : Ends action source returns fun error => changedFails (change error)) :
    Ends (action.adaptExcept change) source returns changedFails := by
  rw [Ends] at ends ⊢
  simp only [EStateM.run, EStateM.adaptExcept] at ends ⊢
  cases run : action source with
  | ok value target =>
    rw [run] at ends
    exact ends
  | error error target =>
    rw [run] at ends
    exact ends

/-- A condition on both kinds of end is one on the final state. -/
theorem Ends.finalState {reached : σ → Prop}
    (ends : Ends action source (fun _ => reached) fun _ => reached) :
    reached (finalState (action.run source)) := by
  rw [Ends] at ends
  cases run : action.run source with
  | ok value target =>
    rw [run] at ends
    exact ends
  | error error target =>
    rw [run] at ends
    exact ends

theorem Ends.of_succeeded (ends : Ends action source returns fails)
    (success : succeeded (action.run source) = true) :
    ∃ value, returns value (Effect.finalState (action.run source)) := by
  rw [Ends] at ends
  cases run : action.run source with
  | ok value target =>
    rw [run] at ends
    exact ⟨value, ends⟩
  | error error target =>
    rw [run] at success
    contradiction

theorem Ends.of_failed (ends : Ends action source returns fails)
    (failure : succeeded (action.run source) = false) :
    ∃ error, fails error (Effect.finalState (action.run source)) := by
  rw [Ends] at ends
  cases run : action.run source with
  | ok value target =>
    rw [run] at failure
    contradiction
  | error error target =>
    rw [run] at ends
    exact ⟨error, ends⟩

end Rules

/-! ## Actions on a part of the state -/

/-- Run an action on one part of a larger state. -/
def zoom (part : σ → τ) (update : τ → σ → σ) (action : EStateM ε τ α) : EStateM ε σ α :=
  fun state =>
    match action.run (part state) with
    | .ok value changed => .ok value (update changed state)
    | .error error changed => .error error (update changed state)

variable {part : σ → τ} {update : τ → σ → σ} {action : EStateM ε τ α}

theorem zoom_eq_ok_iff {value : α} :
    (zoom part update action).run source = .ok value target ↔
      ∃ changed, action.run (part source) = .ok value changed ∧ target = update changed source := by
  simp only [EStateM.run, zoom]
  cases actionRun : action (part source) with
  | ok result changed =>
    simp only [EStateM.Result.ok.injEq]
    constructor
    · rintro ⟨rfl, rfl⟩
      exact ⟨changed, ⟨rfl, rfl⟩, rfl⟩
    · rintro ⟨other, ⟨rfl, rfl⟩, rfl⟩
      exact ⟨rfl, rfl⟩
  | error error changed => simp

theorem zoom_eq_error_iff {error : ε} :
    (zoom part update action).run source = .error error target ↔
      ∃ changed, action.run (part source) = .error error changed ∧
        target = update changed source := by
  simp only [EStateM.run, zoom]
  cases actionRun : action (part source) with
  | ok result changed => simp
  | error failure changed =>
    simp only [EStateM.Result.error.injEq]
    constructor
    · rintro ⟨rfl, rfl⟩
      exact ⟨changed, ⟨rfl, rfl⟩, rfl⟩
    · rintro ⟨other, ⟨rfl, rfl⟩, rfl⟩
      exact ⟨rfl, rfl⟩

theorem Ends.zoom
    {returns : α → σ → Prop} {fails : ε → σ → Prop}
    (ends : Ends action (part source) (fun value changed => returns value (update changed source))
      fun error changed => fails error (update changed source)) :
    Ends (zoom part update action) source returns fails := by
  rw [Ends] at ends ⊢
  simp only [EStateM.run, Effect.zoom] at ends ⊢
  cases run : action (part source) with
  | ok value changed =>
    rw [run] at ends
    exact ends
  | error error changed =>
    rw [run] at ends
    exact ends

theorem finalState_zoom (part : σ → τ) (update : τ → σ → σ) (action : EStateM ε τ α) (source : σ) :
    finalState ((zoom part update action).run source) =
      update (finalState (action.run (part source))) source := by
  simp only [EStateM.run, zoom]
  cases action (part source) <;> rfl

end HiveGuard.Library.Effect
