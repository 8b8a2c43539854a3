import HiveGuard.Library.Effect

/-!
# Actions made of primitive steps

Many actions change the state only by a sequence of primitive steps, each of
which may fail, and otherwise just read the state and compute.  Such an action
leaves a trace of steps behind: all of them returned when the action returned,
and at most one more step failed when the action failed.  A step may carry a
condition on the state it starts from.
-/

namespace HiveGuard.Library.Trace

open Library.Effect

universe u

variable {ι ε σ α β : Type u}
variable (step : ι → EStateM ε σ PUnit) (allowed : σ → ι → Prop)

/-- A sequence of allowed steps that all returned. -/
inductive Steps : σ → List ι → σ → Prop
  | nil (state : σ) : Steps state [] state
  | cons {source middle target : σ} {label : ι} {labels : List ι}
      (permitted : allowed source label)
      (run : (step label).run source = .ok PUnit.unit middle)
      (rest : Steps middle labels target) : Steps source (label :: labels) target

/-- What an action made of allowed steps can do. -/
inductive Traced (source : σ) : EStateM.Result ε σ α → Prop
  | returned {labels : List ι} {target : σ} (steps : Steps step allowed source labels target)
      (value : α) : Traced source (.ok value target)
  | stopped {labels : List ι} {target : σ} (steps : Steps step allowed source labels target)
      (error : ε) : Traced source (.error error target)
  | failed {labels : List ι} {middle target : σ} {label : ι} {error : ε}
      (steps : Steps step allowed source labels middle) (permitted : allowed middle label)
      (run : (step label).run middle = .error error target) :
      Traced source (.error error target)

variable {step allowed}

variable {source target : σ}

theorem Steps.append {middle : σ} {first second : List ι}
    (firstSteps : Steps step allowed source first middle)
    (secondSteps : Steps step allowed middle second target) :
    Steps step allowed source (first ++ second) target := by
  induction firstSteps with
  | nil state => exact secondSteps
  | cons permitted run rest ih =>
    exact .cons permitted run (ih secondSteps)

theorem Steps.single {label : ι} (permitted : allowed source label)
    (run : (step label).run source = .ok PUnit.unit target) :
    Steps step allowed source [label] target :=
  .cons permitted run (.nil target)

/-- Every step of a trace was allowed where it was made. -/
theorem Steps.permitted {labels : List ι}
    (steps : Steps step allowed source labels target) :
    ∀ label ∈ labels, ∃ state, allowed state label := by
  induction steps with
  | nil state => simp
  | @cons source middle target label labels permitted run rest ih =>
    intro other member
    rcases List.mem_cons.mp member with rfl | later
    · exact ⟨source, permitted⟩
    · exact ih other later

/-- Steps in front of an action. -/
theorem Traced.prepend {middle : σ} {labels : List ι}
    {result : EStateM.Result ε σ α} (first : Steps step allowed source labels middle)
    (rest : Traced step allowed middle result) : Traced step allowed source result := by
  cases rest with
  | returned steps value => exact .returned (first.append steps) value
  | stopped steps error => exact .stopped (first.append steps) error
  | failed steps permitted run => exact .failed (first.append steps) permitted run

theorem Traced.pure (source : σ) (value : α) :
    Traced step allowed source ((pure value : EStateM ε σ α).run source) :=
  .returned (.nil source) value

theorem Traced.throw (source : σ) (error : ε) :
    Traced step allowed source ((throw error : EStateM ε σ α).run source) :=
  .stopped (.nil source) error

theorem Traced.single {label : ι} (permitted : allowed source label) :
    Traced step allowed source ((step label).run source) := by
  cases run : (step label).run source with
  | ok value target => exact .returned (.single permitted run) value
  | error error target => exact .failed (.nil source) permitted run

theorem Traced.bind {first : EStateM ε σ α} {next : α → EStateM ε σ β}
    (firstSteps : Traced step allowed source (first.run source))
    (nextSteps : ∀ value target, first.run source = .ok value target →
      Traced step allowed target ((next value).run target)) :
    Traced step allowed source ((first >>= next).run source) := by
  rw [EStateM.run_bind]
  cases run : first.run source with
  | ok value target =>
    rw [run] at firstSteps
    cases firstSteps with
    | returned steps => exact .prepend steps (nextSteps value target run)
  | error error target =>
    rw [run] at firstSteps
    cases firstSteps with
    | stopped steps => exact .stopped steps error
    | failed steps permitted failure => exact .failed steps permitted failure

theorem Traced.get_bind {next : σ → EStateM ε σ α}
    (nextSteps : Traced step allowed source ((next source).run source)) :
    Traced step allowed source ((get >>= next).run source) :=
  nextSteps

/-- An invariant of single steps is one of whole actions. -/
theorem Traced.invariant {result : EStateM.Result ε σ α}
    (traced : Traced step allowed source result) (holds : σ → Prop)
    (kept : ∀ state label, allowed state label → holds state →
      holds (finalState ((step label).run state)))
    (initially : holds source) : holds (finalState result) := by
  have keptBySteps : ∀ {source target : σ} {labels : List ι},
      Steps step allowed source labels target → holds source → holds target := by
    intro source target labels steps
    induction steps with
    | nil state => exact id
    | cons permitted run rest ih =>
      intro before
      have after := kept _ _ permitted before
      rw [run] at after
      exact ih after
  cases traced with
  | returned steps value => exact keptBySteps steps initially
  | stopped steps error => exact keptBySteps steps initially
  | failed steps permitted run =>
    have after := kept _ _ permitted (keptBySteps steps initially)
    rwa [run] at after

end HiveGuard.Library.Trace
