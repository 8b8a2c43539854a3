import HiveGuard.Library.Effect

/-!
# Ghosts beside the state

A ghost stands beside the state of a program and records what has happened, in terms that the
program itself does not keep.  The program never reads it: when the ghost is forgotten, the runs
are those of the program.
-/

namespace HiveGuard.Library.Ghost

open Library.Effect

universe u

variable {ε σ γ α β α' β' : Type u}

/-- The end of a run without the ghost. -/
def forget (view : α → β) : EStateM.Result ε (σ × γ) α → EStateM.Result ε σ β
  | .ok value target => .ok (view value) target.1
  | .error error target => .error error target.1

/-- Without the ghost the first action is the second one. -/
def Erases (view : α → β) (ghostly : EStateM ε (σ × γ) α) (plain : EStateM ε σ β) : Prop :=
  ∀ source, forget view (ghostly.run source) = plain.run source.1

/-- An action that leaves the ghost as it is. -/
def unnoticed (action : EStateM ε σ α) : EStateM ε (σ × γ) α :=
  zoom Prod.fst (fun target source => (target, source.2)) action

/-- Change only the ghost. -/
def note (change : σ → γ → γ) : EStateM ε (σ × γ) PUnit :=
  modify fun state => (state.1, change state.1 state.2)

theorem erases_pure (view : α → β) (value : α) :
    Erases view (pure value : EStateM ε (σ × γ) α) (pure (view value)) :=
  fun _ => rfl

theorem erases_throw (view : α → β) (error : ε) :
    Erases view (throw error : EStateM ε (σ × γ) α) (throw error) :=
  fun _ => rfl

theorem erases_expect (error : ε) (value : Option α) :
    Erases id (expect error value : EStateM ε (σ × γ) α) (expect error value) := by
  cases value with
  | none => exact erases_throw id error
  | some value => exact erases_pure id value

theorem erases_unnoticed (action : EStateM ε σ α) :
    Erases id (unnoticed action : EStateM ε (σ × γ) α) action := by
  intro source
  simp only [unnoticed, EStateM.run, zoom]
  cases action source.1 with
  | ok value target => rfl
  | error error target => rfl

theorem Erases.bind {view : α → β} {nextView : α' → β'} {first : EStateM ε (σ × γ) α}
    {plainFirst : EStateM ε σ β} {next : α → EStateM ε (σ × γ) α'}
    {plainNext : β → EStateM ε σ β'} (firstErases : Erases view first plainFirst)
    (nextErases : ∀ value, Erases nextView (next value) (plainNext (view value))) :
    Erases nextView (first >>= next) (plainFirst >>= plainNext) := by
  intro source
  rw [EStateM.run_bind, EStateM.run_bind, ← firstErases source]
  cases first.run source with
  | ok value middle => exact nextErases value middle
  | error error middle => rfl

/-- What is only noted can be left out. -/
theorem Erases.note_bind {view : α → β} {change : σ → γ → γ}
    {next : PUnit → EStateM ε (σ × γ) α} {plain : EStateM ε σ β}
    (nextErases : Erases view (next PUnit.unit) plain) :
    Erases view (note change >>= next) plain :=
  fun source => nextErases (source.1, change source.1 source.2)

theorem Erases.finalState {view : α → β} {ghostly : EStateM ε (σ × γ) α} {plain : EStateM ε σ β}
    (erases : Erases view ghostly plain) (source : σ × γ) :
    (finalState (ghostly.run source)).1 = Effect.finalState (plain.run source.1) := by
  rw [← erases source]
  cases ghostly.run source with
  | ok value target => rfl
  | error error target => rfl

end HiveGuard.Library.Ghost
