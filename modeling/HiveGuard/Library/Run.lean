import Mathlib

/-!
# Running a machine for so many steps

A deterministic machine is a partial step function on its states, as in Mathlib's
`StateTransition`; it halts where there is no next state.  If a weight falls with every step,
running it for as many steps as the weight reaches the state in which it halts.
-/

namespace HiveGuard.Library.Run

open Relation StateTransition

variable {σ : Type} (step : σ → Option σ)

/-- Make so many steps, or fewer if the machine halts before. -/
def runFor : Nat → σ → σ
  | 0, state => state
  | steps + 1, state => (step state).elim state (runFor steps)

variable {step} {state target : σ}

theorem Reaches.head {next : σ} (stepped : step state = some next)
    (reaches : Reaches step next target) : Reaches step state target :=
  ReflTransGen.head stepped reaches

/-- What a step keeps holds in every state that is reached. -/
theorem Reaches.keeps {property : σ → Prop}
    (kept : ∀ before after, step before = some after → property before → property after)
    (reaches : Reaches step state target) (holds : property state) : property target := by
  induction reaches with
  | refl => exact holds
  | tail _ stepped ih => exact kept _ _ stepped ih

section Weight

variable {weight : σ → Nat}

/-- With enough steps the machine reaches the state in which it halts. -/
theorem reaches_runFor
    (falls : ∀ before after, step before = some after → weight after < weight before)
    {steps : Nat} (enough : weight state ≤ steps) :
    Reaches step state (runFor step steps state) ∧ step (runFor step steps state) = none := by
  induction steps generalizing state with
  | zero =>
    refine ⟨ReflTransGen.refl, ?_⟩
    cases stepped : step state with
    | none => exact stepped
    | some next =>
      have lighter := falls state next stepped
      omega
  | succ steps ih =>
    rw [runFor]
    cases stepped : step state with
    | none => exact ⟨ReflTransGen.refl, stepped⟩
    | some next =>
      have lighter := falls state next stepped
      obtain ⟨reaches, halts⟩ := @ih next (by omega)
      exact ⟨Reaches.head stepped reaches, halts⟩

/-- Whatever halting state is reached, running long enough ends in it. -/
theorem runFor_eq_of_reaches
    (falls : ∀ before after, step before = some after → weight after < weight before)
    {steps : Nat} (enough : weight state ≤ steps) (reaches : Reaches step state target)
    (halts : step target = none) : runFor step steps state = target := by
  obtain ⟨reaches', halts'⟩ := reaches_runFor falls enough
  have first := mem_eval.mpr ⟨reaches', halts'⟩
  have second := mem_eval.mpr ⟨reaches, halts⟩
  exact Part.mem_unique first second

end Weight

end HiveGuard.Library.Run
