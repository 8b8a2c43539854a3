import HiveGuard.Library.Effect

/-!
# Journals of calls

A program with a state is called again and again.  Its journal lists the calls with what
each of them returned, also when a call failed: what it changed before it failed stays, and
the next call starts from there.
-/

namespace HiveGuard.Library.Journal

open Library.Effect

universe u

variable {ι ε σ α : Type u} (call : ι → EStateM ε σ α)

/-- One more call: its entry in the journal and the state it leaves. -/
def advance (before : List (ι × Option α) × σ) (input : ι) : List (ι × Option α) × σ :=
  let result := (call input).run before.2
  (before.1 ++ [(input, returned result)], finalState result)

/-- The journal of some calls and the state after them. -/
def journal (start : σ) (inputs : List ι) : List (ι × Option α) × σ :=
  inputs.foldl (advance call) ([], start)

variable {call} {start : σ}

theorem journal_concat (inputs : List ι) (input : ι) :
    journal call start (inputs ++ [input]) = advance call (journal call start inputs) input := by
  rw [journal, List.foldl_concat]
  rfl

theorem map_fst_journal (inputs : List ι) :
    (journal call start inputs).1.map Prod.fst = inputs := by
  induction inputs using List.reverseRecOn with
  | nil => rfl
  | append_singleton inputs input ih =>
    rw [journal_concat, advance, List.map_append, ih]
    rfl

/-- What each call preserves holds after all of them. -/
theorem journal_induction {holds : List (ι × Option α) → σ → Prop} (initially : holds [] start)
    (kept : ∀ log state input, holds log state →
      holds (log ++ [(input, returned ((call input).run state))])
        (finalState ((call input).run state))) (inputs : List ι) :
    holds (journal call start inputs).1 (journal call start inputs).2 := by
  induction inputs using List.reverseRecOn with
  | nil => exact initially
  | append_singleton inputs input ih =>
    rw [journal_concat]
    exact kept _ _ input ih

end HiveGuard.Library.Journal
