import Mathlib

/-!
# Logs of overwriting entries

An entry of a log may overwrite a cell or leave it alone.  After a log the cell
holds what the last overwriting entry wrote, whatever it held before, so running
a log over its own result changes nothing.
-/

namespace HiveGuard.Library.Overwrite

universe u v w

variable {ι : Type u} {α : Type v} {σ : Type w} (write : ι → Option α)

/-- The content of a cell after a log. -/
def settle (cell : α) (entries : List ι) : α :=
  entries.foldl (fun content entry => (write entry).getD content) cell

@[simp]
theorem settle_cons (cell : α) (entry : ι) (entries : List ι) :
    settle write cell (entry :: entries) = settle write ((write entry).getD cell) entries :=
  rfl

theorem settle_append (cell : α) (first second : List ι) :
    settle write cell (first ++ second) = settle write (settle write cell first) second :=
  List.foldl_append

/-- A log either leaves every cell as it is or gives them all one content. -/
theorem settle_cases (entries : List ι) :
    (∀ cell, settle write cell entries = cell) ∨
      ∃ content, ∀ cell, settle write cell entries = content := by
  induction entries with
  | nil => exact .inl fun _ => rfl
  | cons entry entries ih =>
    rcases ih with untouched | ⟨content, overwritten⟩
    · cases written : write entry with
      | none => exact .inl fun cell => by rw [settle_cons, written, untouched]; rfl
      | some content =>
        exact .inr ⟨content, fun cell => by rw [settle_cons, written, untouched]; rfl⟩
    · exact .inr ⟨content, fun cell => by rw [settle_cons, overwritten]⟩

theorem settle_settle (cell : α) (entries : List ι) :
    settle write (settle write cell entries) entries = settle write cell entries := by
  rcases settle_cases write entries with untouched | ⟨content, overwritten⟩
  · rw [untouched]
  · rw [overwritten, overwritten]

/-- The part of a state that a log overwrites settles. -/
theorem read_foldl (read : σ → α) (apply : σ → ι → σ)
    (reads : ∀ state entry, read (apply state entry) = (write entry).getD (read state))
    (state : σ) (entries : List ι) :
    read (entries.foldl apply state) = settle write (read state) entries := by
  induction entries generalizing state with
  | nil => rfl
  | cons entry entries ih =>
    rw [List.foldl_cons, ih, reads, settle_cons]

end HiveGuard.Library.Overwrite
