import HiveGuard.PluginApi.Masking

/-!
# Invisible characters in untrusted text

Without escape sequences, stripping a text goes through it once and drops every invisible
character where it stands.  So characters that are put between those of a text do not hide
anything from what comes after stripping: the secrets masked and the instructions looked for.
-/

namespace HiveGuard.PluginApi

/-- One character of a text without escape sequences. -/
def stripStep (out : List Char) (char : Char) : List Char :=
  if char = '\n' ∨ char = '\r' then (if out.getLast? = some ' ' then out else out ++ [' '])
  else if isInvisibleOrControl char then out
  else out ++ [char]

/-- The text starts no escape sequence. -/
def Escapeless (text : List Char) : Prop :=
  '\x1b' ∉ text ∧ '\u009b' ∉ text

theorem escapeless_cons {char : Char} {text : List Char} : Escapeless (char :: text) ↔
    (char ≠ '\x1b' ∧ char ≠ '\u009b') ∧ Escapeless text := by
  simp only [Escapeless, List.mem_cons, not_or]
  tauto

/-- A character that is dropped wherever it stands. -/
def Hidden (char : Char) : Prop :=
  isInvisibleOrControl char = true ∧ char ∉ ['\x1b', '\u009b', '\r', '\n']

/-- The second text is the first with hidden characters put in. -/
inductive Padded : List Char → List Char → Prop
  | nil : Padded [] []
  | keep {text padded : List Char} (char : Char) (rest : Padded text padded) :
      Padded (char :: text) (char :: padded)
  | insert {text padded : List Char} {char : Char} (hidden : Hidden char)
      (rest : Padded text padded) : Padded text (char :: padded)

variable {text padded : List Char}

theorem stripLoop_eq_foldl {fuel : Nat} (clean : Escapeless text) (enough : text.length ≤ fuel)
    (out : List Char) : stripLoop fuel text out = text.foldl stripStep out := by
  induction text generalizing fuel out with
  | nil => cases fuel <;> rfl
  | cons char text ih =>
    obtain ⟨⟨notEscape, notCsi⟩, clean⟩ := escapeless_cons.mp clean
    cases fuel with
    | zero => cases enough
    | succ fuel =>
      have enough := Nat.le_of_succ_le_succ enough
      rw [stripLoop, if_neg notEscape, if_neg notCsi, List.foldl_cons, stripStep]
      split
      · exact ih clean enough _
      · split
        · exact ih clean enough _
        · exact ih clean enough _

theorem foldl_stripStep_visible (visible : ∀ char ∈ text, isInvisibleOrControl char = false)
    (out : List Char) : text.foldl stripStep out = out ++ text := by
  induction text generalizing out with
  | nil => exact (List.append_nil out).symm
  | cons char text ih =>
    have shown := visible char List.mem_cons_self
    have noBreak : ¬(char = '\n' ∨ char = '\r') := by
      rintro (rfl | rfl) <;> exact absurd shown (by decide)
    rw [List.foldl_cons, stripStep, if_neg noBreak, if_neg (by simp [shown]),
      ih fun other member => visible other (List.mem_cons_of_mem _ member), List.append_assoc]
    rfl

/-- The text returned early is the one the loop would give. -/
theorem stripUnsafeChars_eq_foldl (clean : Escapeless text) :
    stripUnsafeChars text = text.foldl stripStep [] := by
  by_cases hidden : text.any isInvisibleOrControl = true
  · rw [stripUnsafeChars, if_pos hidden, stripLoop_eq_foldl clean le_rfl]
  · have visible : ∀ char ∈ text, isInvisibleOrControl char = false := by simpa using hidden
    rw [stripUnsafeChars_eq visible, foldl_stripStep_visible visible, List.nil_append]

theorem stripStep_hidden {char : Char} (hidden : Hidden char) (out : List Char) :
    stripStep out char = out := by
  have noBreak : ¬(char = '\n' ∨ char = '\r') := by
    rintro (rfl | rfl) <;> exact hidden.2 (by decide)
  rw [stripStep, if_neg noBreak, if_pos hidden.1]

theorem Padded.foldl_eq (inserted : Padded text padded) (out : List Char) :
    padded.foldl stripStep out = text.foldl stripStep out := by
  induction inserted generalizing out with
  | nil => rfl
  | keep char rest ih => exact ih _
  | insert hidden rest ih =>
    rw [List.foldl_cons, stripStep_hidden hidden]
    exact ih out

theorem Padded.escapeless (inserted : Padded text padded) (clean : Escapeless text) :
    Escapeless padded := by
  induction inserted with
  | nil => exact clean
  | keep char rest ih =>
    rw [escapeless_cons] at clean ⊢
    exact ⟨clean.1, ih clean.2⟩
  | insert hidden rest ih =>
    refine escapeless_cons.mpr ⟨⟨?_, ?_⟩, ih clean⟩ <;> rintro rfl <;>
      exact hidden.2 (by decide)

/-- Putting hidden characters into a text does not change what the agent sees of it, so neither
what is masked nor what looks like an instruction. -/
theorem sanitizeText_padded (clean : Escapeless text) (inserted : Padded text padded)
    (maxChars : Nat) : ∃ out, sanitizeText text maxChars = some out ∧
      sanitizeText padded maxChars = some out := by
  have stripped : stripUnsafeChars padded = stripUnsafeChars text := by
    rw [stripUnsafeChars_eq_foldl clean, stripUnsafeChars_eq_foldl (inserted.escapeless clean),
      inserted.foldl_eq]
  obtain ⟨out, returned⟩ := sanitizeText_returns text maxChars
  refine ⟨out, returned, ?_⟩
  rw [sanitizeText, stripped]
  exact returned

/-- A zero-width space in a word. -/
theorem sanitizeText_padded_at_space : ∃ out, sanitizeText ['a', 'b'] 8 = some out ∧
    sanitizeText ['a', '\u200b', 'b'] 8 = some out :=
  sanitizeText_padded ⟨by decide, by decide⟩
    (.keep 'a' (.insert ⟨by decide, by decide⟩ (.keep 'b' .nil))) 8

end HiveGuard.PluginApi
