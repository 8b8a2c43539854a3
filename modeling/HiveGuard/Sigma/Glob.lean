import Mathlib

/-!
# Glob patterns of Sigma values

A plain value of a Sigma rule may hold `*` for any run of characters and `?` for one
character.  The matcher tries the shortest run for a star first and backtracks; each call
has a shorter pattern, or the same pattern and a shorter text.
-/

namespace HiveGuard.Sigma

/-- `glob_match_inner`. -/
def globMatchInner : List Char → List Char → Bool
  | [], [] => true
  | [], _ :: _ => false
  | '*' :: pattern, [] => globMatchInner pattern []
  | '*' :: pattern, char :: text =>
    globMatchInner pattern (char :: text) || globMatchInner ('*' :: pattern) text
  | '?' :: pattern, _ :: text => globMatchInner pattern text
  | expected :: pattern, char :: text =>
    if expected = char then globMatchInner pattern text else false
  | _ :: _, [] => false
termination_by pattern text => pattern.length + text.length

/-- The texts that one character of a pattern stands for. -/
def StandsFor (expected : Char) (part : List Char) : Prop :=
  if expected = '*' then True
  else if expected = '?' then part.length = 1
  else part = [expected]

/-- The text can be split into one part for each character of the pattern. -/
def GlobMatches (pattern text : List Char) : Prop :=
  ∃ parts, List.Forall₂ StandsFor pattern parts ∧ text = parts.flatten

/-! ## Splitting off the first part -/

variable {text pattern : List Char}

theorem globMatches_nil_iff : GlobMatches [] text ↔ text = [] := by
  constructor
  · rintro ⟨parts, split, rfl⟩
    cases split
    rfl
  · rintro rfl
    exact ⟨[], .nil, rfl⟩

theorem globMatches_cons_iff {expected : Char} :
    GlobMatches (expected :: pattern) text ↔
      ∃ part rest, StandsFor expected part ∧ GlobMatches pattern rest ∧ text = part ++ rest := by
  constructor
  · rintro ⟨parts, split, rfl⟩
    cases split with
    | cons first others => exact ⟨_, _, first, ⟨_, others, rfl⟩, List.flatten_cons⟩
  · rintro ⟨part, rest, first, ⟨parts, others, rfl⟩, rfl⟩
    exact ⟨part :: parts, .cons first others, List.flatten_cons.symm⟩

theorem standsFor_star (part : List Char) : StandsFor '*' part :=
  trivial

theorem globMatches_star_nil_iff :
    GlobMatches ('*' :: pattern) [] ↔ GlobMatches pattern [] := by
  rw [globMatches_cons_iff]
  constructor
  · rintro ⟨part, rest, -, later, empty⟩
    rw [(List.append_eq_nil_iff.mp empty.symm).2] at later
    exact later
  · exact fun later => ⟨[], [], standsFor_star [], later, rfl⟩

/-- A star takes nothing, or the first character and what a star takes after it. -/
theorem globMatches_star_cons_iff {char : Char} :
    GlobMatches ('*' :: pattern) (char :: text) ↔
      GlobMatches pattern (char :: text) ∨ GlobMatches ('*' :: pattern) text := by
  rw [globMatches_cons_iff, globMatches_cons_iff]
  constructor
  · rintro ⟨part, rest, -, later, split⟩
    cases part with
    | nil =>
      rw [List.nil_append] at split
      rw [split]
      exact .inl later
    | cons first part =>
      rw [List.cons_append, List.cons.injEq] at split
      exact .inr ⟨part, rest, standsFor_star part, later, split.2⟩
  · rintro (later | ⟨part, rest, -, later, rfl⟩)
    · exact ⟨[], char :: text, standsFor_star [], later, rfl⟩
    · exact ⟨char :: part, rest, standsFor_star _, later, rfl⟩

/-- Any other character of a pattern stands for one character. -/
theorem globMatches_char_iff {expected : Char}
    (single : expected ≠ '*') :
    GlobMatches (expected :: pattern) text ↔ ∃ char rest, text = char :: rest ∧
      (expected = '?' ∨ expected = char) ∧ GlobMatches pattern rest := by
  rw [globMatches_cons_iff]
  constructor
  · rintro ⟨part, rest, stands, later, rfl⟩
    rw [StandsFor, if_neg single] at stands
    split at stands
    · rename_i wild
      rcases List.length_eq_one_iff.mp stands with ⟨char, rfl⟩
      exact ⟨char, rest, rfl, .inl wild, later⟩
    · rw [stands]
      exact ⟨expected, rest, rfl, .inr rfl, later⟩
  · rintro ⟨char, rest, rfl, fits, later⟩
    refine ⟨[char], rest, ?_, later, rfl⟩
    rw [StandsFor, if_neg single]
    split
    · rfl
    · rename_i plain
      rw [fits.resolve_left plain]

/-- The matcher returns on every pattern and text, and it returns `true` exactly when the
text can be split into parts that the characters of the pattern stand for. -/
theorem globMatchInner_eq_true_iff (pattern text : List Char) :
    globMatchInner pattern text = true ↔ GlobMatches pattern text := by
  fun_induction globMatchInner pattern text with
  | case1 => simp [globMatches_nil_iff]
  | case2 char text => simp [globMatches_nil_iff]
  | case3 pattern ih =>
    rw [ih, globMatches_star_nil_iff]
  | case4 pattern char text first second =>
    rw [Bool.or_eq_true, first, second, globMatches_star_cons_iff]
  | case5 pattern char text ih =>
    rw [ih, globMatches_char_iff (by decide)]
    simp
  | case6 pattern expected text notStar notWild ih =>
    rw [ih, globMatches_char_iff notStar]
    simp
  | case7 expected pattern char text notStar notWild different =>
    rw [globMatches_char_iff notStar]
    refine iff_of_false Bool.false_ne_true ?_
    rintro ⟨first, rest, split, fits, -⟩
    cases split
    exact fits.elim notWild different
  | case8 expected pattern notStar =>
    rw [globMatches_char_iff notStar]
    exact iff_of_false Bool.false_ne_true nofun

end HiveGuard.Sigma
