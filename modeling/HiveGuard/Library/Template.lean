import HiveGuard.Library.Text

/-!
# Texts with references to named values

In a template, `${name}` stands for the value of a name.  A reference begins at an
opener and ends at the next closing brace, so a name is any text without one; an opener
that is never closed is ordinary text.  Replacing the references of a template is one
pass over its pieces, which never looks inside a value.
-/

namespace HiveGuard.Library.Template

open Library.Text

/-- What begins a reference. -/
def opener : List Char :=
  ['$', '\x7b']

/-- What ends a reference. -/
def closer : List Char :=
  ['\x7d']

inductive Piece where
  | literal (text : List Char)
  | reference (name : List Char)
  deriving DecidableEq

/-- The pieces of a template, read from left to right. -/
inductive Splits : List Char → List Piece → Prop
  | plain {text : List Char} (unopened : ¬opener <:+: text) : Splits text [.literal text]
  | unclosed {before after : List Char} (first : ¬opener <:+: before)
      (unclosed : ¬closer <:+: after) :
      Splits (before ++ opener ++ after) [.literal (before ++ opener ++ after)]
  | reference {before name rest : List Char} {pieces : List Piece}
      (first : ¬opener <:+: before) (next : ¬closer <:+: name) (others : Splits rest pieces) :
      Splits (before ++ opener ++ (name ++ closer ++ rest))
        (.literal before :: .reference name :: pieces)

/-! ## Splitting -/

theorem breakAt_eq_some_append {pattern text before after : List Char}
    (found : breakAt pattern text = some (before, after)) :
    text = before ++ pattern ++ after.drop pattern.length := by
  rcases breakAt_eq_some found with ⟨split, rest, rfl⟩
  rw [split, List.drop_left, List.append_assoc]

theorem length_after_reference {text before fromOpener name fromCloser : List Char}
    (opened : breakAt opener text = some (before, fromOpener))
    (closed : breakAt closer (fromOpener.drop 2) = some (name, fromCloser)) :
    (fromCloser.drop 1).length < text.length := by
  have outer := congrArg List.length (breakAt_eq_some_append opened)
  have inner := congrArg List.length (breakAt_eq_some_append closed)
  rw [List.length_append, List.length_append] at outer inner
  change text.length = before.length + 2 + (fromOpener.drop 2).length at outer
  change (fromOpener.drop 2).length = name.length + 1 + (fromCloser.drop 1).length at inner
  omega

/-- The pieces of a template. -/
def pieces (text : List Char) : List Piece :=
  match _opened : breakAt opener text with
  | none => [.literal text]
  | some (before, fromOpener) =>
    match _closed : breakAt closer (fromOpener.drop 2) with
    | none => [.literal text]
    | some (name, fromCloser) =>
      .literal before :: .reference name :: pieces (fromCloser.drop 1)
termination_by text.length
decreasing_by exact length_after_reference _opened _closed

section Equations

variable {text before fromOpener name fromCloser : List Char}

theorem pieces_of_unopened (unopened : breakAt opener text = none) :
    pieces text = [.literal text] := by
  rw [pieces]
  split
  · rfl
  · simp_all

theorem pieces_of_unclosed (opened : breakAt opener text = some (before, fromOpener))
    (unclosed : breakAt closer (fromOpener.drop 2) = none) : pieces text = [.literal text] := by
  rw [pieces]
  split
  · rfl
  · split
    · rfl
    · simp_all

theorem pieces_of_closed (opened : breakAt opener text = some (before, fromOpener))
    (closed : breakAt closer (fromOpener.drop 2) = some (name, fromCloser)) :
    pieces text = .literal before :: .reference name :: pieces (fromCloser.drop 1) := by
  rw [pieces]
  split
  · simp_all
  · split
    · simp_all
    · simp_all

end Equations

theorem splits_pieces (text : List Char) : Splits text (pieces text) := by
  induction text using pieces.induct with
  | case1 text unopened =>
    rw [pieces_of_unopened unopened]
    exact .plain (breakAt_eq_none_iff.mp unopened)
  | case2 text before fromOpener opened unclosed =>
    rw [pieces_of_unclosed opened unclosed, breakAt_eq_some_append opened]
    exact .unclosed (not_infix_of_breakAt (by decide) opened) (breakAt_eq_none_iff.mp unclosed)
  | case3 text before fromOpener opened name fromCloser closed ih =>
    have inside : fromOpener.drop opener.length = name ++ closer ++ fromCloser.drop 1 :=
      breakAt_eq_some_append closed
    rw [pieces_of_closed opened closed, breakAt_eq_some_append opened, inside]
    exact .reference (not_infix_of_breakAt (by decide) opened)
      (not_infix_of_breakAt (by decide) closed) ih

/-! ## Replacing -/

/-- The names a template refers to. -/
def references : List Piece → List (List Char)
  | [] => []
  | .literal _ :: rest => references rest
  | .reference name :: rest => name :: references rest

/-- The text with the values of the names in place of the references. -/
def render (value : List Char → Option (List Char)) : List Piece → Option (List Char)
  | [] => some []
  | .literal text :: rest => (render value rest).map fun rendered => text ++ rendered
  | .reference name :: rest =>
    (value name).bind fun text => (render value rest).map fun rendered => text ++ rendered

/-- The text is the template with every reference replaced once by its value. -/
def Replaces (value : List Char → Option (List Char)) (template text : List Char) : Prop :=
  ∃ pieces, Splits template pieces ∧ render value pieces = some text

end HiveGuard.Library.Template
