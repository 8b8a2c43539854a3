import HiveGuard.Library.Text

/-!
# The words of a text

The words of a text are its parts between white space.  A pattern without white space occurs
in a text exactly if it occurs in one of its words, and what stands behind its first
occurrence, up to the next white space, is what stands behind it in the first such word.
-/

namespace HiveGuard.Library.Text

/-- The parts of a text between white space. -/
def words (text : List Char) : List (List Char) :=
  (text.splitOnP isWhitespace).filter fun word => !word.isEmpty

/-- The part of a text before the first white space. -/
def firstWord (text : List Char) : List Char :=
  text.takeWhile fun char => !isWhitespace char

/-- What stands behind the first occurrence of a pattern. -/
def behind (pattern text : List Char) : Option (List Char) :=
  (breakAt pattern text).map fun parts => parts.2.drop pattern.length

/-- A text without white space. -/
def Unbroken (text : List Char) : Prop :=
  ∀ char ∈ text, isWhitespace char = false

section Words

variable {word : List Char} {space : Char}

theorem words_of_unbroken (unbroken : Unbroken word) :
    words word = if word = [] then [] else [word] := by
  rw [words, List.splitOnP_eq_singleton unbroken]
  cases word <;> rfl

theorem words_append (white : isWhitespace space = true) (front back : List Char) :
    words (front ++ space :: back) = words front ++ words back := by
  rw [words, List.splitOnP_append_cons front back white, List.filter_append]
  rfl

theorem firstWord_append (unbroken : Unbroken word) (white : isWhitespace space = true)
    (back : List Char) : firstWord (word ++ space :: back) = word := by
  rw [firstWord, List.takeWhile_append_of_pos, List.takeWhile_cons, white]
  · exact List.append_nil word
  · intro char member
    rw [unbroken char member]
    rfl

theorem firstWord_of_unbroken (unbroken : Unbroken word) : firstWord word = word := by
  rw [firstWord, List.takeWhile_eq_self_iff]
  intro char member
  rw [unbroken char member]
  rfl

/-- A text is unbroken, or it has a first white space. -/
theorem unbroken_or_split (text : List Char) : Unbroken text ∨
    ∃ word space back, text = word ++ space :: back ∧ Unbroken word ∧
      isWhitespace space = true := by
  induction text with
  | nil => exact .inl (List.forall_mem_nil _)
  | cons char text ih =>
    cases white : isWhitespace char with
    | true => exact .inr ⟨[], char, text, rfl, List.forall_mem_nil _, white⟩
    | false =>
      rcases ih with unbroken | ⟨word, space, back, rfl, unbroken, isSpace⟩
      · exact .inl (List.forall_mem_cons.mpr ⟨white, unbroken⟩)
      · exact .inr ⟨char :: word, space, back, rfl,
          List.forall_mem_cons.mpr ⟨white, unbroken⟩, isSpace⟩

end Words

section Behind

variable {pattern word : List Char} {space : Char}

/-- A pattern does not reach over a character that it does not have. -/
theorem isPrefixOf_append (absent : space ∉ pattern) (word back : List Char) :
    pattern.isPrefixOf (word ++ space :: back) = pattern.isPrefixOf word := by
  rw [Bool.eq_iff_iff, List.isPrefixOf_iff_prefix, List.isPrefixOf_iff_prefix]
  constructor
  · intro here
    by_cases short : pattern.length ≤ word.length
    · exact List.prefix_of_prefix_length_le here (List.prefix_append _ _) short
    · have longer : word ++ [space] <+: pattern := by
        refine List.prefix_of_prefix_length_le ?_ here ?_
        · exact ⟨back, by rw [List.append_assoc, List.singleton_append]⟩
        · rw [List.length_append, List.length_singleton]
          omega
      exact absurd (longer.subset (List.mem_append_right _ (List.mem_singleton_self space))) absent
  · intro here
    exact here.trans (List.prefix_append _ _)

theorem behind_cons (pattern : List Char) (char : Char) (text : List Char) :
    behind pattern (char :: text) = if pattern.isPrefixOf (char :: text) then
      some ((char :: text).drop pattern.length) else behind pattern text := by
  rw [behind, breakAt]
  split
  · rfl
  · rw [Option.map_map]
    rfl

theorem behind_nil (nonempty : pattern ≠ []) : behind pattern [] = none := by
  rw [behind, breakAt, if_neg nonempty, Option.map_none]

/-- An occurrence before the first white space goes first. -/
theorem behind_append (nonempty : pattern ≠ []) (absent : space ∉ pattern) (word back : List Char) :
    behind pattern (word ++ space :: back) =
      ((behind pattern word).map (· ++ space :: back)).or (behind pattern back) := by
  induction word with
  | nil =>
    have notHere := isPrefixOf_append absent [] back
    rw [List.nil_append] at notHere
    have absent' : pattern.isPrefixOf [] = false := by
      rw [← Bool.not_eq_true, List.isPrefixOf_iff_prefix, List.prefix_nil]
      exact nonempty
    rw [List.nil_append, behind_cons, notHere, absent', if_neg Bool.false_ne_true,
      behind_nil nonempty]
    rfl
  | cons char word ih =>
    rw [List.cons_append, behind_cons, ← List.cons_append, isPrefixOf_append absent, behind_cons]
    split
    · rename_i here
      have short := (List.isPrefixOf_iff_prefix.mp here).length_le
      rw [List.drop_append_of_le_length short]
      rfl
    · exact ih

theorem Unbroken.behind (unbroken : Unbroken word) {rest : List Char}
    (found : Text.behind pattern word = some rest) : Unbroken rest := by
  obtain ⟨⟨before, after⟩, broken, rfl⟩ := Option.map_eq_some_iff.mp found
  intro char member
  apply unbroken
  rw [(breakAt_eq_some broken).1]
  exact List.mem_append_right _ (List.mem_of_mem_drop member)

theorem findSome?_words (nonempty : pattern ≠ []) (unbroken : Unbroken word) :
    (words word).findSome? (behind pattern) = behind pattern word := by
  rw [words_of_unbroken unbroken]
  split
  · rename_i nothing
    rw [nothing, behind_nil nonempty]
    rfl
  · rw [List.findSome?_cons]
    cases behind pattern word <;> rfl

/-- Searching the text is searching its words. -/
theorem firstWord_behind (nonempty : pattern ≠ []) (unbroken : Unbroken pattern)
    (text : List Char) :
    (behind pattern text).map firstWord = (words text).findSome? (behind pattern) := by
  -- The text is taken apart word by word.
  induction length : text.length using Nat.strong_induction_on generalizing text with
  | _ size ih =>
    rcases unbroken_or_split text with whole | ⟨word, space, back, rfl, isWord, white⟩
    · rw [findSome?_words nonempty whole]
      cases found : behind pattern text with
      | none => rfl
      | some rest =>
        rw [Option.map_some, firstWord_of_unbroken (whole.behind found)]
    · have absent : space ∉ pattern := by
        intro member
        rw [unbroken space member] at white
        cases white
      have shorter : back.length < size := by
        rw [← length, List.length_append, List.length_cons]
        omega
      rw [behind_append nonempty absent, words_append white, List.findSome?_append,
        findSome?_words nonempty isWord, ← ih _ shorter back rfl]
      cases found : behind pattern word with
      | none => rfl
      | some rest =>
        exact congrArg some (firstWord_append (isWord.behind found) white back)

end Behind

end HiveGuard.Library.Text
