import Mathlib

/-!
# Text as a program sees it

A text is the list of its characters; positions in it are byte offsets of its UTF-8
form.  This module has the standard operations that depend on that: trimming white
space, splitting at a byte offset, which fails inside a character, and reading an
unsigned decimal number below a limit.
-/

namespace HiveGuard.Library.Text

/-! ## White space -/

/-- The Unicode property `White_Space`. -/
def isWhitespace (char : Char) : Bool :=
  let code := char.toNat
  decide (0x9 ≤ code ∧ code ≤ 0xd) || code == 0x20 || code == 0x85 || code == 0xa0 ||
    code == 0x1680 || decide (0x2000 ≤ code ∧ code ≤ 0x200a) || code == 0x2028 ||
    code == 0x2029 || code == 0x202f || code == 0x205f || code == 0x3000

/-- The text without white space at its ends. -/
def trim (text : List Char) : List Char :=
  (text.dropWhile isWhitespace).rdropWhile isWhitespace

/-- A text with no white space at its ends is left alone. -/
theorem trim_concat {front : List Char} {last : Char}
    (start : ∀ char ∈ front.head?, isWhitespace char = false)
    (stop : isWhitespace last = false) : trim (front ++ [last]) = front ++ [last] := by
  have kept : (front ++ [last]).dropWhile isWhitespace = front ++ [last] := by
    cases front with
    | nil => simp [stop]
    | cons first rest => simp [start first rfl]
  rw [trim, kept, List.rdropWhile_concat_neg _ _ _ (by simp [stop])]

theorem isWhitespace_of_isDigit {digit : Char} (isDigit : digit.isDigit = true) :
    isWhitespace digit = false := by
  have bounds := Char.isDigit_iff_toNat.mp isDigit
  change 48 ≤ digit.toNat ∧ digit.toNat ≤ 57 at bounds
  simp only [isWhitespace, Bool.or_eq_false_iff, decide_eq_false_iff_not, beq_eq_false_iff_ne]
  omega

/-- Equality up to the case of ASCII letters. -/
def eqIgnoreAsciiCase (first second : List Char) : Bool :=
  first.map Char.toLower == second.map Char.toLower

/-! ## Searching -/

/-- The text before the first occurrence of a pattern, and the text from there on. -/
def breakAt (pattern : List Char) : List Char → Option (List Char × List Char)
  | [] => if pattern = [] then some ([], []) else none
  | char :: text =>
    if pattern.isPrefixOf (char :: text) then
      some ([], char :: text)
    else
      (breakAt pattern text).map fun parts => (char :: parts.1, parts.2)

variable {pattern text before after : List Char}

theorem breakAt_eq_some
    (found : breakAt pattern text = some (before, after)) :
    text = before ++ after ∧ pattern <+: after := by
  induction text generalizing before with
  | nil =>
    rw [breakAt, Option.ite_none_right_eq_some] at found
    rcases found with ⟨rfl, same⟩
    cases same
    exact ⟨rfl, List.nil_prefix⟩
  | cons char text ih =>
    rw [breakAt] at found
    split at found
    · rename_i here
      cases found
      exact ⟨rfl, List.isPrefixOf_iff_prefix.mp here⟩
    · rcases Option.map_eq_some_iff.mp found with ⟨parts, later, same⟩
      cases same
      rcases ih later with ⟨split, occurs⟩
      exact ⟨by rw [List.cons_append, ← split], occurs⟩

theorem breakAt_eq_none_iff :
    breakAt pattern text = none ↔ ¬pattern <:+: text := by
  induction text with
  | nil => simp [breakAt]
  | cons char text ih =>
    rw [breakAt, List.infix_cons_iff, ← List.isPrefixOf_iff_prefix]
    split
    · rename_i here
      simp [here]
    · rename_i notHere
      rw [Option.map_eq_none_iff, ih]
      simp [notHere]

/-- The occurrence is the first: there is none in the text before it. -/
theorem not_infix_of_breakAt (nonempty : pattern ≠ [])
    (found : breakAt pattern text = some (before, after)) : ¬pattern <:+: before := by
  induction text generalizing before with
  | nil =>
    rw [breakAt, if_neg nonempty] at found
    cases found
  | cons char text ih =>
    rw [breakAt] at found
    split at found
    · cases found
      simpa using nonempty
    · rename_i notHere
      rcases Option.map_eq_some_iff.mp found with ⟨parts, later, same⟩
      cases same
      rw [List.infix_cons_iff, not_or]
      refine ⟨fun here => notHere ?_, ih later⟩
      rw [(breakAt_eq_some later).1, List.isPrefixOf_iff_prefix, ← List.cons_append]
      exact here.trans (List.prefix_append _ _)

/-- No occurrence starts before the one that is found. -/
theorem prefix_of_breakAt {front back : List Char}
    (nonempty : pattern ≠ []) (found : breakAt pattern text = some (before, after))
    (occurs : text = front ++ pattern ++ back) : before <+: front := by
  induction text generalizing before front with
  | nil =>
    rw [breakAt, if_neg nonempty] at found
    cases found
  | cons char text ih =>
    rw [breakAt] at found
    split at found
    · cases found
      exact List.nil_prefix
    · rename_i notHere
      obtain ⟨parts, later, same⟩ := Option.map_eq_some_iff.mp found
      cases same
      cases front with
      | nil =>
        refine absurd ?_ notHere
        rw [List.isPrefixOf_iff_prefix, occurs]
        exact List.prefix_append _ _
      | cons first front =>
        obtain ⟨rfl, rest⟩ := List.cons.inj occurs
        exact List.cons_prefix_cons.mpr ⟨rfl, ih later rest⟩

theorem dropPrefix_eq_some_iff {rest : List Char} :
    text.dropPrefix? pattern = some rest ↔ text = pattern ++ rest := by
  simp [List.dropPrefix?_eq_some_iff]

/-! ## Byte offsets -/

/-- The length of the UTF-8 form. -/
def byteLength (text : List Char) : Nat :=
  (text.map Char.utf8Size).sum

@[simp]
theorem byteLength_nil : byteLength [] = 0 :=
  rfl

theorem byteLength_cons (char : Char) (text : List Char) :
    byteLength (char :: text) = char.utf8Size + byteLength text := by
  rw [byteLength, List.map_cons, List.sum_cons, ← byteLength]

theorem byteLength_append (front back : List Char) :
    byteLength (front ++ back) = byteLength front + byteLength back := by
  rw [byteLength, List.map_append, List.sum_append, ← byteLength, ← byteLength]

theorem byteLength_singleton (char : Char) : byteLength [char] = char.utf8Size :=
  List.sum_singleton

theorem byteLength_pos (nonempty : text ≠ []) : 0 < byteLength text := by
  cases text with
  | nil => exact absurd rfl nonempty
  | cons char text =>
    have := Char.utf8Size_pos char
    rw [byteLength_cons]
    omega

/-- The longest part at the start that has at most so many bytes. -/
def takeBytes : Nat → List Char → List Char
  | _, [] => []
  | limit, char :: text =>
    if char.utf8Size ≤ limit then char :: takeBytes (limit - char.utf8Size) text else []

variable {limit number : Nat}

theorem takeBytes_of_le (fits : byteLength text ≤ limit) :
    takeBytes limit text = text := by
  induction text generalizing limit with
  | nil => rfl
  | cons char text ih =>
    rw [byteLength_cons] at fits
    rw [takeBytes, if_pos (by omega), ih (by omega)]

/-- The text up to a byte offset and the rest; there is none when the offset lies
inside a character or beyond the end. -/
def splitAt : List Char → Nat → Option (List Char × List Char)
  | text, 0 => some ([], text)
  | [], _ + 1 => none
  | char :: text, offset + 1 =>
    if char.utf8Size ≤ offset + 1 then
      (splitAt text (offset + 1 - char.utf8Size)).map fun parts => (char :: parts.1, parts.2)
    else
      none

theorem splitAt_cons {char : Char} {offset : Nat}
    (fits : char.utf8Size ≤ offset) :
    splitAt (char :: text) offset =
      (splitAt text (offset - char.utf8Size)).map fun parts => (char :: parts.1, parts.2) := by
  have positive := Char.utf8Size_pos char
  cases offset with
  | zero => omega
  | succ offset => exact if_pos fits

/-- Splitting before the last byte: it works if the last character has only one. -/
theorem splitAt_last (front : List Char) (last : Char) :
    splitAt (front ++ [last]) (byteLength (front ++ [last]) - 1) =
      if last.utf8Size = 1 then some (front, [last]) else none := by
  have positive := Char.utf8Size_pos last
  induction front with
  | nil =>
    rw [List.nil_append, byteLength_singleton]
    split
    · rename_i single
      rw [single, splitAt]
    · rename_i several
      obtain ⟨offset, offset_eq⟩ : ∃ offset, last.utf8Size - 1 = offset + 1 :=
        Nat.exists_eq_add_one.mpr (by omega)
      rw [offset_eq, splitAt, if_neg (by omega)]
  | cons char front ih =>
    have nonempty : 0 < byteLength (front ++ [last]) := by
      rw [byteLength_append, byteLength_singleton]
      omega
    have offset_eq : byteLength (char :: (front ++ [last])) - 1 =
        char.utf8Size + (byteLength (front ++ [last]) - 1) := by
      rw [byteLength_cons]
      omega
    rw [List.cons_append, offset_eq, splitAt_cons (Nat.le_add_right _ _),
      Nat.add_sub_cancel_left, ih]
    split <;> rfl

/-! ## Decimal numbers -/

def digitValue (digit : Char) : Nat :=
  digit.toNat - '0'.toNat

/-- The number that decimal digits denote after a number that was read before. -/
def decimalValue (value : Nat) (digits : List Char) : Nat :=
  digits.foldl (fun value digit => value * 10 + digitValue digit) value

/-- The text is a decimal numeral for the number, with an optional plus sign. -/
def Numeral (text : List Char) (number : Nat) : Prop :=
  ∃ digits, (text = digits ∨ text = '+' :: digits) ∧ digits ≠ [] ∧
    (∀ digit ∈ digits, digit.isDigit = true) ∧ number = decimalValue 0 digits

/-- One more digit, as long as the number stays below the limit. -/
def appendDigit (limit value : Nat) (digit : Char) : Option Nat :=
  if digit.isDigit then
    let next := value * 10 + digitValue digit
    if next < limit then some next else none
  else
    none

def stripPlus : List Char → List Char
  | '+' :: digits => digits
  | digits => digits

/-- Read an unsigned decimal number below a limit. -/
def parseUnsigned (limit : Nat) (text : List Char) : Option Nat :=
  if stripPlus text = [] then none else (stripPlus text).foldlM (appendDigit limit) 0

theorem le_decimalValue (value : Nat) (digits : List Char) :
    value ≤ decimalValue value digits := by
  induction digits generalizing value with
  | nil => exact le_refl value
  | cons digit digits ih =>
    have next_le := ih (value * 10 + digitValue digit)
    exact le_trans (by omega) next_le

theorem appendDigit_eq_some_iff {value next : Nat} {digit : Char} :
    appendDigit limit value digit = some next ↔
      digit.isDigit = true ∧ next = value * 10 + digitValue digit ∧ next < limit := by
  rw [appendDigit]
  split
  · rename_i isDigit
    rw [Option.ite_none_right_eq_some, Option.some.injEq]
    constructor
    · rintro ⟨below, rfl⟩
      exact ⟨isDigit, rfl, below⟩
    · rintro ⟨-, rfl, below⟩
      exact ⟨below, rfl⟩
  · rename_i noDigit
    exact iff_of_false (by simp) fun condition => noDigit condition.1

/-- Reading digit by digit stays below the limit exactly if the whole number does. -/
theorem foldlM_appendDigit_eq_some_iff {value : Nat} {digits : List Char}
    (below : value < limit) :
    digits.foldlM (appendDigit limit) value = some number ↔
      (∀ digit ∈ digits, digit.isDigit = true) ∧ number = decimalValue value digits ∧
        number < limit := by
  induction digits generalizing value with
  | nil =>
    rw [List.foldlM_nil]
    constructor
    · intro read
      cases read
      exact ⟨by simp, rfl, below⟩
    · rintro ⟨-, rfl, -⟩
      rfl
  | cons digit digits ih =>
    rw [List.foldlM_cons]
    change (appendDigit limit value digit).bind _ = _ ↔ _
    rw [Option.bind_eq_some_iff]
    constructor
    · rintro ⟨next, appended, read⟩
      obtain ⟨isDigit, rfl, nextBelow⟩ := appendDigit_eq_some_iff.mp appended
      obtain ⟨areDigits, number_eq, numberBelow⟩ := (ih nextBelow).mp read
      exact ⟨List.forall_mem_cons.mpr ⟨isDigit, areDigits⟩, number_eq, numberBelow⟩
    · rintro ⟨areDigits, number_eq, numberBelow⟩
      obtain ⟨isDigit, areDigits⟩ := List.forall_mem_cons.mp areDigits
      have nextBelow : value * 10 + digitValue digit < limit :=
        (le_decimalValue _ digits).trans_lt (number_eq ▸ numberBelow)
      exact ⟨_, appendDigit_eq_some_iff.mpr ⟨isDigit, rfl, nextBelow⟩,
        (ih nextBelow).mpr ⟨areDigits, number_eq, numberBelow⟩⟩

theorem stripPlus_cases (text : List Char) :
    stripPlus text = text ∨ text = '+' :: stripPlus text := by
  rw [stripPlus.eq_def]
  split
  · exact .inr rfl
  · exact .inl rfl

theorem stripPlus_of_isDigit {digits : List Char}
    (areDigits : ∀ digit ∈ digits, digit.isDigit = true) : stripPlus digits = digits := by
  rcases stripPlus_cases digits with plain | signed
  · exact plain
  · have sign := areDigits '+' (by rw [signed]; exact List.mem_cons_self)
    contradiction

theorem numeral_iff :
    Numeral text number ↔ stripPlus text ≠ [] ∧ (∀ digit ∈ stripPlus text, digit.isDigit = true) ∧
        number = decimalValue 0 (stripPlus text) := by
  constructor
  · rintro ⟨digits, rfl | rfl, condition⟩
    · rwa [stripPlus_of_isDigit condition.2.1]
    · exact condition
  · intro condition
    refine ⟨stripPlus text, ?_, condition⟩
    exact (stripPlus_cases text).imp_left Eq.symm

/-- Exactly the numerals below the limit are read. -/
theorem parseUnsigned_eq_some_iff (positive : 0 < limit) :
    parseUnsigned limit text = some number ↔ Numeral text number ∧ number < limit := by
  rw [parseUnsigned, numeral_iff]
  split
  · rename_i nothing
    exact iff_of_false (by simp) fun condition => condition.1.1 nothing
  · rename_i nonempty
    rw [foldlM_appendDigit_eq_some_iff positive, and_iff_right nonempty, and_assoc]

theorem decimalValue_eq_ofDigitChars (value : Nat) (digits : List Char) :
    decimalValue value digits = Nat.ofDigitChars 10 digits value := by
  simp only [decimalValue, digitValue, Nat.ofDigitChars, Nat.mul_comm 10]

theorem numeral_toDigits (number : Nat) : Numeral (Nat.toDigits 10 number) number := by
  refine ⟨Nat.toDigits 10 number, .inl rfl, Nat.toDigits_ne_nil, ?_, ?_⟩
  · intro digit member
    exact Nat.isDigit_of_mem_toDigits (by decide) (by decide) member
  · rw [decimalValue_eq_ofDigitChars, Nat.ofDigitChars_toDigits (by decide) (by decide)]

end HiveGuard.Library.Text
