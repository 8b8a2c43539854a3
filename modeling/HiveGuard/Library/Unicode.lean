import HiveGuard.Library.Utf8

/-!
# Unicode properties of characters

Programs ask the standard library whether a character is a letter or a number, and for the
lower case of a text.  The tables behind the answers change with the Unicode version; on
ASCII they do not, and that is all that is assumed about them.
-/

namespace HiveGuard.Library.Unicode

/-- The tables of a Unicode version. -/
structure Tables where
  isAlphabetic : Char → Bool
  isNumeric : Char → Bool
  toLowercase : List Char → List Char
  isAlphabetic_ascii : ∀ char, char.toNat < 128 → isAlphabetic char = char.isAlpha
  isNumeric_ascii : ∀ char, char.toNat < 128 → isNumeric char = char.isDigit
  toLowercase_ascii : ∀ text, (∀ char ∈ text, char.toNat < 128) →
    toLowercase text = text.map Char.toLower
  toLowercase_last : ∀ text char, char.toNat < 128 →
    (toLowercase (text ++ [char])).getLast? = some char.toLower

namespace Tables

/-- A letter or a number. -/
def isAlphanumeric (tables : Tables) (char : Char) : Bool :=
  tables.isAlphabetic char || tables.isNumeric char

theorem isAlphanumeric_ascii (tables : Tables) {char : Char} (ascii : char.toNat < 128) :
    tables.isAlphanumeric char = char.isAlphanum := by
  rw [isAlphanumeric, tables.isAlphabetic_ascii char ascii, tables.isNumeric_ascii char ascii]
  rfl

/-- No letters, numbers and cases beyond ASCII. -/
def ascii : Tables where
  isAlphabetic := Char.isAlpha
  isNumeric := Char.isDigit
  toLowercase := List.map Char.toLower
  isAlphabetic_ascii _ _ := rfl
  isNumeric_ascii _ _ := rfl
  toLowercase_ascii _ _ := rfl
  toLowercase_last text char _ := by simp

end Tables

/-- The lower case of texts.  A text in lower case has no part that is not. -/
structure Casing where
  toLowercase : List Char → List Char
  toLowercase_part : ∀ text part, part <:+: toLowercase text → toLowercase part = part

namespace Casing

/-- No cases beyond ASCII. -/
def ascii : Casing where
  toLowercase := List.map Char.toLower
  toLowercase_part text part occurs := by
    refine (List.map_congr_left ?_).trans (List.map_id part)
    intro char member
    obtain ⟨other, -, rfl⟩ := List.mem_map.mp (occurs.subset member)
    exact Text.toLower_toLower other

end Casing

end HiveGuard.Library.Unicode
