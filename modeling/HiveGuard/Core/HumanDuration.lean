import HiveGuard.Core.Chrono
import HiveGuard.Library.Machine
import HiveGuard.Library.Text

/-!
# Human-readable durations

`parseDurationString` reads a number and a unit letter.  It takes the last byte of the
text for the unit, which is no position to split at if the last character is not an
ASCII character, and multiplies without looking for overflow.
-/

namespace HiveGuard.Core

open Library Library.Text

/-- A duration or, with `none`, no end. -/
structure HumanDuration where
  duration : Option StdDuration
  deriving DecidableEq

namespace HumanDuration

def permanent : HumanDuration :=
  ⟨none⟩

def fromSecs (secs : Fin (2 ^ 64)) : HumanDuration :=
  ⟨some (.fromSecs secs)⟩

end HumanDuration

/-- The seconds of a number and a unit. -/
def durationOf (num : Fin (2 ^ 64)) (suffix : List Char) :
    Machine (Except String HumanDuration) :=
  if suffix = ['s'] then
    pure (.ok (.fromSecs num))
  else if suffix = ['m'] then do
    let secs ← Machine.mul num 60
    pure (.ok (.fromSecs secs))
  else if suffix = ['h'] then do
    let secs ← Machine.mul num 3600
    pure (.ok (.fromSecs secs))
  else if suffix = ['d'] then do
    let secs ← Machine.mul num 86400
    pure (.ok (.fromSecs secs))
  else
    pure (.error ("unknown duration suffix: " ++ String.ofList suffix))

/-- Parse a human-readable duration string: "30s", "5m", "2h", "7d", "permanent".
There is no result when the split panics. -/
def parseDurationString (text : List Char) : Option (Machine (Except String HumanDuration)) :=
  let text := trim text
  if text = "permanent".toList then
    some (pure (.ok .permanent))
  else if text = [] then
    some (pure (.error "empty duration string"))
  else
    (splitAt text (byteLength text - 1)).map fun (numStr, suffix) =>
      match parseUnsigned (2 ^ 64) numStr with
      | none => pure (.error ("invalid duration number: " ++ String.ofList numStr))
      | some num => durationOf (Fin.ofNat (2 ^ 64) num) suffix

/-! ## What a duration string says -/

def unitSeconds (unit : Char) : Option (Fin (2 ^ 64)) :=
  if unit = 's' then some 1
  else if unit = 'm' then some 60
  else if unit = 'h' then some 3600
  else if unit = 'd' then some 86400
  else none

/-- The text is a number followed by a unit of so many seconds. -/
def Written (text : List Char) (number : Nat) (factor : Fin (2 ^ 64)) : Prop :=
  ∃ numStr unit, trim text = numStr ++ [unit] ∧ Numeral numStr number ∧
    unitSeconds unit = some factor

/-- Parsing returns, in every build, and a finite duration is exactly what was written. -/
def Faithful (text : List Char) : Prop :=
  ∃ result, parseDurationString text = some ⟨result, false⟩ ∧
    ∀ duration, result = .ok ⟨some duration⟩ →
      ∃ number factor, Written text number factor ∧
        duration.secs.val = number * factor.val ∧ duration.nanos.val = 0

theorem mul_one_second (num : Fin (2 ^ 64)) : Machine.mul num 1 = pure num := by
  apply Machine.mul_eq_pure
  rw [show (1 : Fin (2 ^ 64)).val = 1 from rfl, Nat.mul_one]

/-- A known unit multiplies, an unknown one is an error. -/
theorem durationOf_eq (num : Fin (2 ^ 64)) (unit : Char) :
    durationOf num [unit] =
      match unitSeconds unit with
      | some factor => Machine.mul num factor >>= fun secs => pure (.ok (.fromSecs secs))
      | none => pure (.error ("unknown duration suffix: " ++ String.ofList [unit])) := by
  simp only [durationOf, unitSeconds, List.cons.injEq, and_true]
  split
  · dsimp only
    rw [mul_one_second]
    rfl
  · split
    · rfl
    · split
      · rfl
      · split <;> rfl

section Shape

variable {text front : List Char} {last : Char} {number : Nat} {factor : Fin (2 ^ 64)}
  (shape : trim text = front ++ [last])

include shape

theorem written_iff :
    Written text number factor ↔ Numeral front number ∧ unitSeconds last = some factor := by
  constructor
  · rintro ⟨numStr, unit, parts, condition⟩
    obtain ⟨rfl, same⟩ := List.append_inj' (shape.symm.trans parts) rfl
    obtain rfl : last = unit := by simpa using same
    exact condition
  · intro condition
    exact ⟨front, last, shape, condition⟩

theorem last_of_permanent (permanent : trim text = "permanent".toList) : last = 't' := by
  have ends := congrArg List.getLast? (shape.symm.trans permanent)
  rw [List.getLast?_concat] at ends
  exact Option.some.inj ends

theorem last_single_iff :
    (∀ front last, trim text = front ++ [last] → last.utf8Size = 1) ↔ last.utf8Size = 1 := by
  constructor
  · intro single
    exact single front last shape
  · intro single other otherLast otherShape
    obtain ⟨-, same⟩ := List.append_inj' (shape.symm.trans otherShape) rfl
    rwa [← List.head_eq_of_cons_eq same]

theorem written_unique {otherNumber : Nat} {otherFactor : Fin (2 ^ 64)}
    (written : Written text number factor)
    (otherWritten : Written text otherNumber otherFactor) :
    number = otherNumber ∧ factor = otherFactor := by
  rw [written_iff shape, numeral_iff] at written otherWritten
  obtain ⟨⟨-, -, rfl⟩, known⟩ := written
  obtain ⟨⟨-, -, rfl⟩, otherKnown⟩ := otherWritten
  exact ⟨rfl, Option.some.inj (known.symm.trans otherKnown)⟩

/-- Parsing a text that is split before its last byte. -/
theorem parseDurationString_of_shape (notPermanent : trim text ≠ "permanent".toList) :
    parseDurationString text =
      if last.utf8Size = 1 then
        some (match parseUnsigned (2 ^ 64) front with
          | none => pure (.error ("invalid duration number: " ++ String.ofList front))
          | some num => durationOf (Fin.ofNat (2 ^ 64) num) [last])
      else none := by
  have nonempty : trim text ≠ [] := by simp [shape]
  rw [parseDurationString, if_neg notPermanent, if_neg nonempty, shape, splitAt_last]
  split <;> rfl

/-- A written duration is the product of the number and the unit. -/
theorem parseDurationString_of_written (single : last.utf8Size = 1)
    (written : Written text number factor) (below : number < 2 ^ 64) :
    parseDurationString text = some (Machine.mul (Fin.ofNat (2 ^ 64) number) factor >>= fun secs =>
        pure (.ok (.fromSecs secs))) := by
  obtain ⟨numeral, known⟩ := (written_iff shape).mp written
  have notPermanent : trim text ≠ "permanent".toList := by
    intro permanent
    rw [last_of_permanent shape permanent] at known
    contradiction
  rw [parseDurationString_of_shape shape notPermanent, if_pos single,
    (parseUnsigned_eq_some_iff (by decide)).mpr ⟨numeral, below⟩]
  dsimp only
  rw [durationOf_eq, known]

/-- The multiplication decides whether a written duration is parsed faithfully. -/
theorem faithful_iff_of_written (single : last.utf8Size = 1)
    (written : Written text number factor) (below : number < 2 ^ 64) :
    Faithful text ↔ number * factor.val < 2 ^ 64 := by
  have parsed := parseDurationString_of_written shape single written below
  have number_eq : (Fin.ofNat (2 ^ 64) number).val = number := Nat.mod_eq_of_lt below
  have fits_iff := Machine.overflowed_mul_eq_false_iff (Fin.ofNat (2 ^ 64) number) factor
  rw [number_eq] at fits_iff
  rw [Faithful, parsed, ← fits_iff]
  constructor
  · rintro ⟨result, same, -⟩
    have completes := congrArg Machine.overflowed (Option.some.inj same)
    rwa [Machine.overflowed_bind, Machine.overflowed_pure, Bool.or_false] at completes
  · intro fits
    have secs_eq := Machine.val_mul_of_lt ((Machine.overflowed_mul_eq_false_iff _ _).mp fits)
    rw [number_eq] at secs_eq
    generalize Machine.mul (Fin.ofNat (2 ^ 64) number) factor = product at fits secs_eq
    obtain ⟨secs, overflowed⟩ := product
    subst fits
    refine ⟨_, rfl, ?_⟩
    rintro _ ⟨⟩
    exact ⟨number, factor, written, secs_eq, rfl⟩

/-- Every other text that is split gives an error or no end at all. -/
theorem faithful_of_not_written (single : last.utf8Size = 1)
    (notWritten : ∀ number factor, Written text number factor → ¬number < 2 ^ 64) :
    Faithful text := by
  by_cases permanent : trim text = "permanent".toList
  · exact ⟨_, if_pos permanent, by rintro _ ⟨⟩⟩
  · rw [Faithful, parseDurationString_of_shape shape permanent, if_pos single]
    cases parsed : parseUnsigned (2 ^ 64) front with
    | none => exact ⟨_, rfl, by rintro _ ⟨⟩⟩
    | some number =>
      obtain ⟨numeral, below⟩ := (parseUnsigned_eq_some_iff (by decide)).mp parsed
      dsimp only
      rw [durationOf_eq]
      cases known : unitSeconds last with
      | none => exact ⟨_, rfl, by rintro _ ⟨⟩⟩
      | some factor =>
        have written := (written_iff shape).mpr ⟨numeral, known⟩
        exact absurd below (notWritten number factor written)

end Shape

/-- For every text, parsing returns and a finite duration is exactly the number and
unit that were written, if and only if the trimmed text does not end in a character of
several bytes, and a number that was written fits once it is multiplied. -/
theorem parseDurationString_faithful_iff (text : List Char) :
    Faithful text ↔ (∀ front last, trim text = front ++ [last] → last.utf8Size = 1) ∧
        ∀ number factor, Written text number factor → number < 2 ^ 64 →
          number * factor.val < 2 ^ 64 := by
  rcases List.eq_nil_or_concat' (trim text) with nothing | ⟨front, last, shape⟩
  · have returns : parseDurationString text =
        some ⟨.error "empty duration string", false⟩ := by
      rw [parseDurationString, nothing]
      rfl
    refine iff_of_true ⟨_, returns, by rintro _ ⟨⟩⟩ ⟨?_, ?_⟩
    · intro front last shape
      simp [nothing] at shape
    · rintro number factor ⟨numStr, unit, shape, -⟩
      simp [nothing] at shape
  · rw [last_single_iff shape]
    by_cases single : last.utf8Size = 1
    · rw [and_iff_right single]
      by_cases written : ∃ number factor, Written text number factor ∧ number < 2 ^ 64
      · obtain ⟨number, factor, written, below⟩ := written
        rw [faithful_iff_of_written shape single written below]
        constructor
        · intro fits otherNumber otherFactor otherWritten _
          obtain ⟨rfl, rfl⟩ := written_unique shape written otherWritten
          exact fits
        · intro condition
          exact condition number factor written below
      · have notBelow : ∀ number factor, Written text number factor → ¬number < 2 ^ 64 :=
          fun number factor isWritten below => written ⟨number, factor, isWritten, below⟩
        exact iff_of_true (faithful_of_not_written shape single notBelow)
          fun number factor isWritten below => absurd below (notBelow number factor isWritten)
    · refine iff_of_false ?_ fun condition => single condition.1
      rintro ⟨result, parsed, -⟩
      have notPermanent : trim text ≠ "permanent".toList := by
        intro permanent
        rw [last_of_permanent shape permanent] at single
        exact single (by decide)
      rw [parseDurationString_of_shape shape notPermanent, if_neg single] at parsed
      contradiction

/-- A euro sign for the unit panics; the largest number of days wraps around, or stops
a build with overflow checks. -/
theorem parseDurationString_unfaithful :
    parseDurationString ['5', '\u20ac'] = none ∧
      parseDurationString "18446744073709551615d".toList =
        some ⟨.ok (.fromSecs (2 ^ 64 - 86400)), true⟩ :=
  ⟨by decide, rfl⟩

/-! ## Printing -/

/-- The largest unit that divides the seconds; zero is printed in seconds. -/
def secondsText (secs : Nat) : List Char :=
  if secs % 86400 = 0 ∧ 0 < secs then Nat.toDigits 10 (secs / 86400) ++ ['d']
  else if secs % 3600 = 0 ∧ 0 < secs then Nat.toDigits 10 (secs / 3600) ++ ['h']
  else if secs % 60 = 0 ∧ 0 < secs then Nat.toDigits 10 (secs / 60) ++ ['m']
  else Nat.toDigits 10 secs ++ ['s']

namespace HumanDuration

def display (self : HumanDuration) : List Char :=
  match self.duration with
  | none => "permanent".toList
  | some duration => secondsText duration.secs.val

def serialize (self : HumanDuration) : List Char :=
  match self.duration with
  | none => "permanent".toList
  | some duration => secondsText duration.secs.val

/-- Without an end, or of whole seconds. -/
def WholeSeconds (self : HumanDuration) : Prop :=
  ∀ duration ∈ self.duration, duration.nanos.val = 0

end HumanDuration

/-- The text is a number and a unit whose product are the seconds. -/
theorem secondsText_eq (secs : Nat) :
    ∃ number unit factor, secondsText secs = Nat.toDigits 10 number ++ [unit] ∧
      unitSeconds unit = some factor ∧ number * factor.val = secs := by
  rw [secondsText]
  split_ifs with days hours minutes
  · exact ⟨_, 'd', 86400, rfl, rfl, Nat.div_mul_cancel (Nat.dvd_of_mod_eq_zero days.1)⟩
  · exact ⟨_, 'h', 3600, rfl, rfl, Nat.div_mul_cancel (Nat.dvd_of_mod_eq_zero hours.1)⟩
  · exact ⟨_, 'm', 60, rfl, rfl, Nat.div_mul_cancel (Nat.dvd_of_mod_eq_zero minutes.1)⟩
  · exact ⟨_, 's', 1, rfl, rfl, Nat.mul_one secs⟩

/-- The unit letters are single bytes, no white space, and stand for some seconds. -/
theorem unit_of_unitSeconds {unit : Char}
    (known : unitSeconds unit = some factor) :
    unit.utf8Size = 1 ∧ isWhitespace unit = false ∧ 0 < factor.val := by
  rw [unitSeconds] at known
  split_ifs at known with seconds minutes hours days
  all_goals
    subst unit
    obtain rfl := Option.some.inj known
    decide

theorem parseDurationString_secondsText (secs : Fin (2 ^ 64)) :
    parseDurationString (secondsText secs.val) = some (pure (.ok (.fromSecs secs))) := by
  obtain ⟨number, unit, factor, text, known, product⟩ := secondsText_eq secs.val
  obtain ⟨single, black, positive⟩ := unit_of_unitSeconds known
  have start : ∀ digit ∈ (Nat.toDigits 10 number).head?, isWhitespace digit = false := by
    intro digit head
    apply isWhitespace_of_isDigit
    exact Nat.isDigit_of_mem_toDigits (by decide) (by decide) (List.mem_of_mem_head? head)
  have shape : trim (secondsText secs.val) = Nat.toDigits 10 number ++ [unit] := by
    rw [text, trim_concat start black]
  have written : Written (secondsText secs.val) number factor :=
    (written_iff shape).mpr ⟨numeral_toDigits number, known⟩
  have below : number < 2 ^ 64 := by
    calc
      number ≤ number * factor.val := Nat.le_mul_of_pos_right number positive
      _ = secs.val := product
      _ < 2 ^ 64 := secs.isLt
  have exactly : (Fin.ofNat (2 ^ 64) number).val * factor.val = secs.val := by
    rw [show (Fin.ofNat (2 ^ 64) number).val = number from Nat.mod_eq_of_lt below, product]
  rw [parseDurationString_of_written shape single written below, Machine.mul_eq_pure exactly]
  rfl

theorem parseDurationString_display {self : HumanDuration} (whole : self.WholeSeconds) :
    parseDurationString self.display = some (pure (.ok self)) := by
  rcases self with ⟨duration⟩
  cases duration with
  | none => rfl
  | some duration =>
    have same : HumanDuration.fromSecs duration.secs = ⟨some duration⟩ := by
      have nanos : (⟨0, by decide⟩ : Fin 1000000000) = duration.nanos :=
        Fin.ext (whole duration rfl).symm
      rw [HumanDuration.fromSecs, StdDuration.fromSecs, nanos]
    rw [← same]
    exact parseDurationString_secondsText duration.secs

/-- Printing a duration and parsing the text gives the duration back. -/
theorem parseDurationString_print {self : HumanDuration} (whole : self.WholeSeconds) :
    parseDurationString self.display = some (pure (.ok self)) ∧
      parseDurationString self.serialize = some (pure (.ok self)) :=
  ⟨parseDurationString_display whole, parseDurationString_display whole⟩

theorem parseDurationString_print_at_week :
    (HumanDuration.fromSecs 604800).display = "7d".toList ∧
      parseDurationString (HumanDuration.fromSecs 604800).display =
        some (pure (.ok (.fromSecs 604800))) := by
  refine ⟨by decide, (parseDurationString_print ?_).1⟩
  rintro duration ⟨⟩
  rfl

end HiveGuard.Core
