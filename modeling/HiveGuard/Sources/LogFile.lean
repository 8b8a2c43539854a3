import HiveGuard.Library.Lines

/-!
# Log files as a reader finds them

A source opens its log anew for each read.  It measures the file and reads some time
later, when more may have been written; reading may also fail on the way.
-/

namespace HiveGuard.Sources

/-- The byte at the end of a line. -/
def newline : UInt8 :=
  10

/-- The byte some writers put before it. -/
def carriageReturn : UInt8 :=
  13

/-- An open file: the length that was measured, the bytes that were there when reading
ended, and the position behind which reading failed. -/
structure LogFile where
  fileLen : Nat
  content : List UInt8
  fault : Option Nat
  addressable : fileLen < 2 ^ 64
  grown : fileLen ≤ content.length

/-- What opening the file leads to. -/
inductive FileAccess where
  | notFound
  | failed
  | opened (file : LogFile)

/-- Why a call failed: the file could not be opened or measured, or not be read. -/
inductive ReadError where
  | access
  | reading
  deriving DecidableEq

namespace LogFile

/-- The bytes that can be read. -/
def readable (file : LogFile) : List UInt8 :=
  match file.fault with
  | none => file.content
  | some position => file.content.take position

/-- A file that is not written to and can be read. -/
def still (content : List UInt8) (addressable : content.length < 2 ^ 64) : LogFile :=
  ⟨content.length, content, none, addressable, le_refl _⟩

/-- The file is not written to during the call and can be read. -/
def IsStill (file : LogFile) : Prop :=
  file.fileLen = file.content.length ∧ file.fault = none

theorem IsStill.eq_still {file : LogFile} (isStill : file.IsStill) :
    ∃ addressable, file = .still file.content addressable := by
  rcases file with ⟨fileLen, content, fault, addressable, grown⟩
  rcases isStill with ⟨measured, whole⟩
  simp only at measured whole
  subst measured whole
  exact ⟨addressable, rfl⟩

/-- The later file has everything the earlier one had. -/
def Follows (earlier later : LogFile) : Prop :=
  earlier.content <+: later.content ∧ earlier.content.length ≤ later.fileLen

theorem readable_isPrefix (file : LogFile) : file.readable <+: file.content := by
  rw [readable]
  split
  · exact List.prefix_refl _
  · exact List.take_prefix _ _

theorem readable_of_fault {file : LogFile} (whole : file.fault = none) :
    file.readable = file.content := by
  rw [readable, whole]

end LogFile

/-- A line without the carriage return at its end. -/
def stripCarriageReturn (body : List UInt8) : List UInt8 :=
  if body.getLast? = some carriageReturn then body.dropLast else body

end HiveGuard.Sources
