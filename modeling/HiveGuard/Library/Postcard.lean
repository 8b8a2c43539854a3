import HiveGuard.Library.Encoding

/-!
# A positional binary format

The wire format of the postcard crate: numbers as base-128 varints, sequences
and texts after their length, options and enumerations after a discriminant,
and the fields of a record one after the other.
-/

namespace HiveGuard.Library.Postcard

open Library.Encoding

universe u

/-- Reads a value from the front of the remaining bytes. -/
abbrev Reader (α : Type) := StateT Bytes Option α

/-! ## Bytes and numbers -/

def readByte : Reader UInt8 := fun bytes =>
  match bytes with
  | [] => none
  | byte :: rest => some (byte, rest)

def readBytes (count : Nat) : Reader Bytes := fun bytes =>
  if count ≤ bytes.length then some (bytes.take count, bytes.drop count) else none

/-- Seven bits a byte, the lowest first; all bytes but the last have the top bit
set.  A 64-bit number takes at most ten bytes. -/
def varintBytes : Nat → Nat → Bytes
  | 0, _ => []
  | room + 1, value =>
    if value < 128 then [UInt8.ofNat value]
    else UInt8.ofNat (128 + value % 128) :: varintBytes room (value / 128)

def writeVarint (value : Nat) : Bytes :=
  varintBytes 10 value

def readVarintBytes : Nat → Reader Nat
  | 0 => failure
  | room + 1 => do
      let byte ← readByte
      if byte.toNat < 128 then
        pure byte.toNat
      else do
        let high ← readVarintBytes room
        pure (byte.toNat - 128 + 128 * high)

def readVarint : Reader Nat :=
  readVarintBytes 10

def readBounded (bound : Nat) (read : Reader Nat) : Reader (Fin bound) := do
  let value ← read
  if fits : value < bound then pure ⟨value, fits⟩ else failure

/-! ## Composite values -/

def writeBool (value : Bool) : Bytes :=
  [if value then 1 else 0]

def readBool : Reader Bool := do
  match ← readByte with
  | 0 => pure false
  | 1 => pure true
  | _ => failure

def writeOption {α : Type u} (write : α → Bytes) : Option α → Bytes
  | none => [0]
  | some value => 1 :: write value

def readOption {α : Type} (read : Reader α) : Reader (Option α) := do
  match ← readByte with
  | 0 => pure none
  | 1 => some <$> read
  | _ => failure

def writeList {α : Type u} (write : α → Bytes) (values : List α) : Bytes :=
  writeVarint values.length ++ values.flatMap write

def readMany {α : Type} (read : Reader α) : Nat → Reader (List α)
  | 0 => pure []
  | count + 1 => do
      let value ← read
      let values ← readMany read count
      pure (value :: values)

def readList {α : Type} (read : Reader α) : Reader (List α) := do
  readMany read (← readVarint)

def writeText (text : String) : Bytes :=
  writeList (fun byte => [byte]) text.toUTF8.toList

def readText : Reader String := do
  let bytes ← readBytes (← readVarint)
  match String.fromUTF8? ⟨bytes.toArray⟩ with
  | some text => pure text
  | none => failure

/-! ## Reading back a sequence -/

/-- The reader takes exactly what the writer wrote for this value. -/
def ReadsBack {α : Type} (write : α → Bytes) (read : Reader α) (value : α) : Prop :=
  ∀ rest, read.run (write value ++ rest) = some (value, rest)

theorem readMany_flatMap {α : Type} {write : α → Bytes} {read : Reader α} {values : List α}
    (readsBack : ∀ value ∈ values, ReadsBack write read value) (rest : Bytes) :
    (readMany read values.length).run (values.flatMap write ++ rest) = some (values, rest) := by
  induction values with
  | nil => rfl
  | cons value values ih =>
    have first := readsBack value List.mem_cons_self
      (values.flatMap write ++ rest)
    have others := ih
      fun later member => readsBack later (List.mem_cons_of_mem value member)
    simp only [List.length_cons, readMany, List.flatMap_cons, List.append_assoc,
      StateT.run_bind, first, Option.bind_eq_bind, Option.bind_some, others]
    rfl

theorem readsBack_writeList {α : Type} {write : α → Bytes} {read : Reader α} {values : List α}
    (lengthReadsBack : ReadsBack writeVarint readVarint values.length)
    (readsBack : ∀ value ∈ values, ReadsBack write read value) :
    ReadsBack (writeList write) (readList read) values := by
  intro rest
  rw [writeList, List.append_assoc, readList, StateT.run_bind, lengthReadsBack]
  exact readMany_flatMap readsBack rest

end HiveGuard.Library.Postcard
