import Mathlib

/-!
# Byte codecs

A codec turns values into bytes and reads a value back from the front of a byte
string, returning the bytes it did not use.  The only law is that decoding an
encoding gives the value back and leaves nothing over.  Fixed-width numbers are
written in little-endian order.
-/

namespace HiveGuard.Library.Encoding

universe u

abbrev Bytes := List UInt8

/-- An encoder and a decoder whose composition is the identity. -/
structure Codec (α : Type u) where
  encode : α → Except String Bytes
  decode : Bytes → Except String (α × Bytes)
  decode_encode : ∀ value bytes, encode value = .ok bytes → decode bytes = .ok (value, [])

/-- The codec of a writer and a reader that refuses to encode what it could not
read back. -/
def Codec.checked {α : Type u} [DecidableEq α] (write : α → Bytes)
    (read : Bytes → Option (α × Bytes)) : Codec α where
  encode value :=
    if read (write value) = some (value, []) then .ok (write value)
    else .error "value is not representable"
  decode bytes :=
    match read bytes with
    | some found => .ok found
    | none => .error "invalid encoding"
  decode_encode := by
    intro value bytes encoded
    split at encoded
    · rename_i readable
      cases encoded
      simp only [readable]
    · contradiction

/-- A number in a fixed count of little-endian bytes. -/
def littleEndian : Nat → Nat → Bytes
  | 0, _ => []
  | width + 1, value => UInt8.ofNat value :: littleEndian width (value / 256)

theorem length_littleEndian (width value : Nat) : (littleEndian width value).length = width := by
  induction width generalizing value with
  | zero => rfl
  | succ width ih =>
    rw [littleEndian, List.length_cons, ih]

/-- The four little-endian bytes of a 32-bit number. -/
def toLeBytes (value : Nat) : Bytes :=
  [UInt8.ofNat value, UInt8.ofNat (value / 256), UInt8.ofNat (value / 65536),
    UInt8.ofNat (value / 16777216)]

/-- The number written by four little-endian bytes. -/
def fromLeBytes : Bytes → Nat
  | [b0, b1, b2, b3] =>
    b0.toNat + 256 * b1.toNat + 65536 * b2.toNat + 16777216 * b3.toNat
  | _ => 0

@[simp]
theorem length_toLeBytes (value : Nat) : (toLeBytes value).length = 4 :=
  rfl

@[simp]
theorem fromLeBytes_toLeBytes {value : Nat} (fits : value < 2 ^ 32) :
    fromLeBytes (toLeBytes value) = value := by
  simp only [toLeBytes, fromLeBytes, UInt8.toNat_ofNat']
  omega

/-- The value of big-endian bytes. -/
def fromBeBytes (bytes : Bytes) : Nat :=
  Nat.ofDigits 256 (bytes.map UInt8.toNat).reverse

theorem fromBeBytes_append (front back : Bytes) :
    fromBeBytes (front ++ back) = fromBeBytes back + 256 ^ back.length * fromBeBytes front := by
  simp [fromBeBytes, Nat.ofDigits_append]

theorem fromBeBytes_lt (bytes : Bytes) : fromBeBytes bytes < 256 ^ bytes.length := by
  have digits : ∀ digit ∈ (bytes.map UInt8.toNat).reverse, digit < 256 := by
    simpa using fun byte _ => byte.toNat_lt
  simpa [fromBeBytes] using Nat.ofDigits_lt_base_pow_length (by decide) digits

theorem fromBeBytes_eq_zero_iff {bytes : Bytes} :
    fromBeBytes bytes = 0 ↔ ∀ byte ∈ bytes, byte = 0 := by
  induction bytes with
  | nil => simp [fromBeBytes]
  | cons byte bytes ih =>
    rw [← List.singleton_append, fromBeBytes_append, Nat.add_eq_zero_iff, ih, List.singleton_append,
      List.forall_mem_cons, and_comm]
    simp [fromBeBytes, ← UInt8.toNat_inj]

/-- Bytes are below a multiple of the weight of the last ones when the first ones are zero and
the byte between is below the factor. -/
theorem fromBeBytes_lt_iff {front back : Bytes} {byte : UInt8} {target : Nat}
    (le : target ≤ 256) : fromBeBytes (front ++ [byte] ++ back) < target * 256 ^ back.length ↔
      (∀ byte ∈ front, byte = 0) ∧ byte.toNat < target := by
  have single : fromBeBytes [byte] = byte.toNat := by simp [fromBeBytes]
  rw [fromBeBytes_append, ← Nat.div_lt_iff_lt_mul (by positivity),
    Nat.add_mul_div_left _ _ (by positivity), Nat.div_eq_of_lt (fromBeBytes_lt back),
    fromBeBytes_append, single, ← fromBeBytes_eq_zero_iff, List.length_singleton]
  omega

/-- Blocks of one size, written one after the other, can be told apart. -/
theorem flatMap_toList_injective {α : Type} {size : Nat} {first second : List (Vector α size)}
    (positive : 0 < size)
    (same : first.flatMap Vector.toList = second.flatMap Vector.toList) : first = second := by
  have length_eq : first.length = second.length := by
    have lengths := congrArg List.length same
    simpa [List.length_flatMap, positive.ne'] using lengths
  have sizes : ∀ blocks : List (Vector α size),
      (blocks.map Vector.toList).map List.length = List.replicate blocks.length size := by
    intro blocks
    rw [List.map_map, List.eq_replicate_iff]
    simp
  refine List.map_injective_iff.mpr (fun _ _ => Vector.toList_inj.mp) ?_
  exact List.eq_iff_flatten_eq.mpr ⟨same, by rw [sizes, sizes, length_eq]⟩

end HiveGuard.Library.Encoding
