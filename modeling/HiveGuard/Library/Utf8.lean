import HiveGuard.Library.Text

/-!
# Text and its bytes

Programs scan the UTF-8 form of a text byte by byte and cut the text at the offsets they
find.  A test that treats all bytes beyond ASCII alike finds the same places as the test
of the characters, so the offsets lie between characters.
-/

namespace HiveGuard.Library.Text

/-! ## The bytes of a text -/

/-- The UTF-8 form. -/
def encode (text : List Char) : List UInt8 :=
  text.flatMap String.utf8EncodeChar

@[simp]
theorem encode_nil : encode [] = [] :=
  rfl

theorem encode_cons (char : Char) (text : List Char) :
    encode (char :: text) = String.utf8EncodeChar char ++ encode text :=
  List.flatMap_cons

theorem encode_append (front back : List Char) :
    encode (front ++ back) = encode front ++ encode back :=
  List.flatMap_append

@[simp]
theorem length_encode (text : List Char) : (encode text).length = byteLength text := by
  induction text with
  | nil => rfl
  | cons char text ih =>
    rw [encode_cons, List.length_append, String.length_utf8EncodeChar, ih,
      byteLength_cons]

theorem drop_encode (front back : List Char) :
    (encode (front ++ back)).drop (byteLength front) = encode back := by
  rw [encode_append, ← length_encode, List.drop_left]

/-- The byte behind a part of a text belongs to the next character. -/
theorem getElem?_encode (front : List Char) (char : Char) (back : List Char) :
    ∃ byte ∈ String.utf8EncodeChar char,
      (encode (front ++ char :: back))[byteLength front]? = some byte := by
  obtain ⟨byte, rest, bytes_eq⟩ :=
    List.exists_cons_of_ne_nil (@String.utf8EncodeChar_ne_nil char)
  refine ⟨byte, bytes_eq ▸ List.mem_cons_self, ?_⟩
  rw [encode_append, ← length_encode, List.getElem?_append_right le_rfl, Nat.sub_self,
    encode_cons, bytes_eq]
  rfl

/-- The byte before the end of a part of a text belongs to its last character. -/
theorem getElem?_encode_pred (front : List Char) (char : Char) (back : List Char) :
    ∃ byte ∈ String.utf8EncodeChar char,
      (encode (front ++ [char] ++ back))[byteLength (front ++ [char]) - 1]? = some byte := by
  obtain ⟨rest, byte, bytes_eq⟩ :=
    List.eq_nil_or_concat (String.utf8EncodeChar char) |>.resolve_left String.utf8EncodeChar_ne_nil
  rw [List.concat_eq_append] at bytes_eq
  refine ⟨byte, bytes_eq ▸ List.mem_append_right rest List.mem_cons_self, ?_⟩
  have split : encode (front ++ [char]) = encode front ++ rest ++ [byte] := by
    rw [encode_append, encode_cons, encode_nil, List.append_nil, bytes_eq, List.append_assoc]
  rw [encode_append, ← length_encode, split, List.length_append, List.length_singleton,
    Nat.add_sub_cancel, List.append_assoc, List.getElem?_append_right le_rfl, Nat.sub_self]
  rfl

variable {char : Char}

theorem utf8EncodeChar_of_ascii (ascii : char.toNat < 128) :
    String.utf8EncodeChar char = [UInt8.ofNat char.toNat] := by
  rw [String.utf8EncodeChar]
  exact if_pos (Nat.le_of_lt_succ ascii)

theorem utf8Size_of_ascii (ascii : char.toNat < 128) : char.utf8Size = 1 := by
  rw [← String.length_utf8EncodeChar, utf8EncodeChar_of_ascii ascii, List.length_singleton]

theorem le_of_mem_utf8EncodeChar (beyond : 128 ≤ char.toNat) {byte : UInt8}
    (member : byte ∈ String.utf8EncodeChar char) : 128 ≤ byte.toNat := by
  have not_ascii : ¬char.val.toNat ≤ 127 := by
    have : char.toNat = char.val.toNat := rfl
    omega
  simp only [String.utf8EncodeChar, if_neg not_ascii] at member
  split at member
  · simp only [List.mem_cons, List.not_mem_nil, or_false] at member
    rcases member with rfl | rfl <;> simp <;> omega
  · split at member
    · simp only [List.mem_cons, List.not_mem_nil, or_false] at member
      rcases member with rfl | rfl | rfl <;> simp <;> omega
    · simp only [List.mem_cons, List.not_mem_nil, or_false] at member
      rcases member with rfl | rfl | rfl | rfl <;> simp <;> omega

/-! ## Tests of bytes -/

/-- A test of ASCII characters, applied to a byte. -/
def onByte (test : Char → Bool) (byte : UInt8) : Bool :=
  test (Char.ofNat byte.toNat)

/-- The test has one answer for everything beyond ASCII. -/
def AsciiTest (test : Char → Bool) (answer : Bool) : Prop :=
  ∀ char : Char, 128 ≤ char.toNat → test char = answer

theorem isAlphanum_iff (char : Char) : char.isAlphanum = true ↔
    ((65 ≤ char.toNat ∧ char.toNat ≤ 90) ∨ (97 ≤ char.toNat ∧ char.toNat ≤ 122)) ∨
      (48 ≤ char.toNat ∧ char.toNat ≤ 57) := by
  simp [Char.isAlphanum, Char.isAlpha, Char.isUpper, Char.isLower, Char.isDigit,
    UInt32.le_iff_toNat_le, ← Char.toNat_val]

theorem isDigit_iff (char : Char) :
    char.isDigit = true ↔ 48 ≤ char.toNat ∧ char.toNat ≤ 57 := by
  simp [Char.isDigit, UInt32.le_iff_toNat_le, ← Char.toNat_val]

theorem asciiTest_isDigit : AsciiTest Char.isDigit false := by
  intro char beyond
  rw [← Bool.not_eq_true, isDigit_iff]
  omega

theorem asciiTest_isAlphanum : AsciiTest Char.isAlphanum false := by
  intro char beyond
  rw [← Bool.not_eq_true, isAlphanum_iff]
  omega

theorem asciiTest_beq {other : Char} (ascii : other.toNat < 128) :
    AsciiTest (· == other) false := by
  intro char beyond
  rw [beq_eq_false_iff_ne]
  rintro rfl
  omega

theorem asciiTest_contains {others : List Char}
    (ascii : (others.all fun other => decide (other.toNat < 128)) = true) :
    AsciiTest (others.contains ·) false := by
  intro char beyond
  rw [← Bool.not_eq_true, List.contains_iff_mem]
  intro member
  have := of_decide_eq_true (List.all_eq_true.mp ascii char member)
  omega

section Tests

variable {test : Char → Bool} {answer : Bool}

theorem AsciiTest.or (ascii : AsciiTest test answer) {test' : Char → Bool} {answer' : Bool}
    (ascii' : AsciiTest test' answer') :
    AsciiTest (fun char => test char || test' char) (answer || answer') := by
  intro char beyond
  exact congrArg₂ _ (ascii char beyond) (ascii' char beyond)

theorem AsciiTest.not (ascii : AsciiTest test answer) :
    AsciiTest (fun char => !test char) (!answer) := by
  intro char beyond
  exact congrArg _ (ascii char beyond)

theorem toNat_ofNat_byte (byte : UInt8) : (Char.ofNat byte.toNat).toNat = byte.toNat := by
  have small := byte.toNat_lt
  rw [Char.toNat_ofNat, if_pos]
  exact .inl (by omega)

/-- All bytes of a character pass the test if the character does, and none otherwise. -/
theorem onByte_of_mem (ascii : AsciiTest test answer) {char : Char} {byte : UInt8}
    (member : byte ∈ String.utf8EncodeChar char) : onByte test byte = test char := by
  by_cases small : char.toNat < 128
  · rw [utf8EncodeChar_of_ascii small, List.mem_singleton] at member
    rw [member, onByte, UInt8.toNat_ofNat_of_lt' (by rw [UInt8.size]; omega), Char.ofNat_toNat]
  · have beyond : 128 ≤ char.toNat := Nat.le_of_not_lt small
    rw [onByte, ascii char beyond]
    apply ascii
    rw [toNat_ofNat_byte]
    exact le_of_mem_utf8EncodeChar beyond member

/-- The bytes that pass the test are those of the characters that do. -/
theorem takeWhile_encode (ascii : AsciiTest test answer) (text : List Char) :
    (encode text).takeWhile (onByte test) = encode (text.takeWhile test) := by
  induction text with
  | nil => rfl
  | cons char text ih =>
    rw [encode_cons, List.takeWhile_cons]
    split
    · rename_i passes
      have all_pass : ∀ byte ∈ String.utf8EncodeChar char, onByte test byte = true :=
        fun byte member => (onByte_of_mem ascii member).trans passes
      rw [List.takeWhile_append_of_pos all_pass, ih, encode_cons]
    · rename_i fails
      cases bytes : String.utf8EncodeChar char with
      | nil => exact absurd bytes (String.utf8EncodeChar_ne_nil)
      | cons first rest =>
        have first_fails : onByte test first = test char :=
          onByte_of_mem ascii (by rw [bytes]; exact List.mem_cons_self)
        rw [List.cons_append, List.takeWhile_cons, first_fails, if_neg fails]
        rfl

end Tests

/-! ## Decoding -/

/-- The text whose UTF-8 form the bytes are. -/
def decode (bytes : List UInt8) : Option (List Char) :=
  bytes.toByteArray.utf8Decode?.map Array.toList

theorem decode_encode (text : List Char) : decode (encode text) = some text := by
  change text.utf8Encode.utf8Decode?.map Array.toList = _
  rw [List.utf8Decode?_utf8Encode]
  rfl

variable {text : List Char}

theorem decode_eq_some_iff {bytes : List UInt8} :
    decode bytes = some text ↔ bytes = encode text := by
  constructor
  · intro decoded
    have valid : bytes.toByteArray.utf8Decode?.isSome = true := by
      rw [← Option.isSome_map (f := Array.toList)]
      exact Option.isSome_of_eq_some decoded
    rcases ByteArray.isSome_utf8Decode?_iff.mp valid with ⟨other, same⟩
    have bytes_eq : bytes = encode other := List.toByteArray_inj.mp same
    rw [bytes_eq, decode_encode] at decoded
    rw [bytes_eq, Option.some.inj decoded]
  · rintro rfl
    exact decode_encode text

theorem ofNat_toNat_inj {first second : Char} (ascii : first.toNat < 128)
    (ascii' : second.toNat < 128) (same : UInt8.ofNat first.toNat = UInt8.ofNat second.toNat) :
    first = second := by
  have codes := congrArg UInt8.toNat same
  rw [UInt8.toNat_ofNat_of_lt' (by rw [UInt8.size]; omega),
    UInt8.toNat_ofNat_of_lt' (by rw [UInt8.size]; omega)] at codes
  exact Char.toNat_inj.mp codes

/-- An ASCII byte at the end is a character of its own. -/
theorem encode_eq_concat_iff (ascii : char.toNat < 128)
    {body : List UInt8} :
    body ++ [UInt8.ofNat char.toNat] = encode text ↔
      ∃ front, text = front ++ [char] ∧ body = encode front := by
  constructor
  · intro same
    rcases List.eq_nil_or_concat text with rfl | ⟨front, last, rfl⟩
    · simp at same
    · rw [List.concat_eq_append] at same ⊢
      rw [encode_append, encode_cons, encode_nil, List.append_nil] at same
      have small : last.toNat < 128 := by
        by_contra beyond
        have isLast := congrArg List.getLast? same
        rw [List.getLast?_concat,
          List.getLast?_append_of_ne_nil _ String.utf8EncodeChar_ne_nil] at isLast
        have large := le_of_mem_utf8EncodeChar (Nat.le_of_not_lt beyond)
          (List.mem_of_getLast? isLast.symm)
        rw [UInt8.toNat_ofNat_of_lt' (by rw [UInt8.size]; omega)] at large
        omega
      rw [utf8EncodeChar_of_ascii small] at same
      rcases List.append_inj' same rfl with ⟨body_eq, last_eq⟩
      rw [ofNat_toNat_inj ascii small (List.singleton_inj.mp last_eq)]
      exact ⟨front, rfl, body_eq⟩
  · rintro ⟨front, rfl, rfl⟩
    rw [encode_append, encode_cons, encode_nil, List.append_nil, utf8EncodeChar_of_ascii ascii]

/-- An ASCII byte inside is a character of its own. -/
theorem eq_append_of_encode_eq (ascii : char.toNat < 128)
    {front back : List UInt8} (same : encode text = front ++ UInt8.ofNat char.toNat :: back) :
    ∃ before after, text = before ++ char :: after ∧ encode before = front ∧
      encode after = back := by
  induction text generalizing front with
  | nil => simp at same
  | cons first text ih =>
    rw [encode_cons] at same
    rcases List.append_eq_append_iff.mp same with ⟨more, rfl, rest⟩ | ⟨more, whole, rest⟩
    · rcases ih rest with ⟨before, after, rfl, rfl, rfl⟩
      exact ⟨first :: before, after, rfl, encode_cons _ _, rfl⟩
    · cases more with
      | nil =>
        rw [List.append_nil] at whole
        have later : encode text = [] ++ UInt8.ofNat char.toNat :: back := rest.symm
        rcases ih later with ⟨before, after, rfl, nothing, rfl⟩
        refine ⟨first :: before, after, rfl, ?_, rfl⟩
        rw [encode_cons, nothing, List.append_nil, whole]
      | cons byte more =>
        obtain ⟨rfl, rfl⟩ := List.cons.inj rest
        have small : first.toNat < 128 := by
          by_contra beyond
          have large := le_of_mem_utf8EncodeChar (Nat.le_of_not_lt beyond)
            (whole ▸ List.mem_append_right front List.mem_cons_self)
          rw [UInt8.toNat_ofNat_of_lt' (by rw [UInt8.size]; omega)] at large
          omega
        rw [utf8EncodeChar_of_ascii small] at whole
        obtain ⟨rfl, one⟩ := List.append_eq_singleton_iff.mp whole.symm |>.resolve_right
          (by simp)
        obtain ⟨byte_eq, rfl⟩ := List.cons.inj one
        rw [ofNat_toNat_inj ascii small byte_eq]
        exact ⟨[], text, rfl, rfl, rfl⟩

theorem mem_encode_iff (ascii : char.toNat < 128) :
    UInt8.ofNat char.toNat ∈ encode text ↔ char ∈ text := by
  constructor
  · intro member
    obtain ⟨front, back, split⟩ := List.append_of_mem member
    obtain ⟨before, after, rfl, -, -⟩ := eq_append_of_encode_eq ascii split
    exact List.mem_append_right before List.mem_cons_self
  · intro member
    rw [encode, List.mem_flatMap]
    refine ⟨char, member, ?_⟩
    rw [utf8EncodeChar_of_ascii ascii]
    exact List.mem_singleton_self _

theorem encode_injective : Function.Injective encode := by
  intro first second same
  have decoded := decode_encode first
  rw [same, decode_encode] at decoded
  exact (Option.some.inj decoded).symm

theorem decode_concat (ascii : char.toNat < 128) (body : List UInt8) :
    decode (body ++ [UInt8.ofNat char.toNat]) = (decode body).map (· ++ [char]) := by
  apply Option.ext
  intro text
  rw [decode_eq_some_iff, encode_eq_concat_iff ascii, Option.map_eq_some_iff]
  simp only [decode_eq_some_iff]
  constructor
  · rintro ⟨front, rfl, body_eq⟩
    exact ⟨front, body_eq, rfl⟩
  · rintro ⟨front, body_eq, rfl⟩
    exact ⟨front, rfl, body_eq⟩

/-! ## Cutting a text -/

theorem splitAt_append (front back : List Char) :
    splitAt (front ++ back) (byteLength front) = some (front, back) := by
  induction front with
  | nil => rw [List.nil_append, byteLength, List.map_nil, List.sum_nil, splitAt]
  | cons char front ih =>
    rw [List.cons_append, byteLength_cons, splitAt_cons (Nat.le_add_right _ _),
      Nat.add_sub_cancel_left, ih]
    rfl

theorem splitAt_eq_some {front back : List Char} {offset : Nat}
    (split : splitAt text offset = some (front, back)) :
    text = front ++ back ∧ byteLength front = offset := by
  induction text generalizing offset front with
  | nil =>
    cases offset with
    | zero =>
      cases split
      exact ⟨rfl, rfl⟩
    | succ offset => cases split
  | cons char text ih =>
    cases offset with
    | zero =>
      cases split
      exact ⟨rfl, rfl⟩
    | succ offset =>
      rw [splitAt, Option.ite_none_right_eq_some] at split
      rcases split with ⟨fits, split⟩
      rcases Option.map_eq_some_iff.mp split with ⟨parts, inner, same⟩
      cases same
      rcases ih inner with ⟨rfl, length_eq⟩
      refine ⟨rfl, ?_⟩
      rw [byteLength_cons, length_eq]
      omega

/-- The byte offset of the first character that passes a test. -/
def findOffset (test : Char → Bool) : List Char → Option Nat
  | [] => none
  | char :: text =>
    if test char then some 0 else (findOffset test text).map (· + char.utf8Size)

variable {test : Char → Bool}

theorem findOffset_eq_some {offset : Nat}
    (found : findOffset test text = some offset) :
    ∃ before char after, text = before ++ char :: after ∧ (∀ other ∈ before, test other = false) ∧
      test char = true ∧ offset = byteLength before := by
  induction text generalizing offset with
  | nil => cases found
  | cons char text ih =>
    rw [findOffset] at found
    split at found
    · rename_i passes
      cases found
      exact ⟨[], char, text, rfl, by simp, passes, rfl⟩
    · rename_i fails
      rcases Option.map_eq_some_iff.mp found with ⟨inner, foundLater, rfl⟩
      rcases ih foundLater with ⟨before, next, after, rfl, earlier, passes, rfl⟩
      refine ⟨char :: before, next, after, rfl, ?_, passes, ?_⟩
      · rw [List.forall_mem_cons]
        exact ⟨Bool.not_eq_true _ ▸ fails, earlier⟩
      · rw [byteLength_cons, Nat.add_comm]

theorem findOffset_append {before : List Char}
    (earlier : ∀ other ∈ before, test other = false) (passes : test char = true)
    (after : List Char) : findOffset test (before ++ char :: after) = some (byteLength before) := by
  induction before with
  | nil => rw [List.nil_append, findOffset, if_pos passes, byteLength_nil]
  | cons other before ih =>
    rw [List.forall_mem_cons] at earlier
    rw [List.cons_append, findOffset, if_neg (by simp [earlier.1]),
      ih earlier.2, byteLength_cons, Nat.add_comm]
    rfl

theorem findOffset_eq_none_iff :
    findOffset test text = none ↔ ∀ char ∈ text, test char = false := by
  induction text with
  | nil => simp [findOffset]
  | cons char text ih =>
    rw [findOffset, List.forall_mem_cons]
    split
    · rename_i passes
      simp [passes]
    · rename_i fails
      rw [Option.map_eq_none_iff, ih]
      simp [fails]

theorem findOffset_beq_append {before : List Char} (clean : char ∉ before)
    (after : List Char) :
    findOffset (· == char) (before ++ char :: after) = some (byteLength before) := by
  apply findOffset_append
  · intro other member
    rw [beq_eq_false_iff_ne]
    rintro rfl
    exact clean member
  · exact beq_self_eq_true char

theorem findOffset_beq_eq_none (absent : char ∉ text) :
    findOffset (· == char) text = none := by
  rw [findOffset_eq_none_iff]
  intro other member
  rw [beq_eq_false_iff_ne]
  rintro rfl
  exact absent member

/-- The text before a byte offset, if it lies between characters. -/
def sliceTo (text : List Char) (stop : Nat) : Option (List Char) :=
  (splitAt text stop).map Prod.fst

/-- The text from a byte offset on, if it lies between characters. -/
def sliceFrom (text : List Char) (start : Nat) : Option (List Char) :=
  (splitAt text start).map Prod.snd

theorem sliceTo_append (front back : List Char) :
    sliceTo (front ++ back) (byteLength front) = some front := by
  rw [sliceTo, splitAt_append]
  rfl

theorem sliceFrom_append (front back : List Char) :
    sliceFrom (front ++ back) (byteLength front) = some back := by
  rw [sliceFrom, splitAt_append]
  rfl

/-- Behind an ASCII character the text may be cut as well. -/
theorem sliceFrom_succ (front : List Char) (ascii : char.toNat < 128)
    (back : List Char) : sliceFrom (front ++ char :: back) (byteLength front + 1) = some back := by
  have offset_eq : byteLength front + 1 = byteLength (front ++ [char]) := by
    rw [byteLength_append, byteLength_singleton, utf8Size_of_ascii ascii]
  rw [offset_eq, List.append_cons, sliceFrom_append]

theorem sliceFrom_one (starts : text.head? = some char)
    (ascii : char.toNat < 128) : sliceFrom text 1 = some text.tail := by
  rcases List.head?_eq_some_iff.mp starts with ⟨rest, rfl⟩
  exact sliceFrom_succ [] ascii rest

theorem sliceTo_eq_some_iff {front : List Char} {stop : Nat} :
    sliceTo text stop = some front ↔ front <+: text ∧ byteLength front = stop := by
  constructor
  · intro found
    rcases Option.map_eq_some_iff.mp found with ⟨⟨_, back⟩, split, rfl⟩
    rcases splitAt_eq_some split with ⟨rfl, length_eq⟩
    exact ⟨List.prefix_append _ _, length_eq⟩
  · rintro ⟨⟨back, rfl⟩, rfl⟩
    exact sliceTo_append front back

theorem toNat_toLower (char : Char) : char.toLower.toNat =
    if 65 ≤ char.toNat ∧ char.toNat ≤ 90 then char.toNat + 32 else char.toNat := by
  have upper_iff : (char.val ≥ 'A'.val ∧ char.val ≤ 'Z'.val) ↔
      65 ≤ char.toNat ∧ char.toNat ≤ 90 := by
    simp [UInt32.le_iff_toNat_le, ← Char.toNat_val]
  rw [Char.toLower]
  split
  · rename_i upper
    rw [if_pos (upper_iff.mp upper)]
    have := upper_iff.mp upper
    simp [← Char.toNat_val] at *
    omega
  · rename_i notUpper
    rw [if_neg fun upper => notUpper (upper_iff.mpr upper)]

theorem toLower_toLower (char : Char) : char.toLower.toLower = char.toLower := by
  rw [← Char.toNat_inj, toNat_toLower char.toLower, toNat_toLower]
  by_cases upper : 65 ≤ char.toNat ∧ char.toNat ≤ 90
  · rw [if_pos upper, if_neg (by omega)]
  · rw [if_neg upper, if_neg upper]

theorem utf8Size_toLower (char : Char) : char.toLower.utf8Size = char.utf8Size := by
  have lower_eq := toNat_toLower char
  split at lower_eq
  · rw [utf8Size_of_ascii (by omega), utf8Size_of_ascii (by omega)]
  · rw [Char.toNat_inj.mp lower_eq]

/-- Texts that differ in the case of ASCII letters only have the same length. -/
theorem byteLength_of_eqIgnoreAsciiCase {first second : List Char}
    (same : eqIgnoreAsciiCase first second = true) : byteLength first = byteLength second := by
  have lowered : ∀ text : List Char, byteLength (text.map Char.toLower) = byteLength text := by
    intro text
    rw [byteLength, byteLength, List.map_map]
    exact congrArg List.sum (List.map_congr_left fun char _ => utf8Size_toLower char)
  rw [← lowered first, eq_of_beq same, lowered]

/-- The text between two byte offsets; there is none when they are out of order, beyond
the end or inside a character. -/
def slice (text : List Char) (start stop : Nat) : Option (List Char) :=
  if start ≤ stop then
    (splitAt text stop).bind fun parts => (splitAt parts.1 start).map Prod.snd
  else
    none

theorem slice_append (front middle back : List Char) :
    slice (front ++ middle ++ back) (byteLength front) (byteLength (front ++ middle)) =
      some middle := by
  rw [slice, if_pos (by rw [byteLength_append]; omega), splitAt_append, Option.bind_some,
    splitAt_append]
  rfl

end HiveGuard.Library.Text
