import HiveGuard.PluginApi.Sanitize

/-!
# What masking makes of a text

`Masked` reads a text from left to right: a separator with the name of a secret parameter
is followed by a value that is replaced, everything else stays.  The scan of the bytes
computes this relation without a panic, and all else is proved from the relation.
-/

namespace HiveGuard.PluginApi

open Library.Text

/-! ## The relation -/

/-- The text starts with a separator, the name of a secret parameter and `=`. -/
def StartsSecret (text : List Char) : Prop :=
  ∃ separator name after, text = separator :: (name ++ '=' :: after) ∧
    isSeparator separator = true ∧ isSecretParam name = true

/-- The mask, unless there is nothing to mask. -/
def maskedValue (value : List Char) : List Char :=
  if value = [] then [] else mask

/-- The second text is the first one with the values of secret parameters masked. -/
inductive Masked : List Char → List Char → Prop where
  | nil : Masked [] []
  | secret {separator : Char} {name value rest out : List Char}
      (isSeparator_separator : isSeparator separator = true)
      (isSecretParam_name : isSecretParam name = true)
      (clean : ∀ char ∈ value, isTerminator char = false)
      (ends : rest.head?.all isTerminator = true) (tail : Masked rest out) :
      Masked (separator :: (name ++ '=' :: (value ++ rest)))
        (separator :: (name ++ '=' :: (maskedValue value ++ out)))
  | other {char : Char} {text out : List Char} (plain : ¬StartsSecret (char :: text))
      (tail : Masked text out) : Masked (char :: text) (char :: out)

/-! ## Tests of bytes -/

theorem asciiTest_isSeparator : AsciiTest isSeparator false :=
  ((asciiTest_beq (by decide)).or (asciiTest_beq (by decide))).or (asciiTest_beq (by decide))

theorem asciiTest_isNameChar : AsciiTest isNameChar false :=
  ((asciiTest_isAlphanum.or (asciiTest_beq (by decide))).or (asciiTest_beq (by decide))).or
    (asciiTest_beq (by decide))

theorem asciiTest_not_isTerminator : AsciiTest (!isTerminator ·) true :=
  (asciiTest_contains (by decide)).not

/-! ## Names -/

variable {char : Char}

theorem isNameChar_of_toLower (name : isNameChar char.toLower = true) :
    isNameChar char = true := by
  by_cases upper : 65 ≤ char.toNat ∧ char.toNat ≤ 90
  · rw [isNameChar, (isAlphanum_iff char).mpr (.inl (.inl upper))]
    rfl
  · have same : char.toLower = char := by
      apply Char.toNat_inj.mp
      rw [toNat_toLower, if_neg upper]
    rwa [same] at name

variable {name text out : List Char}

theorem isSecretParam_iff :
    isSecretParam name = true ↔ name.map Char.toLower ∈ secretQueryParams := by
  have lower : ∀ param ∈ secretQueryParams, param.map Char.toLower = param := by decide
  rw [isSecretParam, List.any_eq_true]
  constructor
  · rintro ⟨param, member, same⟩
    rw [eqIgnoreAsciiCase, beq_iff_eq, lower param member] at same
    rwa [← same]
  · intro member
    exact ⟨_, member, by rw [eqIgnoreAsciiCase, beq_iff_eq, lower _ member]⟩

/-- Names of secret parameters consist of characters of names. -/
theorem isNameChar_of_isSecretParam (secret : isSecretParam name = true) :
    name ≠ [] ∧ ∀ char ∈ name, isNameChar char = true := by
  have names : (secretQueryParams.all fun param => !param.isEmpty && param.all isNameChar) =
      true := by decide
  rw [isSecretParam_iff] at secret
  have named := List.all_eq_true.mp names _ secret
  rw [Bool.and_eq_true, List.all_eq_true] at named
  constructor
  · rintro rfl
    exact absurd named.1 (by simp)
  · intro char member
    exact isNameChar_of_toLower (named.2 _ (List.mem_map_of_mem member))

/-- A name of a secret parameter is the longest text of name characters before the `=`. -/
theorem name_append (secret : isSecretParam name = true) (after : List Char) :
    (name ++ '=' :: after).takeWhile isNameChar = name ∧
      (name ++ '=' :: after).dropWhile isNameChar = '=' :: after := by
  have chars := (isNameChar_of_isSecretParam secret).2
  have notName : isNameChar '=' = false := by decide
  rw [List.takeWhile_append_of_pos chars, List.dropWhile_append_of_pos chars,
    List.takeWhile_cons, List.dropWhile_cons, notName]
  simp

theorem startsSecret_iff {separator : Char} :
    StartsSecret (separator :: text) ↔ isSeparator separator = true ∧
      isSecretParam (text.takeWhile isNameChar) = true ∧
        (text.dropWhile isNameChar).head? = some '=' := by
  constructor
  · rintro ⟨separator, name, after, same, separates, secret⟩
    cases same
    rcases name_append secret after with ⟨taken, dropped⟩
    rw [taken, dropped]
    exact ⟨separates, secret, rfl⟩
  · rintro ⟨separates, secret, equals⟩
    rcases List.head?_eq_some_iff.mp equals with ⟨after, dropped⟩
    exact ⟨separator, text.takeWhile isNameChar, after,
      by rw [← dropped, List.takeWhile_append_dropWhile], separates, secret⟩

/-- The name of a secret parameter and what follows its `=` are determined by their text. -/
theorem name_injective {name' after after' : List Char} (secret : isSecretParam name = true)
    (secret' : isSecretParam name' = true) (same : name ++ '=' :: after = name' ++ '=' :: after') :
    name = name' ∧ after = after' := by
  have names := congrArg (List.takeWhile isNameChar) same
  have values := congrArg (List.dropWhile isNameChar) same
  rw [(name_append secret _).1, (name_append secret' _).1] at names
  rw [(name_append secret _).2, (name_append secret' _).2, List.cons.injEq] at values
  exact ⟨names, values.2⟩

theorem not_isTerminator_takeWhile (text : List Char) :
    ∀ char ∈ text.takeWhile (!isTerminator ·), isTerminator char = false := by
  intro char member
  simpa using List.mem_takeWhile_imp member

theorem isTerminator_head?_dropWhile (text : List Char) :
    (text.dropWhile (!isTerminator ·)).head?.all isTerminator = true := by
  have stops := List.head?_dropWhile_not (!isTerminator ·) text
  cases rest : text.dropWhile (!isTerminator ·) with
  | nil => rfl
  | cons first rest => simpa [rest] using stops

/-- A value and what follows it are determined by the text they make up. -/
theorem value_append {value rest : List Char} (clean : ∀ char ∈ value, isTerminator char = false)
    (ends : rest.head?.all isTerminator = true) :
    (value ++ rest).takeWhile (!isTerminator ·) = value ∧
      (value ++ rest).dropWhile (!isTerminator ·) = rest := by
  have passes : ∀ char ∈ value, (!isTerminator char) = true := by simpa using clean
  rw [List.takeWhile_append_of_pos passes, List.dropWhile_append_of_pos passes]
  cases rest with
  | nil => simp
  | cons first rest =>
    have stops : isTerminator first = true := by simpa using ends
    simp [stops]

/-- The value of a secret parameter ends before the next terminator. -/
theorem StartsSecret.value (starts : StartsSecret text) :
    ∃ separator name value rest, text = separator :: (name ++ '=' :: (value ++ rest)) ∧
      isSeparator separator = true ∧ isSecretParam name = true ∧
      (∀ char ∈ value, isTerminator char = false) ∧ rest.head?.all isTerminator = true := by
  rcases starts with ⟨separator, name, after, rfl, separates, secret⟩
  refine ⟨separator, name, after.takeWhile (!isTerminator ·), after.dropWhile (!isTerminator ·),
    by rw [List.takeWhile_append_dropWhile], separates, secret, not_isTerminator_takeWhile after,
    isTerminator_head?_dropWhile after⟩

/-! ## The scan -/

section Scan

variable {front back : List Char}

/-- The first byte of a text, tested. -/
theorem getElem?_encode_any (front back : List Char) {test : Char → Bool} {answer : Bool}
    (ascii : AsciiTest test answer) :
    (encode (front ++ back))[byteLength front]?.any (onByte test) = back.head?.any test := by
  rw [← List.head?_drop, drop_encode]
  cases back with
  | nil => rfl
  | cons char back =>
    rw [encode_cons]
    cases bytes : String.utf8EncodeChar char with
    | nil => exact absurd bytes String.utf8EncodeChar_ne_nil
    | cons first rest =>
      exact onByte_of_mem ascii (by rw [bytes]; exact List.mem_cons_self)

variable {separator : Char}

/-- The scan of the bytes finds the value of a secret parameter where the text has it. -/
theorem secretValueAt_eq (front : List Char) (ascii : separator.toNat < 128)
    (back : List Char) :
    secretValueAt (front ++ separator :: back) (byteLength front) =
      some (if isSecretParam (back.takeWhile isNameChar) ∧
          (back.dropWhile isNameChar).head? = some '=' then
        some (byteLength (front ++ separator :: back.takeWhile isNameChar) + 1) else none) := by
  have start_eq : byteLength front + 1 = byteLength (front ++ [separator]) := by
    rw [byteLength_append, byteLength_singleton, utf8Size_of_ascii ascii]
  have text_eq : front ++ separator :: back =
      (front ++ [separator]) ++ (back.takeWhile isNameChar ++ back.dropWhile isNameChar) := by
    rw [List.takeWhile_append_dropWhile]
    simp
  have end_eq : byteLength (front ++ [separator]) +
      (((encode (front ++ separator :: back)).drop (byteLength (front ++ [separator]))).takeWhile
        (onByte isNameChar)).length =
      byteLength ((front ++ [separator]) ++ back.takeWhile isNameChar) := by
    rw [text_eq, drop_encode, takeWhile_encode asciiTest_isNameChar,
      List.takeWhile_append_dropWhile, length_encode, byteLength_append (front ++ [separator])]
  have equals_eq := getElem?_encode_any ((front ++ [separator]) ++ back.takeWhile isNameChar)
    (back.dropWhile isNameChar) (asciiTest_beq (by decide : '='.toNat < 128))
  have slice_eq := slice_append (front ++ [separator]) (back.takeWhile isNameChar)
    (back.dropWhile isNameChar)
  rw [List.append_assoc, ← text_eq] at equals_eq slice_eq
  simp only [secretValueAt]
  rw [start_eq, end_eq, equals_eq, slice_eq]
  have any_iff : (back.dropWhile isNameChar).head?.any (· == '=') = true ↔
      (back.dropWhile isNameChar).head? = some '=' := by
    cases (back.dropWhile isNameChar).head? <;> simp
  have regroup : front ++ [separator] ++ back.takeWhile isNameChar =
      front ++ separator :: back.takeWhile isNameChar := by simp
  simp only [any_iff, regroup]
  by_cases secret : isSecretParam (back.takeWhile isNameChar) = true
  · have longer : byteLength (front ++ [separator]) <
        byteLength (front ++ separator :: back.takeWhile isNameChar) := by
      have positive := byteLength_pos (isNameChar_of_isSecretParam secret).1
      rw [← regroup, byteLength_append (front ++ [separator])]
      omega
    by_cases equals : (back.dropWhile isNameChar).head? = some '='
    · simp [secret, longer, equals]
    · simp [secret, equals]
  · simp [secret]

theorem getElem?_encode_char (front : List Char) {char : Char} (back : List Char) {offset : Nat}
    (inside : offset < char.utf8Size) :
    (encode (front ++ char :: back))[byteLength front + offset]? =
      (String.utf8EncodeChar char)[offset]? := by
  rw [← List.getElem?_drop, drop_encode, encode_cons, List.getElem?_append_left]
  rwa [String.length_utf8EncodeChar]

/-- Bytes that are no separators are passed over. -/
theorem maskLoop_skip {text : List Char} (count : Nat) {fuel position copied : Nat}
    {out : List Char} (skipped : ∀ offset < count, ∃ byte,
      (encode text)[position + offset]? = some byte ∧ onByte isSeparator byte = false) :
    maskLoop text (fuel + count) position copied out =
      maskLoop text fuel (position + count) copied out := by
  induction count generalizing position with
  | zero => rfl
  | succ count ih =>
    rcases skipped 0 (Nat.succ_pos count) with ⟨byte, found, plain⟩
    rw [Nat.add_zero] at found
    have later : maskLoop text (fuel + count) (position + 1) copied out =
        maskLoop text fuel (position + 1 + count) copied out := by
      apply ih
      intro offset inside
      have := skipped (offset + 1) (Nat.succ_lt_succ inside)
      rwa [Nat.add_comm offset 1, ← Nat.add_assoc] at this
    rw [← Nat.add_assoc, maskLoop]
    simp only [found, plain]
    rw [if_neg (by simp), later, Nat.add_assoc, Nat.add_comm 1]

/-- A character that is no separator is passed over. -/
theorem maskLoop_char (front : List Char) {char : Char} (plain : isSeparator char = false)
    (back : List Char) (fuel copied : Nat) (out : List Char) :
    maskLoop (front ++ char :: back) (fuel + char.utf8Size) (byteLength front) copied out =
      maskLoop (front ++ char :: back) fuel (byteLength (front ++ [char])) copied out := by
  rw [byteLength_append, byteLength_singleton]
  apply maskLoop_skip
  intro offset inside
  have bound : offset < (String.utf8EncodeChar char).length := by
    rwa [String.length_utf8EncodeChar]
  refine ⟨(String.utf8EncodeChar char)[offset], ?_, ?_⟩
  · rw [getElem?_encode_char front back inside, List.getElem?_eq_getElem bound]
  · rw [onByte_of_mem asciiTest_isSeparator (List.getElem_mem bound), plain]

/-- The scan at a separator. -/
theorem maskLoop_separator (front : List Char)
    (separates : isSeparator separator = true) (ascii : separator.toNat < 128) (back : List Char)
    (fuel copied : Nat) (out : List Char) :
    maskLoop (front ++ separator :: back) (fuel + 1) (byteLength front) copied out =
      (secretValueAt (front ++ separator :: back) (byteLength front)).bind fun
        | none =>
            maskLoop (front ++ separator :: back) fuel (byteLength front + 1) copied out
        | some valueStart =>
            let valueEnd := valueStart + (((encode (front ++ separator :: back)).drop
              valueStart).takeWhile (onByte (!isTerminator ·))).length
            if valueStart < valueEnd then
              (slice (front ++ separator :: back) copied valueStart).bind fun part =>
                maskLoop (front ++ separator :: back) fuel valueEnd valueEnd (out ++ part ++ mask)
            else
              maskLoop (front ++ separator :: back) fuel valueEnd copied out := by
  have found : (encode (front ++ separator :: back))[byteLength front]? =
      some (UInt8.ofNat separator.toNat) := by
    have inside : 0 < separator.utf8Size := Char.utf8Size_pos separator
    have := getElem?_encode_char front back inside
    rwa [Nat.add_zero, utf8EncodeChar_of_ascii ascii] at this
  have member : UInt8.ofNat separator.toNat ∈ String.utf8EncodeChar separator := by
    rw [utf8EncodeChar_of_ascii ascii]
    exact List.mem_singleton_self _
  have tested : onByte isSeparator (UInt8.ofNat separator.toNat) = true :=
    (onByte_of_mem asciiTest_isSeparator member).trans separates
  rw [maskLoop]
  rw [found]
  exact if_pos tested

theorem toNat_lt_of_isSeparator (separates : isSeparator separator = true) :
    separator.toNat < 128 := by
  by_contra beyond
  rw [asciiTest_isSeparator separator (Nat.le_of_not_lt beyond)] at separates
  cases separates

/-- The scan at a separator without a secret parameter. -/
theorem maskLoop_other (front : List Char)
    (separates : isSeparator separator = true) {back : List Char}
    (plain : ¬StartsSecret (separator :: back)) (fuel copied : Nat) (out : List Char) :
    maskLoop (front ++ separator :: back) (fuel + 1) (byteLength front) copied out =
      maskLoop (front ++ separator :: back) fuel (byteLength (front ++ [separator])) copied
        out := by
  have ascii := toNat_lt_of_isSeparator separates
  have notSecret : ¬(isSecretParam (back.takeWhile isNameChar) = true ∧
      (back.dropWhile isNameChar).head? = some '=') := fun secret =>
    plain (startsSecret_iff.mpr ⟨separates, secret⟩)
  rw [maskLoop_separator front separates ascii, secretValueAt_eq front ascii, if_neg notSecret,
    byteLength_append, byteLength_singleton, utf8Size_of_ascii ascii]
  rfl

/-- The scan at a secret parameter. -/
theorem maskLoop_secret (done pending : List Char) {name value rest : List Char}
    (separates : isSeparator separator = true) (secret : isSecretParam name = true)
    (clean : ∀ char ∈ value, isTerminator char = false)
    (ends : rest.head?.all isTerminator = true) (fuel : Nat) (out : List Char) :
    let text := done ++ pending ++ separator :: (name ++ '=' :: (value ++ rest))
    let opened := pending ++ separator :: (name ++ ['='])
    maskLoop text (fuel + 1) (byteLength (done ++ pending)) (byteLength done) out =
      if value = [] then
        maskLoop text fuel (byteLength (done ++ opened)) (byteLength done) out
      else
        maskLoop text fuel (byteLength (done ++ opened ++ value))
          (byteLength (done ++ opened ++ value)) (out ++ opened ++ mask) := by
  intro text opened
  have ascii := toNat_lt_of_isSeparator separates
  rcases name_append secret (value ++ rest) with ⟨name_eq, after_eq⟩
  have text_eq : text = done ++ opened ++ (value ++ rest) := by simp [text, opened]
  have start_eq : byteLength (done ++ pending ++ separator :: name) + 1 =
      byteLength (done ++ opened) := by
    have regroup : done ++ opened = done ++ pending ++ separator :: name ++ ['='] := by
      simp [opened]
    rw [regroup, byteLength_append _ ['='], byteLength_singleton]
    rfl
  have end_eq : byteLength (done ++ opened) + (((encode text).drop
      (byteLength (done ++ opened))).takeWhile (onByte (!isTerminator ·))).length =
        byteLength (done ++ opened ++ value) := by
    rw [text_eq, drop_encode, takeWhile_encode asciiTest_not_isTerminator,
      (value_append clean ends).1, length_encode, byteLength_append (done ++ opened)]
  have slice_eq : slice text (byteLength done) (byteLength (done ++ opened)) = some opened := by
    rw [text_eq, slice_append]
  rw [maskLoop_separator (done ++ pending) separates ascii,
    secretValueAt_eq (done ++ pending) ascii, name_eq, after_eq, if_pos ⟨secret, rfl⟩,
    Option.bind_some]
  simp only
  rw [start_eq, end_eq, slice_eq, byteLength_append (done ++ opened)]
  by_cases empty : value = []
  · have zero : byteLength value = 0 := by rw [empty]; rfl
    rw [if_pos empty, zero, Nat.add_zero, if_neg (Nat.lt_irrefl _)]
  · have positive := byteLength_pos empty
    rw [if_pos (by omega), if_neg empty, Option.bind_some]

/-- The scan from a point between two characters on: it appends what is left to copy and
the masked rest of the text. -/
theorem maskLoop_spec (back : List Char) (done pending out : List Char) {fuel : Nat}
    (enough : byteLength back < fuel) :
    ∃ masked, Masked back masked ∧
      maskLoop (done ++ pending ++ back) fuel (byteLength (done ++ pending)) (byteLength done)
        out = some (out ++ (pending ++ masked)) := by
  induction size : back.length using Nat.strong_induction_on
    generalizing back done pending out fuel with
  | _ length ih =>
    cases back with
    | nil =>
      rcases Nat.exists_eq_add_of_lt enough with ⟨fuel, rfl⟩
      refine ⟨[], .nil, ?_⟩
      have ended : (encode (done ++ pending ++ []))[byteLength (done ++ pending)]? = none := by
        rw [List.append_nil, List.getElem?_eq_none_iff, length_encode]
      have length_eq : (encode (done ++ pending ++ [])).length =
          byteLength (done ++ pending) := by
        rw [List.append_nil, length_encode]
      rw [maskLoop]
      simp only [ended, length_eq, slice_append, Option.map_some]
      rw [List.append_nil]
    | cons char back =>
      by_cases starts : StartsSecret (char :: back)
      · rcases starts.value with
          ⟨separator, name, value, rest, same, separates, secret, clean, ends⟩
        rw [same] at enough size ⊢
        have shorter : rest.length < length := by
          rw [← size]
          simp only [List.length_cons, List.length_append]
          omega
        have enough' : byteLength rest + 1 < fuel := by
          have := Char.utf8Size_pos separator
          simp only [byteLength_cons, byteLength_append] at enough
          omega
        rcases Nat.exists_eq_add_of_lt (Nat.lt_of_succ_lt enough') with ⟨more, fuel_eq⟩
        rw [fuel_eq, maskLoop_secret done pending separates secret clean ends]
        have enough' : byteLength rest < byteLength rest + more := by omega
        by_cases empty : value = []
        · rcases ih rest.length shorter rest done
            (pending ++ separator :: (name ++ ['='])) out enough' rfl with
            ⟨masked, relation, result⟩
          refine ⟨_, .secret separates secret clean ends relation, ?_⟩
          rw [if_pos empty]
          simpa [empty, maskedValue] using result
        · rcases ih rest.length shorter rest
            (done ++ (pending ++ separator :: (name ++ ['='])) ++ value) []
            (out ++ (pending ++ separator :: (name ++ ['='])) ++ mask) enough' rfl with
            ⟨masked, relation, result⟩
          refine ⟨_, .secret separates secret clean ends relation, ?_⟩
          rw [if_neg empty]
          simpa [empty, maskedValue] using result
      · -- The character stays; a separator takes one round, another one round per byte.
        have skips : ∀ fuel, maskLoop (done ++ pending ++ char :: back)
            (fuel + char.utf8Size) (byteLength (done ++ pending)) (byteLength done) out =
            maskLoop (done ++ pending ++ char :: back) fuel
              (byteLength (done ++ pending ++ [char])) (byteLength done) out := by
          intro fuel
          by_cases separates : isSeparator char = true
          · rw [utf8Size_of_ascii (toNat_lt_of_isSeparator separates)]
            exact maskLoop_other _ separates starts _ _ _
          · exact maskLoop_char _ (Bool.not_eq_true _ ▸ separates) _ _ _ _
        rw [byteLength_cons] at enough
        have one_round : char.utf8Size ≤ fuel := by omega
        rcases Nat.exists_eq_add_of_le' one_round with ⟨more, rfl⟩
        have enough' : byteLength back < more := by omega
        rcases ih back.length (by rw [← size]; simp) back done
          (pending ++ [char]) out enough' rfl with ⟨masked, relation, result⟩
        refine ⟨char :: masked, .other starts relation, ?_⟩
        rw [skips]
        simpa using result

end Scan

/-! ## The relation is a function -/

theorem not_startsSecret_of_not_mem (absent : '=' ∉ text) :
    ¬StartsSecret text := by
  rintro ⟨separator, name, after, rfl, -⟩
  simp at absent

theorem masked_of_not_mem (absent : '=' ∉ text) : Masked text text := by
  induction text with
  | nil => exact .nil
  | cons char text ih =>
    have later : '=' ∉ text := fun member => absent (List.mem_cons_of_mem _ member)
    exact .other (not_startsSecret_of_not_mem absent) (ih later)

theorem Masked.unique {out' : List Char} (masked : Masked text out)
    (masked' : Masked text out') : out = out' := by
  induction masked generalizing out' with
  | nil =>
    cases masked'
    rfl
  | @secret separator name value rest out separates secret clean ends tail ih =>
    generalize same : separator :: (name ++ '=' :: (value ++ rest)) = text at masked'
    cases masked' with
    | nil => cases same
    | secret separates' secret' clean' ends' tail' =>
      rw [List.cons.injEq] at same
      obtain ⟨rfl, values⟩ := name_injective secret secret' same.2
      have value_eq := congrArg (List.takeWhile (!isTerminator ·)) values
      have rest_eq := congrArg (List.dropWhile (!isTerminator ·)) values
      rw [(value_append clean ends).1, (value_append clean' ends').1] at value_eq
      rw [(value_append clean ends).2, (value_append clean' ends').2] at rest_eq
      subst rest_eq
      rw [same.1, value_eq, ih tail']
    | other plain tail' =>
      exact absurd ⟨_, _, _, same.symm, separates, secret⟩ plain
  | other plain tail ih =>
    generalize same : _ :: _ = text at masked'
    cases masked' with
    | nil => cases same
    | secret separates secret clean ends tail' =>
      exact absurd ⟨_, _, _, same, separates, secret⟩ plain
    | other plain' tail' =>
      rw [List.cons.injEq] at same
      rw [← same.2] at tail'
      rw [same.1, ih tail']

/-- The scan of the bytes returns, and what it returns is the masked text. -/
theorem maskSecretParams_eq_some_iff :
    maskSecretParams text = some out ↔ Masked text out := by
  have returns : ∃ masked, Masked text masked ∧ maskSecretParams text = some masked := by
    rw [maskSecretParams]
    split
    · simpa using maskLoop_spec text [] [] [] (Nat.lt_succ_self (byteLength text))
    · rename_i absent
      exact ⟨text, masked_of_not_mem (by simpa using absent), rfl⟩
  rcases returns with ⟨masked, relation, returned⟩
  rw [returned, Option.some.injEq]
  constructor
  · rintro rfl
    exact relation
  · exact fun relation' => relation.unique relation'

/-! ## Masking twice -/

theorem Masked.head_eq (masked : Masked text out) :
    out.head? = text.head? := by
  cases masked <;> rfl

/-- A separator is neither in a name nor an `=`. -/
theorem not_name_of_isSeparator (separates : isSeparator char = true) :
    isNameChar char = false ∧ char ≠ '=' := by
  simp only [isSeparator, Bool.or_eq_true, beq_iff_eq] at separates
  rcases separates with (rfl | rfl) | rfl <;> decide

/-- A name and an `=` at the start of the masked text stood there before. -/
theorem Masked.name_of_out {after : List Char} (masked : Masked text out)
    (chars : ∀ char ∈ name, isNameChar char = true) (starts : out = name ++ '=' :: after) :
    ∃ after', text = name ++ '=' :: after' := by
  induction name generalizing text out with
  | nil =>
    cases masked with
    | nil => cases starts
    | secret separates secret clean ends tail =>
      exact absurd (List.cons.inj starts).1 (not_name_of_isSeparator separates).2
    | other plain tail =>
      rw [(List.cons.inj starts).1]
      exact ⟨_, rfl⟩
  | cons char name ih =>
    rw [List.forall_mem_cons] at chars
    cases masked with
    | nil => cases starts
    | secret separates secret clean ends tail =>
      have notName := (not_name_of_isSeparator separates).1
      rw [(List.cons.inj starts).1, chars.1] at notName
      cases notName
    | other plain tail =>
      rcases ih tail chars.2 (List.cons.inj starts).2 with ⟨after', rfl⟩
      rw [(List.cons.inj starts).1]
      exact ⟨after', rfl⟩

/-- Masking what is masked changes nothing. -/
theorem Masked.idempotent (masked : Masked text out) : Masked out out := by
  induction masked with
  | nil => exact .nil
  | @secret separator name value rest out separates secret clean ends tail ih =>
    have clean' : ∀ char ∈ maskedValue value, isTerminator char = false := by
      rw [maskedValue]
      split
      · simp
      · simp [mask, isTerminator]
    have twice : maskedValue (maskedValue value) = maskedValue value := by
      simp only [maskedValue]
      split
      · simp
      · rfl
    have := Masked.secret separates secret clean' (tail.head_eq ▸ ends) ih
    rwa [twice] at this
  | other plain tail ih =>
    refine .other ?_ ih
    rintro ⟨separator, name, after, same, separates, secret⟩
    rcases tail.name_of_out (isNameChar_of_isSecretParam secret).2 (List.cons.inj same).2 with
      ⟨after', rfl⟩
    exact plain ⟨separator, name, after', by rw [(List.cons.inj same).1], separates, secret⟩

/-! ## Two values -/

/-- A name and its `=` lie in front of a separator. -/
theorem name_before_separator {front back after : List Char} {separator : Char}
    (separates : isSeparator separator = true) (chars : ∀ char ∈ name, isNameChar char = true)
    (same : front ++ separator :: back = name ++ '=' :: after) :
    ∃ middle, front = name ++ '=' :: middle ∧ after = middle ++ separator :: back := by
  induction name generalizing front with
  | nil =>
    cases front with
    | nil => exact absurd (List.cons.inj same).1 (not_name_of_isSeparator separates).2
    | cons char front =>
      rw [List.cons_append, List.nil_append, List.cons.injEq] at same
      exact ⟨front, by rw [same.1]; rfl, same.2.symm⟩
  | cons char name ih =>
    rw [List.forall_mem_cons] at chars
    cases front with
    | nil =>
      have notName := (not_name_of_isSeparator separates).1
      rw [(List.cons.inj same).1, chars.1] at notName
      cases notName
    | cons other front =>
      rw [List.cons_append, List.cons_append, List.cons.injEq] at same
      rcases ih chars.2 same.2 with ⟨middle, rfl, after_eq⟩
      exact ⟨middle, by rw [same.1]; rfl, after_eq⟩

/-- Where two texts are the same, the first part of one ends before or after a character
of the other. -/
theorem append_eq_append_cons {first rest front back : List Char}
    (same : first ++ rest = front ++ char :: back) :
    (∃ between, front = first ++ between ∧ rest = between ++ char :: back) ∨
      ∃ overlap, first = front ++ char :: overlap ∧ back = overlap ++ rest := by
  rcases List.append_eq_append_iff.mp same with ⟨between, front_eq, rest_eq⟩ |
    ⟨overlap, first_eq, back_eq⟩
  · exact .inl ⟨between, front_eq, rest_eq⟩
  · cases overlap with
    | nil => exact .inl ⟨[], by rw [first_eq]; simp, back_eq.symm⟩
    | cons other overlap =>
      rw [List.cons_append, List.cons.injEq] at back_eq
      exact .inr ⟨overlap, by rw [first_eq, back_eq.1], back_eq.2⟩

theorem isTerminator_of_isNameChar (name : isNameChar char = true) :
    isTerminator char = false := by
  rw [← Bool.not_eq_true, isTerminator, List.contains_iff_mem]
  intro member
  simp only [List.mem_cons, List.not_mem_nil, or_false] at member
  rcases member with rfl | rfl | rfl | rfl | rfl | rfl | rfl | rfl | rfl <;>
    exact absurd name (by decide)

section Exchange

variable {name value other : List Char} {separator : Char}

variable {rest : List Char}

/-- What the reading of a value takes of a text that starts without terminators. -/
theorem value_exchange {front back masked : List Char}
    (clean : ∀ char ∈ front, isTerminator char = false)
    (clean' : ∀ char ∈ masked, isTerminator char = false)
    (ends : rest.head?.all isTerminator = true) (same : masked ++ rest = front ++ back) :
    masked = front ++ back.takeWhile (!isTerminator ·) ∧
      rest = back.dropWhile (!isTerminator ·) := by
  have passes : ∀ char ∈ front, (!isTerminator char) = true := by simpa using clean
  have taken := congrArg (List.takeWhile (!isTerminator ·)) same
  have dropped := congrArg (List.dropWhile (!isTerminator ·)) same
  rw [(value_append clean' ends).1, List.takeWhile_append_of_pos passes] at taken
  rw [(value_append clean' ends).2, List.dropWhile_append_of_pos passes] at dropped
  exact ⟨taken, dropped⟩

theorem maskedValue_of_ne_nil (nonempty : value ≠ []) : maskedValue value = mask :=
  if_neg nonempty

/-- A secret parameter in front of a masked text, with a value in two parts. -/
theorem Masked.secret_append {back out : List Char} (separates : isSeparator separator = true)
    (secret : isSecretParam name = true) (nonempty : value ≠ [])
    (clean : ∀ char ∈ value, isTerminator char = false)
    (back_eq : back.dropWhile (!isTerminator ·) = rest) (tail : Masked rest out) :
    Masked (separator :: (name ++ '=' :: (value ++ back)))
      (separator :: (name ++ '=' :: (mask ++ out))) := by
  have ends : rest.head?.all isTerminator = true := back_eq ▸ isTerminator_head?_dropWhile back
  have text_eq : value ++ back = (value ++ back.takeWhile (!isTerminator ·)) ++ rest := by
    rw [List.append_assoc, ← back_eq, List.takeWhile_append_dropWhile]
  have cleanAll : ∀ char ∈ value ++ back.takeWhile (!isTerminator ·),
      isTerminator char = false :=
    List.forall_mem_append.mpr ⟨clean, not_isTerminator_takeWhile back⟩
  have masked := Masked.secret separates secret cleanAll ends tail
  rwa [maskedValue_of_ne_nil (by simp [nonempty]), ← text_eq] at masked

/-- The value of a secret parameter may be exchanged wherever the parameter stands. -/
theorem Masked.exchange (separates : isSeparator separator = true)
    (secret : isSecretParam name = true) (nonempty : value ≠ []) (nonempty' : other ≠ [])
    (clean : ∀ char ∈ value, isTerminator char = false)
    (clean' : ∀ char ∈ other, isTerminator char = false) {front out : List Char}
    (masked : Masked (front ++ separator :: (name ++ '=' :: (value ++ rest))) out) :
    Masked (front ++ separator :: (name ++ '=' :: (other ++ rest))) out := by
  induction size : front.length using Nat.strong_induction_on generalizing front out with
  | _ length ih =>
    generalize same : front ++ separator :: (name ++ '=' :: (value ++ rest)) = text at masked
    cases masked with
    | nil => simp at same
    | @secret separator' name' value' rest' out' separates' secret' clean'' ends tail =>
      cases front with
      | nil =>
        -- The parameter itself is read.
        rw [List.nil_append, List.cons.injEq] at same
        obtain ⟨rfl, values⟩ := name_injective secret secret' same.2
        rcases value_exchange clean clean'' ends values.symm with ⟨rfl, rest_eq⟩
        rw [maskedValue_of_ne_nil (by simp [nonempty]), ← same.1]
        exact Masked.secret_append separates secret nonempty' clean' rest_eq.symm tail
      | cons first front =>
        rw [List.cons_append, List.cons.injEq] at same
        rcases name_before_separator separates (isNameChar_of_isSecretParam secret').2 same.2
          with ⟨middle, rfl, after_eq⟩
        rw [same.1]
        rcases append_eq_append_cons after_eq with
          ⟨between, rfl, rest_eq⟩ | ⟨overlap, rfl, rest_eq⟩
        · -- An earlier value ends before the parameter.
          rw [rest_eq] at tail ends
          have later := ih between.length (by simp [← size]; omega)
            tail rfl
          have ends' : (between ++ separator ::
              (name ++ '=' :: (other ++ rest))).head?.all isTerminator = true := by
            cases between <;> exact ends
          simpa using Masked.secret separates' secret' clean'' ends' later
        · -- The parameter is inside of an earlier value.
          have cleanName : ∀ char ∈ name ++ ['='], isTerminator char = false := by
            refine List.forall_mem_append.mpr ⟨fun char member => ?_, by simp [isTerminator]⟩
            exact isTerminator_of_isNameChar ((isNameChar_of_isSecretParam secret).2 _ member)
          have cleanFront : ∀ char ∈ name ++ ['='] ++ value, isTerminator char = false :=
            List.forall_mem_append.mpr ⟨cleanName, clean⟩
          obtain ⟨cleanMiddle, cleanRest⟩ := List.forall_mem_append.mp clean''
          obtain ⟨cleanSeparator, cleanOverlap⟩ := List.forall_mem_cons.mp cleanRest
          have cleanNew : ∀ char ∈ middle ++ separator :: (name ++ ['='] ++ other),
              isTerminator char = false :=
            List.forall_mem_append.mpr ⟨cleanMiddle, List.forall_mem_cons.mpr
              ⟨cleanSeparator, List.forall_mem_append.mpr ⟨cleanName, clean'⟩⟩⟩
          have overlaps : overlap ++ rest' = (name ++ ['='] ++ value) ++ rest := by
            rw [← rest_eq]
            simp
          rcases value_exchange cleanFront cleanOverlap ends overlaps with ⟨-, dropped⟩
          rw [maskedValue_of_ne_nil (by simp)]
          simpa using Masked.secret_append separates' secret' (by simp) cleanNew
            dropped.symm tail
    | other plain tail =>
      cases front with
      | nil =>
        rw [List.nil_append] at same
        exact absurd ⟨_, _, _, same.symm, separates, secret⟩ plain
      | cons first front =>
        rw [List.cons_append, List.cons.injEq] at same
        rw [← same.2] at tail
        have later := ih front.length (by simp [← size]) tail rfl
        rw [List.cons_append, same.1]
        refine .other ?_ later
        rintro ⟨separator', name', after, starts, separates', secret'⟩
        rw [List.cons.injEq] at starts
        rcases name_before_separator separates (isNameChar_of_isSecretParam secret').2
          starts.2 with ⟨middle, rfl, -⟩
        apply plain
        rw [← same.2, starts.1]
        exact ⟨separator', name', middle ++ separator :: (name ++ '=' :: (value ++ rest)),
          by simp, separates', secret'⟩

end Exchange

/-! ## Sanitized text -/

theorem stripUnsafeChars_eq
    (visible : ∀ char ∈ text, isInvisibleOrControl char = false) :
    stripUnsafeChars text = text := by
  rw [stripUnsafeChars, if_neg]
  simpa using visible

theorem truncateChars_returns (text : List Char) (max : Nat) :
    ∃ out, truncateChars text max = some out := by
  rw [truncateChars]
  split
  · exact ⟨text, rfl⟩
  · have cut := slice_append [] (text.take max) (text.drop max)
    rw [List.nil_append, List.take_append_drop, byteLength_nil] at cut
    rw [cut]
    exact ⟨_, rfl⟩

theorem sanitizeText_returns (text : List Char) (maxChars : Nat) :
    ∃ out, sanitizeText text maxChars = some out := by
  rcases maskLoop_spec (stripUnsafeChars text) [] [] [] (Nat.lt_succ_self _) with ⟨masked, spec, -⟩
  rw [sanitizeText, maskSecretParams_eq_some_iff.mpr spec]
  exact truncateChars_returns masked maxChars

/-- Two values of a secret parameter are masked to the same text, and so is what the agent
sees of a text without control and invisible characters.  Masking never panics, replaces
the values of secret parameters and nothing else, and is idempotent. -/
theorem maskSecretParams_hides_values :
    (∀ (front rest name value other : List Char) (separator : Char),
      isSeparator separator = true → isSecretParam name = true → value ≠ [] → other ≠ [] →
      (∀ char ∈ value, isTerminator char = false) →
      (∀ char ∈ other, isTerminator char = false) →
      let text := front ++ separator :: (name ++ '=' :: (value ++ rest))
      let text' := front ++ separator :: (name ++ '=' :: (other ++ rest))
      maskSecretParams text = maskSecretParams text' ∧
        ((∀ char ∈ text, isInvisibleOrControl char = false) →
          (∀ char ∈ text', isInvisibleOrControl char = false) →
          ∀ maxChars, sanitizeText text maxChars = sanitizeText text' maxChars)) ∧
    (∀ text, ∃ out, maskSecretParams text = some out ∧ Masked text out ∧
      maskSecretParams out = some out) ∧
    (∀ text maxChars, ∃ out, sanitizeText text maxChars = some out) := by
  have returns : ∀ text, ∃ out, maskSecretParams text = some out ∧ Masked text out ∧
      maskSecretParams out = some out := by
    intro text
    rcases maskLoop_spec text [] [] [] (Nat.lt_succ_self (byteLength text)) with
      ⟨out, masked, -⟩
    exact ⟨out, maskSecretParams_eq_some_iff.mpr masked, masked,
      maskSecretParams_eq_some_iff.mpr masked.idempotent⟩
  refine ⟨?_, returns, sanitizeText_returns⟩
  intro front rest name value other separator separates secret nonempty nonempty' clean clean'
    text text'
  have same : maskSecretParams text = maskSecretParams text' := by
    rcases returns text with ⟨out, returned, masked, -⟩
    rw [returned, maskSecretParams_eq_some_iff.mpr
      (masked.exchange separates secret nonempty nonempty' clean clean')]
  refine ⟨same, fun visible visible' maxChars => ?_⟩
  rw [sanitizeText, sanitizeText, stripUnsafeChars_eq visible, stripUnsafeChars_eq visible', same]

/-- The path of a request with a code in any letter case. -/
theorem maskSecretParams_hides_code :
    maskSecretParams "/cb?Code=abc&x=1".toList = maskSecretParams "/cb?Code=z&x=1".toList :=
  (maskSecretParams_hides_values.1 "/cb".toList "&x=1".toList "Code".toList "abc".toList
    "z".toList '?' (by decide) (by decide) (by decide) (by decide) (by simp [isTerminator])
    (by simp [isTerminator])).1

end HiveGuard.PluginApi
