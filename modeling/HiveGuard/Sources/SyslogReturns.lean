import HiveGuard.Library.Lines
import HiveGuard.Sources.Syslog

/-!
# Which syslog messages make the parser panic

The priority, the tokens and the structured data are cut at places the parser has found,
so these parts always return.  The older format is cut at a fixed byte and between two
brackets that were searched for independently.  This module states which texts survive
both, and that no other text does.
-/

namespace HiveGuard.Sources

open Library Library.Fallible Library.Lines Library.Text

/-! ## The priority and the tokens -/

/-- The input is a priority in angle brackets and a rest. -/
def HasPri (input : List Char) (prival : Nat) (rest : List Char) : Prop :=
  ∃ digits, input = '<' :: (digits ++ '>' :: rest) ∧ '>' ∉ digits ∧ Numeral digits prival ∧
    prival ≤ 191

theorem parsePri_bracketed {digits : List Char} (clean : '>' ∉ digits) (rest : List Char) :
    parsePri ('<' :: (digits ++ '>' :: rest)) =
      attempt (((parseUnsigned 256 digits).filter (· ≤ 191)).map fun prival => (prival, rest)) := by
  rw [parsePri, List.head?_cons, if_pos rfl, attempt_bind_some, List.tail_cons,
    findOffset_beq_append clean, attempt_bind_some, sliceTo_append, checked_bind_some]
  cases parseUnsigned 256 digits with
  | none => rfl
  | some prival =>
    rw [attempt_bind_some, sliceFrom_succ digits (by decide), checked_bind_some]
    by_cases large : 191 < prival
    · rw [if_pos large, Option.filter_some_neg (by simpa using large)]
      rfl
    · rw [if_neg large, Option.filter_some_pos (by simpa using large)]
      rfl

variable {input : List Char}

theorem parsePri_of_hasPri {rest : List Char} {prival : Nat}
    (pri : HasPri input prival rest) : parsePri input = pure (prival, rest) := by
  rcases pri with ⟨digits, rfl, clean, numeral, small⟩
  have parsed : parseUnsigned 256 digits = some prival :=
    (parseUnsigned_eq_some_iff (by decide)).mpr ⟨numeral, by omega⟩
  rw [parsePri_bracketed clean, parsed, Option.filter_some_pos (by simpa using small)]
  rfl

theorem parsePri_cases (input : List Char) :
    (∃ prival rest, HasPri input prival rest ∧ parsePri input = pure (prival, rest)) ∨
      parsePri input = attempt none := by
  by_cases starts : input.head? = some '<'
  · rcases List.head?_eq_some_iff.mp starts with ⟨text, rfl⟩
    by_cases closed : '>' ∈ text
    · rcases List.eq_append_cons_of_mem closed with ⟨digits, rest, rfl, clean⟩
      rw [parsePri_bracketed clean]
      cases accepted : (parseUnsigned 256 digits).filter (· ≤ 191) with
      | none => exact .inr rfl
      | some prival =>
        rw [Option.filter_eq_some_iff, parseUnsigned_eq_some_iff (by decide)] at accepted
        rcases accepted with ⟨⟨numeral, -⟩, small⟩
        exact .inl ⟨prival, rest, ⟨digits, rfl, clean, numeral, of_decide_eq_true small⟩, rfl⟩
    · rw [parsePri, List.head?_cons, if_pos rfl, attempt_bind_some, List.tail_cons,
        findOffset_beq_eq_none closed]
      exact .inr rfl
  · rw [parsePri, if_neg starts]
    exact .inr rfl

/-- The priority and the rest are determined by the input. -/
theorem forall_hasPri_iff {rest : List Char} {prival : Nat}
    (pri : HasPri input prival rest) (property : List Char → Prop) :
    (∀ prival rest, HasPri input prival rest → property rest) ↔ property rest := by
  constructor
  · intro all
    exact all prival rest pri
  · intro holds prival' rest' pri'
    have same := parsePri_of_hasPri pri'
    rw [parsePri_of_hasPri pri] at same
    cases same
    exact holds

theorem not_hasPri (parsed : parsePri input = attempt none)
    (prival : Nat) (rest : List Char) : ¬HasPri input prival rest := by
  intro pri
  have same := parsePri_of_hasPri pri
  rw [parsed] at same
  cases same

theorem returns_parsePri (input : List Char) : Returns (parsePri input) := by
  rcases parsePri_cases input with ⟨prival, rest, -, parsed⟩ | parsed
  · rw [parsed]
    exact returns_pure _
  · rw [parsed]
    exact returns_attempt _

theorem splitSp_append {token : List Char} (clean : ' ' ∉ token) (rest : List Char) :
    splitSp (token ++ ' ' :: rest) = pure (token, rest) := by
  rw [splitSp, findOffset_beq_append clean, attempt_bind_some, sliceTo_append, checked_bind_some,
    sliceFrom_succ token (by decide), checked_bind_some]

theorem splitSp_of_not_mem (absent : ' ' ∉ input) :
    splitSp input = attempt none := by
  rw [splitSp, findOffset_beq_eq_none absent]
  rfl

theorem splitSp_cases (input : List Char) :
    (∃ token rest, input = token ++ ' ' :: rest ∧ ' ' ∉ token ∧
      splitSp input = pure (token, rest)) ∨ ' ' ∉ input ∧ splitSp input = attempt none := by
  by_cases present : ' ' ∈ input
  · rcases List.eq_append_cons_of_mem present with ⟨token, rest, rfl, clean⟩
    exact .inl ⟨token, rest, rfl, clean, splitSp_append clean rest⟩
  · exact .inr ⟨present, splitSp_of_not_mem present⟩

theorem returns_splitSp (input : List Char) : Returns (splitSp input) := by
  rcases splitSp_cases input with ⟨token, rest, -, -, split⟩ | ⟨-, split⟩
  · rw [split]
    exact returns_pure _
  · rw [split]
    exact returns_attempt _

/-! ## Structured data -/

section ParamValue

variable {byte : UInt8}

theorem paramValue_escape (escape : onByte (· == '\\') byte = true) (escaped : UInt8)
    (bytes : List UInt8) :
    paramValue (byte :: escaped :: bytes) =
      ((paramValue bytes).1 + 2, Char.ofNat escaped.toNat :: (paramValue bytes).2) := by
  rw [paramValue, if_pos escape]

theorem paramValue_quote (noEscape : onByte (· == '\\') byte = false)
    (quote : onByte (· == '"') byte = true) (bytes : List UInt8) :
    paramValue (byte :: bytes) = (1, []) := by
  cases bytes with
  | nil => rw [paramValue.eq_3, if_pos quote]
  | cons next bytes => rw [paramValue, if_neg (by simp [noEscape]), if_pos quote]

theorem paramValue_plain (noEscape : onByte (· == '\\') byte = false)
    (noQuote : onByte (· == '"') byte = false) (bytes : List UInt8) :
    paramValue (byte :: bytes) =
      ((paramValue bytes).1 + 1, Char.ofNat byte.toNat :: (paramValue bytes).2) := by
  cases bytes with
  | nil => rw [paramValue.eq_3, if_neg (by simp [noQuote]), paramValue]
  | cons next bytes => rw [paramValue, if_neg (by simp [noEscape]), if_neg (by simp [noQuote])]

end ParamValue

theorem paramValue_plain_append {front : List UInt8}
    (plain : ∀ byte ∈ front, onByte (· == '\\') byte = false ∧ onByte (· == '"') byte = false)
    (bytes : List UInt8) :
    paramValue (front ++ bytes) = ((paramValue bytes).1 + front.length,
      (front.map fun byte => Char.ofNat byte.toNat) ++ (paramValue bytes).2) := by
  induction front with
  | nil => rfl
  | cons byte front ih =>
    rw [List.forall_mem_cons] at plain
    rw [List.cons_append, paramValue_plain plain.1.1 plain.1.2, ih plain.2,
      List.length_cons, Nat.add_assoc]
    rfl

variable {char : Char}

/-- The bytes of an ordinary character are ordinary. -/
theorem plain_of_mem (noEscape : char ≠ '\\') (noQuote : char ≠ '"') {byte : UInt8}
    (member : byte ∈ String.utf8EncodeChar char) :
    onByte (· == '\\') byte = false ∧ onByte (· == '"') byte = false := by
  rw [onByte_of_mem (asciiTest_beq (by decide)) member,
    onByte_of_mem (asciiTest_beq (by decide)) member]
  exact ⟨beq_eq_false_iff_ne.mpr noEscape, beq_eq_false_iff_ne.mpr noQuote⟩

/-- The bytes of a character after its first are beyond ASCII. -/
theorem plain_of_mem_tail {byte : UInt8}
    (member : byte ∈ (String.utf8EncodeChar char).tail) :
    onByte (· == '\\') byte = false ∧ onByte (· == '"') byte = false := by
  by_cases small : char.toNat < 128
  · rw [utf8EncodeChar_of_ascii small] at member
    cases member
  · have beyond : 128 ≤ char.toNat := Nat.le_of_not_lt small
    have noEscape : char ≠ '\\' := by
      rintro rfl
      exact absurd beyond (by decide)
    have noQuote : char ≠ '"' := by
      rintro rfl
      exact absurd beyond (by decide)
    exact plain_of_mem noEscape noQuote (List.mem_of_mem_tail member)

theorem utf8EncodeChar_eq_cons (char : Char) :
    ∃ first, String.utf8EncodeChar char = first :: (String.utf8EncodeChar char).tail := by
  cases bytes : String.utf8EncodeChar char with
  | nil => exact absurd bytes String.utf8EncodeChar_ne_nil
  | cons first rest => exact ⟨first, rfl⟩

theorem encode_cons_of_ascii (ascii : char.toNat < 128) (text : List Char) :
    encode (char :: text) = UInt8.ofNat char.toNat :: encode text := by
  rw [encode_cons, utf8EncodeChar_of_ascii ascii, List.singleton_append]

theorem byteLength_cons_of_ascii (ascii : char.toNat < 128) (text : List Char) :
    byteLength (char :: text) = byteLength text + 1 := by
  rw [byteLength_cons, utf8Size_of_ascii ascii, Nat.add_comm]

/-- The value that starts with the text ends between two of its characters. -/
def EndsBetween (text : List Char) : Prop :=
  ∃ front back, text = front ++ back ∧ (paramValue (encode text)).1 = byteLength front

theorem endsBetween_cons (noEscape : char ≠ '\\') {text : List Char}
    (between : EndsBetween text) : EndsBetween (char :: text) := by
  by_cases quote : char = '"'
  · subst quote
    refine ⟨['"'], text, rfl, ?_⟩
    rw [encode_cons_of_ascii (by decide), paramValue_quote (by decide) (by decide)]
    rfl
  · rcases between with ⟨front, back, rfl, length_eq⟩
    refine ⟨char :: front, back, rfl, ?_⟩
    rw [encode_cons, paramValue_plain_append fun byte => plain_of_mem noEscape quote, length_eq,
      String.length_utf8EncodeChar, byteLength_cons, Nat.add_comm]

theorem endsBetween_escape (char : Char) {text : List Char} (between : EndsBetween text) :
    EndsBetween ('\\' :: char :: text) := by
  rcases between with ⟨front, back, rfl, length_eq⟩
  rcases utf8EncodeChar_eq_cons char with ⟨first, bytes⟩
  refine ⟨'\\' :: char :: front, back, rfl, ?_⟩
  have size := String.length_utf8EncodeChar char
  rw [bytes, List.length_cons] at size
  rw [encode_cons_of_ascii (by decide), encode_cons, bytes, List.cons_append,
    paramValue_escape (by decide), paramValue_plain_append fun byte => plain_of_mem_tail,
    length_eq, byteLength_cons_of_ascii (by decide), byteLength_cons]
  omega

/-- Every value ends between characters, whatever stands behind its escapes. -/
theorem endsBetween (text : List Char) : EndsBetween text := by
  -- An escape takes one byte of the next character, so the induction goes two characters
  -- back: what is left of the escaped character are ordinary bytes.
  induction text using List.twoStepInduction with
  | nil => exact ⟨[], [], rfl, rfl⟩
  | singleton char =>
    by_cases escape : char = '\\'
    · subst escape
      exact ⟨['\\'], [], rfl, by decide⟩
    · exact endsBetween_cons escape ⟨[], [], rfl, rfl⟩
  | cons_cons char next text behindNext behindChar =>
    by_cases escape : char = '\\'
    · subst escape
      exact endsBetween_escape next behindNext
    · exact endsBetween_cons escape (behindChar next)

theorem sliceFrom_paramValue (text : List Char) :
    ∃ back, sliceFrom text (paramValue (encode text)).1 = some back ∧
      back.length ≤ text.length := by
  rcases endsBetween text with ⟨front, back, rfl, length_eq⟩
  refine ⟨back, ?_, ?_⟩
  · rw [length_eq, sliceFrom_append]
  · rw [List.length_append]
    omega

/-- The loop over the parameters ends before its fuel and without a panic. -/
theorem paramsLoop_returns (fuel : Nat) (rest : List Char)
    (params : List (List Char × List Char)) (enough : rest.length < fuel) :
    ∃ params' rest', paramsLoop fuel rest params = some (params', rest') ∧
      rest'.length ≤ rest.length := by
  induction fuel generalizing rest params with
  | zero => omega
  | succ fuel ih =>
    rw [paramsLoop]
    split
    · rename_i space
      rcases List.head?_eq_some_iff.mp space with ⟨text, rfl⟩
      rw [sliceFrom_one space (by decide), Option.bind_eq_bind, Option.bind_some, List.tail_cons]
      split
      · exact ⟨params, text, rfl, by simp⟩
      · by_cases assigned : '=' ∈ text
        · rcases List.eq_append_cons_of_mem assigned with ⟨name, value, rfl, clean⟩
          simp only [findOffset_beq_append clean, sliceTo_append, Option.bind_some,
            sliceFrom_succ name (show '='.toNat < 128 by decide)]
          split
          · rename_i quote
            rcases List.head?_eq_some_iff.mp quote with ⟨inside, rfl⟩
            rcases sliceFrom_paramValue inside with ⟨behind, cut, shorter⟩
            simp only [List.length_cons, List.length_append] at enough ⊢
            rw [sliceFrom_one quote (by decide), Option.bind_some, List.tail_cons, cut,
              Option.bind_some]
            rcases ih behind _ (by omega) with ⟨params', rest', ran, length_le⟩
            exact ⟨params', rest', ran, by omega⟩
          · refine ⟨params, value, rfl, ?_⟩
            simp only [List.length_cons, List.length_append]
            omega
        · rw [findOffset_beq_eq_none assigned]
          exact ⟨params, text, rfl, by simp⟩
    · exact ⟨params, rest, rfl, le_refl _⟩

/-- Where the name of an element ends, the text may be cut. -/
theorem splitAt_idEnd (text : List Char) (test : Char → Bool) :
    ∃ id behind, text = id ++ behind ∧
      (findOffset test text).getD (byteLength text) = byteLength id := by
  cases found : findOffset test text with
  | none => exact ⟨text, [], (List.append_nil text).symm, rfl⟩
  | some offset =>
    rcases findOffset_eq_some found with ⟨id, char, after, rfl, -, -, rfl⟩
    exact ⟨id, char :: after, rfl, rfl⟩

/-- The loop over the elements ends before its fuel and without a panic. -/
theorem elementsLoop_returns (copy : SyslogCopy) (fuel : Nat) (rest : List Char)
    (elements : List StructuredDataElement) (enough : rest.length < fuel) :
    ∃ result, elementsLoop copy fuel rest elements = some result := by
  induction fuel generalizing rest elements with
  | zero => omega
  | succ fuel ih =>
    rw [elementsLoop]
    split
    · rename_i bracket
      rcases List.head?_eq_some_iff.mp bracket with ⟨text, rfl⟩
      rw [sliceFrom_one bracket (by decide), Option.bind_eq_bind, Option.bind_some,
        List.tail_cons]
      split
      · exact ⟨_, rfl⟩
      · rcases splitAt_idEnd text (fun char => char == ' ' || char == ']') with
          ⟨id, behind, rfl, idEnd⟩
        rcases paramsLoop_returns (behind.length + 1) behind [] (Nat.lt_succ_self _) with
          ⟨params, after, ran, shorter⟩
        simp only [idEnd, sliceTo_append, sliceFrom_append, Option.bind_some,
          Option.bind_eq_bind, ran]
        simp only [List.length_cons, List.length_append] at enough
        split
        · rename_i closed
          rw [sliceFrom_one closed (by decide), Option.bind_some]
          exact ih _ _ (by rw [List.length_tail]; omega)
        · exact ih _ _ (by omega)
    · exact ⟨_, rfl⟩

theorem parseStructuredData_returns (copy : SyslogCopy) (input : List Char) :
    ∃ result, parseStructuredData copy input = some result := by
  rw [parseStructuredData]
  split
  · exact ⟨_, rfl⟩
  · split
    · exact elementsLoop_returns copy _ input [] (Nat.lt_succ_self _)
    · exact ⟨_, rfl⟩

/-! ## The newer format -/

section Messages

variable (copy : SyslogCopy) (timestamps : Timestamps)

theorem returns_parseRfc5424Fields (prival : Nat) (rest : List Char) :
    Returns (parseRfc5424Fields copy timestamps prival rest) := by
  apply returns_bind (returns_splitSp rest)
  rintro ⟨timestamp, rest⟩
  apply returns_bind (returns_splitSp rest)
  rintro ⟨hostname, rest⟩
  apply returns_bind (returns_splitSp rest)
  rintro ⟨appName, rest⟩
  apply returns_bind (returns_splitSp rest)
  rintro ⟨procid, rest⟩
  apply returns_bind (returns_splitSp rest)
  rintro ⟨msgid, rest⟩
  rcases parseStructuredData_returns copy rest with ⟨⟨structuredData, message⟩, parsed⟩
  simp only [parsed, checked_bind_some]
  exact returns_pure _

theorem returns_parseRfc5424 (input : List Char) :
    Returns (parseRfc5424 copy timestamps input) := by
  apply returns_bind (returns_parsePri input)
  rintro ⟨prival, rest⟩
  apply returns_bind (returns_splitSp rest)
  rintro ⟨version, rest⟩
  apply returns_bind (returns_attempt _)
  rintro -
  exact returns_parseRfc5424Fields copy timestamps prival rest

/-- Another token needs another space. -/
theorem produces_splitSp_bind_iff {α : Type} {next : List Char × List Char → Fallible α}
    {needed : Nat} (later : ∀ token rest, Produces (next (token, rest)) ↔ needed ≤ rest.count ' ')
    (input : List Char) :
    Produces (splitSp input >>= next) ↔ needed + 1 ≤ input.count ' ' := by
  rcases splitSp_cases input with ⟨token, rest, rfl, clean, split⟩ | ⟨absent, split⟩
  · rw [split, List.count_append, List.count_cons_self, List.count_eq_zero_of_not_mem clean,
      Nat.zero_add, Nat.add_le_add_iff_right]
    exact later token rest
  · rw [split, attempt_bind_none, List.count_eq_zero_of_not_mem absent]
    exact iff_of_false not_produces_attempt_none (by omega)

theorem produces_parseRfc5424Fields_iff (prival : Nat) (rest : List Char) :
    Produces (parseRfc5424Fields copy timestamps prival rest) ↔ 5 ≤ rest.count ' ' := by
  apply produces_splitSp_bind_iff
  intro timestamp rest
  apply produces_splitSp_bind_iff
  intro hostname rest
  apply produces_splitSp_bind_iff
  intro appName rest
  apply produces_splitSp_bind_iff
  intro procid rest
  apply produces_splitSp_bind_iff
  intro msgid rest
  rcases parseStructuredData_returns copy rest with ⟨⟨structuredData, message⟩, parsed⟩
  simp only [parsed, checked_bind_some]
  exact iff_of_true (produces_pure _) (Nat.zero_le _)

theorem checkVersion_eq_some_iff (version : List Char) :
    checkVersion copy version = some () ↔
      (copy = .ingest → ∃ number, Numeral version number ∧ number < 256) := by
  cases copy with
  | plugin => simp [checkVersion]
  | ingest =>
    rw [checkVersion, Option.map_eq_some_iff]
    simp [parseUnsigned_eq_some_iff]

/-- The rest after the priority has the six tokens of the newer format; the ingest copy
also wants the first of them to be a number. -/
def Rfc5424Shaped (rest : List Char) : Prop :=
  ∃ version more, rest = version ++ ' ' :: more ∧ ' ' ∉ version ∧ 5 ≤ more.count ' ' ∧
    (copy = .ingest → ∃ number, Numeral version number ∧ number < 256)

theorem produces_parseRfc5424_iff {input rest : List Char} {prival : Nat}
    (pri : HasPri input prival rest) :
    Produces (parseRfc5424 copy timestamps input) ↔ Rfc5424Shaped copy rest := by
  rw [parseRfc5424, parsePri_of_hasPri pri]
  change Produces (splitSp rest >>= _) ↔ _
  rcases splitSp_cases rest with ⟨version, more, rfl, clean, split⟩ | ⟨absent, split⟩
  · rw [split]
    change Produces (attempt (checkVersion copy version) >>= _) ↔ _
    have shaped_iff : Rfc5424Shaped copy (version ++ ' ' :: more) ↔ 5 ≤ more.count ' ' ∧
        (copy = .ingest → ∃ number, Numeral version number ∧ number < 256) := by
      constructor
      · rintro ⟨version', more', same, clean', shaped⟩
        rcases (append_separator_inj clean clean').mp same with ⟨rfl, rfl⟩
        exact shaped
      · intro shaped
        exact ⟨version, more, rfl, clean, shaped⟩
    rw [shaped_iff, ← checkVersion_eq_some_iff,
      ← produces_parseRfc5424Fields_iff copy timestamps prival]
    cases checkVersion copy version with
    | none => exact iff_of_false not_produces_attempt_none (by simp)
    | some _ => exact (and_iff_left rfl).symm
  · rw [split]
    refine iff_of_false not_produces_attempt_none ?_
    rintro ⟨version, more, rfl, -⟩
    exact absent (by simp)

/-! ## The older format -/

/-- No closing bracket stands before the first opening one. -/
def TagSafe (tag : List Char) : Prop :=
  ∀ before after, tag = before ++ '[' :: after → '[' ∉ before → ']' ∉ before

/-- Behind an opening bracket, the process ends at a closing bracket or with the tag. -/
theorem slice_pid {before after : List Char} (ordered : ']' ∉ before) :
    ∃ pid, slice (before ++ '[' :: after) (byteLength before + 1)
      ((findOffset (· == ']') (before ++ '[' :: after)).getD
        (byteLength (before ++ '[' :: after))) = some pid := by
  have start_eq : byteLength before + 1 = byteLength (before ++ ['[']) := by
    rw [byteLength_append, byteLength_singleton, utf8Size_of_ascii (by decide)]
  rw [start_eq, List.append_cons]
  by_cases closed : ']' ∈ after
  · rcases List.eq_append_cons_of_mem closed with ⟨pid, rest, rfl, clean⟩
    rw [← List.append_assoc, findOffset_beq_append (by simp [ordered, clean]), Option.getD_some]
    exact ⟨pid, slice_append _ pid _⟩
  · rw [findOffset_beq_eq_none (by simp [ordered, closed]), Option.getD_none]
    refine ⟨after, ?_⟩
    have sliced := slice_append (before ++ ['[']) after []
    rwa [List.append_nil] at sliced

/-- A closing bracket before the opening one leaves the ends out of order. -/
theorem slice_pid_of_mem {before : List Char} (disordered : ']' ∈ before) (after : List Char) :
    slice (before ++ '[' :: after) (byteLength before + 1)
      ((findOffset (· == ']') (before ++ '[' :: after)).getD
        (byteLength (before ++ '[' :: after))) = none := by
  rcases List.eq_append_cons_of_mem disordered with ⟨front, back, rfl, clean⟩
  rw [List.append_assoc, List.cons_append, findOffset_beq_append clean, Option.getD_some, slice,
    if_neg]
  rw [byteLength_append]
  omega

theorem returns_splitTag_iff (tag : List Char) : Returns (splitTag tag) ↔ TagSafe tag := by
  by_cases opened : '[' ∈ tag
  · rcases List.eq_append_cons_of_mem opened with ⟨before, after, rfl, clean⟩
    have safe_iff : TagSafe (before ++ '[' :: after) ↔ ']' ∉ before := by
      constructor
      · intro safe
        exact safe before after rfl clean
      · intro ordered before' after' same clean'
        rcases (append_separator_inj clean clean').mp same with ⟨rfl, rfl⟩
        exact ordered
    rw [safe_iff, splitTag, findOffset_beq_append clean]
    simp only [sliceTo_append, checked_bind_some]
    by_cases ordered : ']' ∉ before
    · rcases slice_pid ordered with ⟨pid, sliced⟩
      rw [sliced, checked_bind_some]
      exact iff_of_true (returns_pure _) ordered
    · rw [slice_pid_of_mem (not_not.mp ordered), checked_bind_none]
      exact iff_of_false (fun returns => returns rfl) ordered
  · rw [splitTag, findOffset_beq_eq_none opened]
    refine iff_of_true (returns_pure _) ?_
    rintro before after rfl
    exact absurd (by simp) opened

/-- After the timestamp, the tag between the host and a colon is safe. -/
def BodySafe (body : List Char) : Prop :=
  ∀ hostname tag message, body.dropWhile (· == ' ') = hostname ++ ' ' :: (tag ++ ':' :: message) →
    ' ' ∉ hostname → ':' ∉ tag → TagSafe tag

theorem returns_parseRfc3164Body_iff (prival : Nat) (stamp body : List Char) :
    Returns (parseRfc3164Body timestamps prival stamp body) ↔ BodySafe body := by
  rw [parseRfc3164Body]
  rcases splitSp_cases (body.dropWhile (· == ' ')) with
    ⟨hostname, tagged, body_eq, clean, split⟩ | ⟨absent, split⟩
  · rw [split]
    change Returns (attempt (findOffset (· == ':') tagged) >>= _) ↔ _
    by_cases colon : ':' ∈ tagged
    · rcases List.eq_append_cons_of_mem colon with ⟨tag, message, rfl, cleanTag⟩
      have safe_iff : BodySafe body ↔ TagSafe tag := by
        constructor
        · intro safe
          exact safe hostname tag message body_eq clean cleanTag
        · intro safe hostname' tag' message' body_eq' clean' cleanTag'
          rw [body_eq, append_separator_inj clean clean',
            append_separator_inj cleanTag cleanTag'] at body_eq'
          rw [← body_eq'.2.1]
          exact safe
      rw [safe_iff, ← returns_splitTag_iff, findOffset_beq_append cleanTag, attempt_bind_some,
        sliceTo_append, checked_bind_some, returns_bind_iff, and_iff_left_iff_imp]
      rintro - ⟨appName, procid⟩ -
      rw [sliceFrom_succ tag (by decide)]
      exact returns_pure _
    · rw [findOffset_beq_eq_none colon, attempt_bind_none]
      refine iff_of_true (returns_attempt _) ?_
      intro hostname' tag message body_eq' clean'
      rw [body_eq, append_separator_inj clean clean'] at body_eq'
      exact absurd (by simp [body_eq'.2]) colon
  · rw [split, attempt_bind_none]
    refine iff_of_true (returns_attempt _) ?_
    intro hostname tag message body_eq
    exact absurd (by simp [body_eq]) absent

/-- The rest after the priority is too short for the older format, or its timestamp ends
between characters and its tag is safe. -/
def Rfc3164Safe (rest : List Char) : Prop :=
  byteLength rest < 16 ∨ ∃ stamp body, rest = stamp ++ body ∧ byteLength stamp = 15 ∧ BodySafe body

theorem returns_parseRfc3164_of_hasPri {input rest : List Char} {prival : Nat}
    (pri : HasPri input prival rest) :
    Returns (parseRfc3164 timestamps input) ↔ Rfc3164Safe rest := by
  rw [parseRfc3164, parsePri_of_hasPri pri]
  change Returns (if byteLength rest < 16 then _ else _) ↔ _
  by_cases short : byteLength rest < 16
  · rw [if_pos short]
    exact iff_of_true (returns_attempt _) (.inl short)
  · rw [if_neg short, Rfc3164Safe, or_iff_right short, sliceTo, sliceFrom]
    cases cut : splitAt rest 15 with
    | none =>
      refine iff_of_false (fun returns => returns rfl) ?_
      rintro ⟨stamp, body, rfl, length_eq, -⟩
      rw [← length_eq, splitAt_append] at cut
      cases cut
    | some parts =>
      rcases parts with ⟨stamp, body⟩
      rcases splitAt_eq_some cut with ⟨rfl, length_eq⟩
      change Returns (parseRfc3164Body timestamps prival stamp body) ↔ _
      rw [returns_parseRfc3164Body_iff]
      constructor
      · intro safe
        exact ⟨stamp, body, rfl, length_eq, safe⟩
      · rintro ⟨stamp', body', same, length_eq', safe⟩
        have cut' := splitAt_append stamp' body'
        rw [← same, length_eq', cut, Option.some.injEq, Prod.mk.injEq] at cut'
        rw [cut'.2]
        exact safe

theorem returns_parseRfc3164_iff (input : List Char) :
    Returns (parseRfc3164 timestamps input) ↔
      ∀ prival rest, HasPri input prival rest → Rfc3164Safe rest := by
  rcases parsePri_cases input with ⟨prival, rest, pri, parsed⟩ | parsed
  · rw [returns_parseRfc3164_of_hasPri timestamps pri, forall_hasPri_iff pri]
  · rw [parseRfc3164, parsed]
    refine iff_of_true (returns_attempt _) ?_
    intro prival rest pri
    exact absurd pri (not_hasPri parsed prival rest)

/-! ## Messages -/

/-- The rest after the priority is read as the newer format, or it is safe to read as
the older one. -/
def SyslogSafe (rest : List Char) : Prop :=
  rest.head?.any Char.isDigit = true ∧ Rfc5424Shaped copy rest ∨ Rfc3164Safe rest

theorem returns_parseSyslog_iff (input : List Char) :
    Returns (parseSyslog copy timestamps input) ↔
      ∀ prival rest, HasPri (trimLineEnd input) prival rest → SyslogSafe copy rest := by
  have newer_returns := returns_parseRfc5424 copy timestamps (trimLineEnd input)
  rcases parsePri_cases (trimLineEnd input) with ⟨prival, rest, pri, parsed⟩ | parsed
  · have newer_iff := produces_parseRfc5424_iff copy timestamps pri
    have older_iff := returns_parseRfc3164_of_hasPri timestamps pri
    rw [forall_hasPri_iff pri, SyslogSafe, ← newer_iff, ← older_iff]
    simp only [parseSyslog, parsed]
    change Returns (if rest.head?.any Char.isDigit = true then _ else _) ↔ _
    by_cases digit : rest.head?.any Char.isDigit = true
    · rw [if_pos digit, and_iff_right digit]
      rcases returns_iff.mp newer_returns with produces | nothing
      · rcases produces with ⟨message, newer⟩
        simp only [newer]
        exact iff_of_true (returns_pure _) (.inl (produces_pure _))
      · simp only [nothing]
        exact (or_iff_right not_produces_attempt_none).symm
    · rw [if_neg digit]
      exact (or_iff_right fun newer => digit newer.1).symm
  · have older_iff := returns_parseRfc3164_iff timestamps (trimLineEnd input)
    have none_has := not_hasPri parsed
    simp only [parseSyslog, parsed]
    refine iff_of_true (older_iff.mpr ?_) ?_
    · intro prival rest pri
      exact absurd pri (none_has prival rest)
    · intro prival rest pri
      exact absurd pri (none_has prival rest)

/-- Both copies return for exactly the messages that are safe; the parsers of the newer
format and of its structured data return for every text. -/
theorem parseSyslog_returns_iff_safe (input : List Char) :
    (Returns (parseSyslog copy timestamps input) ↔
      ∀ prival rest, HasPri (trimLineEnd input) prival rest → SyslogSafe copy rest) ∧
    (Returns (parseRfc3164 timestamps input) ↔
      ∀ prival rest, HasPri input prival rest → Rfc3164Safe rest) ∧
    Returns (parseRfc5424 copy timestamps input) ∧
    ∃ result, parseStructuredData copy input = some result := by
  constructor
  · exact returns_parseSyslog_iff copy timestamps input
  · constructor
    · exact returns_parseRfc3164_iff timestamps input
    · constructor
      · exact returns_parseRfc5424 copy timestamps input
      · exact parseStructuredData_returns copy input

end Messages

/-- Two messages on which both copies panic: byte 15 lies inside the letter é, and the
tag has its brackets the wrong way round. -/
theorem parseSyslog_panics :
    let timestamps : Timestamps := ⟨fun _ => none, fun _ => none, ['2', '0', '2', '6']⟩
    let cut := "<13>Jan  1 00:00:0".toList ++ 'é' :: " host app: x".toList
    let crossed := "<13>Jan  1 00:00:00 host a]b[c: x".toList
    ¬Returns (parseSyslog .plugin timestamps cut) ∧
      ¬Returns (parseSyslog .ingest timestamps cut) ∧
      ¬Returns (parseSyslog .plugin timestamps crossed) ∧
      ¬Returns (parseSyslog .ingest timestamps crossed) := by
  decide +kernel

end HiveGuard.Sources
