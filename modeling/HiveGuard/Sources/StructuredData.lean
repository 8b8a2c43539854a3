import HiveGuard.Sources.SyslogReturns

/-!
# Structured data, written and read back

The elements of structured data as RFC 5424 writes them.  The parser takes the values apart
byte by byte and makes a character of each byte, so a value comes back as it was only if it
is ASCII.
-/

namespace HiveGuard.Sources

open Library Library.Text

/-! ## Writing -/

/-- The characters of a value that stand behind a backslash. -/
def needsEscape (char : Char) : Bool :=
  char == '"' || char == '\\' || char == ']'

def escapeValue (value : List Char) : List Char :=
  value.flatMap fun char => if needsEscape char then ['\\', char] else [char]

def renderParam (param : List Char × List Char) : List Char :=
  ' ' :: (param.1 ++ '=' :: '"' :: (escapeValue param.2 ++ ['"']))

def renderElement (element : StructuredDataElement) : List Char :=
  '[' :: (element.id ++ (element.params.flatMap renderParam ++ [']']))

/-- Names are printable ASCII without space, equals sign, bracket and quote. -/
def IsSdName (name : List Char) : Prop :=
  name ≠ [] ∧ ∀ char ∈ name, 32 < char.toNat ∧ char.toNat < 127 ∧
    char ≠ '=' ∧ char ≠ ']' ∧ char ≠ '"'

def WellNamed (element : StructuredDataElement) : Prop :=
  IsSdName element.id ∧ ∀ param ∈ element.params, IsSdName param.1

/-! ## Reading back -/

/-- A text with every byte taken for a character. -/
def byteChars (text : List Char) : List Char :=
  (encode text).map fun byte => Char.ofNat byte.toNat

def StructuredDataElement.asBytes (element : StructuredDataElement) : StructuredDataElement :=
  { element with params := element.params.map fun param => (param.1, byteChars param.2) }

theorem byteChars_cons (char : Char) (text : List Char) :
    byteChars (char :: text) =
      ((String.utf8EncodeChar char).map fun byte => Char.ofNat byte.toNat) ++ byteChars text := by
  rw [byteChars, encode_cons, List.map_append]
  rfl

theorem byteChars_cons_of_ascii {char : Char} (ascii : char.toNat < 128) (text : List Char) :
    byteChars (char :: text) = char :: byteChars text := by
  rw [byteChars_cons, utf8EncodeChar_of_ascii ascii, List.map_singleton,
    UInt8.toNat_ofNat_of_lt' (by rw [UInt8.size]; omega), Char.ofNat_toNat, List.singleton_append]

theorem length_le_byteChars (text : List Char) : text.length ≤ (byteChars text).length := by
  induction text with
  | nil => exact Nat.zero_le _
  | cons char text ih =>
    have positive := char.utf8Size_pos
    rw [byteChars_cons, List.length_append, List.length_map, String.length_utf8EncodeChar,
      List.length_cons]
    omega

/-- Exactly the ASCII texts are not changed. -/
theorem byteChars_eq_self_iff {text : List Char} :
    byteChars text = text ↔ ∀ char ∈ text, char.toNat < 128 := by
  induction text with
  | nil => simp [byteChars]
  | cons char text ih =>
    rw [List.forall_mem_cons, ← ih]
    by_cases ascii : char.toNat < 128
    · rw [byteChars_cons_of_ascii ascii, List.cons.injEq, and_iff_right rfl,
        and_iff_right ascii]
    · -- A character beyond ASCII has more than one byte, so the text gets longer.
      refine iff_of_false ?_ fun both => ascii both.1
      intro same
      have lengths := congrArg List.length same
      have longer := length_le_byteChars text
      have wide : 1 < char.utf8Size := by
        have positive := char.utf8Size_pos
        have notOne : char.utf8Size ≠ 1 := by
          rw [Ne, Char.utf8Size_eq_one_iff, UInt32.le_iff_toNat_le]
          change ¬char.toNat ≤ 127
          omega
        omega
      rw [byteChars_cons, List.length_append, List.length_map, String.length_utf8EncodeChar,
        List.length_cons] at lengths
      omega

theorem map_eq_self_iff {α : Type} {change : α → α} {items : List α} :
    items.map change = items ↔ ∀ item ∈ items, change item = item := by
  conv_lhs => rw [← List.map_id items, List.map_map]
  exact List.map_inj_left

theorem asBytes_eq_self_iff {element : StructuredDataElement} :
    element.asBytes = element ↔ ∀ param ∈ element.params, ∀ char ∈ param.2, char.toNat < 128 := by
  have same_iff : element.asBytes = element ↔
      (element.params.map fun param => (param.1, byteChars param.2)) = element.params := by
    rw [StructuredDataElement.mk.injEq]
    exact and_iff_right rfl
  rw [same_iff, map_eq_self_iff]
  refine forall₂_congr fun param _ => ?_
  rw [← byteChars_eq_self_iff, Prod.ext_iff, and_iff_right rfl]

/-- The scanner reads an escaped value up to the quote behind it. -/
theorem paramValue_escapeValue (value rest : List Char) :
    paramValue (encode (escapeValue value ++ '"' :: rest)) =
      (byteLength (escapeValue value) + 1, byteChars value) := by
  induction value with
  | nil =>
    change paramValue (encode ('"' :: rest)) = _
    rw [encode_cons_of_ascii (by decide), paramValue_quote (by decide) (by decide)]
    rfl
  | cons char value ih =>
    have step : escapeValue (char :: value) =
        (if needsEscape char then ['\\', char] else [char]) ++ escapeValue value :=
      List.flatMap_cons
    rw [step]
    cases special : needsEscape char with
    | true =>
      have ascii : char.toNat < 128 := by
        rw [needsEscape, Bool.or_eq_true, Bool.or_eq_true, beq_iff_eq, beq_iff_eq,
          beq_iff_eq] at special
        rcases special with (rfl | rfl) | rfl <;> decide
      rw [if_pos rfl, List.append_assoc, List.cons_append, List.singleton_append,
        encode_cons_of_ascii (by decide), encode_cons_of_ascii ascii,
        paramValue_escape (by decide), ih, byteChars_cons_of_ascii ascii,
        UInt8.toNat_ofNat_of_lt' (by rw [UInt8.size]; omega), Char.ofNat_toNat,
        List.cons_append, List.singleton_append, byteLength_cons_of_ascii (by decide),
        byteLength_cons_of_ascii ascii]
    | false =>
      rw [needsEscape, Bool.or_eq_false_iff, Bool.or_eq_false_iff, beq_eq_false_iff_ne,
        beq_eq_false_iff_ne] at special
      rw [if_neg Bool.false_ne_true, List.singleton_append, List.cons_append, encode_cons,
        paramValue_plain_append fun byte => plain_of_mem special.1.2 special.1.1,
        ih, byteChars_cons, byteLength_cons, String.length_utf8EncodeChar]
      refine Prod.ext ?_ rfl
      change _ + 1 + _ = _ + _ + 1
      omega

theorem not_mem_of_isSdName {name : List Char} (isName : IsSdName name) :
    ' ' ∉ name ∧ '=' ∉ name ∧ ']' ∉ name := by
  refine ⟨fun member => ?_, fun member => ?_, fun member => ?_⟩
  · exact absurd (isName.2 _ member).1 (by decide)
  · exact (isName.2 _ member).2.2.1 rfl
  · exact (isName.2 _ member).2.2.2.1 rfl

theorem length_le_flatMap {α : Type} {render : α → List Char}
    (nonempty : ∀ item, render item ≠ []) (items : List α) :
    items.length ≤ (items.flatMap render).length := by
  rw [List.length_flatMap, ← List.length_map (f := fun item => (render item).length)]
  apply List.length_le_sum_of_one_le
  intro length member
  obtain ⟨item, -, rfl⟩ := List.mem_map.mp member
  exact List.length_pos_iff.mpr (nonempty item)

/-- One round of the loop over the parameters. -/
theorem paramsLoop_renderParam {param : List Char × List Char} (isName : IsSdName param.1)
    (fuel : Nat) (rest : List Char) (done : List (List Char × List Char)) :
    paramsLoop (fuel + 1) (renderParam param ++ rest) done =
      paramsLoop fuel rest (done ++ [(param.1, byteChars param.2)]) := by
  obtain ⟨name, value⟩ := param
  obtain ⟨-, noEquals, noBracket⟩ := not_mem_of_isSdName isName
  let behind := escapeValue value ++ '"' :: rest
  have text_eq : renderParam (name, value) ++ rest = ' ' :: (name ++ '=' :: '"' :: behind) := by
    simp [renderParam, behind]
  have noBracketFirst : (name ++ '=' :: '"' :: behind).head? ≠ some ']' := by
    rw [List.head?_append_of_ne_nil _ isName.1]
    exact fun isBracket => noBracket (List.mem_of_head? isBracket)
  have unquoted : sliceFrom ('"' :: behind) 1 = some behind := sliceFrom_one rfl (by decide)
  have cut : sliceFrom behind (byteLength (escapeValue value) + 1) = some rest :=
    sliceFrom_succ _ (by decide) _
  rw [text_eq, paramsLoop, List.head?_cons, if_pos rfl, sliceFrom_one rfl (by decide),
    Option.bind_eq_bind, Option.bind_some, List.tail_cons, if_neg noBracketFirst,
    findOffset_beq_append noEquals]
  simp only [sliceTo_append, Option.bind_some, List.head?_cons, if_true,
    sliceFrom_succ name (show '='.toNat < 128 by decide), unquoted, behind,
    paramValue_escapeValue]
  simp only [behind] at cut
  rw [cut, Option.bind_some]

/-- The loop over the parameters reads them all, up to the bracket behind them. -/
theorem paramsLoop_render {params : List (List Char × List Char)}
    (named : ∀ param ∈ params, IsSdName param.1) (rest : List Char) {fuel : Nat}
    (enough : params.length < fuel) (done : List (List Char × List Char)) :
    paramsLoop fuel (params.flatMap renderParam ++ ']' :: rest) done =
      some (done ++ params.map fun param => (param.1, byteChars param.2), ']' :: rest) := by
  induction params generalizing fuel done with
  | nil =>
    obtain ⟨fuel, rfl⟩ := Nat.exists_eq_succ_of_ne_zero (Nat.ne_zero_of_lt enough)
    rw [List.flatMap_nil, List.nil_append, paramsLoop, if_neg (by simp), List.map_nil,
      List.append_nil]
  | cons param params ih =>
    obtain ⟨fuel, rfl⟩ := Nat.exists_eq_succ_of_ne_zero (Nat.ne_zero_of_lt enough)
    rw [List.forall_mem_cons] at named
    rw [List.flatMap_cons, List.append_assoc, paramsLoop_renderParam named.1,
      ih named.2 (Nat.lt_of_succ_lt_succ enough), List.map_cons,
      List.append_assoc, List.singleton_append]

/-- One round of the loop over the elements. -/
theorem elementsLoop_renderElement (copy : SyslogCopy) {element : StructuredDataElement}
    (named : WellNamed element) (fuel : Nat) (rest : List Char)
    (done : List StructuredDataElement) :
    elementsLoop copy (fuel + 1) (renderElement element ++ rest) done =
      elementsLoop copy fuel rest (done ++ [element.asBytes]) := by
  obtain ⟨id, params⟩ := element
  obtain ⟨noSpace, -, noBracket⟩ := not_mem_of_isSdName named.1
  let behind := params.flatMap renderParam ++ ']' :: rest
  have text_eq : renderElement ⟨id, params⟩ ++ rest = '[' :: (id ++ behind) := by
    simp [renderElement, behind]
  have found : findOffset (fun char => char == ' ' || char == ']') (id ++ behind) =
      some (byteLength id) := by
    have idPlain : ∀ char ∈ id, (char == ' ' || char == ']') = false := by
      intro char member
      rw [Bool.or_eq_false_iff, beq_eq_false_iff_ne, beq_eq_false_iff_ne]
      exact ⟨fun same => noSpace (same ▸ member), fun same => noBracket (same ▸ member)⟩
    have stops : ∃ char after, behind = char :: after ∧ (char == ' ' || char == ']') = true := by
      cases params with
      | nil => exact ⟨']', rest, rfl, by decide⟩
      | cons param params => exact ⟨' ', _, rfl, by decide⟩
    obtain ⟨char, after, behind_eq, stop⟩ := stops
    rw [behind_eq, findOffset_append idPlain stop]
  have enough : params.length < behind.length + 1 := by
    have shorter := @length_le_flatMap _ renderParam (fun _ => List.cons_ne_nil _ _) params
    rw [List.length_append]
    omega
  have paramsRead := paramsLoop_render named.2 rest enough []
  rw [List.nil_append] at paramsRead
  change paramsLoop _ behind [] = _ at paramsRead
  rw [text_eq, elementsLoop, List.head?_cons, if_pos rfl, sliceFrom_one rfl (by decide),
    Option.bind_eq_bind, Option.bind_some, List.tail_cons, found]
  have unbracketed : sliceFrom (']' :: rest) 1 = some rest := sliceFrom_one rfl (by decide)
  -- The two copies differ only where the name has no end.
  cases copy with
  | plugin =>
    simp only [Option.getD_some, sliceTo_append, sliceFrom_append, Option.bind_eq_bind,
      Option.bind_some, paramsRead, List.head?_cons, if_true, unbracketed]
    rfl
  | ingest =>
    simp only [Option.getD_some, sliceTo_append, sliceFrom_append, Option.bind_eq_bind,
      Option.bind_some, paramsRead, List.head?_cons, if_true, unbracketed]
    rfl

/-- The loop over the elements reads them all, up to what stands behind them. -/
theorem elementsLoop_render (copy : SyslogCopy) {elements : List StructuredDataElement}
    (named : ∀ element ∈ elements, WellNamed element) {rest : List Char}
    (ends : rest.head?.all (· == ' ') = true) {fuel : Nat} (enough : elements.length < fuel)
    (done : List StructuredDataElement) :
    elementsLoop copy fuel (elements.flatMap renderElement ++ rest) done =
      some (done ++ elements.map StructuredDataElement.asBytes, rest) := by
  induction elements generalizing fuel done with
  | nil =>
    obtain ⟨fuel, rfl⟩ := Nat.exists_eq_succ_of_ne_zero (Nat.ne_zero_of_lt enough)
    have noBracket : rest.head? ≠ some '[' := by
      intro isBracket
      rw [isBracket] at ends
      exact absurd ends (by decide)
    rw [List.flatMap_nil, List.nil_append, elementsLoop, if_neg noBracket, List.map_nil,
      List.append_nil]
  | cons element elements ih =>
    obtain ⟨fuel, rfl⟩ := Nat.exists_eq_succ_of_ne_zero (Nat.ne_zero_of_lt enough)
    rw [List.forall_mem_cons] at named
    rw [List.flatMap_cons, List.append_assoc, elementsLoop_renderElement copy named.1,
      ih named.2 (Nat.lt_of_succ_lt_succ enough), List.map_cons,
      List.append_assoc, List.singleton_append]

/-- Written elements are read back with every byte of their values as a character. -/
theorem parseStructuredData_render (copy : SyslogCopy) {elements : List StructuredDataElement}
    (nonempty : elements ≠ []) (named : ∀ element ∈ elements, WellNamed element)
    {rest : List Char} (ends : rest.head?.all (· == ' ') = true) :
    parseStructuredData copy (elements.flatMap renderElement ++ rest) =
      some (elements.map StructuredDataElement.asBytes, rest) := by
  have enough : elements.length < (elements.flatMap renderElement ++ rest).length + 1 := by
    have shorter := @length_le_flatMap _ renderElement (fun _ => List.cons_ne_nil _ _) elements
    rw [List.length_append]
    omega
  have starts : (elements.flatMap renderElement ++ rest).head? = some '[' := by
    obtain ⟨element, elements, rfl⟩ := List.exists_cons_of_ne_nil nonempty
    rfl
  rw [parseStructuredData, starts, if_neg fun dash => absurd dash.1 (by decide), if_pos rfl,
    elementsLoop_render copy named ends enough, List.nil_append]

/-- Written elements are read back as they were exactly if all their values are ASCII. -/
theorem structuredData_roundTrip_iff (copy : SyslogCopy) {elements : List StructuredDataElement}
    (nonempty : elements ≠ []) (named : ∀ element ∈ elements, WellNamed element)
    {rest : List Char} (ends : rest.head?.all (· == ' ') = true) :
    parseStructuredData copy (elements.flatMap renderElement ++ rest) = some (elements, rest) ↔
      ∀ element ∈ elements, ∀ param ∈ element.params, ∀ char ∈ param.2, char.toNat < 128 := by
  rw [parseStructuredData_render copy nonempty named ends, Option.some_inj, Prod.mk.injEq,
    and_iff_left rfl, map_eq_self_iff]
  exact forall₂_congr fun element _ => asBytes_eq_self_iff

/-- A value with a quote and a bracket comes back. -/
theorem structuredData_roundTrip_at_quote :
    let element : StructuredDataElement := ⟨['i', 'd'], [(['n'], ['"', ']'])]⟩
    parseStructuredData .plugin ([element].flatMap renderElement ++ [' ', 'm']) =
      some ([element], [' ', 'm']) := by
  intro element
  refine (structuredData_roundTrip_iff .plugin (List.cons_ne_nil _ _) ?_ (by decide)).mpr ?_
  · simp [element, WellNamed, IsSdName]
  · simp [element]

/-- A value beyond ASCII does not come back: each of its two bytes becomes a character. -/
theorem structuredData_beyond_ascii :
    let element : StructuredDataElement := ⟨['i', 'd'], [(['n'], ['é'])]⟩
    WellNamed element ∧
      parseStructuredData .plugin ([element].flatMap renderElement ++ [' ', 'm']) =
        some ([⟨['i', 'd'], [(['n'], ['Ã', '©'])]⟩], [' ', 'm']) := by
  refine ⟨?_, by decide +kernel⟩
  simp [WellNamed, IsSdName]

end HiveGuard.Sources
