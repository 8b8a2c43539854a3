import HiveGuard.Sigma.Grammar

/-!
# Printing a condition

An expression has a text with parentheses around every operator and one with only the
parentheses that the precedence asks for.  Both are parsed back to the expression.
-/

namespace HiveGuard.Sigma

open Library.Text
open HiveGuard.Library.Unicode (Tables)
open HiveGuard.Sigma.Parser (Atom Chain Derives Grouping Level fieldTokens)

/-! ## The texts -/

def quantifierText : NOfQuantifier → List Char
  | .n required => Nat.toDigits 10 required.val
  | .all => "all".toList

def patternText : SelectionPattern → List Char
  | .named name => name
  | .wildcard start => start ++ ['*']
  | .them => "them".toList

def compareText : CompareOp → List Char
  | .gt => ['>']
  | .gte => ['>', '=']
  | .lt => ['<']
  | .lte => ['<', '=']
  | .eq => ['=']

def groupText : Option (List Char) → List Char
  | none => []
  | some name => " by ".toList ++ name

/-- Parentheses, where they are needed. -/
def enclose (needed : Bool) (text : List Char) : List Char :=
  if needed then '(' :: (text ++ [')']) else text

/-- The text of an expression in a place that takes a level of precedence.  The operands
are put in places of the levels `place` gives for theirs. -/
def render (place : Level → Level) (level : Level) : ConditionExpr → List Char
  | .selection name => name
  | .not inner =>
    enclose (level.rank < Level.not.rank) ("not ".toList ++ render place (place .not) inner)
  | .and left right =>
    enclose (level.rank < (Level.chain .and).rank)
      (render place (place (.chain .and)) left ++
        (" and ".toList ++ render place (place .not) right))
  | .or left right =>
    enclose (level.rank < (Level.chain .or).rank)
      (render place (place (.chain .or)) left ++
        (" or ".toList ++ render place (place (.chain .and)) right))
  | .nOf n pattern => quantifierText n ++ (" of ".toList ++ patternText pattern)
  | .countAgg field groupBy op value =>
    "count(".toList ++ (field.getD [] ++ (')' :: (groupText groupBy ++
      (' ' :: (compareText op ++ (' ' :: Nat.toDigits 10 value.val))))))

/-- Every operator stands in parentheses. -/
def fullText (expr : ConditionExpr) : List Char :=
  render (fun _ => .primary) .primary expr

/-- Only the parentheses that the precedence asks for. -/
def minimalText (expr : ConditionExpr) : List Char :=
  render id (.chain .or) expr

section Tokens

variable (tables : Tables)

/-- The tokenizer finds the token in some text. -/
def Producible (token : Token) : Prop :=
  ∃ input, token ∈ tokenize tables input

/-- All names and patterns are such that the tokenizer finds them in some text. -/
def ConditionExpr.Printable : ConditionExpr → Prop
  | .selection name => Producible tables (.ident name)
  | .not inner => inner.Printable
  | .and left right => left.Printable ∧ right.Printable
  | .or left right => left.Printable ∧ right.Printable
  | .nOf _ pattern => ∃ token, Producible tables token ∧ token.toPattern = some pattern
  | .countAgg field groupBy _ _ =>
    (∀ name ∈ field, Producible tables (.ident name)) ∧
      ∀ name ∈ groupBy, Producible tables (.ident name)

/-! ## Words -/

/-- A text that the tokenizer reads as one word. -/
def IsWord : List Char → Prop
  | [] => False
  | first :: rest => startsWord tables first = true ∧ ∀ char ∈ rest, inWord tables char = true

/-- A word cannot go on here. -/
def Delimited (tail : List Char) : Prop :=
  ∀ char ∈ tail.head?, inWord tables char = false

/-- In front of what cannot belong to a word, the text is read as the tokens. -/
def Lexes (text : List Char) (tokens : List Token) : Prop :=
  ∀ tail, Delimited tables tail → tokenize tables (text ++ tail) =
    tokens ++ tokenize tables tail

end Tokens

variable {tables : Tables}

/-! ## Characters -/

variable {char first : Char}

theorem isAlphanumeric_of_isDigit (digit : char.isDigit = true) :
    tables.isAlphanumeric char = true := by
  have ascii : char.toNat < 128 := by
    have bound := (Char.isDigit_iff_toNat.mp digit).2
    change char.toNat ≤ 57 at bound
    omega
  rw [tables.isAlphanumeric_ascii ascii, Char.isAlphanum, digit, Bool.or_true]

theorem inWord_of_isDigit (digit : char.isDigit = true) :
    inWord tables char = true := by
  simp [inWord, isAlphanumeric_of_isDigit digit]

theorem inWord_of_startsWord (starts : startsWord tables char = true) :
    inWord tables char = true := by
  rw [startsWord, Bool.or_eq_true] at starts
  rcases starts with letter | underscore
  · simp [inWord, Tables.isAlphanumeric, letter]
  · simp [inWord, underscore]

/-- Characters that stand for themselves or are skipped start no word. -/
theorem startsWord_eq_false (ascii : char.toNat < 128)
    (noLetter : char.isAlpha = false) (other : char ≠ '_') : startsWord tables char = false := by
  rw [startsWord, tables.isAlphabetic_ascii char ascii, noLetter, decide_eq_false other]
  rfl

theorem isDigit_eq_false_of_startsWord (starts : startsWord tables char = true) :
    char.isDigit = false := by
  by_contra digit
  rw [Bool.not_eq_false] at digit
  have bounds := Char.isDigit_iff_toNat.mp digit
  change 48 ≤ char.toNat ∧ char.toNat ≤ 57 at bounds
  have noLetter : char.isAlpha = false := by
    simp only [Char.isAlpha, Char.isUpper, Char.isLower, Bool.or_eq_false_iff,
      Bool.and_eq_false_imp, decide_eq_true_eq, decide_eq_false_iff_not, ge_iff_le,
      UInt32.le_iff_toNat_le]
    change ¬ (65 ≤ char.toNat ∧ char.toNat ≤ 90) ∧ (97 ≤ char.toNat → ¬ char.toNat ≤ 122)
    omega
  have different : char ≠ '_' := by
    rintro rfl
    exact absurd bounds.2 (by decide)
  rw [startsWord_eq_false (by omega) noLetter different] at starts
  cases starts

/-! ## Single rounds of the tokenizer -/

theorem tokenize_blank (text : List Char) :
    tokenize tables (' ' :: text) = tokenize tables text := by
  rw [tokenize]
  rfl

theorem tokenize_lParen (text : List Char) :
    tokenize tables ('(' :: text) = .lParen :: tokenize tables text := by
  rw [tokenize]
  rfl

theorem tokenize_rParen (text : List Char) :
    tokenize tables (')' :: text) = .rParen :: tokenize tables text := by
  rw [tokenize]
  rfl

/-- The characters that the tokenizer looks for before numbers and words. -/
def specials : List Char :=
  [' ', '\t', '\n', '\r', '(', ')', '|', '>', '<', '=']

theorem specials_plain : specials.all (fun char => decide (char.toNat < 128) &&
    !char.isAlpha && !char.isDigit && decide (char ≠ '_')) = true := by
  decide

theorem plain_of_special (special : char ∈ specials) :
    char.toNat < 128 ∧ char.isAlpha = false ∧ char.isDigit = false ∧ char ≠ '_' := by
  have plain := List.all_eq_true.mp specials_plain char special
  simpa [and_assoc] using plain

theorem scan_of_not_special (ordinary : first ∉ specials) (text : List Char) :
    scan tables first text = if first.isDigit then
        (integerToken (first :: text.takeWhile Char.isDigit), text.dropWhile Char.isDigit)
      else if startsWord tables first then
        (some (wordToken tables (first :: text.takeWhile (inWord tables))),
          text.dropWhile (inWord tables)) else (none, text) := by
  simp only [specials, List.mem_cons, List.not_mem_nil, or_false, not_or] at ordinary
  simp [scan, ordinary]

theorem scan_word (starts : startsWord tables first = true) (text : List Char) :
    scan tables first text = (some (wordToken tables (first :: text.takeWhile (inWord tables))),
      text.dropWhile (inWord tables)) := by
  have ordinary : first ∉ specials := by
    intro special
    obtain ⟨ascii, noLetter, _, other⟩ := plain_of_special special
    rw [startsWord_eq_false ascii noLetter other] at starts
    cases starts
  rw [scan_of_not_special ordinary, isDigit_eq_false_of_startsWord starts, if_neg (by simp),
    if_pos starts]

theorem takeWhile_of_delimited {tail : List Char} (delimited : Delimited tables tail) :
    tail.takeWhile (inWord tables) = [] ∧ tail.dropWhile (inWord tables) = tail := by
  cases tail with
  | nil => exact ⟨rfl, rfl⟩
  | cons char tail =>
    have stops := delimited char rfl
    simp [stops]

variable {word text name front back : List Char}

theorem lexes_word (isWord : IsWord tables word) :
    Lexes tables word [wordToken tables word] := by
  intro tail delimited
  cases word with
  | nil => exact isWord.elim
  | cons first rest =>
    obtain ⟨starts, inside⟩ := isWord
    obtain ⟨taken, dropped⟩ := takeWhile_of_delimited delimited
    rw [List.cons_append, tokenize, scan_word starts, List.takeWhile_append_of_pos inside,
      List.dropWhile_append_of_pos inside, taken, dropped, List.append_nil]
    rfl

theorem integerToken_toDigits (value : Fin (2 ^ 64)) :
    integerToken (Nat.toDigits 10 value.val) = some (.integer value) := by
  have parsed : parseUnsigned (2 ^ 64) (Nat.toDigits 10 value.val) = some value.val :=
    (parseUnsigned_eq_some_iff (by decide)).mpr ⟨numeral_toDigits value.val, value.isLt⟩
  rw [integerToken, parsed]
  exact dif_pos value.isLt

theorem scan_digit (digit : first.isDigit = true) (text : List Char) :
    scan tables first text = (integerToken (first :: text.takeWhile Char.isDigit),
      text.dropWhile Char.isDigit) := by
  have ordinary : first ∉ specials := by
    intro special
    obtain ⟨_, _, noDigit, _⟩ := plain_of_special special
    rw [noDigit] at digit
    cases digit
  rw [scan_of_not_special ordinary, if_pos digit]

theorem lexes_integer (value : Fin (2 ^ 64)) :
    Lexes tables (Nat.toDigits 10 value.val) [.integer value] := by
  intro tail delimited
  have areDigits : ∀ digit ∈ Nat.toDigits 10 value.val, digit.isDigit = true :=
    fun digit member => Nat.isDigit_of_mem_toDigits (by decide) (by decide) member
  have token := integerToken_toDigits value
  obtain ⟨first, rest, digits⟩ := List.exists_cons_of_ne_nil (@Nat.toDigits_ne_nil value.val 10)
  rw [digits] at areDigits token ⊢
  have stopped : tail.takeWhile Char.isDigit = [] ∧ tail.dropWhile Char.isDigit = tail := by
    cases tail with
    | nil => exact ⟨rfl, rfl⟩
    | cons char tail =>
      have noDigit : char.isDigit = false := by
        by_contra digit
        have stops := delimited char rfl
        rw [inWord_of_isDigit (Bool.not_eq_false _ ▸ digit)] at stops
        cases stops
      simp [noDigit]
  have others := fun digit member => areDigits digit (List.mem_cons_of_mem first member)
  rw [List.cons_append, tokenize, scan_digit (areDigits first List.mem_cons_self),
    List.takeWhile_append_of_pos others, List.dropWhile_append_of_pos others, stopped.1,
    stopped.2, List.append_nil, token]
  rfl

/-! ## What the tokenizer can find -/

theorem comparison_ne_ident {strict orEqual : Token}
    (first : strict ≠ .ident name) (second : orEqual ≠ .ident name) :
    (comparison strict orEqual text).1 ≠ some (.ident name) := by
  rw [comparison.eq_def]
  split
  · exact fun found => second (Option.some.inj found)
  · exact fun found => first (Option.some.inj found)

theorem integerToken_ne_ident (digits name : List Char) :
    integerToken digits ≠ some (.ident name) := by
  rw [integerToken]
  split
  · simp
  · split <;> simp

theorem ident_of_wordToken (found : wordToken tables word = .ident name) :
    name = word ∧ keywords.lookup (tables.toLowercase word) = none := by
  rw [wordToken] at found
  cases known : keywords.lookup (tables.toLowercase word) with
  | none =>
    rw [known] at found
    cases found
    exact ⟨rfl, rfl⟩
  | some token =>
    rw [known] at found
    obtain rfl : token = .ident name := found
    obtain ⟨front, back, split, _⟩ := List.lookup_eq_some_iff.mp known
    have listed : (tables.toLowercase word, Token.ident name) ∈ keywords := by
      rw [split]
      simp
    simp [keywords] at listed

theorem isWord_of_scan
    (found : (scan tables char text).1 = some (.ident name)) :
    IsWord tables name ∧ keywords.lookup (tables.toLowercase name) = none := by
  rw [scan] at found
  split_ifs at found with blank lParen rParen pipe greater less equal digit starts
  · cases found
  · cases found
  · cases found
  · exact absurd found (comparison_ne_ident (by simp) (by simp))
  · exact absurd found (comparison_ne_ident (by simp) (by simp))
  · cases found
  · exact absurd found (integerToken_ne_ident _ _)
  · obtain ⟨rfl, noKeyword⟩ := ident_of_wordToken (Option.some.inj found)
    exact ⟨⟨starts, fun other member => List.mem_takeWhile_imp member⟩, noKeyword⟩

/-- The identifiers of the tokenizer are words other than the keywords. -/
theorem isWord_of_producible (producible : Producible tables (.ident name)) :
    IsWord tables name ∧ keywords.lookup (tables.toLowercase name) = none := by
  obtain ⟨input, member⟩ := producible
  fun_induction tokenize tables input with
  | case1 => cases member
  | case2 char text ih =>
    rcases List.mem_append.mp member with here | later
    · exact isWord_of_scan (Option.mem_toList.mp here)
    · exact ih later

theorem lexes_ident (producible : Producible tables (.ident name)) :
    Lexes tables name [.ident name] := by
  obtain ⟨isWord, noKeyword⟩ := isWord_of_producible producible
  have token : wordToken tables name = .ident name := by
    rw [wordToken, noKeyword]
    rfl
  rw [← token]
  exact lexes_word isWord

theorem keywords_lowercase : keywords.all (fun entry =>
    decide (entry.1 ≠ []) && entry.1.all (fun char =>
      decide (char.toNat < 128) && char.isAlpha && decide (char.toLower = char)) &&
    decide (keywords.lookup entry.1 = some entry.2)) = true := by
  decide

variable {token : Token}

/-- Keywords are words of lower-case letters, so they are found as they are. -/
theorem lexes_keyword (listed : (word, token) ∈ keywords) :
    Lexes tables word [token] := by
  have known := List.all_eq_true.mp keywords_lowercase _ listed
  simp only [Bool.and_eq_true, decide_eq_true_eq, List.all_eq_true] at known
  obtain ⟨⟨nonempty, letters⟩, found⟩ := known
  have inside : ∀ char ∈ word, startsWord tables char = true := by
    intro char member
    obtain ⟨⟨ascii, letter⟩, _⟩ := letters char member
    rw [startsWord, tables.isAlphabetic_ascii char ascii, letter, Bool.true_or]
  have isWord : IsWord tables word := by
    cases word with
    | nil => exact absurd rfl nonempty
    | cons first rest =>
      exact ⟨inside first List.mem_cons_self,
        fun char member => inWord_of_startsWord (inside char (List.mem_cons_of_mem _ member))⟩
  have lower : tables.toLowercase word = word := by
    rw [tables.toLowercase_ascii word fun char member => (letters char member).1.1]
    exact (List.map_congr_left fun char member => (letters char member).2).trans (List.map_id _)
  have read : wordToken tables word = token := by
    rw [wordToken, lower, found]
    rfl
  rw [← read]
  exact lexes_word isWord

/-! ## Texts one after the other -/

theorem delimited_cons (text : List Char) (special : char ∈ specials) :
    Delimited tables (char :: text) := by
  intro other head
  obtain rfl := Option.some.inj head
  obtain ⟨ascii, noLetter, noDigit, noUnderscore⟩ := plain_of_special special
  have ordinary : char ≠ '*' ∧ char ≠ '.' := by
    constructor
    all_goals
      rintro rfl
      exact absurd special (by decide)
  simp [inWord, tables.isAlphanumeric_ascii ascii, Char.isAlphanum, noLetter, noDigit,
    noUnderscore, ordinary]

variable {tokens others : List Token}

theorem Lexes.append (special : char ∈ specials) (first : Lexes tables front tokens)
    (second : Lexes tables (char :: back) others) :
    Lexes tables (front ++ char :: back) (tokens ++ others) := by
  intro tail delimited
  rw [List.append_assoc, List.cons_append, first _ (delimited_cons _ special),
    ← List.cons_append, second tail delimited, List.append_assoc]

theorem Lexes.blank (lexes : Lexes tables text tokens) :
    Lexes tables (' ' :: text) tokens := by
  intro tail delimited
  rw [List.cons_append, tokenize_blank, lexes tail delimited]

theorem Lexes.lParen
    (lexes : Lexes tables text tokens) : Lexes tables ('(' :: text) (.lParen :: tokens) := by
  intro tail delimited
  rw [List.cons_append, tokenize_lParen, lexes tail delimited, List.cons_append]

theorem Lexes.rParen
    (lexes : Lexes tables text tokens) : Lexes tables (')' :: text) (.rParen :: tokens) := by
  intro tail delimited
  rw [List.cons_append, tokenize_rParen, lexes tail delimited, List.cons_append]

theorem lexes_nil : Lexes tables [] [] :=
  fun _ _ => rfl

/-- Two texts with a blank between them. -/
theorem Lexes.spaced
    (first : Lexes tables front tokens) (second : Lexes tables back others) :
    Lexes tables (front ++ ' ' :: back) (tokens ++ others) :=
  first.append (by decide) second.blank

theorem Lexes.parenthesised
    (lexes : Lexes tables text tokens) :
    Lexes tables ('(' :: (text ++ [')'])) (.lParen :: (tokens ++ [.rParen])) :=
  (lexes.append (by decide) lexes_nil.rParen).lParen

def compareToken : CompareOp → Token
  | .gt => .gt
  | .gte => .gte
  | .lt => .lt
  | .lte => .lte
  | .eq => .eq

theorem Lexes.compare (op : CompareOp)
    (lexes : Lexes tables text tokens) :
    Lexes tables (compareText op ++ ' ' :: text) (compareToken op :: tokens) := by
  intro tail delimited
  have blank := lexes.blank tail delimited
  have round : tokenize tables (compareText op ++ (' ' :: text ++ tail)) =
      compareToken op :: tokenize tables (' ' :: text ++ tail) := by
    cases op <;> exact tokenize.eq_2 _ _ _
  rw [List.append_assoc, round, blank, List.cons_append]

/-! ## Atoms -/

theorem keywords_last :
    keywords.all (fun entry => decide (entry.1.getLast? ≠ some '*')) = true := by
  decide

theorem lookup_of_getLast? (last : word.getLast? = some '*') :
    keywords.lookup word = none := by
  rw [List.lookup_eq_none_iff]
  intro entry listed
  have other := List.all_eq_true.mp keywords_last entry listed
  rw [decide_eq_true_eq] at other
  rw [bne_iff_ne]
  rintro rfl
  exact other last

theorem lexes_star {start : List Char} (isWord : IsWord tables start) :
    Lexes tables (start ++ ['*']) [.ident (start ++ ['*'])] := by
  have noKeyword : keywords.lookup (tables.toLowercase (start ++ ['*'])) = none :=
    lookup_of_getLast? (tables.toLowercase_last start '*' (by decide))
  have token : wordToken tables (start ++ ['*']) = .ident (start ++ ['*']) := by
    rw [wordToken, noKeyword]
    rfl
  have longer : IsWord tables (start ++ ['*']) := by
    cases start with
    | nil => exact isWord.elim
    | cons first rest =>
      refine ⟨isWord.1, fun char member => ?_⟩
      rcases List.mem_append.mp member with old | star
      · exact isWord.2 char old
      · obtain rfl := List.mem_singleton.mp star
        simp [inWord]
  rw [← token]
  exact lexes_word longer

/-- A word without the stars at its end is still a word. -/
theorem isWord_rdropWhile (isWord : IsWord tables name) :
    IsWord tables (name.rdropWhile fun char => decide (char = '*')) := by
  cases name with
  | nil => exact isWord.elim
  | cons first rest =>
    obtain ⟨starts, inside⟩ := isWord
    have different : first ≠ '*' := by
      rintro rfl
      rw [startsWord_eq_false (by decide) (by decide) (by decide)] at starts
      cases starts
    obtain ⟨back, split⟩ := List.rdropWhile_prefix (fun char => decide (char = '*'))
      (first :: rest)
    cases shape : (first :: rest).rdropWhile fun char => decide (char = '*') with
    | nil =>
      have stars := List.rdropWhile_eq_nil_iff.mp shape first List.mem_cons_self
      exact absurd (of_decide_eq_true stars) different
    | cons head others =>
      rw [shape, List.cons_append] at split
      obtain ⟨rfl, rfl⟩ := List.cons.inj split
      exact ⟨starts, fun char member => inside char (List.mem_append_left _ member)⟩

theorem patternOf_star {start : List Char} (trimmed : start.rdropWhile
    (fun char => decide (char = '*')) = start) : patternOf (start ++ ['*']) = .wildcard start := by
  rw [patternOf, if_pos (by simp), List.rdropWhile_concat_pos _ _ _ (by simp), trimmed]

theorem lexes_pattern {pattern : SelectionPattern}
    (producible : Producible tables token) (known : token.toPattern = some pattern) :
    ∃ target, Lexes tables (patternText pattern) [target] ∧ target.toPattern = some pattern := by
  cases token
  case them =>
    obtain rfl := Option.some.inj known
    exact ⟨.them, lexes_keyword (by decide), rfl⟩
  case ident name =>
    obtain rfl := Option.some.inj known
    by_cases stars : name.getLast? = some '*'
    · rw [patternOf, if_pos stars]
      refine ⟨_, lexes_star (isWord_rdropWhile (isWord_of_producible producible).1), ?_⟩
      rw [Token.toPattern, patternOf_star (List.rdropWhile_idempotent _ _)]
    · rw [patternOf, if_neg stars]
      refine ⟨.ident name, lexes_ident producible, ?_⟩
      rw [Token.toPattern, patternOf, if_neg stars]
  all_goals cases known

def quantifierToken : NOfQuantifier → Token
  | .n required => .integer required
  | .all => .all

theorem toQuantifier_quantifierToken (n : NOfQuantifier) :
    (quantifierToken n).toQuantifier = some n := by
  cases n <;> rfl

theorem lexes_quantifier (n : NOfQuantifier) :
    Lexes tables (quantifierText n) [quantifierToken n] := by
  cases n with
  | n required => exact lexes_integer required
  | all => exact lexes_keyword (by decide)

theorem lexes_nOf {n : NOfQuantifier} {pattern : SelectionPattern}
    (producible : Producible tables token) (known : token.toPattern = some pattern) :
    ∃ tokens, Lexes tables (quantifierText n ++ (" of ".toList ++ patternText pattern)) tokens ∧
      Atom tokens (.nOf n pattern) := by
  obtain ⟨target, lexes, same⟩ := lexes_pattern producible known
  have word : Lexes tables "of".toList [.of] := lexes_keyword (by decide)
  exact ⟨_, (lexes_quantifier n).spaced (word.spaced lexes),
    .nOf (toQuantifier_quantifierToken n) same⟩

theorem toCompareOp_compareToken (op : CompareOp) : (compareToken op).toCompareOp = some op := by
  cases op <;> rfl

theorem lexes_group {groupBy : Option (List Char)}
    (producible : ∀ name ∈ groupBy, Producible tables (.ident name))
    (lexes : Lexes tables (' ' :: text) tokens) :
    ∃ group, Grouping group groupBy ∧
      Lexes tables (groupText groupBy ++ ' ' :: text) (group ++ tokens) := by
  cases groupBy with
  | none => exact ⟨[], .absent, lexes⟩
  | some name =>
    have word : Lexes tables "by".toList [.byWord] := lexes_keyword (by decide)
    have grouped := (word.spaced (lexes_ident (producible name rfl))).blank
    exact ⟨_, .present (some name), grouped.append (by decide) lexes⟩

theorem lexes_field {field : Option (List Char)}
    (producible : ∀ name ∈ field, Producible tables (.ident name))
    (lexes : Lexes tables (')' :: text) tokens) :
    Lexes tables (field.getD [] ++ ')' :: text) (fieldTokens field ++ tokens) := by
  cases field with
  | none => exact lexes
  | some name => exact (lexes_ident (producible name rfl)).append (by decide) lexes

theorem lexes_countAgg {field groupBy : Option (List Char)}
    (fieldProducible : ∀ name ∈ field, Producible tables (.ident name))
    (groupProducible : ∀ name ∈ groupBy, Producible tables (.ident name))
    (place : Level → Level) (level : Level) (op : CompareOp) (value : Fin (2 ^ 64)) :
    ∃ tokens, Lexes tables (render place level (.countAgg field groupBy op value)) tokens ∧
      Atom tokens (.countAgg field groupBy op value) := by
  have word : Lexes tables "count".toList [.count] := lexes_keyword (by decide)
  obtain ⟨group, grouping, lexesGroup⟩ := lexes_group groupProducible
    ((lexes_integer value).compare op).blank
  have lexes := word.append (by decide) (lexes_field fieldProducible lexesGroup.rParen).lParen
  exact ⟨_, lexes, .countAgg field value grouping (toCompareOp_compareToken op)⟩

/-! ## Expressions -/

variable {level : Level} {expr : ConditionExpr}

/-- What stands in a place of a tight level may stand in one of a looser level. -/
theorem derives_weaken {looser : Level}
    (derives : Derives level tokens expr) (weaker : level.rank ≤ looser.rank) :
    Derives looser tokens expr := by
  have fromNot : ∀ chain, Derives .not tokens expr → Derives (.chain chain) tokens expr := by
    intro chain negation
    have conjunction : Derives (.chain .and) tokens expr := .operand negation
    cases chain with
    | and => exact conjunction
    | or => exact .operand conjunction
  cases level with
  | primary =>
    cases looser with
    | chain chain => exact fromNot chain (.primary derives)
    | not => exact .primary derives
    | primary => exact derives
  | not =>
    cases looser with
    | chain chain => exact fromNot chain derives
    | not => exact derives
    | primary => exact absurd weaker (by decide)
  | chain chain =>
    cases looser with
    | chain other =>
      cases chain <;> cases other
      · exact derives
      · exact absurd weaker (by decide)
      · exact .operand derives
      · exact derives
    | not => cases chain <;> exact absurd weaker (by decide)
    | primary => cases chain <;> exact absurd weaker (by decide)

/-- Parentheses make room for an expression of any level. -/
theorem lexes_enclose {own : Level} (lexes : Lexes tables text tokens)
    (derives : Derives own tokens expr) :
    ∃ enclosed, Lexes tables (enclose (level.rank < own.rank) text) enclosed ∧
      Derives level enclosed expr := by
  by_cases needed : level.rank < own.rank
  · rw [enclose, decide_eq_true needed, if_pos rfl]
    have inside : Derives (.chain .or) tokens expr :=
      derives_weaken derives (by rcases own with (_ | _) | _ | _ <;> decide)
    exact ⟨_, lexes.parenthesised, derives_weaken (.paren inside) (Nat.zero_le _)⟩
  · rw [enclose, decide_eq_false needed, if_neg (by simp)]
    exact ⟨tokens, lexes, derives_weaken derives (Nat.le_of_not_lt needed)⟩

/-- An operator between two operands. -/
theorem lexes_chain (chain : Chain) (word : List Char) (operator : Token) (level : Level)
    {place : Level → Level} (tighter : ∀ level, (place level).rank ≤ level.rank)
    {left right : ConditionExpr}
    (listed : (word, operator) ∈ keywords) (isOperator : chain.isOperator operator = true)
    (lexesLeft : Lexes tables front tokens)
    (derivesLeft : Derives (place (.chain chain)) tokens left)
    (lexesRight : Lexes tables back others)
    (derivesRight : Derives (place chain.operand) others right) :
    ∃ enclosed, Lexes tables (enclose (level.rank < (Level.chain chain).rank)
        (front ++ ' ' :: (word ++ ' ' :: back))) enclosed ∧
      Derives level enclosed (chain.combine left right) :=
  lexes_enclose (lexesLeft.spaced ((lexes_keyword listed).spaced lexesRight))
    (.chain (derives_weaken derivesLeft (tighter _)) isOperator
      (derives_weaken derivesRight (tighter _)))

/-- The text of an expression is read as tokens from which the grammar derives it. -/
theorem exists_lexes_render (place : Level → Level)
    (tighter : ∀ level, (place level).rank ≤ level.rank)
    (printable : expr.Printable tables) (level : Level) :
    ∃ tokens, Lexes tables (render place level expr) tokens ∧ Derives level tokens expr := by
  induction expr generalizing level with
  | selection name =>
    exact ⟨_, lexes_ident printable,
      derives_weaken (.atom (.selection name)) (Nat.zero_le _)⟩
  | not inner ih =>
    obtain ⟨tokens, lexes, derives⟩ := ih printable (place .not)
    have word : Lexes tables "not".toList [.not] := lexes_keyword (by decide)
    exact lexes_enclose (word.spaced lexes) (.not (derives_weaken derives (tighter _)))
  | and left right leftHypothesis rightHypothesis =>
    obtain ⟨tokens, lexesLeft, derivesLeft⟩ :=
      leftHypothesis printable.1 (place (.chain .and))
    obtain ⟨others, lexesRight, derivesRight⟩ := rightHypothesis printable.2 (place .not)
    exact lexes_chain .and "and".toList .and level tighter (by decide) rfl lexesLeft
      derivesLeft lexesRight derivesRight
  | or left right leftHypothesis rightHypothesis =>
    obtain ⟨tokens, lexesLeft, derivesLeft⟩ := leftHypothesis printable.1 (place (.chain .or))
    obtain ⟨others, lexesRight, derivesRight⟩ :=
      rightHypothesis printable.2 (place (.chain .and))
    exact lexes_chain .or "or".toList .or level tighter (by decide) rfl lexesLeft
      derivesLeft lexesRight derivesRight
  | nOf n pattern =>
    obtain ⟨token, producible, known⟩ := printable
    obtain ⟨tokens, lexes, atom⟩ := lexes_nOf (n := n) producible known
    exact ⟨tokens, lexes, derives_weaken (.atom atom) (Nat.zero_le _)⟩
  | countAgg field groupBy op value =>
    obtain ⟨tokens, lexes, atom⟩ :=
      lexes_countAgg printable.1 printable.2 place level op value
    exact ⟨tokens, lexes, derives_weaken (.atom atom) (Nat.zero_le _)⟩

/-- A text that is read as tokens of an expression is parsed to it. -/
theorem parseCondition_of_lexes (lexes : Lexes tables text tokens)
    (derives : Derives level tokens expr) : parseCondition tables text = .ok expr := by
  have read : tokenize tables text = tokens := by
    have whole := lexes [] (by simp [Delimited])
    simpa [tokenize] using whole
  have parsed : Parser.parseOr ⟨tokens, 0⟩ = .ok (expr, ⟨[], 0 + tokens.length⟩) :=
    Parser.parseOr_eq_ok_iff.mpr
      (derives_weaken derives (by rcases level with (_ | _) | _ | _ <;> decide))
  rw [parseCondition, read, parsed]
  rfl

/-- Both texts of an expression are parsed back to it. -/
theorem parseCondition_render {expr : ConditionExpr} (printable : expr.Printable tables) :
    parseCondition tables (fullText expr) = .ok expr ∧
      parseCondition tables (minimalText expr) = .ok expr := by
  obtain ⟨fullTokens, lexesFull, derivesFull⟩ :=
    exists_lexes_render (fun _ => .primary) (fun level => Nat.zero_le _) printable .primary
  obtain ⟨minimalTokens, lexesMinimal, derivesMinimal⟩ :=
    exists_lexes_render id (fun level => le_refl _) printable (.chain .or)
  exact ⟨parseCondition_of_lexes lexesFull derivesFull,
    parseCondition_of_lexes lexesMinimal derivesMinimal⟩

/-- The expression of `(a or not b) and 1 of sel*`. -/
def mixedExpr : ConditionExpr :=
  .and (.or (.selection ['a']) (.not (.selection ['b'])))
    (.nOf (.n ⟨1, by decide⟩) (.wildcard "sel".toList))

theorem parseCondition_render_at_mixed :
    (fullText mixedExpr = "((a or (not b)) and 1 of sel*)".toList ∧
      minimalText mixedExpr = "(a or not b) and 1 of sel*".toList) ∧
    parseCondition .ascii (fullText mixedExpr) = .ok mixedExpr ∧
      parseCondition .ascii (minimalText mixedExpr) = .ok mixedExpr := by
  refine ⟨by decide, parseCondition_render ⟨⟨⟨['a'], ?_⟩, ⟨['b'], ?_⟩⟩, .ident "sel*".toList,
    ⟨"sel*".toList, ?_⟩, ?_⟩⟩
  · decide +kernel
  · decide +kernel
  · decide +kernel
  · decide

end HiveGuard.Sigma
