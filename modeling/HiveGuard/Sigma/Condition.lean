import HiveGuard.Library.Cursor
import HiveGuard.Library.Unicode

/-!
# Sigma conditions

The condition of a Sigma rule combines named selections with `and`, `or` and `not` and
counts selections with patterns such as `1 of sel*`.  A tokenizer and a recursive-descent
parser turn its text into an expression, which is evaluated against the selections that
matched.
-/

namespace HiveGuard.Sigma

open HiveGuard.Library (Cursor)
open HiveGuard.Library.Cursor (Reads bind_eq_ok_iff next_eq_some_iff take_eq_ok_iff)
open Library.Text
open HiveGuard.Library.Unicode (Tables)

/-! ## Tokens -/

inductive Token where
  | ident (name : List Char)
  | and
  | or
  | not
  | lParen
  | rParen
  | of
  | them
  | all
  | count
  | byWord
  | integer (value : Fin (2 ^ 64))
  | pipe
  | gt
  | gte
  | lt
  | lte
  | eq
  deriving DecidableEq

/-- The words that are not identifiers. -/
def keywords : List (List Char × Token) :=
  [("and".toList, .and), ("or".toList, .or), ("not".toList, .not), ("of".toList, .of),
    ("them".toList, .them), ("all".toList, .all), ("count".toList, .count),
    ("by".toList, .byWord)]

section Tokenizer

variable (tables : Tables)

def startsWord (char : Char) : Bool :=
  tables.isAlphabetic char || decide (char = '_')

def inWord (char : Char) : Bool :=
  tables.isAlphanumeric char || decide (char = '_') || decide (char = '*') ||
    decide (char = '.')

/-- Keywords are found in any case; other words stand for themselves. -/
def wordToken (word : List Char) : Token :=
  (keywords.lookup (tables.toLowercase word)).getD (.ident word)

/-- A number that does not fit gives no token. -/
def integerToken (digits : List Char) : Option Token :=
  match parseUnsigned (2 ^ 64) digits with
  | none => none
  | some value => if fits : value < 2 ^ 64 then some (.integer ⟨value, fits⟩) else none

/-- A comparison with an optional equality sign behind it. -/
def comparison (strict orEqual : Token) : List Char → Option Token × List Char
  | '=' :: text => (some orEqual, text)
  | text => (some strict, text)

/-- One round of the tokenizer: the token that starts with a character, if there is one,
and the text behind it.  Unknown characters are skipped. -/
def scan (char : Char) (text : List Char) : Option Token × List Char :=
  if char ∈ [' ', '\t', '\n', '\r'] then (none, text)
  else if char = '(' then (some .lParen, text)
  else if char = ')' then (some .rParen, text)
  else if char = '|' then (some .pipe, text)
  else if char = '>' then comparison .gt .gte text
  else if char = '<' then comparison .lt .lte text
  else if char = '=' then (some .eq, text)
  else if char.isDigit then
    (integerToken (char :: text.takeWhile Char.isDigit), text.dropWhile Char.isDigit)
  else if startsWord tables char then
    (some (wordToken tables (char :: text.takeWhile (inWord tables))),
      text.dropWhile (inWord tables))
  else (none, text)

theorem length_comparison_le (strict orEqual : Token) (text : List Char) :
    (comparison strict orEqual text).2.length ≤ text.length := by
  rw [comparison.eq_def]
  split
  · exact Nat.le_succ _
  · exact le_refl _

theorem length_scan_le (char : Char) (text : List Char) :
    (scan tables char text).2.length ≤ text.length := by
  simp only [scan, apply_ite Prod.snd, apply_ite List.length]
  have digits := (text.dropWhile_sublist Char.isDigit).length_le
  have word := (text.dropWhile_sublist (inWord tables)).length_le
  have strict := length_comparison_le .gt .gte text
  have smaller := length_comparison_le .lt .lte text
  split_ifs <;> first | exact le_refl _ | assumption

def tokenize : List Char → List Token
  | [] => []
  | char :: text =>
    (scan tables char text).1.toList ++ tokenize (scan tables char text).2
termination_by text => text.length
decreasing_by
  have := length_scan_le tables char text
  rw [List.length_cons]
  omega

end Tokenizer

/-! ## Expressions -/

inductive CompareOp where
  | gt
  | gte
  | lt
  | lte
  | eq
  deriving DecidableEq

inductive NOfQuantifier where
  | n (required : Fin (2 ^ 64))
  | all
  deriving DecidableEq

inductive SelectionPattern where
  | named (name : List Char)
  | wildcard (start : List Char)
  | them
  deriving DecidableEq

inductive ConditionExpr where
  | selection (name : List Char)
  | not (inner : ConditionExpr)
  | and (left right : ConditionExpr)
  | or (left right : ConditionExpr)
  | nOf (n : NOfQuantifier) (pattern : SelectionPattern)
  | countAgg (field groupBy : Option (List Char)) (op : CompareOp) (value : Fin (2 ^ 64))
  deriving DecidableEq

/-! ## Parser -/

/-- Why a condition is refused.  The messages show the token that was got, and `EOF` without
one. -/
inductive ConditionError where
  | expected (token : Token) (got : Option Token)
  | unexpectedToken (token : Token) (position : Nat)
  | unexpectedEnd
  | expectedPattern (got : Option Token)
  | expectedOperator (got : Option Token)
  | expectedInteger (got : Option Token)
  deriving DecidableEq

abbrev Parser : Type :=
  Cursor Token

/-- A name with stars at its end is a pattern. -/
def patternOf (name : List Char) : SelectionPattern :=
  if name.getLast? = some '*' then .wildcard (name.rdropWhile fun char => decide (char = '*'))
  else .named name

namespace Token

def toPattern : Token → Option SelectionPattern
  | .them => some .them
  | .ident name => some (patternOf name)
  | _ => none

def toCompareOp : Token → Option CompareOp
  | .gt => some .gt
  | .gte => some .gte
  | .lt => some .lt
  | .lte => some .lte
  | .eq => some .eq
  | _ => none

def toInteger : Token → Option (Fin (2 ^ 64))
  | .integer value => some value
  | _ => none

def toQuantifier : Token → Option NOfQuantifier
  | .all => some .all
  | .integer n => some (.n n)
  | _ => none

end Token

namespace Parser

variable (self : Parser)

def expect (expected : Token) : Except ConditionError (Unit × Parser) :=
  self.take (fun token => if token = expected then some () else none) (.expected expected)

def parseSelectionPattern :
    Except ConditionError (SelectionPattern × Parser) :=
  self.take Token.toPattern .expectedPattern

/-- The identifier at the front, if there is one. -/
def parseField : Option (List Char) × Parser :=
  match self.next with
  | (some (.ident name), rest) => (some name, rest)
  | _ => (none, self)

/-- The grouping of a count.  A `by` without an identifier is passed over. -/
def parseGroupBy : Option (List Char) × Parser :=
  match self.next with
  | (some .byWord, rest) => parseField rest
  | _ => (none, self)

/-- A count aggregation; the parser stands on `count`. -/
def parseCountAgg : Except ConditionError (ConditionExpr × Parser) := do
  let (_, rest) ← expect self.next.2 .lParen
  let (field, rest) := parseField rest
  let (_, rest) ← expect rest .rParen
  let (groupBy, rest) := parseGroupBy rest
  let (op, rest) ← Cursor.take rest Token.toCompareOp .expectedOperator
  let (value, rest) ← Cursor.take rest Token.toInteger .expectedInteger
  return (.countAgg field groupBy op value, rest)

/-- What stands behind `all` or a number. -/
def parseNOf (n : NOfQuantifier) :
    Except ConditionError (ConditionExpr × Parser) := do
  let (_, rest) ← expect self .of
  let (pattern, rest) ← parseSelectionPattern rest
  return (.nOf n pattern, rest)

/-- The primary expressions without parentheses. -/
def parseAtom : Except ConditionError (ConditionExpr × Parser) :=
  match self.next with
  | (some .count, _) => parseCountAgg self
  | (some .all, rest) => parseNOf rest .all
  | (some (.integer n), rest) => parseNOf rest (.n n)
  | (some (.ident name), rest) => .ok (.selection name, rest)
  | (some token, _) => .error (.unexpectedToken token self.pos)
  | (none, _) => .error .unexpectedEnd

/-! ### What is read -/

variable {self} {rest : Parser}

theorem expect_eq_ok_iff {expected : Token} {done : Unit} :
    expect self expected = .ok (done, rest) ↔ Reads [expected] self rest := by
  rw [expect, take_eq_ok_iff]
  simp

/-- The tokens of an optional identifier. -/
def fieldTokens (field : Option (List Char)) : List Token :=
  (field.map Token.ident).toList

/-- The tokens of an optional grouping. -/
inductive Grouping : List Token → Option (List Char) → Prop
  | absent : Grouping [] none
  | present (field : Option (List Char)) : Grouping (.byWord :: fieldTokens field) field

/-- The tokens of the primary expressions without parentheses. -/
inductive Atom : List Token → ConditionExpr → Prop
  | selection (name : List Char) : Atom [.ident name] (.selection name)
  | nOf {quantifier target : Token} {n : NOfQuantifier} {pattern : SelectionPattern} :
      quantifier.toQuantifier = some n → target.toPattern = some pattern →
      Atom [quantifier, .of, target] (.nOf n pattern)
  | countAgg {group : List Token} {groupBy : Option (List Char)} {comparison : Token}
      {op : CompareOp} (field : Option (List Char)) (value : Fin (2 ^ 64)) :
      Grouping group groupBy → comparison.toCompareOp = some op →
      Atom (.count :: .lParen ::
          (fieldTokens field ++ .rParen :: (group ++ [comparison, .integer value])))
        (.countAgg field groupBy op value)

variable {token : Token}

/-- In front of a token that is no identifier, an optional identifier is read whole. -/
theorem parseField_eq_iff {middle : Parser} {field : Option (List Char)}
    (after : Reads [token] middle rest) (stop : ∀ name, token ≠ .ident name) :
    parseField self = (field, middle) ↔ Reads (fieldTokens field) self middle := by
  rcases self with ⟨tokens, pos⟩
  rcases middle with ⟨between, stopped⟩
  obtain rfl : between = token :: rest.tokens := after.1
  cases tokens with
  | nil => cases field <;> simp [parseField, Cursor.next, Reads, fieldTokens]
  | cons first tokens =>
    cases first
    case ident name =>
      cases field with
      | none =>
        have different := stop name
        simp [parseField, Cursor.next, Reads, fieldTokens, different.symm]
      | some other =>
        simp [parseField, Cursor.next, Reads, fieldTokens, eq_comm, and_assoc]
    all_goals
      cases field <;>
        simp [parseField, Cursor.next, Reads, fieldTokens, eq_comm, and_assoc]

theorem parseGroupBy_of_by (by_first : Reads [.byWord] self rest) :
    parseGroupBy self = parseField rest := by
  rw [parseGroupBy, next_eq_some_iff.mpr by_first]

theorem parseGroupBy_of_other
    (other : ∀ rest, ¬ Reads [.byWord] self rest) : parseGroupBy self = (none, self) := by
  rw [parseGroupBy]
  split
  case h_1 rest read => exact absurd (next_eq_some_iff.mp read) (other rest)
  case h_2 => rfl

/-- In front of a comparison, an optional grouping is read whole. -/
theorem parseGroupBy_eq_iff {middle : Parser} {groupBy : Option (List Char)} {op : CompareOp}
    (after : Reads [token] middle rest)
    (compares : token.toCompareOp = some op) :
    parseGroupBy self = (groupBy, middle) ↔
      ∃ group, Grouping group groupBy ∧ Reads group self middle := by
  have noIdent : ∀ name, token ≠ .ident name := by
    rintro name rfl
    simp [Token.toCompareOp] at compares
  have noBy : ∀ rest, ¬ Reads [.byWord] middle rest := by
    intro other reads
    obtain rfl : token = .byWord := by
      have same := after.1.symm.trans reads.1
      exact (List.cons.inj same).1
    simp [Token.toCompareOp] at compares
  constructor
  · intro parsed
    by_cases grouped : ∃ inner, Reads [.byWord] self inner
    · obtain ⟨inner, by_first⟩ := grouped
      rw [parseGroupBy_of_by by_first, parseField_eq_iff after noIdent] at parsed
      exact ⟨_, .present groupBy, by_first.trans parsed⟩
    · rw [parseGroupBy_of_other (not_exists.mp grouped)] at parsed
      cases parsed
      exact ⟨[], .absent, Reads.refl _⟩
  · rintro ⟨group, grouping, reads⟩
    cases grouping with
    | absent =>
      obtain rfl : middle = self := reads.unique (Reads.refl self)
      exact parseGroupBy_of_other noBy
    | present =>
      obtain ⟨inner, by_first, field⟩ := Cursor.reads_cons_iff.mp reads
      rw [parseGroupBy_of_by by_first, parseField_eq_iff after noIdent]
      exact field

variable {expr : ConditionExpr}

theorem parseNOf_eq_ok_iff {n : NOfQuantifier} :
    parseNOf self n = .ok (expr, rest) ↔
      ∃ target pattern, target.toPattern = some pattern ∧ expr = .nOf n pattern ∧
        Reads [.of, target] self rest := by
  simp only [parseNOf, bind_eq_ok_iff, Prod.exists, expect_eq_ok_iff, parseSelectionPattern,
    take_eq_ok_iff]
  constructor
  · rintro ⟨_, middle, readOf, pattern, _, ⟨target, known, readTarget⟩, result⟩
    cases result
    exact ⟨target, pattern, known, rfl, readOf.trans readTarget⟩
  · rintro ⟨target, pattern, known, rfl, reads⟩
    obtain ⟨middle, readOf, readTarget⟩ := Cursor.reads_cons_iff.mp reads
    exact ⟨(), middle, readOf, pattern, rest, ⟨target, known, readTarget⟩, rfl⟩

theorem toInteger_eq_some_iff {value : Fin (2 ^ 64)} :
    token.toInteger = some value ↔ token = .integer value := by
  cases token <;> simp [Token.toInteger]

theorem parseCountAgg_eq_ok_iff {start : Parser} (onCount : Reads [.count] self start) :
    parseCountAgg self = .ok (expr, rest) ↔ ∃ field group groupBy comparison op value,
        Grouping group groupBy ∧ Token.toCompareOp comparison = some op ∧
        expr = .countAgg field groupBy op value ∧
        Reads (.lParen :: (fieldTokens field ++ .rParen :: (group ++
          [comparison, .integer value]))) start rest := by
  simp only [parseCountAgg, next_eq_some_iff.mpr onCount, bind_eq_ok_iff, Prod.exists,
    expect_eq_ok_iff, take_eq_ok_iff, toInteger_eq_some_iff]
  constructor
  · rintro ⟨_, opened, readOpen, _, closed, readClose, op, compared, ⟨comparison, compares,
      readComparison⟩, value, _, ⟨_, rfl, readValue⟩, result⟩
    cases result
    have noIdent : ∀ name, Token.rParen ≠ .ident name := by simp
    have field := (parseField_eq_iff readClose noIdent).mp (Prod.mk.eta.symm :
      parseField opened = _)
    obtain ⟨group, grouping, readGroup⟩ := (parseGroupBy_eq_iff readComparison compares).mp
      (Prod.mk.eta.symm : parseGroupBy closed = _)
    exact ⟨_, group, _, comparison, op, value, grouping, compares, rfl,
      readOpen.trans (field.trans (readClose.trans (readGroup.trans
        (readComparison.trans readValue))))⟩
  · rintro ⟨field, group, groupBy, comparison, op, value, grouping, compares, rfl, reads⟩
    obtain ⟨opened, readOpen, reads⟩ := Cursor.reads_cons_iff.mp reads
    obtain ⟨named, readField, reads⟩ := Cursor.reads_append_iff.mp reads
    obtain ⟨closed, readClose, reads⟩ := Cursor.reads_cons_iff.mp reads
    obtain ⟨grouped, readGroup, reads⟩ := Cursor.reads_append_iff.mp reads
    obtain ⟨compared, readComparison, readValue⟩ := Cursor.reads_cons_iff.mp reads
    have noIdent : ∀ name, Token.rParen ≠ .ident name := by simp
    have parsedField := (parseField_eq_iff readClose noIdent).mpr readField
    have parsedGroup := (parseGroupBy_eq_iff readComparison compares).mpr
      ⟨group, grouping, readGroup⟩
    refine ⟨(), opened, readOpen, ?_⟩
    rw [parsedField]
    refine ⟨(), closed, readClose, ?_⟩
    rw [parsedGroup]
    exact ⟨op, compared, ⟨comparison, compares, readComparison⟩, value, rest,
      ⟨_, rfl, readValue⟩, rfl⟩

/-- An atom is read exactly where its tokens stand, whatever is behind them. -/
theorem parseAtom_eq_ok_iff :
    parseAtom self = .ok (expr, rest) ↔ ∃ tokens, Atom tokens expr ∧ Reads tokens self rest := by
  constructor
  · intro parsed
    rw [parseAtom] at parsed
    split at parsed
    case h_1 _ read =>
      have onCount := next_eq_some_iff.mp read
      obtain ⟨field, group, groupBy, comparison, op, value, grouping, compares, rfl, reads⟩ :=
        (parseCountAgg_eq_ok_iff onCount).mp parsed
      exact ⟨_, .countAgg field value grouping compares, onCount.trans reads⟩
    case h_2 _ read =>
      obtain ⟨target, pattern, known, rfl, reads⟩ := parseNOf_eq_ok_iff.mp parsed
      exact ⟨_, .nOf rfl known, (next_eq_some_iff.mp read).trans reads⟩
    case h_3 n _ read =>
      obtain ⟨target, pattern, known, rfl, reads⟩ := parseNOf_eq_ok_iff.mp parsed
      exact ⟨_, .nOf rfl known, (next_eq_some_iff.mp read).trans reads⟩
    case h_4 name _ read =>
      cases parsed
      exact ⟨_, .selection name, next_eq_some_iff.mp read⟩
    case h_5 => cases parsed
    case h_6 => cases parsed
  · rintro ⟨tokens, atom, reads⟩
    obtain ⟨first, others, rfl⟩ : ∃ first others, tokens = first :: others := by
      cases atom <;> exact ⟨_, _, rfl⟩
    obtain ⟨start, front, back⟩ := Cursor.reads_cons_iff.mp reads
    rw [parseAtom, next_eq_some_iff.mpr front]
    cases atom with
    | selection name =>
      obtain rfl := back.unique (Reads.refl start)
      rfl
    | nOf quantified known =>
      cases first
      case all | integer =>
        cases quantified
        exact parseNOf_eq_ok_iff.mpr ⟨_, _, known, rfl, back⟩
      all_goals simp [Token.toQuantifier] at quantified
    | countAgg field value grouping compares =>
      exact (parseCountAgg_eq_ok_iff front).mpr
        ⟨field, _, _, _, _, value, grouping, compares, rfl, back⟩

theorem Atom.ne_nil {tokens : List Token} (atom : Atom tokens expr) :
    tokens ≠ [] := by
  cases atom <;> exact List.cons_ne_nil _ _

/-! ### Recursive descent -/

/-- The two operators; both are left-associative. -/
inductive Chain where
  | or
  | and
  deriving DecidableEq

/-- The functions of the descent, one for each level of precedence. -/
inductive Level where
  | chain (chain : Chain)
  | not
  | primary
  deriving DecidableEq

namespace Chain

/-- A pipe is read as `and`. -/
def isOperator : Chain → Token → Bool
  | .or, token => decide (token = .or)
  | .and, token => decide (token = .and) || decide (token = .pipe)

def combine : Chain → ConditionExpr → ConditionExpr → ConditionExpr
  | .or => .or
  | .and => .and

def operand : Chain → Level
  | .or => .chain .and
  | .and => .not

end Chain

def Level.rank : Level → Nat
  | .chain .or => 3
  | .chain .and => 2
  | .not => 1
  | .primary => 0

theorem rank_operand_lt (chain : Chain) : chain.operand.rank < (Level.chain chain).rank := by
  cases chain <;> decide

theorem rank_operand_le (chain : Chain) : chain.operand.rank ≤ 2 := by
  cases chain <;> decide

/-- A parser with fewer tokens left. -/
abbrev Shorter (self : Parser) : Type :=
  { rest : Parser // rest.tokens.length < self.tokens.length }

/-- A parser with no more tokens left. -/
abbrev NotLonger (self : Parser) : Type :=
  { rest : Parser // rest.tokens.length ≤ self.tokens.length }

theorem length_lt_of_reads {tokens : List Token} (nonempty : tokens ≠ [])
    (reads : Reads tokens self rest) : rest.tokens.length < self.tokens.length := by
  have positive := List.length_pos_iff.mpr nonempty
  rw [reads.length]
  omega

theorem length_lt_of_parseAtom (parsed : parseAtom self = .ok (expr, rest)) :
    rest.tokens.length < self.tokens.length := by
  obtain ⟨tokens, atom, reads⟩ := parseAtom_eq_ok_iff.mp parsed
  exact length_lt_of_reads atom.ne_nil reads

theorem length_lt_of_expect {expected : Token} {done : Unit}
    (parsed : expect self expected = .ok (done, rest)) :
    rest.tokens.length < self.tokens.length :=
  length_lt_of_reads (List.cons_ne_nil _ _) (expect_eq_ok_iff.mp parsed)

/-- A successful call with the proof that it used up tokens. -/
def shrinking {α : Type} {self : Parser} (outcome : Except ConditionError (α × Parser))
    (shrinks : ∀ value rest, outcome = .ok (value, rest) →
      rest.tokens.length < self.tokens.length) :
    Except ConditionError (α × Shorter self) :=
  match outcome with
  | .error failure => .error failure
  | .ok (value, rest) => .ok (value, ⟨rest, shrinks value rest rfl⟩)

mutual

/-- The descent.  Its results carry the proof that tokens were used up, which is why it
comes to an end. -/
def descend (level : Level) (self : Parser) :
    Except ConditionError (ConditionExpr × Shorter self) :=
  match level, self with
  | .chain chain, self => do
      let (left, rest) ← descend chain.operand self
      let (expr, last) ← descendLoop chain left rest.val
      return (expr, ⟨last.val, last.property.trans_lt rest.property⟩)
  | .not, ⟨.not :: tokens, pos⟩ => do
      let (inner, rest) ← descend .not ⟨tokens, pos + 1⟩
      return (.not inner, ⟨rest.val, rest.property.trans (Nat.lt_succ_self _)⟩)
  | .not, self => descend .primary self
  | .primary, ⟨.lParen :: tokens, pos⟩ => do
      let (expr, rest) ← descend (.chain .or) ⟨tokens, pos + 1⟩
      let (_, last) ← shrinking (expect rest.val .rParen) fun _ _ => length_lt_of_expect
      return (expr, ⟨last.val, (last.property.trans rest.property).trans (Nat.lt_succ_self _)⟩)
  | .primary, self => shrinking (parseAtom self) fun _ _ => length_lt_of_parseAtom
termination_by 5 * self.tokens.length + level.rank
decreasing_by
  · exact Nat.add_lt_add_left (rank_operand_lt chain) _
  · have := rest.property
    omega
  · simp only [List.length_cons]
    omega
  · exact Nat.add_lt_add_left (by decide) _
  · simp only [List.length_cons, Level.rank]
    omega

/-- The loop over the operators of a level. -/
def descendLoop (chain : Chain) (left : ConditionExpr) (self : Parser) :
    Except ConditionError (ConditionExpr × NotLonger self) :=
  match self with
  | ⟨[], pos⟩ => .ok (left, ⟨⟨[], pos⟩, le_refl _⟩)
  | ⟨token :: tokens, pos⟩ =>
    if chain.isOperator token then do
      let (right, rest) ← descend chain.operand ⟨tokens, pos + 1⟩
      let (expr, last) ← descendLoop chain (chain.combine left right) rest.val
      return (expr, ⟨last.val, (last.property.trans rest.property.le).trans (Nat.le_succ _)⟩)
    else .ok (left, ⟨⟨token :: tokens, pos⟩, le_refl _⟩)
termination_by 5 * self.tokens.length + 4
decreasing_by
  · have := rank_operand_le chain
    simp only [List.length_cons]
    omega
  · have less : rest.val.tokens.length < tokens.length := rest.property
    simp only [List.length_cons]
    omega

end

/-- A result without the proof about its tokens. -/
def plain {p : Parser → Prop}
    (outcome : Except ConditionError (ConditionExpr × { rest : Parser // p rest })) :
    Except ConditionError (ConditionExpr × Parser) :=
  outcome.map fun result => (result.1, result.2.val)

def parseLevel (level : Level) (self : Parser) :
    Except ConditionError (ConditionExpr × Parser) :=
  plain (descend level self)

def parseLoop (chain : Chain) (left : ConditionExpr) (self : Parser) :
    Except ConditionError (ConditionExpr × Parser) :=
  plain (descendLoop chain left self)

def parseOr : Parser → Except ConditionError (ConditionExpr × Parser) :=
  parseLevel (.chain .or)

def parseAnd : Parser → Except ConditionError (ConditionExpr × Parser) :=
  parseLevel (.chain .and)

def parseNot : Parser → Except ConditionError (ConditionExpr × Parser) :=
  parseLevel .not

def parsePrimary : Parser → Except ConditionError (ConditionExpr × Parser) :=
  parseLevel .primary

/-! The equations of the source, without the proofs. -/

theorem parseLevel_chain (chain : Chain) (self : Parser) :
    parseLevel (.chain chain) self =
      parseLevel chain.operand self >>= fun result => parseLoop chain result.1 result.2 := by
  rw [parseLevel, parseLevel, descend]
  cases descend chain.operand self with
  | error failure => rfl
  | ok result =>
    change plain (descendLoop chain result.1 result.2.val >>= _) = parseLoop _ _ _
    rw [parseLoop]
    cases descendLoop chain result.1 result.2.val <;> rfl

theorem parseLoop_nil (chain : Chain) (left : ConditionExpr) (pos : Nat) :
    parseLoop chain left ⟨[], pos⟩ = .ok (left, ⟨[], pos⟩) := by
  rw [parseLoop, descendLoop]
  rfl

theorem parseLoop_operator {chain : Chain} (left : ConditionExpr)
    (tokens : List Token) (pos : Nat) (operator : chain.isOperator token = true) :
    parseLoop chain left ⟨token :: tokens, pos⟩ =
      parseLevel chain.operand ⟨tokens, pos + 1⟩ >>= fun result =>
        parseLoop chain (chain.combine left result.1) result.2 := by
  rw [parseLoop, parseLevel, descendLoop, if_pos operator]
  cases descend chain.operand ⟨tokens, pos + 1⟩ with
  | error failure => rfl
  | ok result =>
    change plain (descendLoop chain (chain.combine left result.1) result.2.val >>= _) =
      parseLoop _ _ _
    rw [parseLoop]
    cases descendLoop chain (chain.combine left result.1) result.2.val <;> rfl

theorem parseLoop_other {chain : Chain} (left : ConditionExpr)
    (tokens : List Token) (pos : Nat) (other : chain.isOperator token = false) :
    parseLoop chain left ⟨token :: tokens, pos⟩ = .ok (left, ⟨token :: tokens, pos⟩) := by
  rw [parseLoop, descendLoop, if_neg (by simp [other])]
  rfl

theorem parseNot_not (tokens : List Token) (pos : Nat) :
    parseLevel .not ⟨.not :: tokens, pos⟩ =
      (parseLevel .not ⟨tokens, pos + 1⟩).map fun result => (.not result.1, result.2) := by
  rw [parseLevel, parseLevel, descend]
  cases descend .not ⟨tokens, pos + 1⟩ <;> rfl

theorem parseNot_other (other : self.tokens.head? ≠ some .not) :
    parseLevel .not self = parseLevel .primary self := by
  rw [parseLevel, parseLevel, descend]
  rintro tokens pos rfl
  exact other rfl

theorem map_shrinking {α β : Type} (outcome : Except ConditionError (α × Parser))
    (shrinks : ∀ value rest, outcome = .ok (value, rest) → rest.tokens.length < self.tokens.length)
    (use : α × Parser → β) :
    (shrinking outcome shrinks).map (fun result => use (result.1, result.2.val)) =
      outcome.map use := by
  rcases outcome with failure | ⟨value, rest⟩ <;> rfl

theorem parsePrimary_lParen (tokens : List Token) (pos : Nat) :
    parseLevel .primary ⟨.lParen :: tokens, pos⟩ =
      parseLevel (.chain .or) ⟨tokens, pos + 1⟩ >>= fun result =>
        (expect result.2 .rParen).map fun closed => (result.1, closed.2) := by
  conv_lhs => rw [parseLevel, descend]
  rw [parseLevel]
  cases descend (.chain .or) ⟨tokens, pos + 1⟩ with
  | error failure => rfl
  | ok result =>
    change plain (shrinking (expect result.2.val .rParen) _ >>= _) = Except.map _ _
    rw [← map_shrinking (expect result.2.val .rParen) fun _ _ => length_lt_of_expect]
    cases shrinking (expect result.2.val .rParen) fun _ _ => length_lt_of_expect <;> rfl

theorem parsePrimary_other (other : self.tokens.head? ≠ some .lParen) :
    parseLevel .primary self = parseAtom self := by
  rw [parseLevel, descend]
  · have same := map_shrinking (parseAtom self) (fun _ _ => length_lt_of_parseAtom) id
    rw [Except.map_id] at same
    exact same
  · rintro tokens pos rfl
    exact other rfl

end Parser

/-- The tokens behind the expression are ignored. -/
def parseCondition (tables : Tables) (input : List Char) :
    Except ConditionError ConditionExpr :=
  (Parser.parseOr ⟨tokenize tables input, 0⟩).map Prod.fst

/-! ## Evaluation -/

def selectionPatternMatches (pattern : SelectionPattern) (name : List Char) : Bool :=
  match pattern with
  | .named expected => decide (expected = name)
  | .wildcard start => start.isPrefixOf name
  | .them => true

/-- Does the condition hold, with the selections that matched the event among all that the
rule defines?  Aggregations are not implemented; they always hold. -/
def evaluateCondition (matched allNames : Finset (List Char)) : ConditionExpr → Bool
  | .selection name => decide (name ∈ matched)
  | .not inner => !evaluateCondition matched allNames inner
  | .and left right =>
    evaluateCondition matched allNames left && evaluateCondition matched allNames right
  | .or left right =>
    evaluateCondition matched allNames left || evaluateCondition matched allNames right
  | .nOf n pattern =>
    let candidateCount :=
      (allNames.filter fun name => selectionPatternMatches pattern name = true).card
    let matchingCount :=
      (allNames.filter fun name =>
        selectionPatternMatches pattern name = true ∧ name ∈ matched).card
    match n with
    | .all => decide (matchingCount = candidateCount) && decide (0 < candidateCount)
    | .n required => decide (required.val ≤ matchingCount)
  | .countAgg _ _ _ _ => true

end HiveGuard.Sigma
