import HiveGuard.Sigma.Condition

/-!
# The grammar of conditions

`not` binds tighter than `and`, which binds tighter than `or`; the two operators are
left-associative.  The grammar says so with one relation, indexed by the level of
precedence, and the parser accepts a list of tokens as a whole exactly when the grammar
derives it.
-/

namespace HiveGuard.Sigma

open HiveGuard.Library (Cursor)
open HiveGuard.Library.Cursor (Reads bind_eq_ok_iff)

namespace Parser

/-- The tokens of an expression at a level of precedence. -/
inductive Derives : Level → List Token → ConditionExpr → Prop
  | operand {chain : Chain} {tokens : List Token} {expr : ConditionExpr} :
      Derives chain.operand tokens expr → Derives (.chain chain) tokens expr
  | chain {chain : Chain} {front back : List Token} {token : Token}
      {left right : ConditionExpr} :
      Derives (.chain chain) front left → chain.isOperator token = true →
      Derives chain.operand back right →
      Derives (.chain chain) (front ++ token :: back) (chain.combine left right)
  | not {tokens : List Token} {inner : ConditionExpr} :
      Derives .not tokens inner → Derives .not (.not :: tokens) (.not inner)
  | primary {tokens : List Token} {expr : ConditionExpr} :
      Derives .primary tokens expr → Derives .not tokens expr
  | paren {tokens : List Token} {expr : ConditionExpr} :
      Derives (.chain .or) tokens expr →
      Derives .primary (.lParen :: (tokens ++ [.rParen])) expr
  | atom {tokens : List Token} {expr : ConditionExpr} :
      Atom tokens expr → Derives .primary tokens expr

/-! ## Every derivation is parsed -/

/-- What a level does once it has read an expression: the loops go on. -/
def resume : Level → ConditionExpr → Parser → Except ConditionError (ConditionExpr × Parser)
  | .chain chain, expr, rest => parseLoop chain expr rest
  | .not, expr, rest => .ok (expr, rest)
  | .primary, expr, rest => .ok (expr, rest)

/-- The loop of a level leaves the parser alone. -/
def Halts (chain : Chain) (rest : Parser) : Prop :=
  ∀ token ∈ rest.tokens.head?, chain.isOperator token = false

/-- No loop below a level goes on. -/
def Follows : Level → Parser → Prop
  | .chain .or, rest => Halts .and rest
  | .chain .and, _ => True
  | .not, _ => True
  | .primary, _ => True

variable {chain : Chain} {expr : ConditionExpr} {rest self : Parser}

theorem parseLoop_of_halts
    (halts : Halts chain rest) : parseLoop chain expr rest = .ok (expr, rest) := by
  rcases rest with ⟨tokens, pos⟩
  cases tokens with
  | nil => exact parseLoop_nil chain expr pos
  | cons token tokens => exact parseLoop_other expr tokens pos (halts token rfl)

variable {token : Token}

theorem halts_of_reads
    (reads : Reads [token] self rest) (other : chain.isOperator token = false) :
    Halts chain self := by
  intro first head
  rw [reads.1] at head
  obtain rfl := Option.some.inj head
  exact other

theorem resume_operand
    (follows : Follows (.chain chain) rest) :
    resume chain.operand expr rest = .ok (expr, rest) := by
  cases chain with
  | or => exact parseLoop_of_halts follows
  | and => rfl

theorem follows_operand (chain : Chain) (rest : Parser) : Follows chain.operand rest := by
  cases chain <;> trivial

theorem follows_of_operator
    (reads : Reads [token] self rest) (operator : chain.isOperator token = true) :
    Follows (.chain chain) self := by
  cases chain with
  | or =>
    obtain rfl : token = .or := of_decide_eq_true operator
    exact halts_of_reads reads rfl
  | and => trivial

variable {tokens : List Token}

theorem head?_of_reads (nonempty : tokens ≠ [])
    (reads : Reads tokens self rest) : self.tokens.head? = tokens.head? := by
  rw [reads.1]
  cases tokens with
  | nil => exact absurd rfl nonempty
  | cons first tokens => rfl

theorem Atom.head?_ne (atom : Atom tokens expr) :
    tokens.head? ≠ some .lParen ∧ tokens.head? ≠ some .not := by
  cases atom with
  | selection name => simp
  | nOf quantified known =>
    constructor
    all_goals
      intro head
      obtain rfl := Option.some.inj head
      simp [Token.toQuantifier] at quantified
  | countAgg field value grouping compares => simp

theorem Derives.head?_ne_not
    (derives : Derives .primary tokens expr) : tokens ≠ [] ∧ tokens.head? ≠ some .not := by
  cases derives with
  | paren inner => simp
  | atom atom => exact ⟨atom.ne_nil, atom.head?_ne.2⟩

/-- The parser reads what the grammar derives and goes on behind it. -/
theorem parseLevel_of_derives {level : Level}
    (derives : Derives level tokens expr)
    (reads : Reads tokens self rest) (follows : Follows level rest) :
    parseLevel level self = resume level expr rest := by
  induction derives generalizing self rest with
  | @operand chain tokens expr _ ih =>
    rw [parseLevel_chain, ih reads (follows_operand chain rest),
      resume_operand follows]
    rfl
  | @chain chain front back token left right _ operator _ leftHypothesis rightHypothesis =>
    obtain ⟨middle, readFront, reads⟩ := Cursor.reads_append_iff.mp reads
    obtain ⟨start, readToken, readBack⟩ := Cursor.reads_cons_iff.mp reads
    obtain ⟨after, pos, rfl, rfl⟩ := Cursor.reads_singleton_iff.mp readToken
    rw [leftHypothesis readFront (follows_of_operator readToken operator), resume,
      parseLoop_operator left after pos operator,
      rightHypothesis readBack (follows_operand chain rest), resume_operand follows]
    rfl
  | @not tokens inner _ ih =>
    obtain ⟨start, readNot, reads⟩ := Cursor.reads_cons_iff.mp reads
    obtain ⟨after, pos, rfl, rfl⟩ := Cursor.reads_singleton_iff.mp readNot
    rw [parseNot_not, ih reads trivial]
    rfl
  | @primary tokens expr derives ih =>
    obtain ⟨nonempty, other⟩ := derives.head?_ne_not
    rw [← head?_of_reads nonempty reads] at other
    rw [parseNot_other other, ih reads trivial]
    rfl
  | @paren tokens expr _ ih =>
    obtain ⟨start, readOpen, reads⟩ := Cursor.reads_cons_iff.mp reads
    obtain ⟨middle, readInner, readClose⟩ := Cursor.reads_append_iff.mp reads
    obtain ⟨after, pos, rfl, rfl⟩ := Cursor.reads_singleton_iff.mp readOpen
    have inner : parseLevel (.chain .or) ⟨after, pos + 1⟩ = .ok (expr, middle) := by
      rw [ih readInner (halts_of_reads readClose rfl)]
      exact parseLoop_of_halts (halts_of_reads readClose rfl)
    have closed : expect middle .rParen = .ok ((), rest) := expect_eq_ok_iff.mpr readClose
    rw [parsePrimary_lParen, inner]
    change (expect middle .rParen).map _ = _
    rw [closed]
    rfl
  | @atom tokens expr atom =>
    have other := atom.head?_ne.1
    rw [← head?_of_reads atom.ne_nil reads] at other
    rw [parsePrimary_other other]
    exact parseAtom_eq_ok_iff.mpr ⟨tokens, atom, reads⟩

/-! ## What is parsed is derived -/

/-- A successful call has read what the grammar derives. -/
def Sound (level : Level) (self : Parser) : Prop :=
  ∀ expr rest, parseLevel level self = .ok (expr, rest) →
    ∃ tokens, Derives level tokens expr ∧ Reads tokens self rest

theorem Derives.ne_nil {level : Level}
    (derives : Derives level tokens expr) : tokens ≠ [] := by
  induction derives with
  | operand _ ih => exact ih
  | chain => simp
  | not => simp
  | primary _ ih => exact ih
  | paren => simp
  | atom atom => exact atom.ne_nil

theorem exists_reads_of_head?
    (head : self.tokens.head? = some token) : ∃ rest, Reads [token] self rest := by
  rcases self with ⟨tokens, pos⟩
  cases tokens with
  | nil => cases head
  | cons first tokens =>
    obtain rfl := Option.some.inj head
    exact ⟨⟨tokens, pos + 1⟩, rfl, rfl⟩

theorem map_eq_ok_iff {ε α β : Type} {outcome : Except ε α} {use : α → β} {result : β} :
    outcome.map use = .ok result ↔ ∃ value, outcome = .ok value ∧ use value = result := by
  cases outcome <;> simp [Except.map]

section Descent

variable {self : Parser}

theorem sound_primary (below : ∀ level rest, rest.tokens.length < self.tokens.length →
    Sound level rest) : Sound .primary self := by
  intro expr rest parsed
  by_cases opened : self.tokens.head? = some .lParen
  · obtain ⟨start, readOpen⟩ := exists_reads_of_head? opened
    have shorter := length_lt_of_reads (List.cons_ne_nil _ _) readOpen
    obtain ⟨after, pos, rfl, rfl⟩ := Cursor.reads_singleton_iff.mp readOpen
    rw [parsePrimary_lParen, bind_eq_ok_iff] at parsed
    obtain ⟨⟨inner, middle⟩, parsedInner, closed⟩ := parsed
    obtain ⟨⟨_, last⟩, readClose, result⟩ := map_eq_ok_iff.mp closed
    cases result
    obtain ⟨tokens, derives, readInner⟩ := below _ _ shorter _ _ parsedInner
    exact ⟨_, .paren derives,
      readOpen.trans (readInner.trans (expect_eq_ok_iff.mp readClose))⟩
  · rw [parsePrimary_other opened, parseAtom_eq_ok_iff] at parsed
    obtain ⟨tokens, atom, reads⟩ := parsed
    exact ⟨tokens, .atom atom, reads⟩

theorem sound_not (below : ∀ level rest, rest.tokens.length < self.tokens.length →
    Sound level rest) : Sound .not self := by
  intro expr rest parsed
  by_cases negated : self.tokens.head? = some .not
  · obtain ⟨start, readNot⟩ := exists_reads_of_head? negated
    have shorter := length_lt_of_reads (List.cons_ne_nil _ _) readNot
    obtain ⟨after, pos, rfl, rfl⟩ := Cursor.reads_singleton_iff.mp readNot
    rw [parseNot_not, map_eq_ok_iff] at parsed
    obtain ⟨⟨inner, last⟩, parsedInner, result⟩ := parsed
    cases result
    obtain ⟨tokens, derives, readInner⟩ := below _ _ shorter _ _ parsedInner
    exact ⟨_, .not derives, readNot.trans readInner⟩
  · rw [parseNot_other negated] at parsed
    obtain ⟨tokens, derives, reads⟩ := sound_primary below expr rest parsed
    exact ⟨tokens, .primary derives, reads⟩

/-- The loop turns what was read before it into a longer chain. -/
theorem sound_loop {chain : Chain} {start rest : Parser} {left expr : ConditionExpr}
    {front : List Token} (below : ∀ rest : Parser, rest.tokens.length < self.tokens.length →
      Sound chain.operand rest)
    (derives : Derives (.chain chain) front left) (readFront : Reads front start self)
    (parsed : parseLoop chain left self = .ok (expr, rest)) :
    ∃ tokens, Derives (.chain chain) tokens expr ∧ Reads tokens start rest := by
  -- The operands use up tokens, so the induction is on how many are left.
  induction length : self.tokens.length using Nat.strong_induction_on
    generalizing self left front with
  | _ count ih =>
    subst length
    by_cases halts : Halts chain self
    · rw [parseLoop_of_halts halts] at parsed
      cases parsed
      exact ⟨front, derives, readFront⟩
    · obtain ⟨token, head, operator⟩ : ∃ token, self.tokens.head? = some token ∧
          chain.isOperator token = true := by
        simpa [Halts] using halts
      obtain ⟨inner, readToken⟩ := exists_reads_of_head? head
      have shorter := length_lt_of_reads (List.cons_ne_nil _ _) readToken
      obtain ⟨after, pos, rfl, rfl⟩ := Cursor.reads_singleton_iff.mp readToken
      rw [parseLoop_operator left after pos operator, bind_eq_ok_iff] at parsed
      obtain ⟨⟨right, middle⟩, parsedRight, parsedLoop⟩ := parsed
      obtain ⟨back, derivesRight, readBack⟩ := below _ shorter _ _ parsedRight
      have used := (length_lt_of_reads derivesRight.ne_nil readBack).trans shorter
      exact ih middle.tokens.length used
        (fun rest less => below rest (less.trans used))
        (.chain derives operator derivesRight)
        (readFront.trans (readToken.trans readBack)) parsedLoop rfl

theorem sound_chain {chain : Chain} (below : ∀ level rest,
    rest.tokens.length < self.tokens.length → Sound level rest)
    (operandSound : Sound chain.operand self) : Sound (.chain chain) self := by
  intro expr rest parsed
  rw [parseLevel_chain, bind_eq_ok_iff] at parsed
  obtain ⟨⟨left, middle⟩, parsedLeft, parsedLoop⟩ := parsed
  obtain ⟨front, derives, readFront⟩ := operandSound _ _ parsedLeft
  have shorter := length_lt_of_reads derives.ne_nil readFront
  exact sound_loop (fun rest less => below _ rest (less.trans shorter)) (.operand derives)
    readFront parsedLoop

end Descent

theorem sound (level : Level) (self : Parser) : Sound level self := by
  -- Parentheses and operators use up a token; between them only the level goes down.
  induction length : self.tokens.length using Nat.strong_induction_on
    generalizing level self with
  | _ count ih =>
    subst length
    have below : ∀ level rest, rest.tokens.length < self.tokens.length → Sound level rest :=
      fun level rest less => ih _ less level rest rfl
    have soundAnd : Sound (.chain .and) self := sound_chain below (sound_not below)
    cases level with
    | primary => exact sound_primary below
    | not => exact sound_not below
    | chain chain =>
      cases chain with
      | and => exact soundAnd
      | or => exact sound_chain below soundAnd

/-- A list of tokens is parsed to its end exactly when the grammar derives it. -/
theorem parseOr_eq_ok_iff {pos : Nat} :
    parseOr ⟨tokens, pos⟩ = .ok (expr, ⟨[], pos + tokens.length⟩) ↔
      Derives (.chain .or) tokens expr := by
  have readAll : Reads tokens ⟨tokens, pos⟩ ⟨[], pos + tokens.length⟩ :=
    ⟨(List.append_nil tokens).symm, rfl⟩
  constructor
  · intro parsed
    obtain ⟨read, derives, reads⟩ := sound _ _ _ _ parsed
    obtain rfl : tokens = read := reads.1.trans (List.append_nil read)
    exact derives
  · intro derives
    have halts : ∀ chain, Halts chain ⟨[], pos + tokens.length⟩ := by
      intro chain token member
      cases member
    rw [parseOr, parseLevel_of_derives derives readAll (halts .and)]
    exact parseLoop_of_halts (halts .or)

/-- The grammar derives at most one expression from a list of tokens. -/
theorem Derives.unique {first second : ConditionExpr}
    (left : Derives (.chain .or) tokens first) (right : Derives (.chain .or) tokens second) :
    first = second := by
  have parsedLeft : parseOr ⟨tokens, 0⟩ = .ok (first, ⟨[], 0 + tokens.length⟩) :=
    parseOr_eq_ok_iff.mpr left
  have parsedRight : parseOr ⟨tokens, 0⟩ = .ok (second, ⟨[], 0 + tokens.length⟩) :=
    parseOr_eq_ok_iff.mpr right
  rw [parsedLeft] at parsedRight
  cases parsedRight
  rfl

end Parser

end HiveGuard.Sigma
