import HiveGuard.Sigma.Grammar

/-!
# What a condition means

The meaning of a condition is a proposition about the selections that matched.  Evaluation
decides it, and without a `not` it can only change from false to true when more selections
match.
-/

namespace HiveGuard.Sigma

open HiveGuard.Library.Unicode (Tables)

section Meaning

variable (matched allNames : Finset (List Char))

/-- The names a pattern stands for. -/
def SelectionPattern.Covers : SelectionPattern → List Char → Prop
  | .named expected, name => name = expected
  | .wildcard start, name => ∃ rest, name = start ++ rest
  | .them, _ => True

/-- The meaning of an expression.  `all of` asks for a selection it stands for. -/
def ConditionExpr.Holds : ConditionExpr → Prop
  | .selection name => name ∈ matched
  | .not inner => ¬ inner.Holds
  | .and left right => left.Holds ∧ right.Holds
  | .or left right => left.Holds ∨ right.Holds
  | .nOf (.n required) pattern =>
    ∃ chosen ⊆ allNames, chosen.card = required.val ∧
      ∀ name ∈ chosen, pattern.Covers name ∧ name ∈ matched
  | .nOf .all pattern =>
    (∃ name ∈ allNames, pattern.Covers name) ∧
      ∀ name ∈ allNames, pattern.Covers name → name ∈ matched
  | .countAgg _ _ _ _ => True

/-- The meaning of a text is that of the expression the grammar derives from its tokens. -/
def TextHolds (tokens : List Token) : Prop :=
  ∃ expr, Parser.Derives (.chain .or) tokens expr ∧ expr.Holds matched allNames

end Meaning

/-- An expression without `not`. -/
def ConditionExpr.negationFree : ConditionExpr → Bool
  | .not _ => false
  | .and left right => left.negationFree && right.negationFree
  | .or left right => left.negationFree && right.negationFree
  | .selection _ => true
  | .nOf _ _ => true
  | .countAgg _ _ _ _ => true

theorem selectionPatternMatches_iff {pattern : SelectionPattern} {name : List Char} :
    selectionPatternMatches pattern name = true ↔ pattern.Covers name := by
  cases pattern with
  | named expected => simp [selectionPatternMatches, SelectionPattern.Covers, eq_comm]
  | wildcard start =>
    rw [selectionPatternMatches, List.isPrefixOf_iff_prefix]
    exact exists_congr fun rest => eq_comm
  | them => simp [selectionPatternMatches, SelectionPattern.Covers]

section Counting

variable {matched allNames : Finset (List Char)}

/-- At least so many selections match when so many can be chosen. -/
theorem evaluate_nOf_iff {required : Fin (2 ^ 64)} {pattern : SelectionPattern} :
    evaluateCondition matched allNames (.nOf (.n required) pattern) = true ↔
      (ConditionExpr.nOf (.n required) pattern).Holds matched allNames := by
  simp only [evaluateCondition, decide_eq_true_eq, ConditionExpr.Holds]
  constructor
  · intro enough
    obtain ⟨chosen, within, count⟩ := Finset.exists_subset_card_eq enough
    refine ⟨chosen, within.trans (Finset.filter_subset _ _), count, ?_⟩
    intro name member
    obtain ⟨covered, found⟩ := (Finset.mem_filter.mp (within member)).2
    exact ⟨selectionPatternMatches_iff.mp covered, found⟩
  · rintro ⟨chosen, within, count, covered⟩
    rw [← count]
    apply Finset.card_le_card
    intro name member
    obtain ⟨covers, found⟩ := covered name member
    exact Finset.mem_filter.mpr
      ⟨within member, selectionPatternMatches_iff.mpr covers, found⟩

theorem evaluate_allOf_iff {pattern : SelectionPattern} :
    evaluateCondition matched allNames (.nOf .all pattern) = true ↔
      (ConditionExpr.nOf .all pattern).Holds matched allNames := by
  simp only [evaluateCondition, Bool.and_eq_true, decide_eq_true_eq, ConditionExpr.Holds]
  rw [and_comm, Finset.card_pos, Finset.Nonempty]
  simp only [Finset.mem_filter, selectionPatternMatches_iff, ← Finset.filter_filter]
  refine and_congr Iff.rfl ?_
  rw [Finset.card_filter_eq_iff]
  simp only [Finset.mem_filter, selectionPatternMatches_iff, and_imp]

end Counting

variable {matched allNames : Finset (List Char)}

/-- Evaluation decides the meaning. -/
theorem evaluateCondition_iff {expr : ConditionExpr} :
    evaluateCondition matched allNames expr = true ↔ expr.Holds matched allNames := by
  induction expr with
  | selection name => exact decide_eq_true_iff
  | not inner ih =>
    rw [ConditionExpr.Holds, ← ih, evaluateCondition, Bool.not_eq_true',
      Bool.not_eq_true]
  | and left right leftHypothesis rightHypothesis =>
    rw [ConditionExpr.Holds, ← leftHypothesis, ← rightHypothesis, evaluateCondition,
      Bool.and_eq_true]
  | or left right leftHypothesis rightHypothesis =>
    rw [ConditionExpr.Holds, ← leftHypothesis, ← rightHypothesis, evaluateCondition,
      Bool.or_eq_true]
  | nOf n pattern =>
    cases n with
    | n required => exact evaluate_nOf_iff
    | all => exact evaluate_allOf_iff
  | countAgg field groupBy op value => exact iff_of_true rfl trivial

/-- One selection is enough for `1 of`. -/
theorem holds_one_iff {required : Fin (2 ^ 64)}
    {pattern : SelectionPattern} (one : required.val = 1) :
    (ConditionExpr.nOf (.n required) pattern).Holds matched allNames ↔
      ∃ name ∈ allNames, pattern.Covers name ∧ name ∈ matched := by
  rw [ConditionExpr.Holds, one]
  constructor
  · rintro ⟨chosen, within, count, covered⟩
    obtain ⟨name, rfl⟩ := Finset.card_eq_one.mp count
    have member := Finset.mem_singleton_self name
    exact ⟨name, within member, covered name member⟩
  · rintro ⟨name, member, covered⟩
    refine ⟨{name}, Finset.singleton_subset_iff.mpr member, Finset.card_singleton name, ?_⟩
    intro other found
    rw [Finset.mem_singleton.mp found]
    exact covered

/-- Without `not`, more matching selections keep a condition true. -/
theorem ConditionExpr.Holds.mono {more : Finset (List Char)}
    {expr : ConditionExpr} (free : expr.negationFree = true) (grows : matched ⊆ more)
    (holds : expr.Holds matched allNames) : expr.Holds more allNames := by
  induction expr with
  | selection name => exact grows holds
  | not inner => cases free
  | and left right leftHypothesis rightHypothesis =>
    obtain ⟨leftFree, rightFree⟩ := Bool.and_eq_true_iff.mp free
    exact ⟨leftHypothesis leftFree holds.1, rightHypothesis rightFree holds.2⟩
  | or left right leftHypothesis rightHypothesis =>
    obtain ⟨leftFree, rightFree⟩ := Bool.and_eq_true_iff.mp free
    exact holds.imp (leftHypothesis leftFree) (rightHypothesis rightFree)
  | nOf n pattern =>
    cases n with
    | n required =>
      obtain ⟨chosen, within, count, covered⟩ := holds
      exact ⟨chosen, within, count,
        fun name member => (covered name member).imp_right fun found => grows found⟩
    | all =>
      obtain ⟨nonempty, covered⟩ := holds
      exact ⟨nonempty, fun name member covers => grows (covered name member covers)⟩
  | countAgg => trivial

/-- A condition that is parsed to its end is evaluated as its text says; `1 of` is a
disjunction, and a condition without `not` stays true when more selections match. -/
theorem evaluates_text {tables : Tables} {input : List Char} {expr : ConditionExpr}
    {rest : Parser} (parsed : Parser.parseOr ⟨tokenize tables input, 0⟩ = .ok (expr, rest))
    (consumed : rest.tokens = []) (matched allNames : Finset (List Char)) :
    (evaluateCondition matched allNames expr = true ↔
        TextHolds matched allNames (tokenize tables input)) ∧
      (∀ required pattern, Fin.val required = 1 →
        ((ConditionExpr.nOf (.n required) pattern).Holds matched allNames ↔
          ∃ name ∈ allNames, pattern.Covers name ∧ name ∈ matched)) ∧
      (expr.negationFree = true → ∀ more, matched ⊆ more →
        evaluateCondition matched allNames expr = true →
        evaluateCondition more allNames expr = true) := by
  obtain ⟨tokens, derives, reads⟩ := Parser.sound _ _ _ _ parsed
  obtain rfl : tokenize tables input = tokens := by
    have all := reads.1
    rw [consumed, List.append_nil] at all
    exact all
  refine ⟨?_, fun required pattern one => holds_one_iff one, ?_⟩
  · rw [evaluateCondition_iff]
    constructor
    · exact fun holds => ⟨expr, derives, holds⟩
    · rintro ⟨other, derivesOther, holds⟩
      rw [derives.unique derivesOther]
      exact holds
  · intro free more grows
    rw [evaluateCondition_iff, evaluateCondition_iff]
    exact ConditionExpr.Holds.mono free grows

/-- The expression of `all of sel* or all of them`. -/
def sampleExpr : ConditionExpr :=
  .or (.nOf .all (.wildcard "sel".toList)) (.nOf .all .them)

theorem evaluates_text_at_sample :
    (Parser.parseOr ⟨tokenize .ascii "all of sel* or all of them".toList, 0⟩ =
        .ok (sampleExpr, ⟨[], 7⟩)) ∧
      (evaluateCondition {"sel_a".toList} {"sel_a".toList, "b".toList} sampleExpr = true ↔
        TextHolds {"sel_a".toList} {"sel_a".toList, "b".toList}
          (tokenize .ascii "all of sel* or all of them".toList)) := by
  have parsed : Parser.parseOr ⟨tokenize .ascii "all of sel* or all of them".toList, 0⟩ =
      .ok (sampleExpr, ⟨[], 7⟩) := by
    decide +kernel
  exact ⟨parsed, (evaluates_text parsed rfl {"sel_a".toList}
    {"sel_a".toList, "b".toList}).1⟩

/-- Where no name starts with `sel`, the conjunction over such names holds and `all of sel*`
is still false. -/
theorem allOf_false_without_names :
    Parser.parseOr ⟨tokenize .ascii "all of sel*".toList, 0⟩ =
        .ok (.nOf .all (.wildcard "sel".toList), ⟨[], 3⟩) ∧
      (∀ name ∈ ({"other".toList} : Finset (List Char)),
        selectionPatternMatches (.wildcard "sel".toList) name = true →
          name ∈ (∅ : Finset (List Char))) ∧
      evaluateCondition ∅ {"other".toList} (.nOf .all (.wildcard "sel".toList)) = false := by
  decide +kernel

end HiveGuard.Sigma
