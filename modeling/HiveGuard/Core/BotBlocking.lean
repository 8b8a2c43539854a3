import HiveGuard.Core.BotRegistry

/-!
# Blocking a bot that was discovered

The key of a user agent is a part of it, so the rule that a key becomes knows every user agent
of the key, unless the key is blank: a rule with a blank text is never looked at.
-/

namespace HiveGuard.Core

open Library.Dictionary Library.Text Library.Unicode

/-! ## Keys are parts of user agents -/

theorem infix_of_trim (text : List Char) : trim text <:+: text :=
  (List.rdropWhile_prefix _ _).isInfix.trans (List.dropWhile_suffix _).isInfix

theorem suffix_of_sliceFrom {text rest : List Char} {start : Nat}
    (found : sliceFrom text start = some rest) : rest <:+ text := by
  obtain ⟨⟨front, back⟩, split, rfl⟩ := Option.map_eq_some_iff.mp found
  obtain ⟨rfl, -⟩ := splitAt_eq_some split
  exact List.suffix_append _ _

theorem compatibleName_infix {uaLower name : List Char}
    (found : compatibleName uaLower = some name) : name <:+: uaLower := by
  obtain ⟨⟨before, after⟩, -, later⟩ := Option.bind_eq_some_iff.mp found
  obtain ⟨rest, cut, named⟩ := Option.bind_eq_some_iff.mp later
  rw [Option.ite_none_right_eq_some] at named
  obtain ⟨-, same⟩ := named
  cases same
  exact (infix_of_trim _).trans ((List.takeWhile_prefix _).isInfix.trans
    ((List.dropWhile_suffix _).isInfix.trans (suffix_of_sliceFrom cut).isInfix))

theorem slashName_infix {uaLower name : List Char} (found : slashName uaLower = some name) :
    name <:+: uaLower := by
  rw [slashName, Option.ite_none_right_eq_some] at found
  obtain ⟨-, same⟩ := found
  cases same
  exact (infix_of_trim _).trans (List.takeWhile_prefix _).isInfix

theorem extractBotKey_infix (uaLower : List Char) : extractBotKey uaLower <:+: uaLower := by
  rw [extractBotKey]
  cases compatible : compatibleName uaLower with
  | some name => exact compatibleName_infix compatible
  | none =>
    rw [Option.none_or]
    cases slash : slashName uaLower with
    | some name => exact slashName_infix slash
    | none => exact (List.take_prefix 30 uaLower).isInfix

/-! ## Calls -/

inductive BotCall where
  | classify (userAgent sourceIp : List Char)
  | setPolicy (name : List Char) (policy : BotPolicy)

namespace BotRegistry

variable (casing : Casing)

def perform (registry : BotRegistry) : BotCall → BotRegistry
  | .classify userAgent sourceIp => (registry.classify casing userAgent sourceIp).2
  | .setPolicy name policy => (registry.setPolicy name policy).2

def after (registry : BotRegistry) (calls : List BotCall) : BotRegistry :=
  calls.foldl (perform casing) registry

variable {casing}

variable {registry : BotRegistry} {name : List Char} {policy : BotPolicy} {rules : List BotRule}

/-- What each call preserves holds after all of them. -/
theorem after_induction {holds : BotRegistry → Prop}
    (initially : holds registry) {calls : List BotCall}
    (kept : ∀ call ∈ calls, ∀ registry, holds registry → holds (registry.perform casing call)) :
    holds (registry.after casing calls) := by
  induction calls generalizing registry with
  | nil => exact initially
  | cons call calls ih =>
    rw [List.forall_mem_cons] at kept
    exact ih (kept.1 registry initially) kept.2

theorem rules_classify (registry : BotRegistry) (userAgent sourceIp : List Char) :
    (registry.classify casing userAgent sourceIp).2.rules = registry.rules := by
  rw [classify]
  split
  · rfl
  · rw [trackUnknown]
    split
    · split
      · rfl
      · rfl
    · rfl

theorem fst_classify (registry : BotRegistry) (userAgent sourceIp : List Char) :
    (registry.classify casing userAgent sourceIp).1 =
      (registry.rules.find? (fires casing (casing.toLowercase
        (takeBytes maxTrackedUaBytes userAgent)))).map BotRule.policy := by
  rw [classify]
  split
  · rename_i rule found
    rw [found]
    rfl
  · rename_i absent
    rw [absent]
    rfl

/-- The rules after a policy is set: one of them changes, or there is one more. -/
theorem rules_setPolicy (registry : BotRegistry) (name : List Char) (policy : BotPolicy) :
    (registry.setPolicy name policy).2.rules = registry.rules ∨
    (registry.setPolicy name policy).2.rules =
      setRulePolicy name (effectivePolicy policy) registry.rules ∨
    ∃ stat, registry.unknownBots.lookup name = some stat ∧
      (∀ rule ∈ registry.rules, rule.name ≠ name) ∧ (registry.setPolicy name policy).2.rules =
        registry.rules ++ [⟨name, name, stat.org, effectivePolicy policy⟩] := by
  rw [setPolicy]
  split
  · exact .inr (.inl rfl)
  · rename_i absent
    split
    · rename_i stat found
      refine .inr (.inr ⟨stat, found, ?_, rfl⟩)
      simpa using absent
    · exact .inl rfl

/-! ## The rules after some calls -/

/-- No rule allows a bot, and a rule that is not configured looks for its name. -/
structure Sound (names : List (List Char)) (registry : BotRegistry) : Prop where
  policies : ∀ rule ∈ registry.rules, rule.policy ≠ .allow
  texts : ∀ rule ∈ registry.rules, rule.name ∈ names ∨ rule.uaContains = rule.name
  few : registry.unknownBots.keys.length ≤ maxUnknownBots

theorem effectivePolicy_ne (policy : BotPolicy) : effectivePolicy policy ≠ .allow := by
  cases policy <;> decide

theorem mem_setRulePolicy {rule : BotRule} (member : rule ∈ setRulePolicy name policy rules) :
    rule ∈ rules ∨ ∃ other ∈ rules, rule = { other with policy } := by
  induction rules with
  | nil => cases member
  | cons first rules ih =>
    rw [setRulePolicy] at member
    split at member
    · rcases List.mem_cons.mp member with rfl | later
      · exact .inr ⟨first, List.mem_cons_self, rfl⟩
      · exact .inl (List.mem_cons_of_mem _ later)
    · rcases List.mem_cons.mp member with rfl | later
      · exact .inl List.mem_cons_self
      · rcases ih later with old | ⟨other, isOther, same⟩
        · exact .inl (List.mem_cons_of_mem _ old)
        · exact .inr ⟨other, List.mem_cons_of_mem _ isOther, same⟩

theorem sound_new (rules : List BotRule) : Sound (rules.map BotRule.name) (new rules) := by
  refine ⟨?_, ?_, Nat.zero_le _⟩
  · intro rule member
    obtain ⟨other, -, rfl⟩ := List.mem_map.mp member
    exact effectivePolicy_ne other.policy
  · intro rule member
    obtain ⟨other, isOther, rfl⟩ := List.mem_map.mp member
    exact .inl (List.mem_map.mpr ⟨other, isOther, rfl⟩)

theorem length_count_le {stats : Dict (List Char) BotStats} {limit : Nat}
    {org userAgent sourceIp : List Char}
    (few : stats.keys.length ≤ limit) (room : stats.keys.length < limit ∨ name ∈ stats) :
    (count stats name org policy userAgent sourceIp).keys.length ≤ limit := by
  rw [count]
  by_cases present : name ∈ stats
  · rw [length_keys_insert_of_mem present]
    exact few
  · rw [length_keys_insert_of_notMem present]
    exact room.resolve_right present

theorem few_classify
    (few : registry.unknownBots.keys.length ≤ maxUnknownBots) (userAgent sourceIp : List Char) :
    (registry.classify casing userAgent sourceIp).2.unknownBots.keys.length ≤ maxUnknownBots := by
  rw [classify]
  split
  · exact few
  · rw [trackUnknown]
    split
    · split
      · exact few
      · rename_i room
        refine length_count_le few ?_
        rw [not_and_or, Nat.not_le, not_not] at room
        exact room
    · exact few

theorem keys_setStatPolicy (stats : Dict (List Char) BotStats) (name : List Char)
    (policy : BotPolicy) :
    (setStatPolicy stats name policy).keys.length = stats.keys.length := by
  rw [setStatPolicy]
  split
  · rename_i stat found
    exact length_keys_insert_of_mem (AList.mem_keys.mpr (mem_keys_iff.mpr ⟨stat, found⟩)) _
  · rfl

theorem few_setPolicy (few : registry.unknownBots.keys.length ≤ maxUnknownBots) (name : List Char)
    (policy : BotPolicy) :
    (registry.setPolicy name policy).2.unknownBots.keys.length ≤ maxUnknownBots := by
  rw [setPolicy]
  split
  · exact few
  · split
    · exact (keys_setStatPolicy _ _ _).trans_le few
    · exact few

theorem sound_perform {names : List (List Char)} (sound : Sound names registry) (call : BotCall) :
    Sound names (registry.perform casing call) := by
  cases call with
  | classify userAgent sourceIp =>
    have same := @rules_classify casing registry userAgent sourceIp
    exact ⟨same ▸ sound.policies, same ▸ sound.texts, few_classify sound.few _ _⟩
  | setPolicy name policy =>
    have few := few_setPolicy sound.few name policy
    change Sound names (registry.setPolicy name policy).2
    rcases registry.rules_setPolicy name policy with same | changed | ⟨stat, -, -, pushed⟩
    · exact ⟨same ▸ sound.policies, same ▸ sound.texts, few⟩
    · refine ⟨?_, ?_, few⟩
      · intro rule member
        rcases mem_setRulePolicy (changed ▸ member) with old | ⟨other, -, rfl⟩
        · exact sound.policies rule old
        · exact effectivePolicy_ne policy
      · intro rule member
        rcases mem_setRulePolicy (changed ▸ member) with old | ⟨other, isOther, rfl⟩
        · exact sound.texts rule old
        · exact sound.texts other isOther
    · refine ⟨?_, ?_, few⟩
      · rw [pushed, List.forall_mem_append, List.forall_mem_singleton]
        exact ⟨sound.policies, effectivePolicy_ne policy⟩
      · rw [pushed, List.forall_mem_append, List.forall_mem_singleton]
        exact ⟨sound.texts, .inr rfl⟩

theorem sound_after (rules : List BotRule) (calls : List BotCall) :
    Sound (rules.map BotRule.name) ((new rules).after casing calls) :=
  after_induction (sound_new rules) fun call _ _ sound => sound_perform sound call

/-! ## The rule of a key -/

/-- The policy of the first rule of a name. -/
def policyOf (name : List Char) (rules : List BotRule) : Option BotPolicy :=
  (rules.find? (·.name = name)).map BotRule.policy

theorem policyOf_setRulePolicy (present : ∃ rule ∈ rules, rule.name = name) :
    policyOf name (setRulePolicy name policy rules) = some policy := by
  induction rules with
  | nil =>
    obtain ⟨rule, member, -⟩ := present
    cases member
  | cons first rules ih =>
    rw [setRulePolicy, policyOf]
    by_cases here : first.name = name
    · rw [if_pos here, List.find?_cons_of_pos (by simpa using here)]
      rfl
    · rw [if_neg here, List.find?_cons_of_neg (by simpa using here)]
      refine ih ?_
      obtain ⟨rule, member, same⟩ := present
      rcases List.mem_cons.mp member with rfl | later
      · exact absurd same here
      · exact ⟨rule, later, same⟩

theorem policyOf_setRulePolicy_of_ne {other : List Char} (different : other ≠ name)
    (policy : BotPolicy) (rules : List BotRule) :
    policyOf name (setRulePolicy other policy rules) = policyOf name rules := by
  induction rules with
  | nil => rfl
  | cons first rules ih =>
    rw [setRulePolicy]
    by_cases here : first.name = other
    · have notName : first.name ≠ name := here.trans_ne different
      rw [if_pos here, policyOf, policyOf, List.find?_cons_of_neg (by simpa using notName),
        List.find?_cons_of_neg (by simpa using notName)]
    · rw [if_neg here, policyOf, policyOf, List.find?_cons, List.find?_cons]
      split
      · rfl
      · exact ih

theorem policyOf_append_of_some (found : policyOf name rules = some policy) (more : List BotRule) :
    policyOf name (rules ++ more) = some policy := by
  obtain ⟨rule, isFirst, rfl⟩ := Option.map_eq_some_iff.mp found
  rw [policyOf, List.find?_append, isFirst]
  rfl

theorem blocks_setPolicy (tracked : name ∈ registry.unknownBots) :
    (registry.setPolicy name .block).1 = true ∧
      policyOf name (registry.setPolicy name .block).2.rules = some .block := by
  rw [setPolicy]
  split
  · rename_i present
    refine ⟨rfl, policyOf_setRulePolicy ?_⟩
    simpa using present
  · rename_i absent
    obtain ⟨stat, found⟩ := mem_keys_iff.mp (AList.mem_keys.mp tracked)
    rw [found]
    refine ⟨rfl, ?_⟩
    have nowhere : registry.rules.find? (·.name = name) = none := by
      rw [List.find?_eq_none]
      simpa using absent
    change policyOf name (registry.rules ++ [_]) = _
    rw [policyOf, List.find?_append, nowhere, Option.none_or, List.find?_cons_of_pos (by simp)]
    rfl

/-- The rule of a name keeps its policy until it is set for this name. -/
theorem policyOf_perform (found : policyOf name registry.rules = some policy) {call : BotCall}
    (other : ∀ policy, call ≠ .setPolicy name policy) :
    policyOf name (registry.perform casing call).rules = some policy := by
  cases call with
  | classify userAgent sourceIp =>
    change policyOf name (registry.classify casing userAgent sourceIp).2.rules = _
    rw [rules_classify, found]
  | setPolicy changed newPolicy =>
    have different : changed ≠ name := by
      rintro rfl
      exact other newPolicy rfl
    change policyOf name (registry.setPolicy changed newPolicy).2.rules = _
    rcases registry.rules_setPolicy changed newPolicy with same | set | ⟨stat, -, -, pushed⟩
    · rw [same, found]
    · rw [set, policyOf_setRulePolicy_of_ne different, found]
    · rw [pushed]
      exact policyOf_append_of_some found _

/-- The rules before the first of a name, and those behind it. -/
def rulesBefore (name : List Char) (rules : List BotRule) : List BotRule :=
  rules.takeWhile fun rule => rule.name ≠ name

def rulesBehind (name : List Char) (rules : List BotRule) : List BotRule :=
  (rules.dropWhile fun rule => rule.name ≠ name).tail

theorem split_at_policyOf (found : policyOf name rules = some policy) : ∃ rule, rule.name = name ∧
      rule.policy = policy ∧ rules = rulesBefore name rules ++ rule :: rulesBehind name rules := by
  induction rules with
  | nil => cases found
  | cons first rules ih =>
    by_cases here : first.name = name
    · have before : rulesBefore name (first :: rules) = [] :=
        List.takeWhile_cons_of_neg (by simpa using here)
      have behind : rulesBehind name (first :: rules) = rules := by
        rw [rulesBehind, List.dropWhile_cons_of_neg (by simpa using here), List.tail_cons]
      rw [policyOf, List.find?_cons_of_pos (by simpa using here)] at found
      rw [before, behind]
      exact ⟨first, here, Option.some.inj found, rfl⟩
    · have before : rulesBefore name (first :: rules) = first :: rulesBefore name rules :=
        List.takeWhile_cons_of_pos (by simpa using here)
      have behind : rulesBehind name (first :: rules) = rulesBehind name rules := by
        rw [rulesBehind, List.dropWhile_cons_of_pos (by simpa using here)]
        rfl
      rw [policyOf, List.find?_cons_of_neg (by simpa using here)] at found
      obtain ⟨rule, isRule, hasPolicy, split⟩ := ih found
      rw [before, behind]
      exact ⟨rule, isRule, hasPolicy, congrArg (first :: ·) split⟩

/-- Classification follows the rule of a key if the key is not blank, and otherwise the rules
behind it. -/
theorem classify_of_key {names : List (List Char)} (sound : Sound names registry) {key : List Char}
    (found : policyOf key registry.rules = some policy) (notConfigured : key ∉ names)
    {userAgent : List Char} (short : byteLength userAgent ≤ maxTrackedUaBytes)
    (isKey : extractBotKey (casing.toLowercase userAgent) = key)
    (notBefore : ∀ rule ∈ rulesBefore key registry.rules,
      fires casing (casing.toLowercase userAgent) rule = false) (sourceIp : List Char) :
    (registry.classify casing userAgent sourceIp).1 = if trim key ≠ [] then some policy
      else ((rulesBehind key registry.rules).find?
        (fires casing (casing.toLowercase userAgent))).map BotRule.policy := by
  obtain ⟨rule, isRule, hasPolicy, split⟩ := split_at_policyOf found
  have member : rule ∈ registry.rules := split ▸ List.mem_append_right _ List.mem_cons_self
  have text : rule.uaContains = key := by
    rcases sound.texts rule member with configured | same
    · exact absurd (isRule ▸ configured) notConfigured
    · exact same.trans isRule
  have occurs : key <:+: casing.toLowercase userAgent := isKey ▸ extractBotKey_infix _
  have fires_eq : fires casing (casing.toLowercase userAgent) rule = !(trim key).isEmpty := by
    rw [fires, text, casing.toLowercase_part userAgent key occurs, decide_eq_true occurs,
      Bool.and_true]
  have nothing : (rulesBefore key registry.rules).find?
      (fires casing (casing.toLowercase userAgent)) = none := by
    rw [List.find?_eq_none]
    intro other isBefore
    rw [notBefore other isBefore]
    exact Bool.false_ne_true
  rw [fst_classify, takeBytes_of_le short]
  nth_rewrite 1 [split]
  rw [List.find?_append, nothing, Option.none_or, List.find?_cons, fires_eq]
  by_cases blank : trim key = []
  · rw [blank, if_neg (not_not.mpr rfl)]
    rfl
  · have notEmpty : (trim key).isEmpty = false := by simpa using blank
    rw [notEmpty, if_pos blank]
    exact congrArg some hasPolicy

/-- A bot is never allowed, at most 1024 unknown bots are tracked, and blocking a key that was
discovered takes effect exactly if the key is not blank or the first rule behind it that knows
the user agent blocks it anyway. -/
theorem block_takes_effect_iff (casing : Casing) (rules : List BotRule) (calls : List BotCall) :
    (∀ userAgent sourceIp,
      (((new rules).after casing calls).classify casing userAgent sourceIp).1 ≠ some .allow) ∧
    ((new rules).after casing calls).unknownBots.keys.length ≤ 1024 ∧
    ∀ (key : List Char) (later : List BotCall) (userAgent sourceIp : List Char),
      key ∈ ((new rules).after casing calls).unknownBots →
      (∀ rule ∈ rules, rule.name ≠ key) →
      (((new rules).after casing calls).setPolicy key .block).1 = true ∧
      ((∀ call ∈ later, ∀ policy, call ≠ .setPolicy key policy) →
        let registry := (new rules).after casing (calls ++ .setPolicy key .block :: later)
        byteLength userAgent ≤ 1024 →
        extractBotKey (casing.toLowercase userAgent) = key →
        isBotLikeUa (casing.toLowercase userAgent) = true →
        (∀ rule ∈ rulesBefore key registry.rules,
          fires casing (casing.toLowercase userAgent) rule = false) →
        ((registry.classify casing userAgent sourceIp).1 = some .block ↔
          trim key ≠ [] ∨ ((rulesBehind key registry.rules).find?
            (fires casing (casing.toLowercase userAgent))).map BotRule.policy = some .block)) := by
  have sound := @sound_after casing rules calls
  refine ⟨?_, sound.few, ?_⟩
  · intro userAgent sourceIp allowed
    rw [fst_classify, Option.map_eq_some_iff] at allowed
    obtain ⟨rule, found, isAllow⟩ := allowed
    exact sound.policies rule (List.mem_of_find?_eq_some found) isAllow
  · intro key later userAgent sourceIp tracked notConfigured
    obtain ⟨isSet, blocks⟩ := blocks_setPolicy tracked
    refine ⟨isSet, ?_⟩
    intro others registry short isKey _ notBefore
    have registry_eq : registry =
        (((new rules).after casing calls).setPolicy key .block).2.after casing later := by
      change List.foldl _ _ _ = _
      rw [List.foldl_append, List.foldl_cons]
      rfl
    have stillBlocks : policyOf key registry.rules = some .block := by
      rw [registry_eq]
      exact @after_induction casing _ (fun registry => policyOf key registry.rules = some .block)
        blocks later fun call isCall _ found => policyOf_perform found (others call isCall)
    have notName : key ∉ rules.map BotRule.name := by
      intro isName
      obtain ⟨rule, isRule, same⟩ := List.mem_map.mp isName
      exact notConfigured rule isRule same
    rw [classify_of_key (sound_after rules _) stillBlocks notName short isKey notBefore]
    split
    · rename_i notBlank
      exact iff_of_true rfl (.inl notBlank)
    · rename_i blank
      rw [or_iff_right blank]

/-- A bot that gives its name is blocked also under another version. -/
theorem block_takes_effect_at_foobot :
    let registry := (new []).after .ascii [.classify "FooBot/1.0".toList [],
      .setPolicy "foobot".toList .block]
    (registry.classify .ascii "FooBot/2.0 (+http://foo)".toList []).1 = some .block := by
  obtain ⟨-, -, blocking⟩ :=
    block_takes_effect_iff .ascii [] [.classify "FooBot/1.0".toList []]
  obtain ⟨-, effect⟩ := blocking "foobot".toList [] "FooBot/2.0 (+http://foo)".toList []
    (by decide +kernel) (by decide)
  have blocks_iff := effect nofun (by decide +kernel) (by decide +kernel) (by decide +kernel)
    (by decide +kernel)
  exact blocks_iff.mpr (.inl (by decide +kernel))

/-- A bot that gives no name is tracked under the empty key, and blocking it does nothing. -/
theorem block_of_empty_key :
    let registry := (new []).after .ascii [.classify "compatible; /bot".toList [],
      .setPolicy [] .block]
    ([] ∈ ((new []).after .ascii [.classify "compatible; /bot".toList []]).unknownBots) ∧
      extractBotKey (Casing.ascii.toLowercase "compatible; /bot".toList) = [] ∧
      isBotLikeUa (Casing.ascii.toLowercase "compatible; /bot".toList) = true ∧
      (registry.classify .ascii "compatible; /bot".toList []).1 = none := by
  decide +kernel

end BotRegistry

end HiveGuard.Core
