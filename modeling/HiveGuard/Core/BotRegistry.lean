import HiveGuard.Library.Dictionary
import HiveGuard.Library.Unicode

/-!
# The registry of bots

A user agent is classified by the first rule whose text it contains.  One that no rule knows
but that looks like a bot is tracked under a key that is cut out of it.  When an operator sets a
policy for such a key, it becomes a rule that looks for the key.
-/

namespace HiveGuard.Core

open Library.Dictionary Library.Text Library.Unicode

inductive BotPolicy where
  | allow
  | block
  | monitor
  deriving DecidableEq

structure BotRule where
  name : List Char
  uaContains : List Char
  org : List Char
  policy : BotPolicy

structure BotStats where
  name : List Char
  org : List Char
  policy : BotPolicy
  requestCount : Nat
  lastSeenIp : List Char
  lastSeenUa : List Char

structure BotRegistry where
  rules : List BotRule
  stats : Dict (List Char) BotStats
  unknownBots : Dict (List Char) BotStats

/-- A user agent proves nothing, so a bot is never allowed. -/
def effectivePolicy : BotPolicy → BotPolicy
  | .allow => .monitor
  | other => other

/-- Statistics before the first request. -/
def BotStats.start (name org : List Char) (policy : BotPolicy) : BotStats :=
  ⟨name, org, policy, 0, [], []⟩

/-- Statistics after one more request. -/
def BotStats.seen (stats : BotStats) (userAgent sourceIp : List Char) : BotStats :=
  { stats with
    requestCount := stats.requestCount + 1
    lastSeenIp := sourceIp
    lastSeenUa := userAgent }

def botIndicators : List (List Char) :=
  ["bot", "crawler", "spider", "scraper", "fetcher", "archiver", "monitor", "checker", "slurp",
    "scan", "http://", "https://", "+http", "compatible;"].map String.toList

def isBotLikeUa (uaLower : List Char) : Bool :=
  botIndicators.any fun indicator => decide (indicator <:+: uaLower)

/-- The name behind `compatible;`, if something ends it. -/
def compatibleName (uaLower : List Char) : Option (List Char) :=
  (breakAt "compatible;".toList uaLower).bind fun (before, _) =>
    (sliceFrom uaLower (byteLength before + 12)).bind fun rest =>
      let trimmed := rest.dropWhile isWhitespace
      let ends := fun char : Char => char == '/' || char == ';' || char == ')'
      if trimmed.any ends then some (trim (trimmed.takeWhile (!ends ·))) else none

/-- The name before the first slash, if it comes early. -/
def slashName (uaLower : List Char) : Option (List Char) :=
  let front := uaLower.takeWhile (· != '/')
  if uaLower.contains '/' && decide (byteLength front < 30) then some (trim front) else none

/-- The key under which a user agent is tracked. -/
def extractBotKey (uaLower : List Char) : List Char :=
  ((compatibleName uaLower).or (slashName uaLower)).getD (uaLower.take 30)

namespace BotRegistry

def maxUnknownBots : Nat :=
  1024

def maxTrackedUaBytes : Nat :=
  1024

def new (rules : List BotRule) : BotRegistry :=
  let rules := rules.map fun rule => { rule with policy := effectivePolicy rule.policy }
  { rules
    stats := rules.foldl
      (fun stats rule => stats.insert rule.name (.start rule.name rule.org rule.policy)) ∅
    unknownBots := ∅ }

variable (casing : Casing)

/-- The rule knows the user agent. -/
def fires (uaLower : List Char) (rule : BotRule) : Bool :=
  !(trim rule.uaContains).isEmpty && decide (casing.toLowercase rule.uaContains <:+: uaLower)

def count (stats : Dict (List Char) BotStats) (name org : List Char) (policy : BotPolicy)
    (userAgent sourceIp : List Char) : Dict (List Char) BotStats :=
  stats.insert name (((stats.lookup name).getD (.start name org policy)).seen userAgent sourceIp)

def trackUnknown (registry : BotRegistry) (userAgent uaLower sourceIp : List Char) :
    BotRegistry :=
  let key := extractBotKey uaLower
  if maxUnknownBots ≤ registry.unknownBots.keys.length ∧ key ∉ registry.unknownBots then
    registry
  else
    { registry with
      unknownBots := count registry.unknownBots key "Unknown".toList .monitor userAgent sourceIp }

def classify (registry : BotRegistry) (userAgent sourceIp : List Char) :
    Option BotPolicy × BotRegistry :=
  let userAgent := takeBytes maxTrackedUaBytes userAgent
  let uaLower := casing.toLowercase userAgent
  match registry.rules.find? (fires casing uaLower) with
  | some rule =>
    (some rule.policy,
      { registry with
        stats := count registry.stats rule.name rule.org rule.policy userAgent sourceIp })
  | none =>
    (none,
      if isBotLikeUa uaLower then registry.trackUnknown userAgent uaLower sourceIp
      else registry)

def setRulePolicy (name : List Char) (policy : BotPolicy) : List BotRule → List BotRule
  | [] => []
  | rule :: rules =>
    if rule.name = name then { rule with policy } :: rules
    else rule :: setRulePolicy name policy rules

def setStatPolicy (stats : Dict (List Char) BotStats) (name : List Char) (policy : BotPolicy) :
    Dict (List Char) BotStats :=
  match stats.lookup name with
  | some stat => stats.insert name { stat with policy }
  | none => stats

def setPolicy (registry : BotRegistry) (name : List Char) (policy : BotPolicy) :
    Bool × BotRegistry :=
  let policy := effectivePolicy policy
  if registry.rules.any (·.name = name) then
    (true,
      { registry with
        rules := setRulePolicy name policy registry.rules
        stats := setStatPolicy registry.stats name policy })
  else
    match registry.unknownBots.lookup name with
    | some stat =>
      (true,
        { registry with
          rules := registry.rules ++ [⟨name, name, stat.org, policy⟩]
          unknownBots := setStatPolicy registry.unknownBots name policy })
    | none => (false, registry)

end BotRegistry

end HiveGuard.Core
