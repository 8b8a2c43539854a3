import HiveGuard.Core.Net
import HiveGuard.Library.Words

/-!
# Log lines of netfilter

The kernel logs a packet as a line of words, most of them a key, an equals sign and a value.
The parser looks for a key with its equals sign anywhere in the line, so it may find the end
of a longer key, or a place inside a value.  This module says what the lookup finds in terms
of the words of the line, and that the fields are those of the right words in every line
where the first word that contains a key is one whose key it is.
-/

namespace HiveGuard.Sources

open HiveGuard.Core Library.Text

structure NetdevEvent where
  srcIp : IpAddr
  dstIp : Option IpAddr
  srcPort : Option Nat
  dstPort : Option Nat
  proto : Option (List Char)
  action : List Char
  deviceType : List Char
  inIface : Option (List Char)
  raw : List Char
  deriving DecidableEq

/-- The value behind the first occurrence of a key in the line. -/
def kv (line key : List Char) : Option (List Char) := do
  let rest ← behind (key ++ ['=']) line
  let value := firstWord rest
  if value = [] then none else some value

def containsAny (line : List Char) (texts : List String) : Bool :=
  texts.any fun text => (breakAt text.toList line).isSome

section Parse

-- The standard library's parser of addresses.
variable (parseIp : List Char → Option IpAddr)

def parseIptablesLine (line : List Char) : Option NetdevEvent := do
  let srcIp ← (kv line "SRC".toList).bind parseIp
  pure
    { srcIp
      dstIp := (kv line "DST".toList).bind parseIp
      srcPort := (kv line "SPT".toList).bind (parseUnsigned (2 ^ 16))
      dstPort := (kv line "DPT".toList).bind (parseUnsigned (2 ^ 16))
      proto := (kv line "PROTO".toList).map (List.map Char.toUpper)
      action :=
        if containsAny line ["ACCEPT", "accept"] then "ACCEPT".toList
        else if containsAny line ["REJECT", "reject"] then "REJECT".toList
        else "DROP".toList
      deviceType :=
        if containsAny line ["nftables", "nft:"] then "nftables".toList else "iptables".toList
      inIface := kv line "IN".toList
      raw := line }

end Parse

/-! ## Words with keys -/

/-- The value of the first word whose key is the given one; an empty value is none. -/
def keyedValue (key line : List Char) : Option (List Char) :=
  ((words line).findSome? (·.dropPrefix? (key ++ ['=']))).filter (!·.isEmpty)

/-- What stands behind the key in the first word that has it anywhere. -/
def containedValue (key line : List Char) : Option (List Char) :=
  ((words line).findSome? (behind (key ++ ['=']))).filter (!·.isEmpty)

theorem kv_eq_containedValue {key : List Char} (unbroken : Unbroken key) (line : List Char) :
    kv line key = containedValue key line := by
  have unbroken' : Unbroken (key ++ ['=']) := by
    intro char member
    rcases List.mem_append.mp member with inKey | isEquals
    · exact unbroken char inKey
    · rw [List.mem_singleton.mp isEquals]
      rfl
  have nonempty : key ++ ['='] ≠ [] := List.append_ne_nil_of_right_ne_nil _ (List.cons_ne_nil _ _)
  rw [containedValue, ← firstWord_behind nonempty unbroken', kv]
  cases behind (key ++ ['=']) line with
  | none => rfl
  | some rest =>
    rw [Option.map_some]
    change (if firstWord rest = [] then none else some (firstWord rest)) = _
    cases firstWord rest <;> rfl

variable {pattern : List Char}

/-- The first word with a key is the first of all words with it. -/
theorem findSome?_dropPrefix (pattern : List Char) (tokens : List (List Char)) :
    tokens.findSome? (·.dropPrefix? pattern) =
      (tokens.filter (pattern.isPrefixOf ·)).head?.bind (·.dropPrefix? pattern) := by
  induction tokens with
  | nil => rfl
  | cons token tokens ih =>
    rw [List.findSome?_cons, List.filter_cons]
    cases dropped : token.dropPrefix? pattern with
    | none =>
      have noPrefix : ¬pattern.isPrefixOf token = true := by
        rw [List.isPrefixOf_iff_prefix]
        rintro ⟨rest, rfl⟩
        rw [dropPrefix_eq_some_iff.mpr rfl] at dropped
        cases dropped
      rw [if_neg noPrefix]
      exact ih
    | some rest =>
      have starts : pattern.isPrefixOf token = true := by
        rw [dropPrefix_eq_some_iff.mp dropped, List.isPrefixOf_iff_prefix]
        exact List.prefix_append _ _
      rw [if_pos starts]
      exact dropped.symm

theorem behind_append_self (nonempty : pattern ≠ []) (rest : List Char) :
    behind pattern (pattern ++ rest) = some rest := by
  obtain ⟨char, chars, rfl⟩ := List.exists_cons_of_ne_nil nonempty
  rw [List.cons_append, behind_cons, ← List.cons_append, if_pos, List.drop_left]
  exact List.isPrefixOf_iff_prefix.mpr (List.prefix_append _ _)

/-- The first word that has the pattern anywhere starts with it, if there is one. -/
def Leads (pattern : List Char) (tokens : List (List Char)) : Prop :=
  ∀ token ∈ tokens.find? fun token => (behind pattern token).isSome, pattern <+: token

instance (pattern : List Char) (tokens : List (List Char)) : Decidable (Leads pattern tokens) :=
  inferInstanceAs (Decidable (∀ token ∈ tokens.find? _, pattern <+: token))

theorem Leads.findSome?_behind (nonempty : pattern ≠ []) {tokens : List (List Char)}
    (leads : Leads pattern tokens) :
    tokens.findSome? (behind pattern) = tokens.findSome? (·.dropPrefix? pattern) := by
  induction tokens with
  | nil => rfl
  | cons token tokens ih =>
    rw [Leads, List.find?_cons] at leads
    rw [List.findSome?_cons, List.findSome?_cons]
    cases found : behind pattern token with
    | none =>
      have notFirst : token.dropPrefix? pattern = none := by
        refine Option.eq_none_iff_forall_ne_some.mpr fun rest dropped => ?_
        rw [dropPrefix_eq_some_iff.mp dropped, behind_append_self nonempty] at found
        cases found
      rw [found] at leads
      rw [notFirst]
      exact ih leads
    | some rest =>
      rw [found] at leads
      obtain ⟨back, rfl⟩ := leads token rfl
      rw [behind_append_self nonempty] at found
      rw [dropPrefix_eq_some_iff.mpr rfl, found]

/-- For the key and its equals sign. -/
def KeyLeads (key line : List Char) : Prop :=
  Leads (key ++ ['=']) (words line)

section Fields

variable {parseIp : List Char → Option IpAddr} {line : List Char}

theorem unbroken_of_all {key : List Char} (all : key.all (!isWhitespace ·) = true) :
    Unbroken key := by
  intro char member
  have black := List.all_eq_true.mp all char member
  rwa [Bool.not_eq_true'] at black

/-- A key that leads is looked up in the right word. -/
theorem KeyLeads.kv_eq {key : List Char} (leads : KeyLeads key line)
    (all : key.all (!isWhitespace ·) = true) : kv line key = keyedValue key line := by
  rw [kv_eq_containedValue (unbroken_of_all all), containedValue,
    leads.findSome?_behind (List.append_ne_nil_of_right_ne_nil _ (List.cons_ne_nil _ _)),
    keyedValue]

/-- The parser takes its fields from the right words if for each key the first word that
contains it is one whose key it is. -/
theorem iptables_fields (rejectsEmpty : parseIp [] = none) {address : IpAddr}
    {value : List Char} (isAddress : parseIp value = some address)
    (unique : (words line).filter ("SRC=".toList.isPrefixOf ·) = ["SRC=".toList ++ value])
    (leads : ∀ key ∈ ["SRC", "DST", "DPT", "PROTO"], KeyLeads key.toList line) :
    ∃ event, parseIptablesLine parseIp line = some event ∧ event.srcIp = address ∧
      event.dstIp = (keyedValue "DST".toList line).bind parseIp ∧
      event.dstPort = (keyedValue "DPT".toList line).bind (parseUnsigned (2 ^ 16)) ∧
      event.proto = (keyedValue "PROTO".toList line).map (List.map Char.toUpper) := by
  have source : (keyedValue "SRC".toList line).bind parseIp = some address := by
    have nonempty : value ≠ [] := by
      rintro rfl
      rw [rejectsEmpty] at isAddress
      cases isAddress
    have keyed : keyedValue "SRC".toList line = some value := by
      rw [keyedValue, findSome?_dropPrefix]
      change (((words line).filter ("SRC=".toList.isPrefixOf ·)).head?.bind _).filter _ = _
      rw [unique]
      change Option.filter _ (("SRC=".toList ++ value).dropPrefix? "SRC=".toList) = _
      rw [dropPrefix_eq_some_iff.mpr rfl, Option.filter_some_pos]
      simpa using nonempty
    rw [keyed]
    exact isAddress
  rw [parseIptablesLine, (leads "SRC" (by simp)).kv_eq (by decide), source,
    (leads "DST" (by simp)).kv_eq (by decide), (leads "DPT" (by simp)).kv_eq (by decide),
    (leads "PROTO" (by simp)).kv_eq (by decide)]
  exact ⟨_, rfl, rfl, rfl, rfl, rfl⟩

end Fields

/-- A parser that knows two addresses. -/
def twoAddresses (text : List Char) : Option IpAddr :=
  if text = "1.2.3.4".toList then some (.v4 0x01020304)
  else if text = "9.9.9.9".toList then some (.v4 0x09090909)
  else none

/-- A longer key does no harm behind the right one. -/
theorem iptables_fields_at_packet :
    ∃ event, parseIptablesLine twoAddresses
        "kernel: IN=eth0 SRC=1.2.3.4 DST=9.9.9.9 PROTO=tcp DPT=22 MACSRC=aa:bb".toList =
          some event ∧
      event.srcIp = .v4 0x01020304 ∧ event.dstIp = some (.v4 0x09090909) ∧
      event.dstPort = some 22 ∧ event.proto = some "TCP".toList := by
  obtain ⟨event, parsed, source, dst, port, proto⟩ :=
    @iptables_fields twoAddresses
      "kernel: IN=eth0 SRC=1.2.3.4 DST=9.9.9.9 PROTO=tcp DPT=22 MACSRC=aa:bb".toList rfl
      (.v4 0x01020304) "1.2.3.4".toList rfl (by decide +kernel)
      (by unfold KeyLeads; decide +kernel)
  refine ⟨event, parsed, source, dst.trans ?_, port.trans ?_, proto.trans ?_⟩
  · decide +kernel
  · decide +kernel
  · decide +kernel

/-- The end of a longer key is taken for the key: the packet is put down to the wrong
address. -/
theorem iptables_source_of_longer_key :
    let line := "MACSRC=9.9.9.9 SRC=1.2.3.4".toList
    (words line).filter ("SRC=".toList.isPrefixOf ·) = ["SRC=1.2.3.4".toList] ∧
      (parseIptablesLine twoAddresses line).map NetdevEvent.srcIp = some (.v4 0x09090909) := by
  decide +kernel

end HiveGuard.Sources
