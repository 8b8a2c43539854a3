import HiveGuard.Library.Text

/-!
# Secrets in JSON configuration

A configuration is shown to an agent with the values of secret keys replaced by a
marker.  A value is replaced where it stands directly at its key; arrays and objects
below a secret key are searched for secret keys of their own.
-/

namespace HiveGuard.Daemon

open Library.Text

/-! ## Keys and placeholders -/

/-- The marker that replaces secret values. -/
def redacted : List Char :=
  "<redacted>".toList

def secretKeys : List (List Char) :=
  ["auth_token", "token", "password", "passwd", "secret", "api_key", "apikey", "access_token",
    "refresh_token", "client_secret", "private_key", "secret_key", "bearer_token", "bot_token",
    "webhook_secret", "routing_key", "integration_key", "license_key", "hmac_key",
    "shared_secret", "sasl_password"].map String.toList

def secretSuffixes : List (List Char) :=
  ["_token", "_key", "_secret", "_password"].map String.toList

/-- Must the value of this key not be shown? -/
def isSecretKey (key : List Char) : Bool :=
  let key := (trim key).map Char.toLower
  secretKeys.contains key || secretSuffixes.any fun suffix => suffix.isSuffixOf key

/-- Does the value look like a placeholder?  Only its start and its end count. -/
def isPlaceholderValue (value : List Char) : Bool :=
  let value := trim value
  ['$', '\x7b'].isPrefixOf value && ['\x7d'].isSuffixOf value

/-! ## The values and their redaction -/

/-- A JSON value.  The entries of an object come in the order of its map. -/
inductive Json (Number : Type) where
  | null
  | bool (value : Bool)
  | number (value : Number)
  | string (text : List Char)
  | array (items : List (Json Number))
  | object (entries : List (List Char × Json Number))

variable {Number : Type}

mutual

/-- The value with the marker in place of secrets. -/
def redactedJson : Json Number → Json Number
  | .object entries => .object (redactedEntries entries)
  | .array items => .array (redactedItems items)
  | other => other

def redactedItems : List (Json Number) → List (Json Number)
  | [] => []
  | item :: rest => redactedJson item :: redactedItems rest

def redactedEntries : List (List Char × Json Number) → List (List Char × Json Number)
  | [] => []
  | entry :: rest => redactedEntry entry :: redactedEntries rest

def redactedEntry : List Char × Json Number → List Char × Json Number
  | (key, .string text) =>
    if isSecretKey key && !text.isEmpty && !isPlaceholderValue text then
      (key, .string redacted)
    else
      (key, .string text)
  | (key, .number value) =>
    if isSecretKey key then (key, .string redacted) else (key, .number value)
  | (key, other) => (key, redactedJson other)

end

theorem redactedItems_eq_map (items : List (Json Number)) :
    redactedItems items = items.map redactedJson := by
  induction items with
  | nil => rfl
  | cons item rest ih =>
    rw [redactedItems, ih, List.map_cons]

theorem redactedEntries_eq_map (entries : List (List Char × Json Number)) :
    redactedEntries entries = entries.map redactedEntry := by
  induction entries with
  | nil => rfl
  | cons entry rest ih =>
    rw [redactedEntries, ih, List.map_cons]

/-! ## Leaves of a configuration -/

/-- One level of a configuration around a value. -/
inductive Frame (Number : Type) where
  | item (before after : List (Json Number))
  | entry (before : List (List Char × Json Number)) (key : List Char)
      (after : List (List Char × Json Number))

namespace Frame

def fill : Frame Number → Json Number → Json Number
  | .item before after, value => .array (before ++ value :: after)
  | .entry before key after, value => .object (before ++ (key, value) :: after)

def isSecret : Frame Number → Bool
  | .item _ _ => false
  | .entry _ key _ => isSecretKey key

/-- What redaction makes of a value directly inside the frame. -/
def redactedValue : Frame Number → Json Number → Json Number
  | .item _ _, value => redactedJson value
  | .entry _ key _, value => (redactedEntry (key, value)).2

end Frame

/-- The configuration with a value at the end of a path, outermost level first. -/
def fill (path : List (Frame Number)) (value : Json Number) : Json Number :=
  path.foldr Frame.fill value

/-- The path leads through an entry with a secret key. -/
def BelowSecretKey (path : List (Frame Number)) : Prop :=
  ∃ frame ∈ path, frame.isSecret = true

/-- The path ends at an entry with a secret key. -/
def AtSecretKey (path : List (Frame Number)) : Prop :=
  ∃ frame ∈ path.getLast?, frame.isSecret = true

/-- Exactly one placeholder. -/
def IsPlaceholder (text : List Char) : Prop :=
  ∃ name, '\x7d' ∉ name ∧ text = ['$', '\x7b'] ++ name ++ ['\x7d']

namespace Json

/-- A string or a number that tells something: neither empty nor a placeholder. -/
def Confidential : Json Number → Prop
  | .string text => text ≠ [] ∧ ¬IsPlaceholder text
  | .number _ => True
  | _ => False

/-- The text of a value that the code takes for a placeholder. -/
def looksLikePlaceholder : Json Number → Bool
  | .string text => isPlaceholderValue text
  | _ => false

end Json

/-- A leaf directly inside a frame: the marker at a secret key, unless the code takes
the leaf for a placeholder. -/
theorem redactedValue_of_confidential (frame : Frame Number) {leaf : Json Number}
    (confidential : leaf.Confidential) :
    frame.redactedValue leaf =
      if frame.isSecret && !leaf.looksLikePlaceholder then .string redacted else leaf := by
  cases leaf with
  | string text =>
    have nonempty : text.isEmpty = false := List.isEmpty_eq_false_iff.mpr confidential.1
    cases frame with
    | item before after => simp [Frame.redactedValue, Frame.isSecret, redactedJson]
    | entry before key after =>
      simp only [Frame.redactedValue, redactedEntry, nonempty, Frame.isSecret,
        Json.looksLikePlaceholder, Bool.not_false, Bool.and_true]
      exact apply_ite Prod.snd _ _ _
  | number value =>
    cases frame with
    | item before after => simp [Frame.redactedValue, Frame.isSecret, redactedJson]
    | entry before key after =>
      simp only [Frame.redactedValue, redactedEntry, Frame.isSecret,
        Json.looksLikePlaceholder, Bool.not_false, Bool.and_true]
      exact apply_ite Prod.snd _ _ _
  | null => exact confidential.elim
  | bool value => exact confidential.elim
  | array items => exact confidential.elim
  | object entries => exact confidential.elim

theorem looksLikePlaceholder_redacted :
    (Json.string redacted : Json Number).looksLikePlaceholder = false := by
  have : isPlaceholderValue redacted = false := by decide
  exact this

theorem redactedValue_eq_iff (frame : Frame Number) {first second : Json Number}
    (first_confidential : first.Confidential) (second_confidential : second.Confidential) :
    frame.redactedValue first = frame.redactedValue second ↔
      first = second ∨ (frame.isSecret = true ∧ first.looksLikePlaceholder = false ∧
        second.looksLikePlaceholder = false) := by
  rw [redactedValue_of_confidential frame first_confidential,
    redactedValue_of_confidential frame second_confidential]
  cases frame.isSecret with
  | false => simp
  | true =>
    -- A leaf that is kept looks like a placeholder, which the marker does not.
    have kept_ne : ∀ {leaf : Json Number}, leaf.looksLikePlaceholder = true →
        leaf ≠ .string redacted := by
      intro leaf looks same
      rw [same, looksLikePlaceholder_redacted] at looks
      cases looks
    cases first_looks : first.looksLikePlaceholder <;>
      cases second_looks : second.looksLikePlaceholder
    · simp
    · simp only [Bool.not_false, Bool.and_true, Bool.not_true, Bool.and_false, ite_true]
      constructor
      · intro same
        exact absurd same.symm (kept_ne second_looks)
      · rintro (rfl | impossible)
        · simp [first_looks] at second_looks
        · simp at impossible
    · simp only [Bool.not_false, Bool.and_true, Bool.not_true, Bool.and_false, ite_true]
      constructor
      · intro same
        exact absurd same (kept_ne first_looks)
      · rintro (rfl | impossible)
        · simp [first_looks] at second_looks
        · simp at impossible
    · simp

/-- Redaction of a frame tells what it makes of the value inside, and nothing else of it. -/
theorem redactedJson_frame_eq_iff (frame : Frame Number) (first second : Json Number) :
    redactedJson (frame.fill first) = redactedJson (frame.fill second) ↔
      frame.redactedValue first = frame.redactedValue second := by
  cases frame with
  | item before after =>
    simp [Frame.fill, Frame.redactedValue, redactedJson, redactedItems_eq_map]
  | entry before key after =>
    have key_eq : ∀ value : Json Number, (redactedEntry (key, value)).1 = key := by
      intro value
      cases value <;> simp only [redactedEntry] <;> split <;> rfl
    simp [Frame.fill, Frame.redactedValue, redactedJson, redactedEntries_eq_map,
      Prod.ext_iff, key_eq]

/-- Inside a frame, an array or object is searched like anywhere else. -/
theorem redactedValue_fill (outer inner : Frame Number) (value : Json Number) :
    outer.redactedValue (inner.fill value) = redactedJson (inner.fill value) := by
  cases outer <;> cases inner <;> rfl

/-- Exchanging one confidential leaf for another leaves the result as it is exactly when
the leaf stands directly at a secret key and neither looks like a placeholder. -/
theorem redactedJson_hides_leaf_iff (path : List (Frame Number)) {first second : Json Number}
    (first_confidential : first.Confidential) (second_confidential : second.Confidential) :
    redactedJson (fill path first) = redactedJson (fill path second) ↔
      first = second ∨ (AtSecretKey path ∧ first.looksLikePlaceholder = false ∧
        second.looksLikePlaceholder = false) := by
  induction path with
  | nil =>
    have unchanged : ∀ {leaf : Json Number}, leaf.Confidential → redactedJson leaf = leaf := by
      intro leaf confidential
      cases leaf <;> first | rfl | exact confidential.elim
    simp [fill, AtSecretKey, unchanged first_confidential, unchanged second_confidential]
  | cons frame rest ih =>
    rw [fill, fill, List.foldr_cons, List.foldr_cons, redactedJson_frame_eq_iff]
    cases rest with
    | nil => simp [redactedValue_eq_iff frame first_confidential second_confidential, AtSecretKey]
    | cons inner deeper =>
      rw [fill, fill, List.foldr_cons, List.foldr_cons] at ih
      rw [List.foldr_cons, List.foldr_cons, redactedValue_fill, redactedValue_fill,
        ih]
      simp only [AtSecretKey, List.getLast?_cons_cons]

def tokenEntry : Frame Nat :=
  .entry [] "token".toList []

theorem confidential_letter (letter : Char) :
    (Json.string [letter] : Json Nat).Confidential := by
  refine ⟨by simp, ?_⟩
  rintro ⟨name, -, same⟩
  simp at same

/-- A token that is a string does not show. -/
theorem redactedJson_hides_token :
    redactedJson (fill [tokenEntry] (.string ['a'])) =
      redactedJson (fill [tokenEntry] (.string ['b'])) :=
  (redactedJson_hides_leaf_iff [tokenEntry] (confidential_letter 'a') (confidential_letter 'b')).mpr
    (.inr ⟨⟨tokenEntry, rfl, by decide⟩, by decide, by decide⟩)

/-- A list of tokens does. -/
theorem redactedJson_shows_token_list :
    let path := [tokenEntry, .item [] []]
    BelowSecretKey path ∧ (Json.string ['a'] : Json Nat).Confidential ∧
      (Json.string ['b'] : Json Nat).Confidential ∧
      redactedJson (fill path (.string ['a'])) ≠ redactedJson (fill path (.string ['b'])) := by
  refine ⟨⟨tokenEntry, by simp, by decide⟩, confidential_letter 'a', confidential_letter 'b', ?_⟩
  simp [fill, Frame.fill, tokenEntry, redactedJson, redactedItems, redactedEntries, redactedEntry]

end HiveGuard.Daemon
