import HiveGuard.Library.Effect
import HiveGuard.Library.Dictionary
import HiveGuard.Library.Template

/-!
# Secret references in plugin configuration

A configuration text may refer to an environment variable or to a file.  The resolver
replaces the references by their values and remembers each value by the text of its
reference; the syntax check reads the same text without looking at any value.  The two
scan the text independently of each other.
-/

namespace HiveGuard.PluginApi

open HiveGuard.Library.Text HiveGuard.Library.Effect HiveGuard.Library.Dictionary
open Library.Template

/-- The errors of plugins that the loader meets. -/
inductive PluginError where
  | configValidation (message : List Char)
  | secret (message : List Char)
  deriving DecidableEq

def PluginError.display : PluginError → List Char
  | .configValidation message => "plugin config validation failed: ".toList ++ message
  | .secret message => "secret resolution failed: ".toList ++ message

/-- A reference found in a configuration text. -/
inductive Placeholder where
  | env (name : List Char)
  | file (path : List Char)
  deriving DecidableEq

/-- The text between the braces. -/
def Placeholder.body : Placeholder → List Char
  | .env name => "env:".toList ++ name
  | .file path => "file:".toList ++ path

def unknownPlaceholder (body : List Char) : List Char :=
  "unknown placeholder `$\x7b".toList ++ body ++
    "\x7d` — expected `env:` or `file:` prefix".toList

/-! ## The resolver -/

/-- What the process would find in its environment and its file system, by the number of
accesses made before.  A file that cannot be read gives the text of the error. -/
structure Outside where
  env : Nat → List Char → Option (List Char)
  file : Nat → List Char → Except (List Char) (List Char)

/-- One access to an environment variable or a file, made for a plugin. -/
structure Access where
  reader : List Char
  placeholder : Placeholder
  contents : Option (List Char)
  deriving DecidableEq

/-- The value of the reference that was looked up. -/
def Access.value (access : Access) : Option (List Char) :=
  match access.placeholder with
  | .env _ => access.contents
  | .file _ => access.contents.map trim

/-- The resolver, with the log of its accesses. -/
structure SecretResolver where
  cache : Dict (List Char) (List Char)
  envOverride : Option (Dict (List Char) (List Char))
  accesses : List Access

namespace SecretResolver

/-- A resolver that has not read anything. -/
def new : SecretResolver where
  cache := ∅
  envOverride := none
  accesses := []

def record (access : Access) (self : SecretResolver) : SecretResolver :=
  { self with accesses := self.accesses ++ [access] }

section Reading

-- The reader only labels the accesses in the log.
variable (outside : Outside) (reader : List Char)

def readEnv (name : List Char) : EStateM PluginError SecretResolver (List Char) := do
  let self ← get
  let found :=
    match self.envOverride with
    | some env => env.lookup name
    | none => outside.env self.accesses.length name
  set (self.record ⟨reader, .env name, found⟩)
  match found with
  | some value => pure value
  | none => throw (.secret ("env var `".toList ++ name ++ "` not set".toList))

def readFile (path : List Char) : EStateM PluginError SecretResolver (List Char) := do
  let self ← get
  match outside.file self.accesses.length path with
  | .ok contents =>
    set (self.record ⟨reader, .file path, some contents⟩)
    pure (trim contents)
  | .error message =>
    set (self.record ⟨reader, .file path, none⟩)
    throw (.secret ("read ".toList ++ path ++ ": ".toList ++ message))

/-- The value a reference names. -/
def readValue (placeholder : List Char) : EStateM PluginError SecretResolver (List Char) :=
  match placeholder.dropPrefix? "env:".toList with
  | some name => readEnv outside reader name
  | none =>
    match placeholder.dropPrefix? "file:".toList with
    | some path => readFile outside reader path
    | none => throw (.secret (unknownPlaceholder placeholder))

def resolveOne (placeholder : List Char) : EStateM PluginError SecretResolver (List Char) := do
  let self ← get
  match self.cache.lookup placeholder with
  | some cached => pure cached
  | none =>
    let value ← readValue outside reader placeholder
    modify fun self => { self with cache := self.cache.insert placeholder value }
    pure value

/-- The loop over the references of a text: `out` is the text so far. -/
def resolveFrom (out rest : List Char) : EStateM PluginError SecretResolver (List Char) :=
  match _opened : breakAt opener rest with
  | none => pure (out ++ rest)
  | some (before, start) =>
    let after := start.drop 2
    match _closed : breakAt closer after with
    | none => pure (out ++ before ++ opener ++ after)
    | some (placeholder, finish) => do
        let resolved ← resolveOne outside reader placeholder
        resolveFrom (out ++ before ++ resolved) (finish.drop 1)
termination_by rest.length
decreasing_by exact length_after_reference _opened _closed

def resolve (input : List Char) : EStateM PluginError SecretResolver (List Char) :=
  resolveFrom outside reader [] input

end Reading

end SecretResolver

/-! ## The syntax check -/

def isValidEnvName : List Char → Bool
  | [] => false
  | first :: rest =>
    (first == '_' || first.isAlpha) && rest.all fun char => char == '_' || char.isAlphanum

/-- The reference between two braces. -/
def parsePlaceholder (body : List Char) : Except (List Char) Placeholder :=
  match body.dropPrefix? "env:".toList with
  | some name =>
    if isValidEnvName name then
      .ok (.env name)
    else
      .error ("invalid env placeholder `$\x7benv:".toList ++ name ++
        "\x7d` (expected [A-Za-z_][A-Za-z0-9_]*)".toList)
  | none =>
    match body.dropPrefix? "file:".toList with
    | some path =>
      if ['/'].isPrefixOf path then
        .ok (.file path)
      else
        .error ("file placeholder `$\x7bfile:".toList ++ path ++
          "\x7d` must use an absolute path".toList)
    | none => .error (unknownPlaceholder body)

/-- The loop over the references of a text: `out` has those found so far. -/
def parsePlaceholdersFrom (out : List Placeholder) (rest : List Char) :
    Except (List Char) (List Placeholder) :=
  match _opened : breakAt opener rest with
  | none => .ok out
  | some (_, start) =>
    let after := start.drop 2
    match _closed : breakAt closer after with
    | none => .ok out
    | some (body, finish) => do
        let placeholder ← parsePlaceholder body
        parsePlaceholdersFrom (out ++ [placeholder]) (finish.drop 1)
termination_by rest.length
decreasing_by exact length_after_reference _opened _closed

def parsePlaceholders (input : List Char) : Except (List Char) (List Placeholder) :=
  parsePlaceholdersFrom [] input

/-! ## What the check finds -/

theorem parsePlaceholder_eq_ok {body : List Char} {placeholder : Placeholder}
    (parsed : parsePlaceholder body = .ok placeholder) : placeholder.body = body := by
  rw [parsePlaceholder] at parsed
  split at parsed
  · rename_i name stripped
    split at parsed
    · cases parsed
      exact (dropPrefix_eq_some_iff.mp stripped).symm
    · cases parsed
  · split at parsed
    · rename_i path stripped
      split at parsed
      · cases parsed
        exact (dropPrefix_eq_some_iff.mp stripped).symm
      · cases parsed
    · cases parsed

/-- The check returns the references of the text, in their order. -/
theorem parsePlaceholdersFrom_eq_ok {out found : List Placeholder} {rest : List Char}
    (parsed : parsePlaceholdersFrom out rest = .ok found) :
    found.map Placeholder.body = out.map Placeholder.body ++ references (pieces rest) := by
  fun_induction parsePlaceholdersFrom out rest with
  | case1 out rest unopened =>
    cases parsed
    rw [pieces_of_unopened unopened, references, references, List.append_nil]
  | case2 out rest before start opened after unclosed =>
    cases parsed
    rw [pieces_of_unclosed opened unclosed, references, references, List.append_nil]
  | case3 out rest before start opened after body finish closed ih =>
    cases first : parsePlaceholder body with
    | error message =>
      rw [first] at parsed
      cases parsed
    | ok placeholder =>
      rw [first] at parsed
      rw [ih placeholder parsed, pieces_of_closed opened closed, references,
        references, List.map_append, List.map_singleton, parsePlaceholder_eq_ok first,
        List.append_assoc, List.singleton_append]

theorem parsePlaceholders_of_unopened {input : List Char}
    (unopened : breakAt opener input = none) : parsePlaceholders input = .ok [] := by
  rw [parsePlaceholders, parsePlaceholdersFrom]
  split
  · rfl
  · simp_all

theorem parsePlaceholders_eq_ok {input : List Char} {found : List Placeholder}
    (parsed : parsePlaceholders input = .ok found) :
    found.map Placeholder.body = references (pieces input) :=
  parsePlaceholdersFrom_eq_ok parsed

/-! ## What the resolver does -/

namespace SecretResolver

/-- What any use of the resolver may change: it makes accesses that are allowed, and it
remembers the values they gave. -/
structure Grows (allowed : List Char → Placeholder → Prop) (source target : SecretResolver) :
    Prop where
  kept : source.accesses ⊆ target.accesses
  allowed : ∀ access ∈ target.accesses,
    access ∈ source.accesses ∨ allowed access.reader access.placeholder
  remembered : ∀ body value,
    source.cache.lookup body = some value → target.cache.lookup body = some value
  cached : ∀ body value, target.cache.lookup body = some value →
    source.cache.lookup body = some value ∨
      ∃ access ∈ target.accesses, access.placeholder.body = body ∧ access.value = some value

variable {allowed : List Char → Placeholder → Prop} {source middle target : SecretResolver}

theorem Grows.refl (source : SecretResolver) : Grows allowed source source where
  kept := List.Subset.refl _
  allowed _ member := .inl member
  remembered _ _ known := known
  cached _ _ known := .inl known

theorem Grows.trans (first : Grows allowed source middle) (second : Grows allowed middle target) :
    Grows allowed source target where
  kept := List.Subset.trans first.kept second.kept
  allowed access member := by
    rcases second.allowed access member with earlier | new
    · exact first.allowed access earlier
    · exact .inr new
  remembered body value known := second.remembered body value (first.remembered body value known)
  cached body value known := by
    rcases second.cached body value known with earlier | ⟨access, member, found⟩
    · rcases first.cached body value earlier with initial | ⟨access, member, found⟩
      · exact .inl initial
      · exact .inr ⟨access, second.kept member, found⟩
    · exact .inr ⟨access, member, found⟩

theorem Grows.record {access : Access} (permitted : allowed access.reader access.placeholder)
    (source : SecretResolver) : Grows allowed source (source.record access) where
  kept := List.subset_append_left _ _
  allowed other member := by
    rcases List.mem_append.mp member with earlier | last
    · exact .inl earlier
    · rw [List.mem_singleton.mp last]
      exact .inr permitted
  remembered _ _ known := known
  cached _ _ known := .inl known

theorem mem_record (access : Access) (source : SecretResolver) :
    access ∈ (source.record access).accesses :=
  List.mem_append_right _ (List.mem_singleton_self access)

/-- The remembered values are values of the references. -/
def Agrees (self : SecretResolver) (value : List Char → Option (List Char)) : Prop :=
  ∀ body known, self.cache.lookup body = some known → value body = some known

theorem Grows.agrees {value : List Char → Option (List Char)} (grows : Grows allowed source target)
    (agrees : target.Agrees value) : source.Agrees value :=
  fun body known remembered => agrees body known (grows.remembered body known remembered)

/-- The value was looked up, and not remembered yet. -/
def LooksUp (allowed : List Char → Placeholder → Prop) (placeholder : Placeholder)
    (source : SecretResolver) (value : List Char) (target : SecretResolver) : Prop :=
  Grows allowed source target ∧ target.cache = source.cache ∧
    ∃ access ∈ target.accesses, access.placeholder = placeholder ∧ access.value = some value

/-- An allowed access found nothing. -/
def Stops (allowed : List Char → Placeholder → Prop) (source target : SecretResolver) : Prop :=
  Grows allowed source target ∧ ∃ access ∈ target.accesses, access.contents = none

theorem Stops.trans (first : Grows allowed source middle) (second : Stops allowed middle target) :
    Stops allowed source target :=
  ⟨first.trans second.1, second.2⟩

section Reading

variable {outside : Outside} {reader : List Char}

theorem readEnv_ends {name : List Char} (permitted : allowed reader (.env name))
    (source : SecretResolver) :
    Ends (readEnv outside reader name) source
      (LooksUp allowed (.env name) source) fun _ => Stops allowed source := by
  refine .get_bind (.set_bind ?_)
  split
  · rename_i value found
    exact ⟨.record permitted source, rfl, _, mem_record _ source, rfl, found⟩
  · rename_i missing
    exact ⟨.record permitted source, _, mem_record _ source, missing⟩

theorem readFile_ends {path : List Char} (permitted : allowed reader (.file path))
    (source : SecretResolver) :
    Ends (readFile outside reader path) source
      (LooksUp allowed (.file path) source) fun _ => Stops allowed source := by
  refine .get_bind ?_
  split
  · refine .set_bind ?_
    exact ⟨.record permitted source, rfl, _, mem_record _ source, rfl, rfl⟩
  · refine .set_bind ?_
    exact ⟨.record permitted source, _, mem_record _ source, rfl⟩

theorem readValue_ends {placeholder : Placeholder} (permitted : allowed reader placeholder)
    (source : SecretResolver) :
    Ends (readValue outside reader placeholder.body) source
      (LooksUp allowed placeholder source) fun _ => Stops allowed source := by
  cases placeholder with
  | env name =>
    have isEnv : (Placeholder.env name).body.dropPrefix? "env:".toList = some name :=
      dropPrefix_eq_some_iff.mpr rfl
    rw [readValue, isEnv]
    exact readEnv_ends permitted source
  | file path =>
    have notEnv : (Placeholder.file path).body.dropPrefix? "env:".toList = none := rfl
    have isFile : (Placeholder.file path).body.dropPrefix? "file:".toList = some path :=
      dropPrefix_eq_some_iff.mpr rfl
    rw [readValue, notEnv, isFile]
    exact readFile_ends permitted source

theorem resolveOne_ends {placeholder : Placeholder} (permitted : allowed reader placeholder)
    (source : SecretResolver) :
    Ends (resolveOne outside reader placeholder.body) source
      (fun value target => Grows allowed source target ∧
        target.cache.lookup placeholder.body = some value) fun _ => Stops allowed source := by
  refine .get_bind ?_
  split
  · rename_i cached known
    exact ⟨.refl source, known⟩
  · rename_i unknown
    refine .bind ((readValue_ends permitted source).imp ?_ fun _ _ failed => failed)
    rintro value middle ⟨grows, sameCache, access, member, looked, found⟩
    refine ⟨grows.trans ?_, AList.lookup_insert _⟩
    refine ⟨List.Subset.refl _, fun _ => .inl, ?_, ?_⟩
    · intro body known remembered
      have other : body ≠ placeholder.body := by
        rintro rfl
        rw [sameCache, unknown] at remembered
        cases remembered
      exact (AList.lookup_insert_ne other).trans remembered
    · intro body known remembered
      by_cases same : body = placeholder.body
      · subst same
        rw [AList.lookup_insert] at remembered
        cases remembered
        exact .inr ⟨access, member, congrArg Placeholder.body looked, found⟩
      · exact .inl ((AList.lookup_insert_ne same).symm.trans remembered)

/-- The text is resolved to the template with the remembered values, also with those
that are remembered later. -/
theorem resolveFrom_ends {out rest : List Char} (permitted : ∀ name ∈ references (pieces rest),
      ∃ placeholder : Placeholder, placeholder.body = name ∧ allowed reader placeholder)
    (source : SecretResolver) :
    Ends (resolveFrom outside reader out rest) source
      (fun text target => Grows allowed source target ∧ ∀ value, target.Agrees value →
          ∃ rendered, render value (pieces rest) = some rendered ∧ text = out ++ rendered)
      fun _ => Stops allowed source := by
  fun_induction resolveFrom outside reader out rest generalizing source with
  | case1 out rest unopened =>
    refine ⟨.refl source, fun value _ => ⟨rest, ?_, rfl⟩⟩
    simp [pieces_of_unopened unopened, render]
  | case2 out rest before start opened after unclosed =>
    refine ⟨.refl source, fun value _ => ⟨rest, ?_, ?_⟩⟩
    · simp [pieces_of_unclosed opened unclosed, render]
    · rw [breakAt_eq_some_append opened, ← List.append_assoc, ← List.append_assoc]
      rfl
  | case3 out rest before start opened after name finish closed ih =>
    rw [pieces_of_closed opened closed] at permitted ⊢
    rw [references, references, List.forall_mem_cons] at permitted
    rcases permitted with ⟨⟨placeholder, rfl, first⟩, others⟩
    refine .bind ((resolveOne_ends first source).imp ?_ fun _ _ failed => failed)
    rintro resolved middle ⟨grows, looked⟩
    refine (ih resolved others middle).imp ?_ ?_
    · rintro text target ⟨later, rendered⟩
      refine ⟨grows.trans later, fun value agrees => ?_⟩
      rcases rendered value agrees with ⟨rest, renders, rfl⟩
      refine ⟨before ++ (resolved ++ rest), ?_, by simp⟩
      have known := later.agrees agrees _ _ looked
      rw [render, render, known, Option.bind_some, renders]
      rfl
    · intro error target failed
      exact Stops.trans grows failed

/-- What the syntax check accepted is resolved to the template with the remembered values. -/
theorem resolve_ends {input : List Char} {found : List Placeholder}
    (parsed : parsePlaceholders input = .ok found)
    (permitted : ∀ placeholder ∈ found, allowed reader placeholder) (source : SecretResolver) :
    Ends (resolve outside reader input) source (fun text target => Grows allowed source target ∧
        ∀ value, target.Agrees value → Replaces value input text)
      fun _ => Stops allowed source := by
  have named : ∀ name ∈ references (pieces input),
      ∃ placeholder : Placeholder, placeholder.body = name ∧ allowed reader placeholder := by
    intro name member
    rw [← parsePlaceholders_eq_ok parsed, List.mem_map] at member
    rcases member with ⟨placeholder, listed, rfl⟩
    exact ⟨placeholder, rfl, permitted placeholder listed⟩
  refine (resolveFrom_ends named source).imp ?_ fun _ _ failed => failed
  rintro text target ⟨grows, rendered⟩
  refine ⟨grows, fun value agrees => ?_⟩
  rcases rendered value agrees with ⟨_, renders, rfl⟩
  exact ⟨pieces input, splits_pieces input, renders⟩

end Reading

end SecretResolver

end HiveGuard.PluginApi
