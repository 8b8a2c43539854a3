import HiveGuard.Core.Hlc
import HiveGuard.PluginApi.Secrets
import HiveGuard.Daemon.Redaction

/-!
# Loading the plugins of a configuration

The loader links every plugin of a configuration to its descriptor, resolves the secret
references in the plugin's own configuration and validates the result.  The dry run does
the same without reading any secret, and lists the references it meets; a policy on
files is applied to that list only.
-/

namespace HiveGuard.Host

open PluginApi
open HiveGuard.Daemon (Json)
open HiveGuard.Library.Text HiveGuard.Library.Template

variable {Number : Type}

/-- The interface version of the host. -/
def apiVersion : Fin (2 ^ 32) :=
  1

structure PluginDescriptor where
  id : List Char
  apiVersion : Fin (2 ^ 32)
  configSchema : List Char

structure PluginEntry (Number : Type) where
  id : List Char
  config : Json Number
  optional : Bool

inductive LoaderError where
  | unknownPlugin (id : List Char)
  | apiVersionMismatch (id : List Char) (required host : Fin (2 ^ 32))
  | invalidConfig (id message : List Char)
  deriving DecidableEq

structure ResolvedPlugin (Number : Type) where
  entry : PluginEntry Number
  descriptor : PluginDescriptor
  resolvedConfig : Json Number

/-! ## Schemas -/

structure SchemaViolation where
  instancePath : List Char
  message : List Char

def SchemaViolation.display (violation : SchemaViolation) : List Char :=
  (if violation.instancePath.isEmpty then ['/'] else violation.instancePath) ++
    ": ".toList ++ violation.message

def formatViolations (violations : List SchemaViolation) : List Char :=
  "config violates schema:\n".toList ++
    ['\n'].intercalate (violations.map fun violation => "  - ".toList ++ violation.display)

/-- The violations of a schema by a value; fails when the schema itself is broken. -/
abbrev SchemaCheck (Number : Type) :=
  List Char → Json Number → Except PluginError (List SchemaViolation)

def validateAgainstSchema (schemaViolations : SchemaCheck Number) (schema : List Char)
    (value : Json Number) : Except PluginError Unit := do
  let violations ← schemaViolations schema value
  if violations.isEmpty then
    .ok ()
  else
    .error (.configValidation (formatViolations violations))

/-! ## Descriptors -/

section Linking

-- The plugins in the binary.
variable (registry : List PluginDescriptor)

def findDescriptor (id : List Char) : Option PluginDescriptor :=
  registry.find? fun descriptor => descriptor.id == id

/-- The descriptor of an entry; an optional plugin may be missing. -/
def link (entry : PluginEntry Number) : Except LoaderError (Option PluginDescriptor) :=
  match findDescriptor registry entry.id with
  | some descriptor =>
    if descriptor.apiVersion != apiVersion then
      .error (.apiVersionMismatch entry.id descriptor.apiVersion apiVersion)
    else
      .ok (some descriptor)
  | none => if entry.optional then .ok none else .error (.unknownPlugin entry.id)

end Linking

/-! ## Resolving -/

section Resolving

variable (outside : Outside) (reader : List Char)

mutual

/-- The value with the references in its strings resolved. -/
def resolveSecrets : Json Number → EStateM (List Char) SecretResolver (Json Number)
  | .string text => do
      let resolved ← (SecretResolver.resolve outside reader text).adaptExcept PluginError.display
      pure (.string resolved)
  | .array items => do
      let resolved ← resolveItems items
      pure (.array resolved)
  | .object entries => do
      let resolved ← resolveEntries entries
      pure (.object resolved)
  | other => pure other

def resolveItems : List (Json Number) → EStateM (List Char) SecretResolver (List (Json Number))
  | [] => pure []
  | item :: rest => do
      let resolved ← resolveSecrets item
      let others ← resolveItems rest
      pure (resolved :: others)

def resolveEntries : List (List Char × Json Number) →
    EStateM (List Char) SecretResolver (List (List Char × Json Number))
  | [] => pure []
  | (key, value) :: rest => do
      let resolved ← resolveSecrets value
      let others ← resolveEntries rest
      pure ((key, resolved) :: others)

end

end Resolving

section Loading

variable (registry : List PluginDescriptor) (schemaViolations : SchemaCheck Number)
  (outside : Outside)

def resolveOne (entry : PluginEntry Number) :
    EStateM LoaderError SecretResolver (Option (ResolvedPlugin Number)) :=
  match link registry entry with
  | .error error => throw error
  | .ok none => pure none
  | .ok (some descriptor) => do
      let resolvedConfig ← (resolveSecrets outside entry.id entry.config).adaptExcept
        (LoaderError.invalidConfig entry.id)
      match validateAgainstSchema schemaViolations descriptor.configSchema resolvedConfig with
      | .error error => throw (.invalidConfig entry.id error.display)
      | .ok () => pure (some ⟨entry, descriptor, resolvedConfig⟩)

/-- Link, resolve and validate the plugins of a configuration. -/
def resolve : List (PluginEntry Number) →
    EStateM LoaderError SecretResolver (List (ResolvedPlugin Number))
  | [] => pure []
  | entry :: rest => do
      let resolved ← resolveOne registry schemaViolations outside entry
      let others ← resolve rest
      pure (resolved.toList ++ others)

end Loading

/-! ## The dry run -/

section Walking

variable {σ : Type} (visit : List Char → List Char → EStateM (List Char) σ Unit)

/-- A key as a part of a JSON pointer. -/
def escapeKey (key : List Char) : List Char :=
  (key.flatMap fun char => if char == '~' then ['~', '0'] else [char]).flatMap
    fun char => if char == '/' then ['~', '1'] else [char]

mutual

/-- Visit every string with an opener, with its JSON pointer. -/
def collectPlaceholders (path : List Char) : Json Number → EStateM (List Char) σ Unit
  | .string text => if (breakAt opener text).isSome then visit path text else pure ()
  | .array items => collectItems path 0 items
  | .object entries => collectEntries path entries
  | _ => pure ()

def collectItems (path : List Char) (index : Nat) :
    List (Json Number) → EStateM (List Char) σ Unit
  | [] => pure ()
  | item :: rest => do
      collectPlaceholders (path ++ '/' :: (toString index).toList) item
      collectItems path (index + 1) rest

def collectEntries (path : List Char) :
    List (List Char × Json Number) → EStateM (List Char) σ Unit
  | [] => pure ()
  | (key, value) :: rest => do
      collectPlaceholders (path ++ '/' :: escapeKey key) value
      collectEntries path rest

end

end Walking

/-- A reference of a configuration: the plugin, the JSON pointer and the reference. -/
structure Found where
  id : List Char
  path : List Char
  placeholder : Placeholder
  deriving DecidableEq

/-- What the dry run has collected at a plugin. -/
structure Collected where
  found : List Found
  placeholderPaths : List (List Char)

def visitString (id path text : List Char) : EStateM (List Char) Collected Unit :=
  match parsePlaceholders text with
  | .error message => throw message
  | .ok list => modify fun collected =>
    { found := collected.found ++ list.map fun placeholder => ⟨id, path, placeholder⟩
      placeholderPaths :=
        if list.isEmpty then collected.placeholderPaths
        else collected.placeholderPaths ++ [path] }

section Checking

variable (registry : List PluginDescriptor) (schemaViolations : SchemaCheck Number)

def checkEntry (found : List Found) (entry : PluginEntry Number) :
    Except LoaderError (List Found) :=
  match link registry entry with
  | .error error => .error error
  | .ok none => .ok found
  | .ok (some descriptor) =>
    match (collectPlaceholders (visitString entry.id) [] entry.config).run ⟨found, []⟩ with
    | .error message _ => .error (.invalidConfig entry.id message)
    | .ok () collected =>
      match schemaViolations descriptor.configSchema entry.config with
      | .error error => .error (.invalidConfig entry.id error.display)
      | .ok violations =>
        let remaining := violations.filter fun violation =>
          !collected.placeholderPaths.any (· == violation.instancePath)
        if remaining.isEmpty then
          .ok collected.found
        else
          .error (.invalidConfig entry.id (formatViolations remaining))

/-- The references of a configuration that is valid as far as can be told without them. -/
def checkUnresolved (plugins : List (PluginEntry Number)) : Except LoaderError (List Found) :=
  plugins.foldlM (checkEntry registry schemaViolations) []

end Checking

end HiveGuard.Host
