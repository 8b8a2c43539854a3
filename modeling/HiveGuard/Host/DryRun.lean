import HiveGuard.Host.Loader

/-!
# The dry run sees every secret reference

A configuration that passed the dry run is loaded with accesses from the list of the dry
run only, and what is loaded is the configuration with the values of the references in
its strings.  The link between the two walks is the list of the strings of a value: the
dry run lists the references of each of them, and the loader resolves each of them.
-/

namespace HiveGuard.Host

open HiveGuard.PluginApi
open HiveGuard.Daemon (Json)
open HiveGuard.Library.Effect HiveGuard.Library.Template

variable {Number : Type}

/-! ## The strings of a value -/

mutual

/-- The strings of a value, without its keys. -/
def strings : Json Number → List (List Char)
  | .string text => [text]
  | .array items => itemStrings items
  | .object entries => entryStrings entries
  | _ => []

def itemStrings : List (Json Number) → List (List Char)
  | [] => []
  | item :: rest => strings item ++ itemStrings rest

def entryStrings : List (List Char × Json Number) → List (List Char)
  | [] => []
  | (_, value) :: rest => strings value ++ entryStrings rest

end

/-- The values differ in their strings only, as a relation on texts says. -/
inductive Corresponds (related : List Char → List Char → Prop) :
    Json Number → Json Number → Prop
  | null : Corresponds related .null .null
  | bool (value : Bool) : Corresponds related (.bool value) (.bool value)
  | number (value : Number) : Corresponds related (.number value) (.number value)
  | string {text result : List Char} (same : related text result) :
      Corresponds related (.string text) (.string result)
  | array {items results : List (Json Number)}
      (same : List.Forall₂ (Corresponds related) items results) :
      Corresponds related (.array items) (.array results)
  | object {entries results : List (List Char × Json Number)}
      (keys : entries.map Prod.fst = results.map Prod.fst)
      (same : List.Forall₂ (Corresponds related) (entries.map Prod.snd)
        (results.map Prod.snd)) :
      Corresponds related (.object entries) (.object results)

/-! ## What the dry run lists -/

/-- The accesses that the list of the dry run allows. -/
def Allows (list : List Found) (reader : List Char) (placeholder : Placeholder) : Prop :=
  ∃ path, (⟨reader, path, placeholder⟩ : Found) ∈ list

/-- The text is well-formed, and all its references are listed for the plugin. -/
def Listed (list : List Found) (id text : List Char) : Prop :=
  ∃ placeholders, parsePlaceholders text = .ok placeholders ∧
    ∀ placeholder ∈ placeholders, Allows list id placeholder

theorem Listed.mono {list larger : List Found} {id text : List Char} (grows : list ⊆ larger)
    (listed : Listed list id text) : Listed larger id text := by
  rcases listed with ⟨placeholders, parsed, located⟩
  refine ⟨placeholders, parsed, fun placeholder member => ?_⟩
  rcases located placeholder member with ⟨path, found⟩
  exact ⟨path, grows found⟩

/-- The walk has added the references of the texts. -/
structure Collects (id : List Char) (texts : List (List Char)) (source target : Collected) :
    Prop where
  kept : source.found ⊆ target.found
  listed : ∀ text ∈ texts, Listed target.found id text

theorem Collects.nil (id : List Char) (source : Collected) : Collects id [] source source where
  kept := List.Subset.refl _
  listed _ member := absurd member List.not_mem_nil

theorem Collects.append {id : List Char} {texts others : List (List Char)}
    {source middle target : Collected} (first : Collects id texts source middle)
    (second : Collects id others middle target) :
    Collects id (texts ++ others) source target where
  kept := List.Subset.trans first.kept second.kept
  listed text member := by
    rcases List.mem_append.mp member with earlier | later
    · exact (first.listed text earlier).mono second.kept
    · exact second.listed text later

theorem visitString_collects {id path text : List Char} {source target : Collected}
    (run : (visitString id path text).run source = .ok () target) :
    Collects id [text] source target := by
  rw [visitString] at run
  split at run
  · cases run
  · rename_i placeholders parsed
    cases run
    refine ⟨List.subset_append_left _ _, fun other member => ?_⟩
    rw [List.mem_singleton.mp member]
    refine ⟨placeholders, parsed, fun placeholder found => ⟨path, ?_⟩⟩
    exact List.mem_append_right _ (List.mem_map.mpr ⟨placeholder, found, rfl⟩)

mutual

theorem collectPlaceholders_collects {id path : List Char} {source target : Collected} :
    ∀ {value : Json Number},
      (collectPlaceholders (visitString id) path value).run source = .ok () target →
        Collects id (strings value) source target
  | .null, run => by
      cases run
      exact .nil id source
  | .bool _, run => by
      cases run
      exact .nil id source
  | .number _, run => by
      cases run
      exact .nil id source
  | .string text, run => by
      rw [collectPlaceholders] at run
      split at run
      · exact visitString_collects run
      · rename_i unopened
        cases run
        rw [Option.not_isSome_iff_eq_none] at unopened
        refine ⟨List.Subset.refl _, fun other member => ?_⟩
        rw [List.mem_singleton.mp member]
        exact ⟨[], parsePlaceholders_of_unopened unopened, by simp⟩
  | .array items, run => by
      rw [strings]
      exact collectItems_collects (by simpa only [collectPlaceholders] using run)
  | .object entries, run => by
      rw [strings]
      exact collectEntries_collects (by simpa only [collectPlaceholders] using run)

theorem collectItems_collects {id path : List Char} {index : Nat} {source target : Collected} :
    ∀ {items : List (Json Number)},
      (collectItems (visitString id) path index items).run source = .ok () target →
        Collects id (itemStrings items) source target
  | [], run => by
      cases run
      exact .nil id source
  | item :: rest, run => by
      rw [collectItems] at run
      rcases bind_eq_ok_iff.mp run with ⟨_, middle, first, others⟩
      exact (collectPlaceholders_collects first).append (collectItems_collects others)

theorem collectEntries_collects {id path : List Char} {source target : Collected} :
    ∀ {entries : List (List Char × Json Number)},
      (collectEntries (visitString id) path entries).run source = .ok () target →
        Collects id (entryStrings entries) source target
  | [], run => by
      cases run
      exact .nil id source
  | (key, value) :: rest, run => by
      rw [collectEntries] at run
      rcases bind_eq_ok_iff.mp run with ⟨_, middle, first, others⟩
      exact (collectPlaceholders_collects first).append (collectEntries_collects others)

end

/-- The entry is skipped, or all its references are listed. -/
def Checked (registry : List PluginDescriptor) (list : List Found) (entry : PluginEntry Number) :
    Prop :=
  link registry entry = .ok none ∨ ∃ descriptor, link registry entry = .ok (some descriptor) ∧
    ∀ text ∈ strings entry.config, Listed list entry.id text

theorem Checked.mono {registry : List PluginDescriptor} {list larger : List Found}
    {entry : PluginEntry Number} (grows : list ⊆ larger) (checked : Checked registry list entry) :
    Checked registry larger entry := by
  rcases checked with skipped | ⟨descriptor, linked, listed⟩
  · exact .inl skipped
  · exact .inr ⟨descriptor, linked, fun text member => (listed text member).mono grows⟩

section Checking

variable {registry : List PluginDescriptor} {schemaViolations : SchemaCheck Number}

theorem checkEntry_eq_ok {found list : List Found} {entry : PluginEntry Number}
    (passed : checkEntry registry schemaViolations found entry = .ok list) :
    found ⊆ list ∧ Checked registry list entry := by
  rw [checkEntry] at passed
  split at passed
  · cases passed
  · rename_i skipped
    cases passed
    exact ⟨List.Subset.refl _, .inl skipped⟩
  · rename_i descriptor linked
    split at passed
    · cases passed
    · rename_i collected walk
      split at passed
      · cases passed
      · rename_i violations checked
        dsimp only at passed
        split at passed
        · cases passed
          rcases collectPlaceholders_collects walk with ⟨kept, listed⟩
          exact ⟨kept, .inr ⟨descriptor, linked, listed⟩⟩
        · cases passed

theorem foldlM_checkEntry_eq_ok {found list : List Found} {plugins : List (PluginEntry Number)}
    (passed : plugins.foldlM (checkEntry registry schemaViolations) found = .ok list) :
    found ⊆ list ∧ ∀ entry ∈ plugins, Checked registry list entry := by
  induction plugins generalizing found with
  | nil =>
      cases passed
      exact ⟨List.Subset.refl _, by simp⟩
  | cons entry rest ih =>
      rw [List.foldlM_cons] at passed
      cases first : checkEntry registry schemaViolations found entry with
      | error error =>
          rw [first] at passed
          cases passed
      | ok middle =>
          rw [first] at passed
          rcases checkEntry_eq_ok first with ⟨kept, checked⟩
          rcases ih passed with ⟨later, others⟩
          refine ⟨List.Subset.trans kept later, ?_⟩
          rw [List.forall_mem_cons]
          exact ⟨checked.mono later, others⟩

end Checking

/-! ## What the loader reads -/

section Resolving

variable {outside : Outside} {list : List Found} {reader : List Char}

mutual

theorem resolveSecrets_ends : ∀ {value : Json Number},
    (∀ text ∈ strings value, Listed list reader text) → ∀ source : SecretResolver,
      Ends (resolveSecrets outside reader value) source
        (fun result target => SecretResolver.Grows (Allows list) source target ∧
          ∀ known, target.Agrees known → Corresponds (Replaces known) value result)
        fun _ => SecretResolver.Stops (Allows list) source
  | .null, _, source => ⟨.refl source, fun _ _ => .null⟩
  | .bool value, _, source => ⟨.refl source, fun _ _ => .bool value⟩
  | .number value, _, source => ⟨.refl source, fun _ _ => .number value⟩
  | .string text, listed, source => by
      rw [resolveSecrets]
      rcases listed text (List.mem_singleton_self text) with ⟨placeholders, parsed, located⟩
      refine .bind (.adaptExcept ((SecretResolver.resolve_ends parsed located source).imp ?_
        fun _ _ stopped => stopped))
      rintro resolved target ⟨grows, replaced⟩
      exact ⟨grows, fun known agrees => .string (replaced known agrees)⟩
  | .array items, listed, source => by
      rw [resolveSecrets]
      refine .bind ((resolveItems_ends listed source).imp ?_ fun _ _ stopped => stopped)
      rintro resolved target ⟨grows, replaced⟩
      exact ⟨grows, fun known agrees => .array (replaced known agrees)⟩
  | .object entries, listed, source => by
      rw [resolveSecrets]
      refine .bind ((resolveEntries_ends listed source).imp ?_ fun _ _ stopped => stopped)
      rintro resolved target ⟨grows, keys, replaced⟩
      exact ⟨grows, fun known agrees => .object keys (replaced known agrees)⟩

theorem resolveItems_ends : ∀ {items : List (Json Number)},
    (∀ text ∈ itemStrings items, Listed list reader text) → ∀ source : SecretResolver,
      Ends (resolveItems outside reader items) source
        (fun results target => SecretResolver.Grows (Allows list) source target ∧
          ∀ known, target.Agrees known → List.Forall₂ (Corresponds (Replaces known)) items results)
        fun _ => SecretResolver.Stops (Allows list) source
  | [], _, source => ⟨.refl source, fun _ _ => .nil⟩
  | item :: rest, listed, source => by
      rw [resolveItems]
      rw [itemStrings, List.forall_mem_append] at listed
      refine .bind ((resolveSecrets_ends listed.1 source).imp ?_ fun _ _ stopped => stopped)
      rintro resolved middle ⟨grows, replaced⟩
      refine .bind ((resolveItems_ends listed.2 middle).imp ?_ fun _ _ stopped => ?_)
      · rintro others target ⟨later, allReplaced⟩
        refine ⟨grows.trans later, fun known agrees => .cons ?_ (allReplaced known agrees)⟩
        exact replaced known (later.agrees agrees)
      · exact SecretResolver.Stops.trans grows stopped

theorem resolveEntries_ends : ∀ {entries : List (List Char × Json Number)},
    (∀ text ∈ entryStrings entries, Listed list reader text) → ∀ source : SecretResolver,
      Ends (resolveEntries outside reader entries) source
        (fun results target => SecretResolver.Grows (Allows list) source target ∧
          entries.map Prod.fst = results.map Prod.fst ∧
            ∀ known, target.Agrees known →
              List.Forall₂ (Corresponds (Replaces known)) (entries.map Prod.snd)
                (results.map Prod.snd))
        fun _ => SecretResolver.Stops (Allows list) source
  | [], _, source => ⟨.refl source, rfl, fun _ _ => .nil⟩
  | (key, value) :: rest, listed, source => by
      rw [resolveEntries]
      rw [entryStrings, List.forall_mem_append] at listed
      refine .bind ((resolveSecrets_ends listed.1 source).imp ?_ fun _ _ stopped => stopped)
      rintro resolved middle ⟨grows, replaced⟩
      refine .bind ((resolveEntries_ends listed.2 middle).imp ?_ fun _ _ stopped => ?_)
      · rintro others target ⟨later, keys, allReplaced⟩
        refine ⟨grows.trans later, congrArg (key :: ·) keys, fun known agrees => ?_⟩
        exact .cons (replaced known (later.agrees agrees)) (allReplaced known agrees)
      · exact SecretResolver.Stops.trans grows stopped

end

end Resolving

/-- The plugin of an entry, with the values of the references in the strings of its
configuration. -/
structure Loads (registry : List PluginDescriptor) (known : List Char → Option (List Char))
    (entry : PluginEntry Number) (plugin : ResolvedPlugin Number) : Prop where
  source : plugin.entry = entry
  descriptor : findDescriptor registry entry.id = some plugin.descriptor
  config : Corresponds (Replaces known) entry.config plugin.resolvedConfig

/-- The error of a plugin whose configuration was resolved and then found to violate its
schema. -/
def Violates (registry : List PluginDescriptor) (schemaViolations : SchemaCheck Number)
    (known : List Char → Option (List Char)) (entry : PluginEntry Number) (error : LoaderError) :
    Prop :=
  ∃ descriptor config failure, findDescriptor registry entry.id = some descriptor ∧
    Corresponds (Replaces known) entry.config config ∧
      validateAgainstSchema schemaViolations descriptor.configSchema config = .error failure ∧
        error = .invalidConfig entry.id failure.display

section Loading

variable {registry : List PluginDescriptor} {schemaViolations : SchemaCheck Number}
  {outside : Outside} {list : List Found}

theorem findDescriptor_of_link {entry : PluginEntry Number}
    {linked : Option PluginDescriptor} (found : link registry entry = .ok linked) :
    findDescriptor registry entry.id = linked := by
  rw [link] at found
  split at found
  · rename_i descriptor known
    split at found
    · cases found
    · cases found
      exact known
  · rename_i unknown
    split at found
    · cases found
      exact unknown
    · cases found

theorem resolveOne_ends {entry : PluginEntry Number} (checked : Checked registry list entry)
    (source : SecretResolver) :
    Ends (resolveOne registry schemaViolations outside entry) source
      (fun result target => SecretResolver.Grows (Allows list) source target ∧
        ∀ known, target.Agrees known → List.Forall₂ (Loads registry known)
          ([entry].filter fun entry => (findDescriptor registry entry.id).isSome) result.toList)
      fun error target => SecretResolver.Stops (Allows list) source target ∨
        SecretResolver.Grows (Allows list) source target ∧
          ∀ known, target.Agrees known → Violates registry schemaViolations known entry error := by
  rw [resolveOne]
  rcases checked with skipped | ⟨descriptor, linked, listed⟩
  · rw [skipped]
    refine ⟨.refl source, fun known _ => ?_⟩
    rw [List.filter_singleton, findDescriptor_of_link skipped]
    exact .nil
  · rw [linked]
    have found := findDescriptor_of_link linked
    refine .bind (.adaptExcept ((resolveSecrets_ends listed source).imp ?_
      fun _ _ stopped => .inl stopped))
    rintro config target ⟨grows, replaced⟩
    split
    · rename_i failure invalid
      refine .inr ⟨grows, fun known agrees => ?_⟩
      exact ⟨descriptor, config, failure, found, replaced known agrees, invalid, rfl⟩
    · refine ⟨grows, fun known agrees => ?_⟩
      rw [List.filter_singleton, found]
      exact .cons ⟨rfl, found, replaced known agrees⟩ .nil

theorem resolve_ends {plugins : List (PluginEntry Number)}
    (checked : ∀ entry ∈ plugins, Checked registry list entry) (source : SecretResolver) :
    Ends (resolve registry schemaViolations outside plugins) source
      (fun resolved target => SecretResolver.Grows (Allows list) source target ∧
        ∀ known, target.Agrees known → List.Forall₂ (Loads registry known)
          (plugins.filter fun entry => (findDescriptor registry entry.id).isSome) resolved)
      fun error target => SecretResolver.Stops (Allows list) source target ∨
        SecretResolver.Grows (Allows list) source target ∧ ∀ known, target.Agrees known →
          ∃ entry ∈ plugins, Violates registry schemaViolations known entry error := by
  induction plugins generalizing source with
  | nil => exact ⟨.refl source, fun _ _ => .nil⟩
  | cons entry rest ih =>
      rw [List.forall_mem_cons] at checked
      rw [resolve]
      refine .bind ((resolveOne_ends checked.1 source).imp ?_ ?_)
      · rintro first middle ⟨grows, loaded⟩
        refine .bind ((ih checked.2 middle).imp ?_ ?_)
        · rintro others target ⟨later, allLoaded⟩
          refine ⟨grows.trans later, fun known agrees => ?_⟩
          rw [← List.singleton_append, List.filter_append]
          exact List.rel_append (loaded known (later.agrees agrees)) (allLoaded known agrees)
        · rintro error target (stopped | ⟨later, violates⟩)
          · exact .inl (SecretResolver.Stops.trans grows stopped)
          · refine .inr ⟨grows.trans later, fun known agrees => ?_⟩
            rcases violates known agrees with ⟨entry, member, violates⟩
            exact ⟨entry, List.mem_cons_of_mem _ member, violates⟩
      · rintro error target (stopped | ⟨grows, violates⟩)
        · exact .inl stopped
        · exact .inr ⟨grows, fun known agrees => ⟨entry, List.mem_cons_self, violates known agrees⟩⟩

end Loading

/-! ## Loading after the dry run -/

namespace Sample

def registry : List PluginDescriptor :=
  [⟨"notifier.slack".toList, apiVersion, "\x7b\x7d".toList⟩]

def plugins : List (PluginEntry Unit) :=
  [⟨"notifier.slack".toList,
    .object [("token".toList, .string "Bearer $\x7benv:SLACK\x7d".toList)], false⟩]

def found : List Found :=
  [⟨"notifier.slack".toList, "/token".toList, .env "SLACK".toList⟩]

/-- The variable has a value that looks like a reference itself. -/
def outside : Outside where
  env _ _ := some "$\x7bfile:/etc/shadow\x7d".toList
  file _ _ := .error "no such file".toList

end Sample

/-- A configuration that passed the dry run is loaded from the listed references alone.
Whatever the outside holds and whatever is remembered from before, every access is
listed for the plugin it is made for; loading fails only at an access that finds nothing
or at the schema of a resolved configuration; and the plugins are loaded with their
configurations as they are but for the references in strings, each replaced once by its
value, which was remembered or read. -/
theorem resolve_reads_listed (registry : List PluginDescriptor)
    (schemaViolations : SchemaCheck Number) (plugins : List (PluginEntry Number))
    (list : List Found) (checked : checkUnresolved registry schemaViolations plugins = .ok list)
    (outside : Outside) (source : SecretResolver) (fresh : source.accesses = []) :
    let result := (resolve registry schemaViolations outside plugins).run source
    let target := finalState result
    let known := fun body => target.cache.lookup body
    (∀ access ∈ target.accesses, Allows list access.reader access.placeholder) ∧
      (∀ error, result = .error error target →
        (∃ access ∈ target.accesses, access.contents = none) ∨
          ∃ entry ∈ plugins, Violates registry schemaViolations known entry error) ∧
      (∀ resolved, result = .ok resolved target →
        List.Forall₂ (Loads registry known)
          (plugins.filter fun entry => (findDescriptor registry entry.id).isSome) resolved) ∧
      ∀ body value, known body = some value →
        source.cache.lookup body = some value ∨ ∃ access ∈ target.accesses,
          access.placeholder.body = body ∧ access.value = some value := by
  intro result target known
  have ends : Ends (resolve registry schemaViolations outside plugins) source _ _ :=
    resolve_ends (foldlM_checkEntry_eq_ok checked).2 source
  have agrees : target.Agrees known := fun _ _ remembered => remembered
  have grows : SecretResolver.Grows (Allows list) source target := by
    refine (ends.imp (fun _ _ loaded => loaded.1) fun _ _ failed => ?_).finalState
    exact failed.elim And.left And.left
  refine ⟨fun access member => ?_, fun error failed => ?_, fun resolved succeeded => ?_,
    grows.cached⟩
  · rcases grows.allowed access member with earlier | allowed
    · rw [fresh] at earlier
      cases earlier
    · exact allowed
  · rw [Ends, show EStateM.run _ _ = _ from failed] at ends
    rcases ends with stopped | ⟨_, violates⟩
    · exact .inl stopped.2
    · exact .inr (violates known agrees)
  · rw [Ends, show EStateM.run _ _ = _ from succeeded] at ends
    exact ends.2 known agrees

theorem resolve_reads_listed_at_one_token :
    let schemaViolations : SchemaCheck Unit := fun _ _ => .ok []
    let result := (resolve Sample.registry schemaViolations Sample.outside Sample.plugins).run .new
    checkUnresolved Sample.registry schemaViolations Sample.plugins = .ok Sample.found ∧
      (finalState result).accesses ≠ [] ∧ succeeded result = true ∧
        ∀ access ∈ (finalState result).accesses,
          Allows Sample.found access.reader access.placeholder := by
  have checked : checkUnresolved Sample.registry (fun _ _ => .ok []) Sample.plugins =
      .ok Sample.found := by
    decide +kernel
  refine ⟨checked, by decide +kernel, by decide +kernel, ?_⟩
  exact (resolve_reads_listed _ _ _ _ checked Sample.outside .new rfl).1

end HiveGuard.Host
