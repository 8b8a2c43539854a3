import Mathlib

/-!
# Offset files

A file source keeps its read offset in a file named after the watched path.  The name is
made safe by lowering letters and replacing every other character by an underscore, which
paths can differ in.
-/

namespace HiveGuard.Sources

def sanitizeChar (char : Char) : Char :=
  if char.isAlphanum then char.toLower else '_'

/-- The key of a watched path; UTF-8 paths are shown as they are. -/
def sourceKey (kind path : List Char) : List Char :=
  kind ++ '_' :: path.map sanitizeChar

/-- `Path::join`: an absolute path replaces what it is joined to. -/
def joinPath (base part : List Char) : List Char :=
  if part.head? = some '/' then part
  else if base = [] ∨ base.getLast? = some '/' then base ++ part
  else base ++ '/' :: part

/-- The data directory that the loader gives to a plugin. -/
def pluginDataDir (dataDir id : List Char) : List Char :=
  joinPath (joinPath dataDir "plugins".toList) id

/-- The file in which a source saves its offset and from which it loads it. -/
def offsetFile (dataDir sourceName : List Char) : List Char :=
  joinPath (joinPath dataDir "offsets".toList) (sourceName ++ ".offset".toList)

/-- Characters that are the same letter or digit up to case, or are both neither. -/
def SameInKey (first second : Char) : Prop :=
  (first.isAlphanum = true ∧ second.isAlphanum = true ∧ first.toLower = second.toLower) ∨
    (first.isAlphanum = false ∧ second.isAlphanum = false)

/-- Paths that differ only in the case of letters and in which other characters stand
where. -/
def SamePathInKey (first second : List Char) : Prop :=
  List.Forall₂ SameInKey first second

theorem toLower_ne_underscore {char : Char} (alphanumeric : char.isAlphanum = true) :
    char.toLower ≠ '_' := by
  intro same
  rw [Char.toLower] at same
  split at same
  · rename_i upper
    have code := congrArg (fun char => char.val.toNat) same
    simp [UInt32.le_iff_toNat_le] at code upper
    omega
  · subst same
    simp at alphanumeric

theorem sanitizeChar_eq_iff {first second : Char} :
    sanitizeChar first = sanitizeChar second ↔ SameInKey first second := by
  cases firstKind : first.isAlphanum with
  | true =>
    have first_ne := toLower_ne_underscore firstKind
    cases secondKind : second.isAlphanum with
    | true => simp [sanitizeChar, SameInKey, firstKind, secondKind]
    | false => simp [sanitizeChar, SameInKey, firstKind, secondKind, first_ne]
  | false =>
    cases secondKind : second.isAlphanum with
    | true =>
      have second_ne := toLower_ne_underscore secondKind
      simp [sanitizeChar, SameInKey, firstKind, secondKind, second_ne.symm]
    | false => simp [sanitizeChar, SameInKey, firstKind, secondKind]

theorem sourceKey_eq_iff {kind first second : List Char} :
    sourceKey kind first = sourceKey kind second ↔ SamePathInKey first second := by
  rw [sourceKey, sourceKey, List.append_cancel_left_eq, List.cons.injEq, and_iff_right rfl,
    SamePathInKey, ← List.forall₂_eq_eq_eq, List.forall₂_map_left_iff,
    List.forall₂_map_right_iff]
  simp only [sanitizeChar_eq_iff]

theorem joinPath_left_injective {base first second : List Char}
    (sameStart : first.head? = second.head?)
    (joined : joinPath base first = joinPath base second) : first = second := by
  rw [joinPath, joinPath, sameStart] at joined
  split_ifs at joined with isAbsolute empty
  · exact joined
  · exact List.append_cancel_left joined
  · exact (List.cons.inj (List.append_cancel_left joined)).2

theorem head?_sourceKey (kind first second back : List Char) :
    (sourceKey kind first ++ back).head? = (sourceKey kind second ++ back).head? := by
  cases kind <;> rfl

/-- Sources of one kind that watch different paths have keys and offset files of their own,
exactly when the paths do not agree up to case and up to characters other than letters and
digits. -/
theorem offsets_separate_iff (kind first second : List Char) :
    (first ≠ second → sourceKey kind first ≠ sourceKey kind second ∧
      ∀ dataDir id, offsetFile (pluginDataDir dataDir id) (sourceKey kind first) ≠
        offsetFile (pluginDataDir dataDir id) (sourceKey kind second)) ↔
      (first ≠ second → ¬ SamePathInKey first second) := by
  refine imp_congr Iff.rfl ?_
  rw [← @sourceKey_eq_iff kind]
  constructor
  · exact fun separate => separate.1
  · intro different
    refine ⟨different, fun dataDir id same => different ?_⟩
    have joined := joinPath_left_injective (head?_sourceKey kind first second _) same
    exact List.append_cancel_right joined

/-- Two logs whose names differ in a hyphen share an offset file. -/
theorem offsets_shared :
    "/var/log/app-1.log" ≠ "/var/log/app_1.log" ∧
      sourceKey "nginx".toList "/var/log/app-1.log".toList =
        sourceKey "nginx".toList "/var/log/app_1.log".toList := by
  decide

end HiveGuard.Sources
