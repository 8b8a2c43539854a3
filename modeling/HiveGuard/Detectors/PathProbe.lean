import HiveGuard.Detectors.NetKey
import HiveGuard.Library.Utf8

/-!
# The detector of probed paths

A request is signalled at once if its target looks like a probe: it begins with one of the
paths, its path is one of the exact paths or has one of the segments, or its query holds one of
the patterns.  Segments are looked for again after the path is percent-decoded, and query
patterns after the query is decoded once and twice.

Positions are byte offsets.  A position that is inside a character, or an index that is out of
range, is a panic, for which the functions have no value.
-/

namespace HiveGuard.Detectors

open HiveGuard.Core Library.Text
open NetKey

/-! ## Percent-encoding -/

def hexDigit (char : Char) : Option Nat :=
  let code := char.toNat
  if 48 ≤ code ∧ code ≤ 57 then some (code - 48)
  else if 65 ≤ code ∧ code ≤ 70 then some (code - 55)
  else if 97 ≤ code ∧ code ≤ 102 then some (code - 87)
  else none

/-- The byte that two digits stand for. -/
def escapedByte (high low : Char) : Option UInt8 :=
  (hexDigit high).bind fun first => (hexDigit low).map fun second =>
    UInt8.ofNat (first * 16 + second)

/-- The bytes with every complete escape decoded. -/
def percentDecodeBytes : List UInt8 → List UInt8
  | first :: high :: low :: rest =>
    if first = 0x25 then
      match escapedByte (Char.ofNat high.toNat) (Char.ofNat low.toNat) with
      | some byte => byte :: percentDecodeBytes rest
      | none => first :: percentDecodeBytes (high :: low :: rest)
    else
      first :: percentDecodeBytes (high :: low :: rest)
  | first :: rest => first :: percentDecodeBytes rest
  | [] => []

-- What the lossy decoder makes of bytes that are not UTF-8.
variable (replaced : List UInt8 → List Char)

def percentDecode (text : List Char) : List Char :=
  let bytes := percentDecodeBytes (encode text)
  (decode bytes).getD (replaced bytes)

/-! ## The detector -/

/-- Which list a target is found in. -/
inductive MatchKind where
  | path
  | exactPath
  | pathSegment
  | queryPattern
  deriving DecidableEq

def MatchKind.text : MatchKind → List Char
  | .path => "path".toList
  | .exactPath => "exact path".toList
  | .pathSegment => "path segment".toList
  | .queryPattern => "query pattern".toList

def toAsciiLowercase (text : List Char) : List Char :=
  text.map Char.toLower

/-- The lists hold no empty segment and no empty query pattern. -/
structure PathProbeDetector where
  paths : List (List Char)
  segmentPaths : List (List Char)
  queryPatterns : List (List Char)
  exactPaths : List (List Char)
  banDuration : StdDuration
  ipv6Prefix : Fin 256
  segmentPaths_nonempty : [] ∉ segmentPaths
  queryPatterns_nonempty : [] ∉ queryPatterns

namespace PathProbeDetector

/-! ## Configuration -/

def withConfig (paths : List (List Char)) (banDuration : StdDuration) : PathProbeDetector where
  paths := paths
  segmentPaths := []
  queryPatterns := []
  exactPaths := []
  banDuration := banDuration
  ipv6Prefix := 128
  segmentPaths_nonempty := List.not_mem_nil
  queryPatterns_nonempty := List.not_mem_nil

/-- The patterns of a list in lower case, without white space around them. -/
def clean (patterns : List (List Char)) : List (List Char) :=
  (patterns.map fun pattern => toAsciiLowercase (trim pattern)).filter (!·.isEmpty)

theorem nil_notMem_clean (patterns : List (List Char)) : [] ∉ clean patterns := by
  rw [clean, List.mem_filter]
  rintro ⟨-, nonempty⟩
  cases nonempty

/-- A path without slashes at its end; the path of the root keeps its own. -/
def trimSlashes (path : List Char) : List Char :=
  let trimmed := path.rdropWhile (· == '/')
  if trimmed.isEmpty then "/".toList else trimmed

def withExtendedMatching (detector : PathProbeDetector)
    (segmentPaths queryPatterns exactPaths : List (List Char)) : PathProbeDetector :=
  { detector with
    segmentPaths := clean segmentPaths
    queryPatterns := clean queryPatterns
    exactPaths := (clean exactPaths).map trimSlashes
    segmentPaths_nonempty := nil_notMem_clean segmentPaths
    queryPatterns_nonempty := nil_notMem_clean queryPatterns }

/-! ## Segments -/

/-- The characters that may follow a segment. -/
def segmentEnds : List Char :=
  ['/', '.', '-', '_', '~']

/-- The occurrence at an offset starts a segment. -/
def startsSegment (pat pathLc : List Char) (start : Nat) : Option Bool :=
  if pat.head? == some '/' || start == 0 then some true
  else (encode pathLc)[start - 1]?.map (onByte (· == '/'))

/-- The occurrence before an offset ends a segment. -/
def endsOk (pat pathLc : List Char) (stop : Nat) : Option Bool :=
  if pat.getLast? == some '/' || stop == byteLength pathLc then some true
  else (encode pathLc)[stop]?.map (onByte (segmentEnds.contains ·))

/-- How far the search moves on behind the start of an occurrence. -/
def stride (pat : List Char) : Nat :=
  (pat.head?.map Char.utf8Size).getD 1

theorem stride_pos (pat : List Char) : 0 < stride pat := by
  cases pat with
  | nil => exact Nat.one_pos
  | cons char pat => exact char.utf8Size_pos

/-- Whether a pattern is a segment of the path from an offset on. -/
def segmentLoop (pat pathLc : List Char) (start : Nat) : Option Bool :=
  match sliceFrom pathLc start with
  | none => none
  | some rest =>
    match breakAt pat rest with
    | none => some false
    | some (before, _) =>
      let found := start + byteLength before
      (startsSegment pat pathLc found).bind fun starts =>
        (endsOk pat pathLc (found + byteLength pat)).bind fun ends =>
          if starts && ends then some true
          else if found + stride pat < byteLength pathLc then
            segmentLoop pat pathLc (found + stride pat)
          else some false
termination_by byteLength pathLc - start
decreasing_by
  have := stride_pos pat
  omega

/-- The first pattern that is a segment of the path. -/
def segmentMatch (pathLc : List Char) : List (List Char) → Option (Option (List Char))
  | [] => some none
  | pat :: patterns =>
    (segmentLoop pat pathLc 0).bind fun found =>
      if found then some (some pat) else segmentMatch pathLc patterns

/-! ## Targets -/

variable (detector : PathProbeDetector)

def matchesProbePath (requestPath : List Char) : Option (List Char) :=
  detector.paths.find? fun probe => probe.isPrefixOf requestPath

def exactMatch (pathLc : List Char) : Option (List Char) :=
  detector.exactPaths.find? (· == trimSlashes pathLc)

/-- Look for a segment in the path, and once more in the decoded path. -/
def pathMatch (pathLc : List Char) : Option (Option (List Char)) :=
  (segmentMatch pathLc detector.segmentPaths).bind fun found =>
    if found.isSome then some found
    else if pathLc.contains '%' then
      segmentMatch (toAsciiLowercase (percentDecode replaced pathLc)) detector.segmentPaths
    else some none

/-- Look for a pattern in the query, and in the query decoded once and twice. -/
def queryMatch (query : List Char) : Option (List Char) :=
  let raw := toAsciiLowercase query
  let once := toAsciiLowercase (percentDecode replaced raw)
  let twice := toAsciiLowercase (percentDecode replaced once)
  if query.isEmpty then none
  else detector.queryPatterns.find? fun pat =>
    decide (pat <:+: raw) || decide (pat <:+: once) || decide (pat <:+: twice)

/-- The path and the query of a target. -/
def splitTarget (target : List Char) : List Char × List Char :=
  (target.takeWhile (· != '?'), (target.dropWhile (· != '?')).tail)

/-- Which pattern, and of which kind, matches a target. -/
def matchTarget (target : List Char) : Option (Option (MatchKind × List Char)) :=
  match detector.matchesProbePath target with
  | some probe => some (some (.path, probe))
  | none =>
    if detector.segmentPaths.isEmpty && detector.queryPatterns.isEmpty &&
        detector.exactPaths.isEmpty then
      some none
    else
      let (path, query) := splitTarget target
      let pathLc := toAsciiLowercase (path.takeWhile (· != '#'))
      match detector.exactMatch pathLc with
      | some exact => some (some (.exactPath, exact))
      | none =>
        (detector.pathMatch replaced pathLc).map fun segment =>
          match segment with
          | some segment => some (.pathSegment, segment)
          | none => (detector.queryMatch replaced query).map fun pat => (.queryPattern, pat)

def computeEvidenceHash (env : SignalEnv) (ip : IpAddr) (path : List Char) : Vector UInt8 32 :=
  env.blake3 (encode (env.displayIp ip ++ ":path_probe:".toList ++ path))

def reason (env : SignalEnv) (kind : MatchKind) (pattern : List Char) (ip : IpAddr) : List Char :=
  if kind = .path then
    "Path probe: request to suspicious path '".toList ++ pattern ++ "' from ".toList ++
      env.displayIp ip
  else
    "Path probe: ".toList ++ kind.text ++ " '".toList ++ pattern ++
      "' matched in request from ".toList ++ env.displayIp ip

def signal (env : SignalEnv) (event : NormalizedEvent) (kind : MatchKind)
    (pattern : List Char) : DetectionSignal where
  sourceIp := sourceKey event.sourceIp detector.ipv6Prefix
  severity := 200
  -- The single-precision number next to 0.95.
  confidence := 15938355 / 2 ^ 24
  reason := reason env kind pattern event.sourceIp
  evidenceHash := computeEvidenceHash env event.sourceIp pattern
  suggestedAction := .ban detector.banDuration
  detectorName := "path_probe".toList
  timestamp := event.timestamp

def process (env : SignalEnv) (event : NormalizedEvent) : Option (Option DetectionSignal) :=
  if event.isHttp then
    match event.metadata.lookup "path".toList with
    | none => some none
    | some requestPath =>
      (detector.matchTarget replaced requestPath).map fun found =>
        found.map fun (kind, pattern) => detector.signal env event kind pattern
  else
    some none

/-! ## Segment matching is exact -/

/-- An occurrence between two parts of a path is a segment. -/
def Bounded (pat before after : List Char) : Prop :=
  (pat.head? = some '/' ∨ before = [] ∨ before.getLast? = some '/') ∧
    (pat.getLast? = some '/' ∨ after = [] ∨ ∃ char ∈ after.head?, char ∈ segmentEnds)

/-- Some occurrence of the pattern is a segment of the path. -/
def IsSegment (pat path : List Char) : Prop :=
  ∃ before after, path = before ++ pat ++ after ∧ Bounded pat before after

theorem startsSegment_append (pat before rest : List Char) :
    ∃ starts, startsSegment pat (before ++ rest) (byteLength before) = some starts ∧
      (starts = true ↔ pat.head? = some '/' ∨ before = [] ∨ before.getLast? = some '/') := by
  rw [startsSegment]
  by_cases sure : pat.head? = some '/' ∨ before = []
  · refine ⟨true, if_pos ?_, ?_⟩
    · rcases sure with slash | empty
      · simp [slash]
      · simp [empty]
    · rw [← or_assoc]
      exact iff_of_true rfl (.inl sure)
  · rw [not_or] at sure
    have later : byteLength before ≠ 0 := (byteLength_pos sure.2).ne'
    rw [if_neg (by simp [sure.1, later])]
    obtain ⟨init, last, rfl⟩ := (List.eq_nil_or_concat before).resolve_left sure.2
    rw [List.concat_eq_append] at *
    obtain ⟨byte, member, found⟩ := getElem?_encode_pred init last rest
    refine ⟨last == '/', ?_, ?_⟩
    · rw [found, Option.map_some, onByte_of_mem (asciiTest_beq (by decide)) member]
    · rw [or_iff_right sure.1, or_iff_right sure.2, List.getLast?_concat, beq_iff_eq,
        Option.some.injEq]

theorem endsOk_append (pat before after : List Char) :
    ∃ ends, endsOk pat (before ++ after) (byteLength before) = some ends ∧
      (ends = true ↔ pat.getLast? = some '/' ∨ after = [] ∨
        ∃ char ∈ after.head?, char ∈ segmentEnds) := by
  rw [endsOk]
  cases after with
  | nil =>
    refine ⟨true, if_pos ?_, iff_of_true rfl (.inr (.inl rfl))⟩
    rw [List.append_nil, beq_self_eq_true, Bool.or_true]
  | cons char after =>
    by_cases slash : pat.getLast? = some '/'
    · refine ⟨true, if_pos ?_, iff_of_true rfl (.inl slash)⟩
      simp [slash]
    · have inside : byteLength before ≠ byteLength (before ++ char :: after) := by
        have := byteLength_pos (List.cons_ne_nil char after)
        rw [byteLength_append]
        omega
      rw [if_neg (by simp [slash, inside])]
      obtain ⟨byte, member, found⟩ := getElem?_encode before char after
      refine ⟨segmentEnds.contains char, ?_, ?_⟩
      · rw [found, Option.map_some, onByte_of_mem (asciiTest_contains (by decide)) member]
      · rw [or_iff_right slash, or_iff_right (List.cons_ne_nil _ _), List.contains_iff_mem]
        simp

variable {pat path : List Char}

/-- The occurrences behind a part of the path: the first that is found, and those that start
behind its first character. -/
theorem occurrence_cases {char : Char} {text before after : List Char}
    {P : List Char → List Char → Prop}
    (found : breakAt (char :: pat) text = some (before, char :: pat ++ after)) :
    (∃ front back, text = front ++ (char :: pat) ++ back ∧ P front back) ↔
      P before after ∨ ∃ front back, pat ++ after = front ++ (char :: pat) ++ back ∧
        P (before ++ char :: front) back := by
  have text_eq := (breakAt_eq_some found).1
  constructor
  · rintro ⟨front, back, occurs, holds⟩
    obtain ⟨more, rfl⟩ := prefix_of_breakAt (List.cons_ne_nil _ _) found occurs
    rw [text_eq, List.append_assoc, List.append_assoc, List.append_cancel_left_eq] at occurs
    cases more with
    | nil =>
      rw [List.nil_append, List.append_cancel_left_eq] at occurs
      rw [List.append_nil, ← occurs] at holds
      exact .inl holds
    | cons first more =>
      obtain ⟨rfl, rest⟩ := List.cons.inj occurs
      exact .inr ⟨more, back, rest.trans (List.append_assoc _ _ _).symm, holds⟩
  · rintro (here | ⟨front, back, occurs, holds⟩)
    · refine ⟨before, after, ?_, here⟩
      rw [text_eq, List.append_assoc]
    · refine ⟨before ++ char :: front, back, ?_, holds⟩
      rw [text_eq, List.cons_append, occurs]
      simp

theorem segmentLoop_absent {front rest : List Char} (absent : breakAt pat rest = none) :
    segmentLoop pat (front ++ rest) (byteLength front) = some false := by
  rw [segmentLoop, sliceFrom_append]
  simp only [absent]

theorem segmentLoop_found {front rest before tail : List Char}
    (search : breakAt pat rest = some (before, tail)) {starts ends : Bool}
    (starts_eq : startsSegment pat (front ++ rest) (byteLength (front ++ before)) = some starts)
    (ends_eq : endsOk pat (front ++ rest) (byteLength (front ++ before ++ pat)) = some ends) :
    segmentLoop pat (front ++ rest) (byteLength front) = if starts && ends then some true
      else if byteLength (front ++ before) + stride pat < byteLength (front ++ rest) then
        segmentLoop pat (front ++ rest) (byteLength (front ++ before) + stride pat)
      else some false := by
  rw [byteLength_append] at starts_eq
  rw [byteLength_append, byteLength_append] at ends_eq
  rw [segmentLoop, sliceFrom_append]
  simp only [search, starts_eq, ends_eq, Option.bind_some, byteLength_append front before]

/-- The search finds out whether an occurrence behind a part of the path is a segment. -/
theorem segmentLoop_append (nonempty : pat ≠ []) (front rest : List Char) :
    ∃ found, segmentLoop pat (front ++ rest) (byteLength front) = some found ∧
      (found = true ↔ ∃ before after, rest = before ++ pat ++ after ∧
        Bounded pat (front ++ before) after) := by
  obtain ⟨char, pat, rfl⟩ := List.exists_cons_of_ne_nil nonempty
  -- The rest gets shorter by what is before the next occurrence and its first character.
  induction length_eq : rest.length using Nat.strong_induction_on generalizing front rest with
  | _ size ih =>
    cases search : breakAt (char :: pat) rest with
    | none =>
      refine ⟨false, segmentLoop_absent search, iff_of_false Bool.false_ne_true ?_⟩
      rintro ⟨before, after, rfl, -⟩
      exact breakAt_eq_none_iff.mp search (List.infix_append _ _ _)
    | some parts =>
      obtain ⟨before, tail⟩ := parts
      obtain ⟨rest_eq, after, rfl⟩ := breakAt_eq_some search
      obtain ⟨starts, starts_eq, starts_iff⟩ :=
        startsSegment_append (char :: pat) (front ++ before) (char :: pat ++ after)
      obtain ⟨ends, ends_eq, ends_iff⟩ :=
        endsOk_append (char :: pat) (front ++ before ++ char :: pat) after
      have startSplit : front ++ before ++ (char :: pat ++ after) = front ++ rest := by
        rw [rest_eq, List.append_assoc]
      have endSplit : front ++ before ++ char :: pat ++ after = front ++ rest := by
        rw [← startSplit, List.append_assoc (front ++ before)]
      have here : (starts && ends) = true ↔ Bounded (char :: pat) (front ++ before) after := by
        rw [Bool.and_eq_true, starts_iff, ends_iff, Bounded]
      have next : byteLength (front ++ before) + stride (char :: pat) =
          byteLength (front ++ before ++ [char]) := by
        rw [byteLength_append (front ++ before), byteLength_singleton]
        rfl
      have nextSplit : front ++ rest = front ++ before ++ [char] ++ (pat ++ after) := by
        rw [← startSplit]
        simp
      rw [startSplit] at starts_eq
      rw [endSplit] at ends_eq
      rw [segmentLoop_found search starts_eq ends_eq, next,
        @occurrence_cases _ _ _ _ _ (fun front' back => Bounded _ (front ++ front') back)
          search]
      by_cases found : (starts && ends) = true
      · rw [if_pos found]
        exact ⟨true, rfl, iff_of_true rfl (.inl (here.mp found))⟩
      rw [if_neg found, or_iff_right (mt here.mpr found)]
      obtain ⟨later, later_eq, later_iff⟩ := ih (pat ++ after).length
        (by rw [← length_eq, rest_eq]; simp; omega) (front ++ before ++ [char])
        (pat ++ after) rfl
      rw [nextSplit]
      split
      · refine ⟨later, later_eq, later_iff.trans ?_⟩
        simp only [List.append_assoc, List.singleton_append]
      · rename_i atEnd
        have nothing : pat ++ after = [] := by
          by_contra more
          have := byteLength_pos more
          rw [byteLength_append _ (pat ++ after)] at atEnd
          omega
        refine ⟨false, rfl, iff_of_false Bool.false_ne_true ?_⟩
        rintro ⟨front', back, occurs, -⟩
        rw [nothing] at occurs
        simp at occurs

theorem segmentLoop_zero (nonempty : pat ≠ []) (path : List Char) :
    ∃ found, segmentLoop pat path 0 = some found ∧ (found = true ↔ IsSegment pat path) :=
  segmentLoop_append nonempty [] path

open Classical in
theorem segmentMatch_eq_find? {patterns : List (List Char)} (nonempty : [] ∉ patterns)
    (path : List Char) :
    segmentMatch path patterns = some (patterns.find? fun pat => decide (IsSegment pat path)) := by
  induction patterns with
  | nil => rfl
  | cons first patterns ih =>
    rw [List.mem_cons, not_or] at nonempty
    obtain ⟨here, here_eq, here_iff⟩ := segmentLoop_zero (Ne.symm nonempty.1) path
    rw [segmentMatch, here_eq, Option.bind_some]
    by_cases isSegment : IsSegment first path
    · rw [if_pos (here_iff.mpr isSegment), List.find?_cons_of_pos (by simpa using isSegment)]
    · rw [if_neg (mt here_iff.mp isSegment), ih nonempty.2,
        List.find?_cons_of_neg (by simpa using isSegment)]

/-- Segment matching is exact: it never panics and returns the first pattern that is a segment
of the path. -/
theorem segmentMatch_is_exact (patterns : List (List Char)) (path : List Char)
    (nonempty : [] ∉ patterns) : ∃ found, segmentMatch path patterns = some found ∧
      (∀ pat, found = some pat ↔ IsSegment pat path ∧ ∃ earlier later,
        patterns = earlier ++ pat :: later ∧ ∀ other ∈ earlier, ¬IsSegment other path) ∧
      (found = none ↔ ∀ pat ∈ patterns, ¬IsSegment pat path) := by
  classical
  refine ⟨_, segmentMatch_eq_find? nonempty path, ?_, ?_⟩
  · intro pat
    rw [List.find?_eq_some_iff_append]
    simp
  · rw [List.find?_eq_none]
    simp

theorem segmentMatch_is_exact_at_overlap : ∃ found,
    segmentMatch "/aa/aa".toList ["a/aa".toList, "aa".toList] = some found ∧
      (∀ pat, found = some pat ↔ IsSegment pat "/aa/aa".toList ∧ ∃ earlier later,
        ["a/aa".toList, "aa".toList] = earlier ++ pat :: later ∧
          ∀ other ∈ earlier, ¬IsSegment other "/aa/aa".toList) ∧ (found = none ↔
        ∀ pat ∈ ["a/aa".toList, "aa".toList], ¬IsSegment pat "/aa/aa".toList) :=
  segmentMatch_is_exact ["a/aa".toList, "aa".toList] "/aa/aa".toList (by decide)

/-! ## What is signalled -/

/-- A pattern is a segment of a path, as it is or decoded. -/
def OnPath (path pat : List Char) : Prop :=
  IsSegment pat path ∨ '%' ∈ path ∧ IsSegment pat (toAsciiLowercase (percentDecode replaced path))

/-- A pattern occurs in a query, as it is or decoded once or twice. -/
def InQuery (query pat : List Char) : Prop :=
  let once := toAsciiLowercase (percentDecode replaced query)
  pat <:+: query ∨ pat <:+: once ∨ pat <:+: toAsciiLowercase (percentDecode replaced once)

/-- A target that looks like a probe. -/
def IsProbe (target : List Char) : Prop :=
  let path := toAsciiLowercase ((splitTarget target).1.takeWhile (· != '#'))
  (∃ probe ∈ detector.paths, probe <+: target) ∨ trimSlashes path ∈ detector.exactPaths ∨
    (∃ pat ∈ detector.segmentPaths, OnPath replaced path pat) ∨
    ∃ pat ∈ detector.queryPatterns, InQuery replaced (toAsciiLowercase (splitTarget target).2) pat

theorem pathMatch_isSome_iff (path : List Char) : ∃ found,
    detector.pathMatch replaced path = some found ∧
      (found.isSome ↔ ∃ pat ∈ detector.segmentPaths, OnPath replaced path pat) := by
  classical
  simp only [pathMatch, segmentMatch_eq_find? detector.segmentPaths_nonempty, Option.bind_some]
  by_cases raw : ∃ pat ∈ detector.segmentPaths, IsSegment pat path
  · refine ⟨_, if_pos (by simpa using raw), iff_of_true (by simpa using raw) ?_⟩
    exact raw.imp fun pat => And.imp_right .inl
  · rw [if_neg (by simpa using raw)]
    split <;> refine ⟨_, rfl, ?_⟩ <;> grind [OnPath]

theorem queryMatch_isSome_iff (query : List Char) : (detector.queryMatch replaced query).isSome ↔
    ∃ pat ∈ detector.queryPatterns, InQuery replaced (toAsciiLowercase query) pat := by
  rw [queryMatch]
  cases query with
  | nil =>
    -- Nothing decodes to nothing, and no pattern is empty.
    refine iff_of_false Bool.false_ne_true ?_
    rintro ⟨pat, member, occurs⟩
    have empty : pat = [] := by
      rcases occurs with raw | once | twice
      · exact List.infix_nil.mp raw
      · exact List.infix_nil.mp once
      · exact List.infix_nil.mp twice
    exact detector.queryPatterns_nonempty (empty ▸ member)
  | cons char query => simp [InQuery, or_assoc]

theorem matchTarget_isSome_iff (target : List Char) :
    ∃ found, detector.matchTarget replaced target = some found ∧
      (found.isSome ↔ detector.IsProbe replaced target) := by
  rw [matchTarget, IsProbe]
  cases search : detector.matchesProbePath target with
  | some probe =>
    rw [matchesProbePath] at search
    refine ⟨_, rfl, iff_of_true rfl (.inl ⟨probe, List.mem_of_find?_eq_some search, ?_⟩)⟩
    exact List.isPrefixOf_iff_prefix.mp (List.find?_some search :)
  | none =>
    rw [or_iff_right (by simpa [matchesProbePath] using search)]
    dsimp only
    split
    · exact ⟨none, rfl, by simp_all⟩
    · cases exact_eq : detector.exactMatch _ with
      | some exact =>
        have found := List.find?_some exact_eq
        have member := List.mem_of_find?_eq_some exact_eq
        exact ⟨_, rfl, iff_of_true rfl (.inl (eq_of_beq found ▸ member))⟩
      | none =>
        obtain ⟨segment, segment_eq, segment_iff⟩ := detector.pathMatch_isSome_iff replaced
          (toAsciiLowercase ((splitTarget target).1.takeWhile (· != '#')))
        rw [or_iff_right (by grind [exactMatch]), segment_eq, ← queryMatch_isSome_iff,
          ← segment_iff]
        refine ⟨_, rfl, ?_⟩
        cases segment <;> simp

/-- No event makes the detector panic, and it signals exactly the requests whose target looks
like a probe. -/
theorem process_signals_iff (env : SignalEnv) (event : NormalizedEvent) :
    ∃ answer, detector.process replaced env event = some answer ∧
      (answer.isSome ↔ event.isHttp ∧
        ∃ target ∈ event.metadata.lookup "path".toList, detector.IsProbe replaced target) := by
  rw [process]
  split
  · rename_i http
    cases event.metadata.lookup "path".toList with
    | none => exact ⟨none, rfl, by simp⟩
    | some target =>
      obtain ⟨found, found_eq, found_iff⟩ := detector.matchTarget_isSome_iff replaced target
      simp only [found_eq]
      exact ⟨_, rfl, by simp [http, found_iff]⟩
  · rename_i other
    exact ⟨none, rfl, by simp [other]⟩

end PathProbeDetector

end HiveGuard.Detectors
