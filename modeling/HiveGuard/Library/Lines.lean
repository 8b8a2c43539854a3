import Mathlib

/-!
# Lines

A stream read up to and including each separator falls into pieces.  Every piece but
the last one ends with the separator, and no piece has one inside.  The module is
about any type of units with one of them as the separator.
-/

namespace HiveGuard.Library.Lines

variable {α : Type}

/-- The pieces of a stream, each up to and including the next separator. -/
def splitInclusive [DecidableEq α] (separator : α) : List α → List (List α)
  | [] => []
  | unit :: units =>
    if unit = separator then
      [unit] :: splitInclusive separator units
    else
      match splitInclusive separator units with
      | [] => [[unit]]
      | piece :: pieces => (unit :: piece) :: pieces

variable {separator : α}

/-- A stream determines its text up to the first separator. -/
theorem append_separator_inj {first second rest rest' : List α}
    (clean : separator ∉ first) (clean' : separator ∉ second) :
    first ++ separator :: rest = second ++ separator :: rest' ↔ first = second ∧ rest = rest' := by
  constructor
  · intro same
    rcases List.append_eq_append_iff.mp same with ⟨between, rfl, tail_eq⟩ | ⟨between, rfl, tail_eq⟩
    · cases between with
      | nil => simpa using tail_eq
      | cons unit between => exact absurd (by simp [(List.cons.inj tail_eq).1]) clean'
    · cases between with
      | nil => simpa using tail_eq.symm
      | cons unit between => exact absurd (by simp [(List.cons.inj tail_eq).1]) clean
  · rintro ⟨rfl, rfl⟩
    rfl

/-- What the pieces of a stream look like. -/
inductive IsLines (separator : α) : List (List α) → Prop where
  | nil : IsLines separator []
  | unterminated {body : List α} (clean : separator ∉ body) (nonempty : body ≠ []) :
      IsLines separator [body]
  | cons {body : List α} {pieces : List (List α)} (clean : separator ∉ body)
      (rest : IsLines separator pieces) : IsLines separator ((body ++ [separator]) :: pieces)

variable {piece units : List α} {pieces : List (List α)}

theorem IsLines.tail
    (lines : IsLines separator (piece :: pieces)) : IsLines separator pieces := by
  cases lines with
  | unterminated => exact .nil
  | cons clean rest => exact rest

/-- A line with the separator that ends it. -/
def IsLine (separator : α) (piece : List α) : Prop :=
  ∃ body, separator ∉ body ∧ piece = body ++ [separator]

/-- Only the last piece can be without an end. -/
theorem IsLines.isLine_of_mem {front : List (List α)}
    {back : List (List α)} (lines : IsLines separator (front ++ piece :: back)) :
    ∀ line ∈ front, IsLine separator line := by
  induction front with
  | nil => exact List.forall_mem_nil _
  | cons first front ih =>
    rw [List.forall_mem_cons]
    refine ⟨?_, ih lines.tail⟩
    rw [List.cons_append] at lines
    generalize rest : front ++ piece :: back = others at lines
    cases lines with
    | unterminated => simp at rest
    | cons clean => exact ⟨_, clean, rfl⟩

theorem isLines_of_forall
    (areLines : ∀ piece ∈ pieces, IsLine separator piece) : IsLines separator pieces := by
  induction pieces with
  | nil => exact .nil
  | cons piece pieces ih =>
    rw [List.forall_mem_cons] at areLines
    obtain ⟨body, clean, rfl⟩ := areLines.1
    exact .cons clean (ih areLines.2)

section Split

variable [DecidableEq α] {separator : α}

theorem isLines_splitInclusive (separator : α) (units : List α) :
    IsLines separator (splitInclusive separator units) := by
  induction units with
  | nil => exact .nil
  | cons unit units ih =>
    rw [splitInclusive]
    split
    · rename_i same
      rw [same]
      exact @IsLines.cons _ separator [] _ (by simp) ih
    · rename_i different
      cases pieces : splitInclusive separator units with
      | nil => exact .unterminated (by simp [Ne.symm different]) (by simp)
      | cons piece rest =>
        rw [pieces] at ih
        cases ih with
        | unterminated clean nonempty =>
          exact .unterminated (by simp [Ne.symm different, clean]) (by simp)
        | cons clean rest =>
          exact @IsLines.cons _ separator (unit :: _) _
            (by simp [Ne.symm different, clean]) rest

@[simp]
theorem flatten_splitInclusive (separator : α) (units : List α) :
    (splitInclusive separator units).flatten = units := by
  induction units with
  | nil => rfl
  | cons unit units ih =>
    rw [splitInclusive]
    split
    · rw [List.flatten_cons, ih, List.singleton_append]
    · split
      · rename_i pieces
        rw [pieces] at ih
        rw [← ih]
        rfl
      · rename_i pieces
        rw [pieces] at ih
        rw [← ih]
        rfl

theorem splitInclusive_ne_nil {units : List α} (nonempty : units ≠ []) :
    splitInclusive separator units ≠ [] := by
  intro nothing
  have whole := flatten_splitInclusive separator units
  rw [nothing] at whole
  exact nonempty whole.symm

end Split

/-! ## Finished lines -/

/-- Nothing, or a stream whose last unit is the separator. -/
def EndsLine (separator : α) (units : List α) : Prop :=
  ∀ last ∈ units.getLast?, last = separator

theorem endsLine_nil (separator : α) : EndsLine separator [] := by
  simp [EndsLine]

theorem endsLine_concat (separator : α) (body : List α) :
    EndsLine separator (body ++ [separator]) := by
  intro last member
  simpa using member.symm

theorem EndsLine.tail {unit : α}
    (ends : EndsLine separator (unit :: units)) : EndsLine separator units := by
  cases units with
  | nil => exact endsLine_nil separator
  | cons next units => exact ends

theorem EndsLine.append {front back : List α} (first : EndsLine separator front)
    (second : EndsLine separator back) : EndsLine separator (front ++ back) := by
  intro last member
  rw [List.getLast?_append] at member
  cases found : back.getLast? with
  | none =>
    rw [found] at member
    exact first last member
  | some unit =>
    rw [found] at member
    exact second last (found ▸ member)

theorem endsLine_flatten
    (areLines : ∀ piece ∈ pieces, IsLine separator piece) :
    EndsLine separator pieces.flatten := by
  induction pieces with
  | nil => exact endsLine_nil separator
  | cons piece pieces ih =>
    rw [List.forall_mem_cons] at areLines
    rcases areLines.1 with ⟨body, -, rfl⟩
    rw [List.flatten_cons]
    exact (endsLine_concat separator body).append (ih areLines.2)

section Finished

variable [DecidableEq α] {separator : α}

/-- Behind a separator the pieces start anew. -/
theorem splitInclusive_append {front : List α} (ends : EndsLine separator front) (back : List α) :
    splitInclusive separator (front ++ back) =
      splitInclusive separator front ++ splitInclusive separator back := by
  induction front with
  | nil => rfl
  | cons unit front ih =>
    have rest := ih ends.tail
    rw [List.cons_append, splitInclusive, splitInclusive, rest]
    split
    · rfl
    · rename_i different
      have nonempty : front ≠ [] := by
        rintro rfl
        exact different (ends unit rfl)
      cases pieces : splitInclusive separator front with
      | nil => exact absurd pieces (splitInclusive_ne_nil nonempty)
      | cons piece pieces => rfl

variable {body units : List α}

theorem splitInclusive_line (clean : separator ∉ body) :
    splitInclusive separator (body ++ [separator]) = [body ++ [separator]] := by
  induction body with
  | nil => exact if_pos rfl
  | cons unit body ih =>
    rw [List.mem_cons, not_or] at clean
    rw [List.cons_append, splitInclusive, if_neg (Ne.symm clean.1), ih clean.2]

theorem splitInclusive_of_not_mem (clean : separator ∉ body)
    (nonempty : body ≠ []) : splitInclusive separator body = [body] := by
  induction body with
  | nil => exact absurd rfl nonempty
  | cons unit body ih =>
    rw [List.mem_cons, not_or] at clean
    rw [splitInclusive, if_neg (Ne.symm clean.1)]
    cases body with
    | nil => rfl
    | cons next body => rw [ih clean.2 (List.cons_ne_nil _ _)]

/-- Pieces that look like those of a stream are those of their stream. -/
theorem IsLines.splitInclusive_flatten {pieces : List (List α)}
    (lines : IsLines separator pieces) : splitInclusive separator pieces.flatten = pieces := by
  induction lines with
  | nil => rfl
  | unterminated clean nonempty =>
    rw [List.flatten_cons, List.flatten_nil, List.append_nil,
      splitInclusive_of_not_mem clean nonempty]
  | @cons body pieces clean rest ih =>
    rw [List.flatten_cons, splitInclusive_append (endsLine_concat separator body),
      splitInclusive_line clean, ih]
    rfl

/-- The lines of a stream that have an end, without it. -/
def finished (separator : α) (units : List α) : List (List α) :=
  ((splitInclusive separator units).filter (·.getLast? == some separator)).map List.dropLast

theorem finished_append {front : List α} (ends : EndsLine separator front) (back : List α) :
    finished separator (front ++ back) = finished separator front ++ finished separator back := by
  rw [finished, splitInclusive_append ends, List.filter_append, List.map_append]
  rfl

theorem finished_of_not_mem (absent : separator ∉ units) :
    finished separator units = [] := by
  have none_ends : ∀ piece ∈ splitInclusive separator units,
      (piece.getLast? == some separator) = false := by
    intro piece member
    rw [beq_eq_false_iff_ne]
    intro ends
    apply absent
    rw [← flatten_splitInclusive separator units]
    exact List.mem_flatten.mpr ⟨piece, member, List.mem_of_getLast? ends⟩
  rw [finished, List.filter_eq_nil_iff.mpr fun piece member => by simp [none_ends piece member],
    List.map_nil]

theorem finished_flatten {pieces : List (List α)}
    (areLines : ∀ piece ∈ pieces, IsLine separator piece) :
    finished separator pieces.flatten = pieces.map List.dropLast := by
  induction pieces with
  | nil => rfl
  | cons piece pieces ih =>
    rw [List.forall_mem_cons] at areLines
    rcases areLines.1 with ⟨body, clean, rfl⟩
    rw [List.flatten_cons, finished_append (endsLine_concat separator body),
      ih areLines.2, finished, splitInclusive_line clean]
    simp

theorem splitInclusive_eq_cons (present : separator ∈ units) :
    ∃ piece pieces, splitInclusive separator units = piece :: pieces ∧
      IsLine separator piece ∧ IsLines separator pieces ∧ units = piece ++ pieces.flatten := by
  rcases List.eq_append_cons_of_mem present with ⟨body, rest, rfl, clean⟩
  refine ⟨body ++ [separator], splitInclusive separator rest, ?_, ⟨body, clean, rfl⟩,
    isLines_splitInclusive separator rest, ?_⟩
  · rw [List.append_cons, splitInclusive_append (endsLine_concat separator body),
      splitInclusive_line clean, List.singleton_append]
  · rw [flatten_splitInclusive, List.append_cons]

/-- Every finished line stands in the stream, from a line start up to a separator. -/
theorem mem_finished (member : body ∈ finished separator units) :
    ∃ before after, units = before ++ (body ++ separator :: after) ∧
      EndsLine separator before ∧ separator ∉ body := by
  rw [finished] at member
  conv in units = _ => rw [← flatten_splitInclusive separator units]
  have lines := isLines_splitInclusive separator units
  generalize splitInclusive separator units = pieces at member lines
  induction lines with
  | nil => cases member
  | @unterminated first clean nonempty =>
    have open_ : (first.getLast? == some separator) = false :=
      beq_eq_false_iff_ne.mpr fun ends => clean (List.mem_of_getLast? ends)
    rw [List.filter_cons, open_] at member
    cases member
  | @cons first pieces clean rest ih =>
    rw [List.filter_cons_of_pos (by simp), List.map_cons, List.dropLast_concat,
      List.mem_cons] at member
    rcases member with rfl | later
    · exact ⟨[], pieces.flatten, by simp, endsLine_nil separator, clean⟩
    · rcases ih later with ⟨before, after, split, endsBefore, cleanBody⟩
      refine ⟨first ++ [separator] ++ before, after, ?_, ?_, cleanBody⟩
      · rw [List.flatten_cons, split]
        simp only [List.append_assoc]
      · exact (endsLine_concat separator _).append endsBefore

/-- What follows the last separator of a stream. -/
def unfinished (separator : α) (units : List α) : List α :=
  ((splitInclusive separator units).filter (·.getLast? != some separator)).flatten

/-- The pieces are the finished lines, and what follows them if there is anything. -/
theorem splitInclusive_eq (separator : α) (units : List α) :
    splitInclusive separator units = (finished separator units).map (· ++ [separator]) ++
      if unfinished separator units = [] then [] else [unfinished separator units] := by
  rw [finished, unfinished]
  have lines := isLines_splitInclusive separator units
  generalize splitInclusive separator units = pieces at lines
  induction lines with
  | nil => rfl
  | @unterminated body clean nonempty =>
    have open_ : body.getLast? ≠ some separator :=
      fun ends => clean (List.mem_of_getLast? ends)
    simp [open_, nonempty]
  | @cons body pieces clean rest ih =>
    rw [List.filter_cons_of_pos (by simp), List.filter_cons_of_neg (by simp), List.map_cons,
      List.map_cons, List.dropLast_concat, List.cons_append, ← ih]

theorem finished_append_unfinished (separator : α) (units : List α) :
    units = ((finished separator units).map (· ++ [separator])).flatten ++
      unfinished separator units := by
  conv_lhs => rw [← flatten_splitInclusive separator units, splitInclusive_eq]
  rw [List.flatten_append]
  split
  · rename_i nothing
    rw [nothing]
    rfl
  · simp

theorem not_mem_of_mem_finished (member : body ∈ finished separator units) :
    separator ∉ body := by
  rcases mem_finished member with ⟨-, -, -, -, clean⟩
  exact clean

theorem not_mem_unfinished (separator : α) (units : List α) :
    separator ∉ unfinished separator units := by
  rw [unfinished]
  have lines := isLines_splitInclusive separator units
  generalize splitInclusive separator units = pieces at lines
  induction lines with
  | nil => exact List.not_mem_nil
  | @unterminated body clean nonempty =>
    have open_ : body.getLast? ≠ some separator :=
      fun ends => clean (List.mem_of_getLast? ends)
    simpa [open_] using clean
  | @cons body pieces clean rest ih =>
    rw [List.filter_cons_of_neg (by simp)]
    exact ih

end Finished

/-! ## Positions -/

section Positioned

variable (size : List α → Nat)

/-- Pieces with the positions at which they start, the first at a given one. -/
def positioned : Nat → List (List α) → List (Nat × List α)
  | _, [] => []
  | start, piece :: pieces => (start, piece) :: positioned (start + size piece) pieces

variable {size}

theorem mem_positioned_iff {start position : Nat} {piece : List α} {pieces : List (List α)} :
    (position, piece) ∈ positioned size start pieces ↔
      ∃ before after, pieces = before ++ piece :: after ∧
        position = start + (before.map size).sum := by
  induction pieces generalizing start with
  | nil => simp [positioned]
  | cons first pieces ih =>
    rw [positioned, List.mem_cons, ih, Prod.mk.injEq]
    constructor
    · rintro (⟨rfl, rfl⟩ | ⟨before, after, rfl, rfl⟩)
      · exact ⟨[], pieces, rfl, rfl⟩
      · exact ⟨first :: before, after, rfl, by rw [List.map_cons, List.sum_cons]; omega⟩
    · rintro ⟨before, after, split, rfl⟩
      cases before with
      | nil =>
        obtain ⟨rfl, rfl⟩ := List.cons.inj split
        exact .inl ⟨rfl, rfl⟩
      | cons other before =>
        obtain ⟨rfl, rfl⟩ := List.cons.inj split
        exact .inr ⟨before, after, rfl, by rw [List.map_cons, List.sum_cons]; omega⟩

theorem map_snd_positioned (start : Nat) (pieces : List (List α)) :
    (positioned size start pieces).map Prod.snd = pieces := by
  induction pieces generalizing start with
  | nil => rfl
  | cons piece pieces ih =>
    rw [positioned, List.map_cons, ih]

theorem positioned_append (start : Nat) (front back : List (List α)) :
    positioned List.length start (front ++ back) = positioned List.length start front ++
      positioned List.length (start + front.flatten.length) back := by
  induction front generalizing start with
  | nil => rfl
  | cons piece front ih =>
    rw [List.cons_append, positioned, ih, positioned, List.flatten_cons,
      List.length_append, Nat.add_assoc]
    rfl

end Positioned

/-- The lines behind a position that have an end, each with its own position. -/
def linesFrom [DecidableEq α] (separator : α) (units : List α) (start : Nat) :
    List (Nat × List α) :=
  (positioned List.length start (splitInclusive separator (units.drop start))).filter
    fun line => line.2.getLast? == some separator

section LinesFrom

variable [DecidableEq α] {separator : α} {units : List α}

variable {start : Nat}

theorem linesFrom_of_lines {taken rest : List (List α)}
    (split : splitInclusive separator (units.drop start) = taken ++ rest)
    (areLines : ∀ piece ∈ taken, IsLine separator piece) :
    linesFrom separator units start = positioned List.length start taken ++
      linesFrom separator units (start + taken.flatten.length) := by
  have ends := endsLine_flatten areLines
  have stream : units.drop start = taken.flatten ++ rest.flatten := by
    rw [← flatten_splitInclusive separator (units.drop start), split, List.flatten_append]
  have rest_eq : splitInclusive separator (units.drop (start + taken.flatten.length)) = rest := by
    have whole : splitInclusive separator taken.flatten ++ splitInclusive separator rest.flatten =
        taken ++ rest := by
      rw [← splitInclusive_append ends, ← stream, split]
    rw [← List.drop_drop, stream, List.drop_left]
    rw [(isLines_of_forall areLines).splitInclusive_flatten] at whole
    exact List.append_cancel_left whole
  have kept : (positioned List.length start taken).filter
      (fun line => line.2.getLast? == some separator) = positioned List.length start taken := by
    rw [List.filter_eq_self]
    rintro ⟨position, piece⟩ member
    obtain ⟨before, after, rfl, -⟩ := mem_positioned_iff.mp member
    obtain ⟨body, -, rfl⟩ := areLines piece (by simp)
    simp
  rw [linesFrom, split, positioned_append, List.filter_append, kept, linesFrom, rest_eq]

theorem linesFrom_of_not_mem (absent : separator ∉ units.drop start) :
    linesFrom separator units start = [] := by
  rw [linesFrom, List.filter_eq_nil_iff]
  rintro ⟨position, piece⟩ member ends
  apply absent
  rw [← flatten_splitInclusive separator (units.drop start)]
  obtain ⟨before, after, split, -⟩ := mem_positioned_iff.mp member
  rw [split]
  refine List.mem_flatten.mpr ⟨piece, by simp, List.mem_of_getLast? (eq_of_beq ends)⟩

end LinesFrom

/-- The part of a stream between two positions. -/
def between (units : List α) (start stop : Nat) : List α :=
  (units.take stop).drop start

variable {start stop : Nat}

theorem between_of_le (units : List α) (ordered : stop ≤ start) :
    between units start stop = [] := by
  rw [between, List.drop_eq_nil_iff]
  exact (List.length_take_le stop units).trans ordered

theorem between_prefix_drop (units : List α) (start stop : Nat) :
    between units start stop <+: units.drop start := by
  rw [between]
  exact (List.take_prefix stop units).drop start

theorem between_append {middle : Nat} (first : start ≤ middle)
    (second : middle ≤ stop) :
    between units start stop = between units start middle ++ between units middle stop := by
  have split : units.take stop = units.take middle ++ (units.take stop).drop middle := by
    conv_lhs => rw [← List.take_append_drop middle (units.take stop)]
    rw [List.take_take, Nat.min_eq_left second]
  by_cases inside : start ≤ (units.take middle).length
  · rw [between, split, List.drop_append_of_le_length inside]
    rfl
  · have short : units.length < start := by
      rw [List.length_take] at inside
      omega
    have nothing : ∀ stop, between units start stop = [] := by
      intro stop
      rw [between, List.drop_eq_nil_iff, List.length_take]
      omega
    rw [nothing, nothing, between, List.drop_eq_nil_iff.mpr, List.nil_append]
    rw [List.length_take]
    omega

theorem between_extend {longer : List α} (grows : units <+: longer)
    (inside : stop ≤ units.length) (start : Nat) :
    between longer start stop = between units start stop := by
  rcases grows with ⟨more, rfl⟩
  rw [between, List.take_append_of_le_length inside]
  rfl

theorem between_subset {longer : List α} (grows : units <+: longer)
    {start' stop' : Nat} (first : start ≤ start') (second : stop ≤ stop') :
    between units start' stop ⊆ between longer start stop' := by
  have later : between units start' stop ⊆ between units start stop :=
    (List.drop_suffix_drop_left _ first).subset
  have wider : units.take stop <+: longer.take stop' :=
    (grows.take stop).trans (List.take_prefix_take_left second)
  exact List.Subset.trans later (wider.drop start).subset

theorem between_length (units : List α) (start : Nat) :
    between units start units.length = units.drop start := by
  rw [between, List.take_length]

/-- A position at the start of the stream or directly behind a separator. -/
def LineStart (separator : α) (units : List α) (position : Nat) : Prop :=
  position ≤ units.length ∧ EndsLine separator (units.take position)

section LineStart

variable {separator : α} {units : List α} {position : Nat}

theorem lineStart_zero (separator : α) (units : List α) : LineStart separator units 0 :=
  ⟨Nat.zero_le _, endsLine_nil separator⟩

theorem LineStart.extend (starts : LineStart separator units position) {longer : List α}
    (grows : units <+: longer) : LineStart separator longer position := by
  rcases grows with ⟨more, rfl⟩
  refine ⟨starts.1.trans (by simp), ?_⟩
  rw [List.take_append_of_le_length starts.1]
  exact starts.2

/-- Reading whole lines from a line start leads to a line start. -/
theorem LineStart.add (starts : LineStart separator units position) {front back : List α}
    (split : units.drop position = front ++ back) (ends : EndsLine separator front) :
    LineStart separator units (position + front.length) ∧
      between units position (position + front.length) = front := by
  have part : between units position (position + front.length) = front := by
    rw [between, List.drop_take, split, Nat.add_sub_cancel_left, List.take_left]
  have length_eq := congrArg List.length split
  rw [List.length_drop, List.length_append] at length_eq
  have inside := starts.1
  refine ⟨⟨by omega, ?_⟩, part⟩
  have whole : between units 0 (position + front.length) =
      between units 0 position ++ between units position (position + front.length) :=
    between_append (Nat.zero_le position) (Nat.le_add_right position front.length)
  rw [part, between, List.drop_zero] at whole
  rw [whole]
  exact starts.2.append ends

theorem lineStart_add_line {line back : List α} (split : units.drop position = line ++ back)
    (isLine : IsLine separator line) : LineStart separator units (position + line.length) := by
  rcases isLine with ⟨body, -, rfl⟩
  have length_eq := congrArg List.length split
  rw [List.length_drop, List.length_append, List.length_append, List.length_singleton] at length_eq
  have whole : units.take (position + (body ++ [separator]).length) =
      units.take position ++ (body ++ [separator]) := by
    rw [List.take_add, split, List.take_left]
  refine ⟨by rw [List.length_append, List.length_singleton]; omega, ?_⟩
  rw [whole, ← List.append_assoc]
  exact endsLine_concat separator _

theorem LineStart.endsLine_between (starts : LineStart separator units position) (start : Nat) :
    EndsLine separator (between units start position) := by
  intro last member
  rw [between, List.getLast?_drop] at member
  split at member
  · cases member
  · exact starts.2 last member

/-- Behind the last separator is a line start, and up to there stand all finished lines. -/
theorem LineStart.behind_finished [DecidableEq α] (starts : LineStart separator units position)
    {stop : Nat}
    (behind : stop + (unfinished separator (units.drop position)).length = units.length) :
    position ≤ stop ∧ LineStart separator units stop ∧
      finished separator (between units position stop) =
        finished separator (units.drop position) := by
  have split := finished_append_unfinished separator (units.drop position)
  have areLines : ∀ piece ∈ (finished separator (units.drop position)).map (· ++ [separator]),
      IsLine separator piece := by
    intro piece member
    rcases List.mem_map.mp member with ⟨body, isBody, rfl⟩
    exact ⟨body, not_mem_of_mem_finished isBody, rfl⟩
  have lengths := congrArg List.length split
  rw [List.length_drop, List.length_append] at lengths
  have inside := starts.1
  rcases starts.add split (endsLine_flatten areLines) with ⟨starts', part⟩
  have stop_eq : stop = position +
      ((finished separator (units.drop position)).map (· ++ [separator])).flatten.length := by
    omega
  rw [stop_eq]
  refine ⟨Nat.le_add_right _ _, starts', ?_⟩
  rw [part, finished_flatten areLines, List.map_map]
  simp [Function.comp_def]

theorem LineStart.finished_between [DecidableEq α] (starts : LineStart separator units position)
    {start stop : Nat} (first : start ≤ position) (second : position ≤ stop) :
    finished separator (between units start stop) =
      finished separator (between units start position) ++
        finished separator (between units position stop) := by
  rw [between_append first second, finished_append (starts.endsLine_between start)]

end LineStart

end HiveGuard.Library.Lines
