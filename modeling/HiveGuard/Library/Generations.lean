import Mathlib

/-!
# Generations

Arrivals are grouped into generations.  The first arrival that comes a given span after a
generation began closes it and begins the next, so how old a generation gets depends on when
arrivals happen to come.
-/

namespace HiveGuard.Library.Generations

universe u

variable {K : Type u} (span : Int)

/-- The number of generations that were closed, and the start of the present one. -/
def arrive (before : Nat × Option Int) (now : Int) : Nat × Option Int :=
  let start := before.2.getD now
  if span ≤ now - start then (before.1 + 1, some now) else (before.1, some start)

def present (times : List Int) : Nat × Option Int :=
  times.foldl (arrive span) (0, none)

/-- The generation of the last of some arrivals. -/
def generation (times : List Int) : Nat :=
  (present span times).1

/-- The arrivals with their generations. -/
def tagged : List (Int × K) → List Int → List (Nat × K)
  | [], _ => []
  | (time, key) :: arrivals, times =>
    (generation span (times ++ [time]), key) :: tagged arrivals (times ++ [time])

/-- The key arrived in the present generation or the one before it. -/
def Remembered (arrivals : List (Int × K)) (key : K) (now : Int) : Prop :=
  ∃ past, (past, key) ∈ tagged span arrivals [] ∧
    generation span (arrivals.map Prod.fst ++ [now]) ≤ past + 1

variable {span}

theorem present_concat (times : List Int) (now : Int) :
    present span (times ++ [now]) = arrive span (present span times) now := by
  rw [present, List.foldl_concat]
  rfl

theorem tagged_append (first second : List (Int × K)) (times : List Int) :
    tagged span (first ++ second) times =
      tagged span first times ++ tagged span second (times ++ first.map Prod.fst) := by
  induction first generalizing times with
  | nil => rw [List.nil_append, List.map_nil, List.append_nil]; rfl
  | cons arrival first ih =>
    obtain ⟨time, key⟩ := arrival
    rw [List.cons_append, tagged, ih, tagged, List.map_cons, List.append_assoc]
    rfl

theorem map_snd_tagged (arrivals : List (Int × K)) (times : List Int) :
    (tagged span arrivals times).map Prod.snd = arrivals.map Prod.snd := by
  induction arrivals generalizing times with
  | nil => rfl
  | cons arrival arrivals ih =>
    obtain ⟨time, key⟩ := arrival
    rw [tagged, List.map_cons, List.map_cons, ih]

theorem tagged_concat (arrivals : List (Int × K)) (time : Int) (key : K) :
    tagged span (arrivals ++ [(time, key)]) [] = tagged span arrivals [] ++
      [(generation span (arrivals.map Prod.fst ++ [time]), key)] := by
  rw [tagged_append, List.nil_append]
  rfl

theorem generation_le_concat (times : List Int) (now : Int) :
    generation span times ≤ generation span (times ++ [now]) := by
  rw [generation, generation, present_concat, arrive]
  split
  · exact Nat.le_succ _
  · exact le_rfl

/-- No arrival is of a later generation than the last. -/
theorem le_generation_of_mem_tagged {arrivals : List (Int × K)} {past : Nat} {key : K}
    (member : (past, key) ∈ tagged span arrivals []) :
    past ≤ generation span (arrivals.map Prod.fst) := by
  induction arrivals using List.reverseRecOn with
  | nil => cases member
  | append_singleton arrivals arrival ih =>
    obtain ⟨time, other⟩ := arrival
    rw [tagged_concat, List.mem_append, List.mem_singleton] at member
    rw [List.map_append]
    rcases member with earlier | last
    · exact (ih earlier).trans (generation_le_concat _ _)
    · cases last
      exact le_rfl

/-- A generation that began in the past has not begun too long ago. -/
theorem start_of_concat (positive : 0 < span) (times : List Int) (now : Int) :
    ∃ start, (present span (times ++ [now])).2 = some start ∧ now < start + span := by
  rw [present_concat, arrive]
  split
  · exact ⟨now, rfl, by omega⟩
  · exact ⟨_, rfl, by omega⟩

/-- Within a span after an arrival at most one more generation begins. -/
theorem generation_le_of_near (positive : 0 < span) (times : List Int) (now : Int)
    {more : List Int} (near : ∀ time ∈ more, now ≤ time ∧ time ≤ now + span) :
    generation span (times ++ [now] ++ more) ≤ generation span (times ++ [now]) + 1 := by
  obtain ⟨start, start_eq, recent⟩ := start_of_concat positive times now
  -- Either no generation has begun since, or one that began after the arrival.
  suffices invariant :
      present span (times ++ [now] ++ more) = (generation span (times ++ [now]), some start) ∨
        ∃ begun, now < begun ∧
          present span (times ++ [now] ++ more) =
            (generation span (times ++ [now]) + 1, some begun) by
    rw [generation]
    rcases invariant with same | ⟨begun, -, next⟩
    · rw [same]
      exact Nat.le_succ _
    · rw [next]
  induction more using List.reverseRecOn with
  | nil =>
    rw [List.append_nil]
    exact .inl (Prod.ext rfl start_eq)
  | append_singleton more time ih =>
    rw [List.forall_mem_append, List.forall_mem_singleton] at near
    obtain ⟨earlier, notBefore, notAfter⟩ := near
    rw [← List.append_assoc, present_concat, arrive]
    rcases ih earlier with same | ⟨begun, later, next⟩
    · rw [same]
      dsimp only [Option.getD_some]
      split
      · exact .inr ⟨time, by omega, rfl⟩
      · exact .inl rfl
    · rw [next]
      dsimp only [Option.getD_some]
      rw [if_neg (by omega)]
      exact .inr ⟨begun, later, rfl⟩

/-- The present generation began with one of the arrivals. -/
theorem start_mem {times : List Int} (nonempty : times ≠ []) :
    ∃ start ∈ times, (present span times).2 = some start := by
  induction times using List.reverseRecOn with
  | nil => exact absurd rfl nonempty
  | append_singleton times now ih =>
    rw [present_concat, arrive]
    split
    · exact ⟨now, List.mem_append_right _ List.mem_cons_self, rfl⟩
    · rcases eq_or_ne times [] with rfl | notFirst
      · exact ⟨now, List.mem_cons_self, rfl⟩
      · obtain ⟨start, member, start_eq⟩ := ih notFirst
        rw [start_eq]
        exact ⟨start, List.mem_append_left _ member, rfl⟩

/-- A span after some arrivals a new generation has begun. -/
theorem generation_lt_of_gap {times : List Int} (nonempty : times ≠ []) (more : List Int)
    {now : Int} (gap : ∀ time ∈ times, time + span ≤ now) :
    generation span times < generation span (times ++ more ++ [now]) := by
  obtain ⟨start, member, start_eq⟩ := @start_mem span times nonempty
  have early := gap start member
  -- As long as no generation has begun since, the present one began with the start.
  have since : present span (times ++ more) = (generation span times, some start) ∨
      generation span times < generation span (times ++ more) := by
    induction more using List.reverseRecOn with
    | nil =>
      rw [List.append_nil]
      exact .inl (Prod.ext rfl start_eq)
    | append_singleton more time ih =>
      rw [← List.append_assoc]
      rcases ih with same | later
      · rw [generation, generation, present_concat, arrive, same]
        split
        · exact .inr (Nat.lt_succ_self _)
        · exact .inl rfl
      · exact .inr (later.trans_le (generation_le_concat _ _))
  rcases since with same | later
  · rw [generation, generation, present_concat, arrive, same]
    dsimp only [Option.getD_some]
    rw [if_pos (by omega)]
    exact Nat.lt_succ_self _
  · exact later.trans_le (generation_le_concat _ _)

/-- A key is forgotten if another arrival came a span after its last one and a span ago. -/
theorem not_remembered_of_gaps {front mid back : List (Int × K)} {key other : K} {between now : Int}
    (absent : key ∉ (mid ++ (between, other) :: back).map Prod.snd)
    (firstGap : ∀ time ∈ front.map Prod.fst, time + span ≤ between)
    (secondGap : ∀ time ∈ front.map Prod.fst ++ mid.map Prod.fst ++ [between],
      time + span ≤ now) :
    ¬Remembered span (front ++ (mid ++ (between, other) :: back)) key now := by
  rintro ⟨past, member, near⟩
  rw [tagged_append, List.mem_append] at member
  rcases member with early | late
  · have nonempty : front.map Prod.fst ≠ [] := by
      rintro empty
      rw [List.map_eq_nil_iff.mp empty] at early
      cases early
    have bound := le_generation_of_mem_tagged early
    have first := generation_lt_of_gap nonempty (mid.map Prod.fst) firstGap
    have second := generation_lt_of_gap (List.append_ne_nil_of_right_ne_nil _
      (List.cons_ne_nil between [])) (back.map Prod.fst) secondGap
    have times_eq : (front ++ (mid ++ (between, other) :: back)).map Prod.fst =
        front.map Prod.fst ++ mid.map Prod.fst ++ [between] ++ back.map Prod.fst := by
      simp
    rw [times_eq] at near
    omega
  · refine absent ?_
    rw [← @map_snd_tagged K span _ ([] ++ front.map Prod.fst)]
    exact List.mem_map_of_mem (f := Prod.snd) late

/-- A key that arrived within a span is remembered. -/
theorem remembered_of_near (positive : 0 < span) {front back : List (Int × K)} {time now : Int}
    {key : K} (near : ∀ later ∈ back.map Prod.fst ++ [now], time ≤ later ∧ later ≤ time + span) :
    Remembered span (front ++ (time, key) :: back) key now := by
  refine ⟨generation span (front.map Prod.fst ++ [time]), ?_, ?_⟩
  · rw [tagged_append, List.nil_append]
    exact List.mem_append_right _ List.mem_cons_self
  · have bound := generation_le_of_near positive (front.map Prod.fst) time near
    rw [List.map_append, List.map_cons]
    simpa using bound

end HiveGuard.Library.Generations
