import HiveGuard.Library.SlidingWindow
import Mathlib.Data.List.Induction

/-!
# The request limit of the Cloudflare enforcer

A bucket is filled when it is created, and again by the first call that comes a whole interval
or more after it was filled last.  Between two fillings at most as many calls are granted as
the bucket holds, but the calls at the end of one period and at the start of the next may come
close together.

Instants are counted in nanoseconds, and a call reads the clock once.
-/

namespace HiveGuard.Enforce

open Library.SlidingWindow

structure TokenBucket where
  tokens : Nat
  max : Nat
  refillInterval : Nat
  lastRefill : Int

namespace TokenBucket

def new (max refillInterval : Nat) (now : Int) : TokenBucket where
  tokens := max
  max := max
  refillInterval := refillInterval
  lastRefill := now

def refill (now : Int) (self : TokenBucket) : TokenBucket :=
  if self.refillInterval ≤ (now - self.lastRefill).toNat then
    { self with tokens := self.max, lastRefill := now }
  else
    self

/-- Consume `n` tokens if there are so many. -/
def tryConsume (n : Nat) (now : Int) (self : TokenBucket) : Bool × TokenBucket :=
  let filled := self.refill now
  if n ≤ filled.tokens then (true, { filled with tokens := filled.tokens - n }) else (false, filled)

/-- A call for one token, with the times of the calls granted so far. -/
def call (run : List Int × TokenBucket) (now : Int) : List Int × TokenBucket :=
  let (granted, next) := run.2.tryConsume 1 now
  (if granted then run.1 ++ [now] else run.1, next)

/-- The times of the calls granted, and the bucket after calls at these times. -/
def after (bucket : TokenBucket) (times : List Int) : List Int × TokenBucket :=
  times.foldl call ([], bucket)

/-- Which of the calls at these times refill a bucket that was filled at `last`. -/
def refillInstants (interval : Nat) (last : Int) : List Int → List Int
  | [] => []
  | now :: rest =>
    if interval ≤ (now - last).toNat then
      now :: refillInstants interval now rest
    else
      refillInstants interval last rest

/-- Every interval of this length in which the bucket is refilled has at most `max` calls,
granted or not. -/
def CalmAtRefills (max interval : Nat) (start : Int) (times : List Int) : Prop :=
  ∀ refill ∈ refillInstants interval start times, ∀ instant,
    instant - interval < refill → refill ≤ instant → (within interval instant times).length ≤ max

variable {max interval : Nat} {start now : Int} {times : List Int}

theorem refillInstants_concat (interval : Nat) (last : Int) (times : List Int) (now : Int) :
    refillInstants interval last (times ++ [now]) = refillInstants interval last times ++
      if interval ≤ (now - (refillInstants interval last times).getLastD last).toNat then [now]
      else [] := by
  induction times generalizing last with
  | nil => rfl
  | cons time rest ih =>
    rw [List.cons_append, refillInstants, refillInstants]
    split
    · rw [ih, List.cons_append, List.getLastD_cons]
    · exact ih last

/-- The bucket was filled last at the last of the refill instants, and as long as there is
none, its tokens and the calls granted make up `max`. -/
structure Kept (max interval : Nat) (start : Int) (times : List Int)
    (run : List Int × TokenBucket) : Prop where
  max_eq : run.2.max = max
  interval_eq : run.2.refillInterval = interval
  lastRefill_eq : run.2.lastRefill = (refillInstants interval start times).getLastD start
  first_period : refillInstants interval start times = [] → run.1.length + run.2.tokens = max

theorem Kept.refill {run : List Int × TokenBucket} (kept : Kept max interval start times run)
    (now : Int) : Kept max interval start (times ++ [now]) (run.1, run.2.refill now) := by
  obtain ⟨sameMax, sameInterval, last, first⟩ := kept
  have instants := refillInstants_concat interval start times now
  rw [← last, ← sameInterval] at instants
  rw [TokenBucket.refill]
  split
  next due =>
    rw [if_pos due, sameInterval] at instants
    refine ⟨sameMax, sameInterval, ?_, fun none => ?_⟩
    · rw [instants, List.getLastD_concat]
    · exact absurd (instants.symm.trans none) (List.append_ne_nil_of_right_ne_nil _ (by simp))
  next early =>
    rw [if_neg early, List.append_nil, sameInterval] at instants
    rw [← instants] at last first
    exact ⟨sameMax, sameInterval, last, first⟩

theorem Kept.call {run : List Int × TokenBucket} (kept : Kept max interval start times run)
    (now : Int) : Kept max interval start (times ++ [now]) (call run now) := by
  obtain ⟨sameMax, sameInterval, last, first⟩ := kept.refill now
  rw [TokenBucket.call, tryConsume]
  dsimp only at first ⊢
  split
  next enough =>
    refine ⟨sameMax, sameInterval, last, fun none => ?_⟩
    have total := first none
    rw [if_pos rfl, List.length_append, List.length_singleton]
    dsimp only
    omega
  · exact ⟨sameMax, sameInterval, last, first⟩

theorem CalmAtRefills.front (calm : CalmAtRefills max interval start (times ++ [now])) :
    CalmAtRefills max interval start times := by
  intro refill member instant after before
  have later : refill ∈ refillInstants interval start (times ++ [now]) := by
    rw [refillInstants_concat]
    exact List.mem_append_left _ member
  exact (((List.sublist_append_left times [now]).filter _).length_le).trans
    (calm refill later instant after before)

end TokenBucket

end HiveGuard.Enforce
