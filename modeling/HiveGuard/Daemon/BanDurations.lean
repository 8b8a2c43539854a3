import HiveGuard.Core.HumanDuration
import HiveGuard.Persistence.Recovery

/-!
# Durations of bans

A ban with a duration comes in through the control socket, the REST interface or a
decision of the scoring engine.  Only the REST interface checks that the duration can
be represented; the other two turn a duration that is too long into a ban without end
and panic when the end lies beyond the last date.
-/

namespace HiveGuard.Daemon

open HiveGuard.Core Persistence

/-! ## The end of a ban -/

/-- The end of a ban, none if the duration is out of range.  There is no result when
the addition panics. -/
def lenientExpiry (duration : StdDuration) (now : DateTime) : Option (Option DateTime) :=
  match Duration.fromStd duration with
  | none => some none
  | some span => (DateTime.checkedAddSigned now span).map some

/-- The end of a ban of the REST interface. -/
def checkedExpiry (duration : StdDuration) (now : DateTime) : Except String DateTime :=
  match Duration.fromStd duration with
  | none => .error "ban duration out of range"
  | some span =>
    if span ≤ 0 then
      .error "ban duration must be positive"
    else
      match DateTime.checkedAddSigned now span with
      | none => .error "ban expiry out of range"
      | some expiry => .ok expiry

/-! ## The three paths -/

/-- Refuse runtime bans wider than `/16` for IPv4 and `/32` for IPv6. -/
def checkMutationPrefix (env : Externals) (net : IpNet) (what : String) : Except String Unit :=
  let (least, family) := match net with
    | .v4 _ => (16, "IPv4")
    | .v6 _ => (32, "IPv6")
  if net.prefixLen < least then
    .error ("refusing to " ++ what ++ " " ++ env.display net ++ ": " ++ family ++ " prefix /" ++
      toString net.prefixLen ++ " is wider than the allowed minimum /" ++ toString least ++
      " (narrower prefixes are fine; put wider ranges in config.yaml)")
  else
    .ok ()

/-- A ban by an administrator. -/
def manualBan (subject : IpNet) (createdAt : DateTime) (expiresAt : Option DateTime)
    (reason : String) : BanRecord where
  subject := subject
  createdAt := createdAt
  expiresAt := expiresAt
  severity := 200
  reason := reason
  evidenceHash := Vector.replicate 32 0
  source := .manualAdmin
  geoInfo := none

/-- A ban request on the control socket. -/
structure SocketRequest where
  target : String
  duration : Option (List Char)
  reason : Option String

inductive ApiResponse where
  | ok (message : String)
  | error (message : String)
  deriving DecidableEq

/-- The duration of a request; 24 hours if there is none.  There is no result when
parsing panics; a number that is too large has wrapped around. -/
def socketDuration : Option (List Char) → Option (Except String (Option StdDuration))
  | none => some (.ok (some (.fromSecs 86400)))
  | some text =>
    (parseDurationString text).map fun parsed =>
      match parsed.value with
      | .ok human => .ok human.duration
      | .error message => .error ("Invalid duration: " ++ message)

section Paths

variable (env : Externals)

/-- The ban handler of the control socket, with the reading of a target as a network,
the two readings of the clock, and the error of the firewall if it refuses.  There is
no result when the handler panics. -/
def socketBan (parseNet : String → Option IpNet) (request : SocketRequest)
    (now createdAt : DateTime) (firewall : Option String) (world : World) :
    Option (ApiResponse × World) :=
  match parseNet request.target with
  | none => some (.error ("Invalid IP or CIDR: '" ++ request.target ++
      "'. Use format like 10.0.0.1 or 10.0.0.0/24"), world)
  | some target =>
    let net := target.trunc
    match checkMutationPrefix env net "ban" with
    | .error message => some (.error message, world)
    | .ok () =>
      match socketDuration request.duration with
      | none => none
      | some (.error message) => some (.error message, world)
      | some (.ok banDuration) =>
        let expiresAt := match banDuration with
          | none => some none
          | some duration => lenientExpiry duration now
        expiresAt.map fun expiresAt =>
          let reason := request.reason.getD "manual admin ban"
          match (StateManager.addBan env (manualBan net createdAt expiresAt reason)).run
              world with
          | .error error failed => (.error ("Failed to ban: " ++ errorText env error), failed)
          | .ok () stored =>
            match firewall with
            | some message => (.error
                ("Ban saved; firewall apply failed (pending retry): " ++ message), stored)
            | none => (.ok ("Banned " ++ env.display net), stored)

inductive PluginError where
  | configValidation (message : String)
  | runtime (message : String)
  deriving DecidableEq

/-- The ban handler of the REST interface. -/
def restAddBan (subject : IpNet) (duration : StdDuration) (reason : String) (now : DateTime)
    (firewall : Option String) (world : World) : Except PluginError Unit × World :=
  let subject := subject.trunc
  match checkMutationPrefix env subject "ban" with
  | .error message => (.error (.configValidation message), world)
  | .ok () =>
    match checkedExpiry duration now with
    | .error message => (.error (.configValidation message), world)
    | .ok expiresAt =>
      match (StateManager.addBan env (manualBan subject now (some expiresAt) reason)).run
          world with
      | .error error failed =>
        (.error (.runtime ("failed to persist manual ban: " ++ errorText env error)), failed)
      | .ok () stored =>
        match firewall with
        | some message => (.error (.runtime
            ("ban saved; firewall apply failed (pending retry): " ++ message)), stored)
        | none => (.ok (), stored)

end Paths

/-- A decision of the scoring engine. -/
structure BanDecision where
  subject : IpNet
  duration : StdDuration
  reason : String
  severity : Fin 256
  evidenceHash : Vector UInt8 32
  source : BanSource
  timestamp : DateTime

/-- The record of a decision; there is none when the addition panics. -/
def decisionToRecord (decision : BanDecision) : Option BanRecord :=
  (lenientExpiry decision.duration decision.timestamp).map fun expiresAt =>
    { subject := decision.subject
      createdAt := decision.timestamp
      expiresAt := expiresAt
      severity := decision.severity
      reason := decision.reason
      evidenceHash := decision.evidenceHash
      source := decision.source
      geoInfo := none }

/-! ## Which durations work -/

/-- The ways a ban with a duration comes in. -/
inductive BanPath where
  | socket
  | rest
  | scoring

/-- What a path makes of a duration: it panics, refuses, or goes on with an end. -/
def BanPath.expiry (path : BanPath) (duration : StdDuration) (now : DateTime) :
    Option (Except String (Option DateTime)) :=
  match path with
  | socket => (lenientExpiry duration now).map .ok
  | rest => some ((checkedExpiry duration now).map some)
  | scoring => (lenientExpiry duration now).map .ok

def BanPath.Rejects (path : BanPath) (duration : StdDuration) (now : DateTime) : Prop :=
  ∃ message, path.expiry duration now = some (.error message)

/-- The duration is positive and representable, and so is the end of the ban. -/
structure InRange (duration : StdDuration) (now : DateTime) : Prop where
  positive : 0 < duration.asNanos
  duration_le : duration.asNanos ≤ Duration.max
  minUtc_le : DateTime.minUtc ≤ now + duration.asNanos
  le_maxUtc : now + duration.asNanos ≤ DateTime.maxUtc

namespace InRange

variable {duration : StdDuration} {now : DateTime}

theorem fromStd_eq (inRange : InRange duration now) :
    Duration.fromStd duration = some duration.asNanos :=
  Duration.fromStd_eq_some_iff.mpr ⟨inRange.duration_le, rfl⟩

theorem checkedAddSigned_eq (inRange : InRange duration now) :
    DateTime.checkedAddSigned now duration.asNanos = some (now + duration.asNanos) :=
  DateTime.checkedAddSigned_eq_some_iff.mpr ⟨⟨inRange.minUtc_le, inRange.le_maxUtc⟩, rfl⟩

end InRange

theorem lenientExpiry_of_inRange {duration : StdDuration} {now : DateTime}
    (inRange : InRange duration now) :
    lenientExpiry duration now = some (some (now + duration.asNanos)) := by
  rw [lenientExpiry, inRange.fromStd_eq]
  exact congrArg (Option.map some) inRange.checkedAddSigned_eq

/-- The REST interface accepts exactly the durations in range. -/
theorem checkedExpiry_eq_ok_iff {duration : StdDuration} {now expiry : DateTime} :
    checkedExpiry duration now = .ok expiry ↔
      InRange duration now ∧ expiry = now + duration.asNanos := by
  rw [checkedExpiry]
  constructor
  · intro accepted
    split at accepted
    · contradiction
    · rename_i span converted
      obtain ⟨duration_le, rfl⟩ := Duration.fromStd_eq_some_iff.mp converted
      split at accepted
      · contradiction
      · rename_i positive
        split at accepted
        · contradiction
        · rename_i sum added
          cases accepted
          obtain ⟨⟨minUtc_le, le_maxUtc⟩, rfl⟩ := DateTime.checkedAddSigned_eq_some_iff.mp added
          exact ⟨⟨not_le.mp positive, duration_le, minUtc_le, le_maxUtc⟩, rfl⟩
  · rintro ⟨inRange, rfl⟩
    simp only [inRange.fromStd_eq, if_neg inRange.positive.not_ge, inRange.checkedAddSigned_eq]

/-- The store is as it was and the path refused, or one ban with this end was stored. -/
def Settles (refused : Prop) (before after : World) (expiry : DateTime) : Prop :=
  refused ∧ after.manager.banStore = before.manager.banStore ∨
    ∃ record, record.expiresAt = some expiry ∧
      after.manager.banStore = before.manager.banStore.addBan record

section Settled

variable (env : Externals)

theorem restAddBan_settles (subject : IpNet) (duration : StdDuration) (reason : String)
    (now : DateTime) (firewall : Option String) (world : World) :
    Settles (∃ error, (restAddBan env subject duration reason now firewall world).1 = .error error)
      world (restAddBan env subject duration reason now firewall world).2
      (now + duration.asNanos) := by
  rw [restAddBan]
  split
  · exact .inl ⟨⟨_, rfl⟩, rfl⟩
  · split
    · exact .inl ⟨⟨_, rfl⟩, rfl⟩
    · rename_i expiresAt accepted
      obtain ⟨-, rfl⟩ := checkedExpiry_eq_ok_iff.mp accepted
      split
      · rename_i error failed run
        exact .inl ⟨⟨_, rfl⟩, StateManager.banStore_of_addBan_error env run⟩
      · rename_i stored run
        split <;> exact .inr ⟨_, rfl, StateManager.banStore_of_addBan_ok env run⟩

theorem socketBan_settles (parseNet : String → Option IpNet) {request : SocketRequest}
    {duration : StdDuration} {now : DateTime} (inRange : InRange duration now)
    (asked : socketDuration request.duration = some (.ok (some duration)))
    (createdAt : DateTime) (firewall : Option String) (world : World) :
    ∃ response after,
      socketBan env parseNet request now createdAt firewall world = some (response, after) ∧
        Settles (∃ message, response = .error message) world after (now + duration.asNanos) := by
  rw [socketBan]
  split
  · exact ⟨_, _, rfl, .inl ⟨⟨_, rfl⟩, rfl⟩⟩
  · dsimp only
    split
    · exact ⟨_, _, rfl, .inl ⟨⟨_, rfl⟩, rfl⟩⟩
    · rw [asked]
      simp only [lenientExpiry_of_inRange inRange, Option.map_some]
      refine ⟨_, _, rfl, ?_⟩
      split
      · rename_i error failed run
        exact .inl ⟨⟨_, rfl⟩, StateManager.banStore_of_addBan_error env run⟩
      · rename_i stored run
        split <;> exact .inr ⟨_, rfl, StateManager.banStore_of_addBan_ok env run⟩

end Settled

theorem decisionToRecord_of_inRange {decision : BanDecision}
    (inRange : InRange decision.duration decision.timestamp) :
    ∃ record, decisionToRecord decision = some record ∧
      record.expiresAt = some (decision.timestamp + decision.duration.asNanos) := by
  rw [decisionToRecord, lenientExpiry_of_inRange inRange]
  exact ⟨_, rfl, rfl⟩

/-- Only the REST interface ever refuses a duration. -/
theorem rejects_iff (path : BanPath) (duration : StdDuration) (now : DateTime) :
    path.Rejects duration now ↔ path = .rest ∧ ¬InRange duration now := by
  have lenient : ∀ message : String,
      (lenientExpiry duration now).map Except.ok ≠ some (.error message) := by
    intro message
    cases lenientExpiry duration now <;> simp
  cases path with
  | socket => exact iff_of_false (fun ⟨message, rejected⟩ => lenient message rejected) (by simp)
  | scoring => exact iff_of_false (fun ⟨message, rejected⟩ => lenient message rejected) (by simp)
  | rest =>
    rw [BanPath.Rejects, BanPath.expiry, and_iff_right rfl]
    cases checked : checkedExpiry duration now with
    | ok expiry =>
      obtain ⟨inRange, -⟩ := checkedExpiry_eq_ok_iff.mp checked
      exact iff_of_false (by simp [Except.map]) fun outside => outside inRange
    | error message =>
      refine iff_of_true ⟨message, rfl⟩ fun inRange => ?_
      rw [checkedExpiry_eq_ok_iff.mpr ⟨inRange, rfl⟩] at checked
      contradiction

/-- For a finite duration, all three paths store a ban that ends after that duration
or report an error, and they refuse the same durations, exactly if the duration is
positive and representable and so is the end of the ban. -/
theorem finite_durations_iff (env : Externals) (parseNet : String → Option IpNet)
    (duration : StdDuration) (now : DateTime) :
    ((∀ (request : SocketRequest) (createdAt : DateTime) (firewall : Option String)
          (world : World), socketDuration request.duration = some (.ok (some duration)) →
        ∃ response after,
          socketBan env parseNet request now createdAt firewall world = some (response, after) ∧
            Settles (∃ message, response = .error message) world after (now + duration.asNanos)) ∧
      (∀ (subject : IpNet) (reason : String) (firewall : Option String) (world : World), Settles
          (∃ error, (restAddBan env subject duration reason now firewall world).1 = .error error)
          world (restAddBan env subject duration reason now firewall world).2
          (now + duration.asNanos)) ∧
      (∀ decision : BanDecision, decision.duration = duration → decision.timestamp = now →
        ∃ record, decisionToRecord decision = some record ∧
          record.expiresAt = some (now + duration.asNanos)) ∧
      ∀ first second : BanPath, first.Rejects duration now ↔ second.Rejects duration now) ↔
      InRange duration now := by
  constructor
  · rintro ⟨-, -, -, agree⟩
    by_contra outside
    have rejected := (agree .rest .scoring).mp ((rejects_iff _ _ _).mpr ⟨rfl, outside⟩)
    exact absurd ((rejects_iff _ _ _).mp rejected).1 (by simp)
  · intro inRange
    refine ⟨?_, ?_, ?_, ?_⟩
    · intro request createdAt firewall world asked
      exact socketBan_settles env parseNet inRange asked createdAt firewall world
    · intro subject reason firewall world
      exact restAddBan_settles env subject duration reason now firewall world
    · rintro decision rfl rfl
      exact decisionToRecord_of_inRange inRange
    · intro first second
      simp [rejects_iff, inRange]

/-- A request to ban `8.8.8.0/24`. -/
def sampleRequest (duration : String) : SocketRequest :=
  ⟨"8.8.8.0/24", some duration.toList, none⟩

/-- What the socket stores for the sample network on request. -/
def socketStores (duration : String) : Option (Option (Option DateTime)) :=
  (socketBan Wire.externals (fun _ => some World.sampleBan.subject) (sampleRequest duration)
    1700000000000000000 1700000000000000000 none World.sampleStart).map fun outcome =>
      (outcome.2.manager.banStore.bans.lookup World.sampleBan.subject.trunc).map
        BanRecord.expiresAt

/-- The scoring engine's decision to ban the sample network. -/
def sampleDecision (duration : StdDuration) : BanDecision where
  subject := World.sampleBan.subject
  duration := duration
  reason := "scan"
  severity := 150
  evidenceHash := Vector.replicate 32 7
  source := .localDetector "ssh"
  timestamp := 1700000000000000000

/-- The longest duration becomes a ban without end, a long one panics, and a duration of
zero is stored by the socket but refused by the REST interface. -/
theorem finite_durations_fail :
    socketStores "18446744073709551615s" = some (some none) ∧
      socketStores "9223372036854775s" = none ∧
      socketStores "0s" = some (some (some 1700000000000000000)) ∧
      checkedExpiry (.fromSecs 0) 1700000000000000000 = .error "ban duration must be positive" ∧
      (decisionToRecord (sampleDecision (.fromSecs 18446744073709551615))).map
        BanRecord.expiresAt = some none ∧
      decisionToRecord (sampleDecision (.fromSecs 9223372036854775)) = none := by
  decide +kernel

end HiveGuard.Daemon
