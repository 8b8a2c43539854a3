import HiveGuard.Daemon.BanDurations
import HiveGuard.Persistence.Protection

/-!
# Changing the whitelist at runtime

The control socket and the REST interface add and remove whitelist entries.  Both add the
canonical network of what they are given, and the socket removes it; the REST interface
removes the very network it is given, host bits included.
-/

namespace HiveGuard.Daemon

open HiveGuard.Core Library.Effect Persistence

section Model

variable (env : Externals)

/-- The bans the firewall should hold: active ones that meet no whitelist entry. -/
def desiredBans (now : DateTime) (manager : StateManager) : List IpNet :=
  ((manager.banStore.getAllBans.filter fun ban => !manager.whitelist.overlaps ban.subject).filter
    (InMemoryBanStore.unexpired now)).map BanRecord.subject

/-- The REST interface adds an entry.  The firewall refuses a list with an error text. -/
def restAddWhitelist (cidr : IpNet) (now : DateTime) (syncFull : List IpNet → Option String)
    (world : World) : Except PluginError Unit × World :=
  let cidr := cidr.trunc
  match checkMutationPrefix env cidr "whitelist" with
  | .error message => (.error (.configValidation message), world)
  | .ok () =>
    match (StateManager.addWhitelist env cidr).run world with
    | .error error failed =>
      (.error (.runtime ("failed to whitelist " ++ env.display cidr ++ ": " ++
        errorText env error)), failed)
    | .ok _ added =>
      match syncFull (desiredBans now added.manager) with
      | some message => (.error (.runtime
          ("whitelist saved; firewall sync failed (pending retry): " ++ message)), added)
      | none => (.ok (), added)

def restRemoveWhitelist (cidr : IpNet) (world : World) : Except PluginError Unit × World :=
  match (StateManager.removeWhitelist env cidr).run world with
  | .error error failed =>
    (.error (.runtime ("failed to remove " ++ env.display cidr ++ " from whitelist: " ++
      errorText env error)), failed)
  | .ok () removed => (.ok (), removed)

/-- The answer to a target that is no network. -/
def invalidTarget (target : String) : ApiResponse :=
  .error ("Invalid IP or CIDR: '" ++ target ++ "'. Use format like 10.0.0.1 or 10.0.0.0/24")

/-- The control socket adds an entry.  There may be no firewall to bring up to date. -/
def socketWhitelistAdd (parseNet : String → Option IpNet) (target : String) (now : DateTime)
    (enforcer : Option (List IpNet → Option String)) (world : World) : ApiResponse × World :=
  match parseNet target with
  | none => (invalidTarget target, world)
  | some parsed =>
    let net := parsed.trunc
    match checkMutationPrefix env net "whitelist" with
    | .error message => (.error message, world)
    | .ok () =>
      match (StateManager.addWhitelist env net).run world with
      | .error error failed =>
        (.error ("Failed to add whitelist: " ++ errorText env error), failed)
      | .ok revoked added =>
        match enforcer.bind fun syncFull => syncFull (desiredBans now added.manager) with
        | some message => (.error
            ("Whitelist saved; firewall sync failed (pending retry): " ++ message), added)
        | none =>
          if revoked.isEmpty then
            (.ok ("Added " ++ env.display net ++ " to whitelist"), added)
          else
            (.ok ("Added " ++ env.display net ++ " to whitelist, revoked " ++
              toString revoked.length ++ " covered ban(s)"), added)

def socketWhitelistRemove (parseNet : String → Option IpNet) (target : String) (world : World) :
    ApiResponse × World :=
  match parseNet target with
  | none => (invalidTarget target, world)
  | some parsed =>
    let net := parsed.trunc
    match (StateManager.removeWhitelist env net).run world with
    | .error error failed =>
      (.error ("Failed to remove whitelist: " ++ errorText env error), failed)
    | .ok () removed => (.ok ("Removed " ++ env.display net ++ " from whitelist"), removed)

end Model

section Runs

variable {env : Externals} {cidr : IpNet} {parseNet : String → Option IpNet} {target : String}

/-- Where the control socket answers that a network was added, it is on the whitelist, no
stored ban shares an address with the whitelist, whatever was stored before, and the firewall
took the bans that are left. -/
theorem socketWhitelistAdd_protects (now : DateTime)
    (enforcer : Option (List IpNet → Option String)) (world : World) :
    let (answer, after) := socketWhitelistAdd env parseNet target now enforcer world
    (∃ message, answer = .error message) ∨ ∃ net ∈ parseNet target,
      net.trunc ∈ after.manager.whitelist.entries ∧ after.view.Safe ∧
        ∀ syncFull ∈ enforcer, syncFull (desiredBans now after.manager) = none := by
  rw [socketWhitelistAdd]
  cases parseNet target with
  | none => exact .inl ⟨_, rfl⟩
  | some net =>
    dsimp only
    cases checkMutationPrefix env net.trunc "whitelist" with
    | error message => exact .inl ⟨message, rfl⟩
    | ok _ =>
      cases run : (StateManager.addWhitelist env net.trunc).run world with
      | error error failed => exact .inl ⟨_, rfl⟩
      | ok revoked added =>
        dsimp only
        split
        · exact .inl ⟨_, rfl⟩
        · rename_i synced
          have listed : net.trunc ∈ added.manager.whitelist.entries := by
            rw [(World.addWhitelist_ok run).1, AList.mem_insert]
            exact .inl rfl
          rw [StateManager.addWhitelist_eq] at run
          obtain ⟨_, _, -, sweepRun⟩ := bind_eq_ok_iff.mp run
          have safe := World.safe_revokeBansCoveredByWhitelist sweepRun
          split <;> refine .inr ⟨net, rfl, listed, safe, ?_⟩
          all_goals
            rintro syncFull rfl
            exact synced

/-- The state after a removal is that of the manager's call. -/
theorem restRemoveWhitelist_world (world : World) :
    (restRemoveWhitelist env cidr world).2 =
      finalState ((StateManager.removeWhitelist env cidr).run world) := by
  rw [restRemoveWhitelist]
  cases (StateManager.removeWhitelist env cidr).run world <;> rfl

theorem socketWhitelistRemove_world (parsed : parseNet target = some cidr) (world : World) :
    (socketWhitelistRemove env parseNet target world).2 =
      finalState ((StateManager.removeWhitelist env cidr.trunc).run world) := by
  simp only [socketWhitelistRemove, parsed]
  cases (StateManager.removeWhitelist env cidr.trunc).run world <;> rfl

variable {before after : World}

theorem entries_removeWhitelist {net : IpNet}
    (run : (StateManager.removeWhitelist env net).run before = .ok () after) :
    after.manager.whitelist.entries = before.manager.whitelist.entries.erase net := by
  have logRun : (StateManager.logEntry env (.removeWhitelist net)).run before = .ok () after :=
    run
  rcases (StateManager.logEntry_ok_iff env).mp logRun with ⟨state, -, rfl⟩
  rfl

theorem entries_restRemoveWhitelist (run : restRemoveWhitelist env cidr before = (.ok (), after)) :
    after.manager.whitelist.entries = before.manager.whitelist.entries.erase cidr := by
  rw [restRemoveWhitelist] at run
  split at run
  · cases run
  · rename_i removed removeRun
    cases run
    exact entries_removeWhitelist removeRun

theorem entries_socketWhitelistRemove {message : String} (parsed : parseNet target = some cidr)
    (run : socketWhitelistRemove env parseNet target before = (.ok message, after)) :
    after.manager.whitelist.entries = before.manager.whitelist.entries.erase cidr.trunc := by
  simp only [socketWhitelistRemove, parsed] at run
  split at run
  · cases run
  · rename_i removed removeRun
    cases run
    exact entries_removeWhitelist removeRun

theorem entries_restAddWhitelist {now : DateTime} {syncFull : List IpNet → Option String}
    (run : restAddWhitelist env cidr now syncFull before = (.ok (), after)) :
    after.manager.whitelist.entries = before.manager.whitelist.entries.insert cidr.trunc () := by
  simp only [restAddWhitelist] at run
  split at run
  · cases run
  · split at run
    · cases run
    · rename_i revoked added addRun
      split at run
      · cases run
      · cases run
        exact (World.addWhitelist_ok addRun).1

end Runs

/-- For a canonical network, removing through the REST interface undoes whatever adding
did, and does what the socket does.  Between calls that all return, a network can be added
and removed without a trace, and is the same entry for both interfaces, exactly when it is
canonical. -/
theorem restWhitelist_undo_iff (env : Externals) (cidr : IpNet) (parseNet : String → Option IpNet)
    (target : String) (now : DateTime) (syncFull : List IpNet → Option String) (before : World) :
    (cidr.trunc = cidr →
      (∀ removed, restRemoveWhitelist env cidr (restAddWhitelist env cidr now syncFull before).2 =
          (.ok (), removed) → cidr.trunc ∉ removed.manager.whitelist.entries) ∧
      (parseNet target = some cidr → (socketWhitelistRemove env parseNet target before).2 =
          (restRemoveWhitelist env cidr before).2)) ∧ ∀ added removed viaRest viaSocket message,
      restAddWhitelist env cidr now syncFull before = (.ok (), added) →
      restRemoveWhitelist env cidr added = (.ok (), removed) →
      restRemoveWhitelist env cidr before = (.ok (), viaRest) → parseNet target = some cidr →
      socketWhitelistRemove env parseNet target before = (.ok message, viaSocket) →
      (((cidr.trunc ∈ removed.manager.whitelist.entries →
            cidr.trunc ∈ before.manager.whitelist.entries) ∧
          ∀ entry, entry ∈ viaRest.manager.whitelist.entries ↔
            entry ∈ viaSocket.manager.whitelist.entries) ↔ cidr.trunc = cidr) := by
  have undone : ∀ {source removed : World}, cidr.trunc = cidr →
      restRemoveWhitelist env cidr source = (.ok (), removed) →
        cidr.trunc ∉ removed.manager.whitelist.entries := by
    intro source removed canonical removeRun
    rw [entries_restRemoveWhitelist removeRun, canonical, AList.mem_erase]
    exact fun member => member.1 rfl
  constructor
  · intro canonical
    constructor
    · exact fun removed removeRun => undone canonical removeRun
    · intro parsed
      rw [socketWhitelistRemove_world parsed, restRemoveWhitelist_world, canonical]
  · intro added removed viaRest viaSocket message addRun removeRun restRun parsed socketRun
    have viaRest_eq := entries_restRemoveWhitelist restRun
    have viaSocket_eq := entries_socketWhitelistRemove parsed socketRun
    constructor
    · rintro ⟨noTrace, sameEntry⟩
      by_contra hostBits
      -- The removal leaves the canonical entry, so it was there before; then only the
      -- socket removes it.
      have left : cidr.trunc ∈ removed.manager.whitelist.entries := by
        rw [entries_restRemoveWhitelist removeRun, entries_restAddWhitelist addRun,
          AList.mem_erase, AList.mem_insert]
        exact ⟨hostBits, .inl rfl⟩
      have kept : cidr.trunc ∈ viaRest.manager.whitelist.entries := by
        rw [viaRest_eq, AList.mem_erase]
        exact ⟨hostBits, noTrace left⟩
      rw [sameEntry, viaSocket_eq, AList.mem_erase] at kept
      exact kept.1 rfl
    · intro canonical
      constructor
      · exact fun left => absurd left (undone canonical removeRun)
      · intro entry
        rw [viaRest_eq, viaSocket_eq, canonical]

/-- `100.65.1.7/24` added and removed through the REST interface leaves `100.65.1.0/24`
behind; the socket removes it under the same name. -/
theorem restWhitelist_leaves_entry :
    let spelling : IpNet := .ofV4 0x64410107#32 24
    let added := restAddWhitelist Wire.externals spelling 0 (fun _ => none) World.sampleStart
    let viaRest := restRemoveWhitelist Wire.externals spelling added.2
    let viaSocket := socketWhitelistRemove Wire.externals (fun _ => some spelling)
      "100.65.1.7/24" added.2
    World.sampleStart.manager.whitelist.entries.keys = [] ∧
      added.1 = .ok () ∧ viaRest.1 = .ok () ∧
      viaRest.2.manager.whitelist.entries.keys = [.ofV4 0x64410100#32 24] ∧
      viaSocket.2.manager.whitelist.entries.keys = [] := by
  decide +kernel

end HiveGuard.Daemon
