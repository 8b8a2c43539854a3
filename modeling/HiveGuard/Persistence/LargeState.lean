import HiveGuard.Persistence.Recovery

/-!
# A state that outgrows the loader

Whitelisting many single addresses on a working device always succeeds, and each
of them takes six bytes of a snapshot.
-/

namespace HiveGuard.Persistence

open HiveGuard.Core Library.Cidr Library.Effect Library.Encoding Library.Postcard
open WalReader WalWriter

namespace Wire

/-! ## IPv4 networks read back -/

theorem readsBack_writeNet (block : Block 32) : ReadsBack writeNet readNet (.v4 block) := by
  intro rest
  have addr_eq : BitVec.ofNat 32 (fromOctets (octets 4 block.addr.toNat)) = block.addr := by
    rw [fromOctets_octets]
    apply BitVec.eq_of_toNat_eq
    have bound := block.addr.isLt
    simp only [BitVec.toNat_ofNat]
    omega
  have length_eq : (UInt8.ofNat block.prefixLen).toNat = block.prefixLen := by
    have bound := block.prefixLen_le
    rw [UInt8.toNat_ofNat']
    omega
  have addrRead : (readBytes 4).run
      (octets 4 block.addr.toNat ++ (UInt8.ofNat block.prefixLen :: rest)) =
        some (octets 4 block.addr.toNat, UInt8.ofNat block.prefixLen :: rest) := by
    simp [readBytes, StateT.run]
  have written : writeNet (.v4 block) ++ rest =
      0 :: (octets 4 block.addr.toNat ++ (UInt8.ofNat block.prefixLen :: rest)) := by
    simp [writeNet]
  have kindRead : ∀ bytes, readByte.run (0 :: bytes) = some ((0 : UInt8), bytes) := fun _ => rfl
  have lengthRead : readByte.run (UInt8.ofNat block.prefixLen :: rest) =
      some (UInt8.ofNat block.prefixLen, rest) := rfl
  rw [written, readNet, StateT.run_bind, kindRead]
  simp only [Option.bind_eq_bind, Option.bind_some, StateT.run_bind, addrRead, lengthRead,
    StateT.run_lift, IpNet.new, addr_eq, length_eq, block.prefixLen_le, dite_true]
  rfl

theorem length_writeNet (block : Block 32) : (writeNet (.v4 block)).length = 6 := by
  simp [writeNet]

theorem encode_addWhitelist (block : Block 32) :
    externals.wal.encode (.addWhitelist (.v4 block)) = .ok (2 :: writeNet (.v4 block)) := by
  have netRead := readsBack_writeNet block []
  rw [List.append_nil] at netRead
  have readable : readEntry.run (2 :: writeNet (.v4 block)) =
      some (.addWhitelist (.v4 block), []) := by
    have kindRead : readByte.run (2 :: writeNet (.v4 block)) =
        some ((2 : UInt8), writeNet (.v4 block)) := rfl
    rw [readEntry, StateT.run_bind, kindRead]
    simp [netRead]
  exact if_pos readable

/-- The snapshot of a whitelist of IPv4 networks. -/
theorem encode_whitelist {blocks : List (Block 32)}
    (lengthReadsBack : ReadsBack writeVarint readVarint blocks.length) :
    externals.snapshotV4.encode ⟨[], blocks.map .v4, [], []⟩ =
      .ok (writeSnapshot ⟨[], blocks.map .v4, [], []⟩) := by
  have whitelistRead : ReadsBack (writeList writeNet) (readList readNet)
      (blocks.map IpNet.v4) := by
    refine readsBack_writeList (by rwa [List.length_map]) ?_
    intro net member
    obtain ⟨block, -, rfl⟩ := List.mem_map.mp member
    exact readsBack_writeNet block
  have readable : readSnapshot.run (writeSnapshot ⟨[], blocks.map .v4, [], []⟩) =
      some (⟨[], blocks.map .v4, [], []⟩, []) := by
    have bansRead : ∀ rest, (readList readBan).run (writeList writeBan [] ++ rest) =
        some ([], rest) := fun _ => rfl
    have crdtRead : ∀ rest, (readList readCrdt).run (writeList writeCrdt [] ++ rest) =
        some ([], rest) := fun _ => rfl
    simp only [readSnapshot, readSnapshotV2, writeSnapshot, StateT.run_bind, bansRead,
      whitelistRead _, crdtRead, Option.bind_eq_bind, Option.bind_some]
    rfl
  exact if_pos readable

theorem length_writeSnapshot_whitelist (blocks : List (Block 32)) :
    6 * blocks.length ≤ (writeSnapshot ⟨[], blocks.map .v4, [], []⟩).length := by
  have netsLength : ((blocks.map IpNet.v4).flatMap writeNet).length = 6 * blocks.length := by
    induction blocks with
    | nil => rfl
    | cons block blocks ih =>
      simp only [List.map_cons, List.flatMap_cons, List.length_append, List.length_cons,
        length_writeNet, ih]
      omega
  simp only [writeSnapshot, writeList, List.length_append, netsLength]
  omega

end Wire

variable {env : Externals}

/-- On a device without faults an entry that fits is stored. -/
theorem WalWriter.Ready.append_faultless {state : WalState} {file : Bytes} {entry : WalEntry}
    (ready : Ready env state file) (fits : ∃ bytes, IsRecord env entry bytes)
    (faultless : state.io = []) :
    ∃ target log, (append env entry).run state = .ok () target ∧ Ready env target log ∧
      target.io = [] := by
  have appended := append_appended env ready.atEnd entry
  cases run : (append env entry).run state with
  | ok value target =>
    rw [run] at appended
    cases appended with
    | stored accepting isRecord wrote =>
      exact ⟨target, _, rfl, ready.wrote isRecord wrote, wrote.faultless faultless⟩
  | error error target =>
    rw [run] at appended
    cases appended with
    | refused reason =>
      rcases reason with latched | unfit
      · rw [ready.accepting] at latched
        contradiction
      · obtain ⟨bytes, isRecord⟩ := fits
        exact absurd isRecord (unfit bytes)
    | torn accepting isRecord isPart wrote faults => exact absurd faultless faults

namespace World

/-- A manager without faults that holds nothing but whitelist entries. -/
structure OnlyWhitelist (env : Externals) (world : World) (nets : List IpNet) : Prop where
  ready : ∃ file, Ready env world.walState file
  faultless : world.io = []
  snapshotData_eq : world.manager.snapshotData = ⟨[], nets, [], []⟩

theorem OnlyWhitelist.addWhitelist {world : World} {nets : List IpNet}
    (only : OnlyWhitelist env world nets) {net : IpNet} (new : net ∉ nets)
    (fits : ∃ bytes, IsRecord env (.addWhitelist net) bytes) :
    ∃ target, (Call.perform env (.mutation (.addWhitelist net))).run world = .ok () target ∧
      OnlyWhitelist env target (net :: nets) := by
  obtain ⟨file, ready⟩ := only.ready
  obtain ⟨state, log, appendRun, stateReady, stateIo⟩ :=
    ready.append_faultless fits only.faultless
  have logRun : (StateManager.logEntry env (.addWhitelist net)).run world = .ok () _ :=
    (StateManager.logEntry_ok_iff env).mpr ⟨state, appendRun, rfl⟩
  have noBans : world.manager.banStore.getAllBans = [] :=
    congrArg SnapshotDataV4.bans only.snapshotData_eq
  have keys_eq : world.manager.whitelist.entries.keys = nets :=
    congrArg SnapshotDataV4.whitelist only.snapshotData_eq
  refine ⟨(world.setWalState state).setStores
    (world.manager.toStores.replayEntry (.addWhitelist net)), ?_, ⟨log, stateReady⟩, stateIo, ?_⟩
  · have stillNoBans : ((world.setWalState state).setStores
        (world.manager.toStores.replayEntry (.addWhitelist net))).manager.banStore.getAllBans =
          [] := noBans
    change (StateManager.addWhitelist env net >>= fun _ => pure ()).run world = _
    simp only [StateManager.addWhitelist_eq, EStateM.run_bind, logRun,
      StateManager.revokeBansCoveredByWhitelist, EStateM.run_get, stillNoBans]
    rfl
  · have whitelist_eq : (world.manager.whitelist.entries.insert net ()).keys = net :: nets := by
      rw [AList.keys_insert, keys_eq, List.erase_of_not_mem new]
    have data_eq := only.snapshotData_eq
    simp only [Stores.snapshotData, SnapshotDataV4.mk.injEq] at data_eq
    change SnapshotDataV4.mk _ (world.manager.whitelist.entries.insert net ()).keys _ _ = _
    rw [whitelist_eq]
    simp only [SnapshotDataV4.mk.injEq]
    exact ⟨data_eq.1, trivial, data_eq.2.2.1, data_eq.2.2.2⟩

/-- Whitelisting distinct networks one after the other succeeds. -/
theorem OnlyWhitelist.forM_addWhitelist {world : World} {nets : List IpNet}
    (only : OnlyWhitelist env world nets) {added : List IpNet} (distinct : added.Nodup)
    (new : ∀ net ∈ added, net ∉ nets)
    (fits : ∀ net ∈ added, ∃ bytes, IsRecord env (.addWhitelist net) bytes) :
    ∃ target, (forM (added.map fun net => Call.mutation (.addWhitelist net))
        (Call.perform env)).run world = .ok () target ∧
      OnlyWhitelist env target (added.reverse ++ nets) := by
  induction added generalizing world nets with
  | nil => exact ⟨world, rfl, only⟩
  | cons net added ih =>
    obtain ⟨netFresh, distinct⟩ := List.nodup_cons.mp distinct
    obtain ⟨middle, callRun, middleOnly⟩ :=
      only.addWhitelist (new net List.mem_cons_self) (fits net List.mem_cons_self)
    obtain ⟨target, run, targetOnly⟩ := ih middleOnly distinct
      (by
        intro later member already
        rcases List.mem_cons.mp already with rfl | before
        · exact netFresh member
        · exact new later (List.mem_cons_of_mem _ member) before)
      fun later member => fits later (List.mem_cons_of_mem _ member)
    refine ⟨target, ?_, by simpa using targetOnly⟩
    rw [List.map_cons, List.forM_cons]
    exact bind_eq_ok_iff.mpr ⟨(), middle, callRun, run⟩

end World

/-! ## Many single addresses -/

/-- The `i`-th address as a network of its own. -/
def host (i : Nat) : Block 32 :=
  ⟨BitVec.ofNat 32 i, 32, Nat.le_refl 32⟩

/-- The first `count` addresses, last one first. -/
def hosts (count : Nat) : List (Block 32) :=
  ((List.range count).map host).reverse

theorem nodup_map_host {count : Nat} (bound : count ≤ 2 ^ 32) :
    (((List.range count).map host).map IpNet.v4).Nodup := by
  rw [List.map_map]
  refine List.Nodup.map_on ?_ List.nodup_range
  intro first firstMember second secondMember same
  have addr_eq : BitVec.ofNat 32 first = BitVec.ofNat 32 second :=
    congrArg Block.addr (IpNet.v4.inj same)
  have value_eq := congrArg BitVec.toNat addr_eq
  rw [List.mem_range] at firstMember secondMember
  simp only [BitVec.toNat_ofNat] at value_eq
  omega

/-- A history of whitelisted addresses, and the file its snapshot makes. -/
theorem exists_history_hosts (dataDir : String) {admissible : Call → Prop}
    (admitted : ∀ net, admissible (.mutation (.addWhitelist net))) {count : Nat}
    (bound : count ≤ 2 ^ 32) (lengthReadsBack : ReadsBack writeVarint readVarint count) :
    ∃ world encoded, World.History Wire.externals dataDir admissible World.sampleStart world ∧
      Wire.externals.snapshotV4.encode world.manager.snapshotData = .ok encoded ∧
      6 * count ≤ encoded.length := by
  have start : World.OnlyWhitelist Wire.externals World.sampleStart [] :=
    ⟨⟨[], ⟨rfl, by simp [World.sampleStart, World.walState]⟩, clean_nil _, rfl⟩, rfl, rfl⟩
  obtain ⟨world, run, only⟩ := start.forM_addWhitelist (nodup_map_host bound) (by simp) (by
    intro net member
    simp only [List.map_map, List.mem_map] at member
    obtain ⟨i, -, rfl⟩ := member
    exact ⟨_, ⟨_, Wire.encode_addWhitelist (host i),
      by simp [Wire.length_writeNet, walMaxRecordSize], rfl⟩⟩)
  have data_eq : world.manager.snapshotData = ⟨[], (hosts count).map .v4, [], []⟩ := by
    rw [only.snapshotData_eq, List.append_nil, hosts, List.map_reverse]
  refine ⟨world, Wire.writeSnapshot ⟨[], (hosts count).map .v4, [], []⟩,
    World.history_of_forM ?_ run, ?_, ?_⟩
  · intro call member
    obtain ⟨net, -, rfl⟩ := List.mem_map.mp member
    exact admitted net
  · rw [data_eq]
    exact Wire.encode_whitelist (by simpa [hosts] using lengthReadsBack)
  · have sized := Wire.length_writeSnapshot_whitelist (hosts count)
    simpa [hosts] using sized

end HiveGuard.Persistence
