import HiveGuard.Core.Coverage
import HiveGuard.Core.Hlc

/-!
# Lookups against a scan of all bans

A lookup tries the prefix lengths that have bans and asks the map once for each.  It is
compared here with a scan of everything that is stored.  The two agree until a prefix length
would have to count to `2 ^ 32`: then its counter wraps around and its bans are not seen.
-/

namespace HiveGuard.Core

open Library.Cidr Library.Dictionary

/-- A stored ban on the address, with a prefix as long as that of any other. -/
structure MostSpecific (bans : Dict IpNet BanRecord) (ip : IpAddr) (record : BanRecord) :
    Prop where
  stored : record ∈ values bans
  holds : record.subject.contains ip = true
  longest : ∀ other ∈ values bans, other.subject.contains ip = true →
    other.subject.prefixLen ≤ record.subject.prefixLen

namespace InMemoryBanStore

/-! ## Lookup of an address -/

/-- What a lookup finds has a prefix as long as that of any counted block that is stored. -/
theorem longestMatch_longest {w : Nat} {counts : Fin (w + 1) → Nat} {family : Block w → IpNet}
    {bans : Dict IpNet BanRecord} {ip : BitVec w} {record other : BanRecord} {block : Block w}
    (found : longestMatch counts family bans ip = some record)
    (counted : counts (PrefixCounts.index block) ≠ 0) (member : block.contains ip = true)
    (stored : bans.lookup (family block.trunc) = some other) :
    ∃ hit : Block w, hit.addr = ip ∧ bans.lookup (family hit.trunc) = some record ∧
      block.prefixLen ≤ hit.prefixLen := by
  rcases List.findSome?_eq_some_iff.mp found with
    ⟨longer, len, shorter, split_eq, matched, unmatched⟩
  have reached := Nat.le_of_lt_succ len.isLt
  split at matched
  · contradiction
  · refine ⟨⟨ip, len.val, reached⟩, rfl, ?_, ?_⟩
    · rw [← masked_eq_trunc]
      exact matched
    · by_contra beyond
      -- A longer prefix was tried before, and the block would have been found there.
      have descending : (longer ++ len :: shorter).Pairwise fun first second => second < first := by
        rw [← split_eq, List.pairwise_reverse]
        exact List.pairwise_lt_finRange (w + 1)
      have tried : PrefixCounts.index block ∈ longer ++ len :: shorter := by
        rw [← split_eq]
        simp
      have earlier : PrefixCounts.index block ∈ longer := by
        rcases List.mem_append.mp tried with early | late
        · exact early
        · rcases List.mem_cons.mp late with same | after
          · exact absurd (congrArg Fin.val same).le beyond
          · have below := (List.pairwise_cons.mp (List.pairwise_append.mp descending).2.1).1 _ after
            exact absurd (show block.prefixLen ≤ len.val from below.le) beyond
      have missed := unmatched _ earlier
      rw [if_neg counted] at missed
      have same : Block.trunc ⟨ip, block.prefixLen, block.prefixLen_le⟩ = block.trunc :=
        Block.trunc_eq_of_common rfl (Block.contains_addr _) member
      rw [← same, ← masked_eq_trunc] at stored
      exact absurd (stored.symm.trans missed) (by simp)

section Canonical

variable {self : InMemoryBanStore}

/-- Bans are filed under networks without host bits. -/
def Canonical (self : InMemoryBanStore) : Prop :=
  ∀ record ∈ self.getAllBans, record.subject.trunc = record.subject

variable {record : BanRecord} {ip : IpAddr}

theorem mem_values_iff_lookup :
    record ∈ values self.bans ↔ self.bans.lookup record.subject = some record :=
  getAllBans_mem_iff

/-- Stored networks of one length that share an address are one network. -/
theorem eq_of_common (canonical : self.Canonical) {first second : BanRecord}
    (firstStored : first ∈ values self.bans) (secondStored : second ∈ values self.bans)
    (inFirst : first.subject.contains ip = true)
    (inSecond : second.subject.contains ip = true)
    (sameLen : first.subject.prefixLen = second.subject.prefixLen) : first = second := by
  have shares : IpNet.SharesAddress first.subject second.subject := ⟨ip, inFirst, inSecond⟩
  have subject_eq : first.subject = second.subject := by
    rw [← canonical first firstStored, shares.trunc_eq sameLen, canonical second secondStored]
  have firstFound := mem_values_iff_lookup.mp firstStored
  rw [subject_eq, mem_values_iff_lookup.mp secondStored] at firstFound
  exact (Option.some.inj firstFound).symm

/-- A record that a lookup can find at a network of the address. -/
theorem holds_of_lookup {net : IpNet} (stored : self.bans.lookup net.trunc = some record) :
    record ∈ values self.bans ∧ record.subject.contains net.addr = true ∧
      record.subject.prefixLen = net.prefixLen := by
  rw [self.subject_eq net.trunc record stored, IpNet.contains_trunc, IpNet.prefixLen_trunc]
  exact ⟨mem_values_iff.mpr ⟨net.trunc, stored⟩, net.contains_addr, rfl⟩

/-- What a lookup finds is stored, holds the address and has a prefix as long as that of any
stored ban that does. -/
theorem mostSpecific_of_isBanned (counted : self.Counted) (canonical : self.Canonical)
    (found : self.isBanned ip = some record) : MostSpecific self.bans ip record := by
  obtain ⟨net, rfl, stored⟩ := exists_of_isBanned found
  refine ⟨(holds_of_lookup stored).1, (holds_of_lookup stored).2.1, ?_⟩
  intro other otherStored inOther
  have otherFound := mem_values_iff_lookup.mp otherStored
  have seen := count_ne_zero_of_lookup counted otherFound
  have trunc_eq := canonical other otherStored
  cases net with
  | v4 block =>
    cases otherNet : other.subject with
    | v4 otherBlock =>
      rw [otherNet] at otherFound seen inOther trunc_eq
      rw [← trunc_eq] at otherFound
      rcases longestMatch_longest found seen inOther otherFound with
        ⟨hit, -, hitStored, longer⟩
      have hit_eq := (@holds_of_lookup self record (.v4 hit) hitStored).2.2
      exact hit_eq ▸ longer
    | v6 otherBlock =>
      rw [otherNet] at inOther
      contradiction
  | v6 block =>
    cases otherNet : other.subject with
    | v4 otherBlock =>
      rw [otherNet] at inOther
      contradiction
    | v6 otherBlock =>
      rw [otherNet] at otherFound seen inOther trunc_eq
      rw [← trunc_eq] at otherFound
      rcases longestMatch_longest found seen inOther otherFound with
        ⟨hit, -, hitStored, longer⟩
      have hit_eq := (@holds_of_lookup self record (.v6 hit) hitStored).2.2
      exact hit_eq ▸ longer

/-- A lookup misses only addresses that no stored ban holds. -/
theorem isBanned_eq_none_iff (counted : self.Counted) (canonical : self.Canonical) :
    self.isBanned ip = none ↔ ∀ record ∈ values self.bans, record.subject.contains ip = false := by
  constructor
  · intro missed record stored
    rw [← Bool.not_eq_true]
    intro inRecord
    -- The record is filed under the network of its length around the address.
    obtain ⟨net, made, trunc_eq⟩ := IpNet.new_of_contains inRecord
    obtain ⟨rfl, -⟩ := IpNet.addr_of_new made
    have found : self.bans.lookup net.trunc = some record := by
      rw [trunc_eq, canonical record stored]
      exact mem_values_iff_lookup.mp stored
    exact isBanned_ne_none counted found missed
  · intro none_holds
    cases found : self.isBanned ip with
    | none => rfl
    | some record =>
      have specific := mostSpecific_of_isBanned counted canonical found
      have apart := none_holds record specific.stored
      rw [specific.holds] at apart
      contradiction

theorem isBanned_eq_some_iff (counted : self.Counted) (canonical : self.Canonical) :
    self.isBanned ip = some record ↔ MostSpecific self.bans ip record := by
  refine ⟨mostSpecific_of_isBanned counted canonical, fun specific => ?_⟩
  cases found : self.isBanned ip with
  | none =>
    have apart := (isBanned_eq_none_iff counted canonical).mp found record specific.stored
    rw [specific.holds] at apart
    contradiction
  | some other =>
    have otherSpecific := mostSpecific_of_isBanned counted canonical found
    have sameLen := (specific.longest other otherSpecific.stored otherSpecific.holds).antisymm
      (otherSpecific.longest record specific.stored specific.holds)
    rw [eq_of_common canonical otherSpecific.stored specific.stored otherSpecific.holds
      specific.holds sameLen]

/-! ## Lookup of a network -/

theorem atLength_of_new {counts : PrefixCounts} {subject net : IpNet} {len : Nat}
    (made : IpNet.new subject.addr len = some net) :
    counts.atLength subject len = counts.count net.trunc := by
  cases subject with
  | v4 block =>
    simp only [IpNet.addr, IpNet.new, Option.dite_none_right_eq_some,
      Option.some.injEq] at made
    obtain ⟨fits, rfl⟩ := made
    exact dif_pos (Nat.lt_succ_of_le fits)
  | v6 block =>
    simp only [IpNet.addr, IpNet.new, Option.dite_none_right_eq_some,
      Option.some.injEq] at made
    obtain ⟨fits, rfl⟩ := made
    exact dif_pos (Nat.lt_succ_of_le fits)

theorem mem_coveringBans_iff (counted : self.Counted) (canonical : self.Canonical)
    {subject : IpNet} :
    record ∈ self.coveringBans subject ↔
      record ∈ values self.bans ∧ subject.Within record.subject := by
  constructor
  · intro member
    have covering := within_of_mem_coveringBans member
    exact ⟨mem_values_iff_lookup.mpr covering.1, covering.2⟩
  · rintro ⟨stored, within⟩
    have inRecord := within subject.addr subject.contains_addr
    obtain ⟨net, made, trunc_eq⟩ := IpNet.new_of_contains inRecord
    rw [canonical record stored] at trunc_eq
    have found : self.bans.lookup net.trunc = some record := by
      rw [trunc_eq]
      exact mem_values_iff_lookup.mp stored
    have seen := count_ne_zero_of_lookup counted found
    simp only [coveringBans, List.mem_filterMap, List.mem_filter, List.mem_range]
    refine ⟨net, ⟨record.subject.prefixLen, ⟨Nat.lt_succ_of_le within.prefixLen_le, ?_⟩, made⟩,
      found⟩
    rw [decide_eq_true_eq, atLength_of_new made]
    exact Nat.pos_of_ne_zero seen

/-- The covering bans have different prefix lengths. -/
theorem nodup_coveringBans (self : InMemoryBanStore) (subject : IpNet) :
    (self.coveringBans subject).Nodup := by
  rw [coveringBans, List.filterMap_filterMap]
  refine List.Nodup.filterMap ?_ (List.nodup_range.filter _)
  have len_eq : ∀ len record,
      ((IpNet.new subject.addr len).bind fun net => self.bans.lookup net.trunc) = some record →
        record.subject.prefixLen = len := by
    intro len record found
    rcases Option.bind_eq_some_iff.mp found with ⟨net, made, stored⟩
    rw [(holds_of_lookup stored).2.2, (IpNet.addr_of_new made).2]
  intro first second record inFirst inSecond
  rw [← len_eq first record inFirst, len_eq second record inSecond]

end Canonical

/-! ## Runs of operations -/

/-- The lookups are those of a scan of all bans. -/
structure Exact (store : InMemoryBanStore) : Prop where
  found : ∀ ip record, store.isBanned ip = some record ↔ MostSpecific store.bans ip record
  missed : ∀ ip, store.isBanned ip = none ↔
    ∀ record ∈ values store.bans, record.subject.contains ip = false
  covering : ∀ subject, (store.coveringBans subject).Nodup ∧
    ∀ record, record ∈ store.coveringBans subject ↔
      record ∈ values store.bans ∧ subject.Within record.subject

inductive Operation where
  | addBan (record : BanRecord)
  | removeBan (subject : IpNet)
  | cleanupExpired (now : DateTime)

namespace Operation

def perform : Operation → InMemoryBanStore → InMemoryBanStore
  | addBan record, store => store.addBan record
  | removeBan subject, store => (store.removeBan subject).2
  | cleanupExpired now, store => (store.cleanupExpired now).2

/-- Subjects have no host bits. -/
def Canonical : Operation → Prop
  | addBan record => record.subject.trunc = record.subject
  | _ => True

/-- A new subject finds fewer than `2 ^ 32 - 1` bans of its prefix length. -/
def Fits : Operation → InMemoryBanStore → Prop
  | addBan record, store => record.subject ∈ store.bans ∨
      store.bans.keys.countP (fun key => key.samePrefix record.subject) + 1 < 2 ^ 32
  | _, _ => True

end Operation

/-- The stores that operations lead to, as long as every counter has room. -/
inductive Reached : InMemoryBanStore → Prop
  | start : Reached new
  | step {store : InMemoryBanStore} (earlier : Reached store) {operation : Operation}
      (canonical : operation.Canonical) (fits : operation.Fits store) :
      Reached (operation.perform store)

/-- What keeps lookups exact. -/
structure Sound (store : InMemoryBanStore) : Prop where
  counted : store.Counted
  fits : store.Fits
  canonical : store.Canonical

section Steps

variable {store : InMemoryBanStore} {record : BanRecord}

theorem Sound.exact (sound : store.Sound) : store.Exact where
  found _ _ := isBanned_eq_some_iff sound.counted sound.canonical
  missed _ := isBanned_eq_none_iff sound.counted sound.canonical
  covering subject := ⟨store.nodup_coveringBans subject, fun _ =>
    mem_coveringBans_iff sound.counted sound.canonical⟩

theorem samePrefix_congr {first second : IpNet} (same : first.samePrefix second = true)
    (key : IpNet) : key.samePrefix second = key.samePrefix first := by
  cases first <;> cases second <;> cases key <;> simp_all [IpNet.samePrefix]

theorem fits_addBan (fits : store.Fits) (room : (Operation.addBan record).Fits store) :
    (store.addBan record).Fits := by
  intro net
  by_cases present : record.subject ∈ store.bans
  · rw [addBan, countP_keys_insert_of_mem present]
    exact fits net
  · rw [addBan, countP_keys_insert_of_notMem present]
    split
    · rename_i same
      simp only [samePrefix_congr same]
      exact room.resolve_left present
    · exact fits net

/-- Operations that only drop bans leave room and keep the canonical ones. -/
theorem Sound.of_fewer {after : InMemoryBanStore} (sound : store.Sound)
    (counted : after.Counted) (fewer : after.bans.keys.Sublist store.bans.keys)
    (kept : ∀ subject record, after.bans.lookup subject = some record →
      store.bans.lookup subject = some record) : after.Sound where
  counted := counted
  fits net := fewer.countP_le.trans_lt (sound.fits net)
  canonical record stored := by
    rw [getAllBans_mem_iff] at stored
    exact sound.canonical record (getAllBans_mem_iff.mpr (kept record.subject record stored))

theorem Sound.addBan (sound : store.Sound) (canonical : record.subject.trunc = record.subject)
    (room : (Operation.addBan record).Fits store) : (store.addBan record).Sound where
  counted := counted_addBan sound.counted (fits_addBan sound.fits room)
  fits := fits_addBan sound.fits room
  canonical := by
    intro stored member
    rw [getAllBans_mem_iff, InMemoryBanStore.addBan, lookup_insert] at member
    split at member
    · cases member
      exact canonical
    · exact sound.canonical stored (getAllBans_mem_iff.mpr member)

theorem Sound.perform (sound : store.Sound) {operation : Operation}
    (canonical : operation.Canonical) (room : operation.Fits store) :
    (operation.perform store).Sound := by
  cases operation with
  | addBan record => exact sound.addBan canonical room
  | removeBan subject =>
    refine sound.of_fewer (counted_removeBan sound.counted subject) ?_ fun other record found => ?_
    · rw [Operation.perform, removeBan, AList.keys_erase]
      exact List.erase_sublist
    · rw [Operation.perform, removeBan, lookup_erase] at found
      split at found
      · contradiction
      · exact found
  | cleanupExpired now =>
    refine sound.of_fewer (counted_cleanupExpired sound.counted sound.fits now)
      (keys_retain_sublist _ store.bans) fun subject record found => ?_
    rw [Operation.perform, cleanupExpired, lookup_retain, Option.filter_eq_some_iff] at found
    exact found.1

theorem sound_new : new.Sound where
  counted := counted_new
  fits _ := by simp [new]
  canonical _ stored := by contradiction

theorem Reached.sound (reached : Reached store) : store.Sound := by
  induction reached with
  | start => exact sound_new
  | step earlier canonical fits ih => exact ih.perform canonical fits

/-- A counter that wraps around hides the new ban. -/
theorem not_exact_of_not_fits (sound : store.Sound)
    (overflows : ¬(Operation.addBan record).Fits store) : ¬(store.addBan record).Exact := by
  intro lookups
  simp only [Operation.Fits, not_or, Nat.not_lt] at overflows
  have small := sound.fits record.subject
  have count_eq : (store.addBan record).counts.count record.subject = 0 := by
    have same : record.subject.samePrefix record.subject = true := by
      cases record.subject <;> simp [IpNet.samePrefix]
    have whole : store.bans.keys.countP (fun key => key.samePrefix record.subject) + 1 =
        2 ^ 32 := by omega
    simp only [addBan, if_neg (mt AList.lookup_isSome.mp overflows.1)]
    rw [PrefixCounts.incPrefix, PrefixCounts.count_updatePrefix, if_pos same,
      sound.counted record.subject, whole, Nat.mod_self]
  have stored : record ∈ values (store.addBan record).bans :=
    mem_values_iff.mpr ⟨record.subject, AList.lookup_insert _⟩
  have covering := ((lookups.covering record.subject).2 record).mpr ⟨stored, fun _ member => member⟩
  simp only [coveringBans, List.mem_filterMap, List.mem_filter, decide_eq_true_eq] at covering
  rcases covering with ⟨net, ⟨len, ⟨-, counted⟩, made⟩, found⟩
  have subject_eq := (store.addBan record).subject_eq net.trunc record found
  rw [atLength_of_new made, ← subject_eq, count_eq] at counted
  contradiction

end Steps

/-- As long as no prefix length has to count to `2 ^ 32`, lookups are those of a scan of all
bans, and the next operation keeps them so exactly if it leaves the counters room. -/
theorem lookups_exact_iff_fits {store : InMemoryBanStore} (reached : Reached store) :
    store.Exact ∧ ∀ operation : Operation, operation.Canonical →
      ((operation.perform store).Exact ↔ operation.Fits store) := by
  have sound := reached.sound
  refine ⟨sound.exact, fun operation canonical => ?_⟩
  constructor
  · intro lookups
    by_contra overflows
    cases operation with
    | addBan record => exact not_exact_of_not_fits sound overflows lookups
    | removeBan subject => exact overflows trivial
    | cleanupExpired now => exact overflows trivial
  · exact fun fits => (sound.perform canonical fits).exact

/-- A permanent ban made by hand. -/
def permanentBan (subject : IpNet) : BanRecord where
  subject := subject
  createdAt := 1700000000000000000
  expiresAt := none
  severity := 100
  reason := "scan"
  evidenceHash := Vector.replicate 32 0
  source := .manualAdmin
  geoInfo := none

/-- Bans of `8.8.8.0/24` and of two addresses in it. -/
def nestedBans : InMemoryBanStore :=
  ((new.addBan (permanentBan (.ofV4 0x08080800#32 24))).addBan
    (permanentBan (.ofV4 0x08080808#32 32))).addBan (permanentBan (.ofV4 0x08080809#32 32))

theorem reached_nestedBans : Reached nestedBans := by
  have add : ∀ {store} (subject : IpNet), Reached store → subject.trunc = subject →
      (store.bans.keys.countP fun key => key.samePrefix subject) + 1 < 2 ^ 32 →
        Reached (store.addBan (permanentBan subject)) :=
    fun subject earlier canonical room => @Reached.step _ earlier (.addBan (permanentBan subject))
      canonical (.inr room)
  exact add _ (add _ (add _ .start (by decide) (by decide)) (by decide) (by decide)) (by decide)
    (by decide)

/-- After one of the two is removed, its address is still held by the network. -/
theorem lookups_exact_after_removal :
    let store := (Operation.removeBan (.ofV4 0x08080809#32 32)).perform nestedBans
    store.Exact ∧ store.isBanned (.v4 0x08080808#32) =
        some (permanentBan (.ofV4 0x08080808#32 32)) ∧
      store.isBanned (.v4 0x08080809#32) = some (permanentBan (.ofV4 0x08080800#32 24)) := by
  refine ⟨?_, by decide +kernel, by decide +kernel⟩
  exact ((lookups_exact_iff_fits reached_nestedBans).2 (.removeBan _) trivial).mpr trivial

/-! ## All addresses -/

def hostV4 (number : Nat) : IpNet :=
  .v4 (.host (BitVec.ofNat 32 number))

/-- The addresses of `2001:db8::/96`. -/
def hostV6 (number : Nat) : IpNet :=
  .v6 (.host (BitVec.ofNat 128 (0x20010db8 * 2 ^ 96 + number)))

/-- The networks are different and have one prefix length. -/
structure Hosts (host : Nat → IpNet) : Prop where
  injective : ∀ first < 2 ^ 32, ∀ second < 2 ^ 32, host first = host second → first = second
  samePrefix : ∀ number, (host number).samePrefix (host 0) = true

theorem hosts_hostV4 : Hosts hostV4 where
  injective := by
    intro first firstFits second secondFits same
    simp only [hostV4, IpNet.v4.injEq, Block.host, Block.mk.injEq, and_true] at same
    have numbers_eq := congrArg BitVec.toNat same
    rwa [BitVec.toNat_ofNat, BitVec.toNat_ofNat, Nat.mod_eq_of_lt firstFits,
      Nat.mod_eq_of_lt secondFits] at numbers_eq
  samePrefix _ := rfl

theorem hosts_hostV6 : Hosts hostV6 where
  injective := by
    intro first firstFits second secondFits same
    simp only [hostV6, IpNet.v6.injEq, Block.host, Block.mk.injEq, and_true] at same
    have numbers_eq := congrArg BitVec.toNat same
    rw [BitVec.toNat_ofNat, BitVec.toNat_ofNat] at numbers_eq
    omega
  samePrefix _ := rfl

theorem trunc_host {w : Nat} (addr : BitVec w) : (Block.host addr).trunc = .host addr := by
  have network_eq : (Block.host addr).network = addr := by
    apply BitVec.eq_of_toNat_eq
    simp [Block.network_toNat, Block.hostBits, Block.host]
  rw [Block.trunc, network_eq]
  rfl

/-- The store after bans of the first hosts. -/
def hostsBanned (host : Nat → IpNet) (number : Nat) : InMemoryBanStore :=
  (List.range number).foldl (fun store next => store.addBan (permanentBan (host next))) new

theorem hostsBanned_succ (host : Nat → IpNet) (number : Nat) :
    hostsBanned host (number + 1) =
      (hostsBanned host number).addBan (permanentBan (host number)) := by
  rw [hostsBanned, List.range_succ, List.foldl_concat, ← hostsBanned]

variable {host : Nat → IpNet}

/-- Only the counter of the hosts counts, and it wraps around. -/
theorem hostsBanned_spec (hosts : Hosts host) {number : Nat} (fits : number ≤ 2 ^ 32) :
    (∀ earlier < number,
      (hostsBanned host number).bans.lookup (host earlier) = some (permanentBan (host earlier))) ∧
    (∀ net ∈ (hostsBanned host number).bans, ∃ earlier < number, host earlier = net) ∧
    ∀ net, (hostsBanned host number).counts.count net =
      if (host 0).samePrefix net then number % 2 ^ 32 else 0 := by
  induction number with
  | zero =>
    refine ⟨by simp, by simp [hostsBanned, new], fun net => ?_⟩
    rw [hostsBanned, List.range_zero, List.foldl_nil, new, PrefixCounts.count_zero]
    split <;> rfl
  | succ number ih =>
    rcases ih (Nat.le_of_succ_le fits) with ⟨stored, origin, counts_eq⟩
    have new_subject : host number ∉ (hostsBanned host number).bans := by
      intro present
      rcases origin _ present with ⟨earlier, before, same⟩
      exact absurd (hosts.injective _ (before.trans fits) _ fits same) before.ne
    rw [hostsBanned_succ]
    refine ⟨fun earlier before => ?_, fun net member => ?_, fun net => ?_⟩
    · rw [addBan, lookup_insert]
      rcases Nat.lt_succ_iff_lt_or_eq.mp before with older | rfl
      · have different : host earlier ≠ (permanentBan (host number)).subject := fun same =>
          older.ne (hosts.injective _ (older.trans fits) _ fits same)
        rw [if_neg different, stored earlier older]
      · exact if_pos rfl
    · rw [addBan, AList.mem_insert] at member
      rcases member with rfl | older
      · exact ⟨number, Nat.lt_succ_self number, rfl⟩
      · rcases origin net older with ⟨earlier, before, same⟩
        exact ⟨earlier, Nat.lt_succ_of_lt before, same⟩
    · have prefix_eq : (host number).samePrefix net = (host 0).samePrefix net := by
        have same := hosts.samePrefix number
        cases first : host number <;> cases second : host 0 <;> cases net <;>
          simp_all [IpNet.samePrefix]
      have absent : ¬((hostsBanned host number).bans.lookup
          (permanentBan (host number)).subject).isSome = true :=
        mt AList.lookup_isSome.mp new_subject
      simp only [addBan, if_neg absent]
      rw [PrefixCounts.incPrefix, PrefixCounts.count_updatePrefix, counts_eq]
      simp only [permanentBan, prefix_eq]
      split
      · exact Nat.mod_add_mod _ _ _
      · rfl

/-- With `2 ^ 32` of them banned, no counter counts any. -/
theorem count_hostsBanned (hosts : Hosts host) (net : IpNet) :
    (hostsBanned host (2 ^ 32)).counts.count net = 0 := by
  rw [(hostsBanned_spec hosts (le_refl _)).2.2, Nat.mod_self, ite_self]

theorem lookup_hostsBanned (hosts : Hosts host) {number : Nat} (before : number < 2 ^ 32) :
    (hostsBanned host (2 ^ 32)).bans.lookup (host number) = some (permanentBan (host number)) :=
  (hostsBanned_spec hosts (le_refl _)).1 number before

/-- Without counts nothing is looked up. -/
theorem isBanned_of_count {store : InMemoryBanStore} (empty : ∀ net, store.counts.count net = 0)
    (ip : IpAddr) : store.isBanned ip = none := by
  cases ip with
  | v4 ip =>
    refine List.findSome?_eq_none_iff.mpr fun len _ => ?_
    exact if_pos (empty (.v4 ⟨ip, len.val, Nat.le_of_lt_succ len.isLt⟩))
  | v6 ip =>
    refine List.findSome?_eq_none_iff.mpr fun len _ => ?_
    exact if_pos (empty (.v6 ⟨ip, len.val, Nat.le_of_lt_succ len.isLt⟩))

/-- When every IPv4 address is banned, the lookup of an address finds nothing. -/
theorem lookups_miss_when_all_banned :
    (∀ number, (Operation.addBan (permanentBan (hostV4 number))).Canonical) ∧
      (∀ number < 2 ^ 32,
        permanentBan (hostV4 number) ∈ values (hostsBanned hostV4 (2 ^ 32)).bans) ∧
      ∀ ip, (hostsBanned hostV4 (2 ^ 32)).isBanned (.v4 ip) = none :=
  ⟨fun _ => congrArg IpNet.v4 (trunc_host _),
    fun _ before => mem_values_iff.mpr ⟨_, lookup_hostsBanned hosts_hostV4 before⟩,
    fun ip => isBanned_of_count (count_hostsBanned hosts_hostV4) (.v4 ip)⟩

end InMemoryBanStore

end HiveGuard.Core
