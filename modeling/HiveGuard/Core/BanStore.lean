import HiveGuard.Core.Models
import HiveGuard.Library.Dictionary

/-!
# The in-memory ban store

Bans are filed under their subject, which is part of the store's type, so no
sequence of operations can lose it.  A counter of bans per prefix length lets a
lookup skip the lengths that have none.  The counters are 32 bits wide and wrap
around: they are the numbers of bans as long as no prefix length has to count to
`2 ^ 32`.
-/

namespace HiveGuard.Core

open Library.Cidr Library.Dictionary

/-- Do two networks belong to one family and have one prefix length? -/
def IpNet.samePrefix : IpNet → IpNet → Bool
  | v4 first, v4 second => decide (first.prefixLen = second.prefixLen)
  | v6 first, v6 second => decide (first.prefixLen = second.prefixLen)
  | _, _ => false

/-- Counts of bans per IPv4 prefix length (index 0–32) and per IPv6 prefix
length (index 0–128), each a `u32`. -/
structure PrefixCounts where
  v4 : Fin 33 → Nat
  v6 : Fin 129 → Nat

namespace PrefixCounts

def zero : PrefixCounts :=
  ⟨fun _ => 0, fun _ => 0⟩

/-- The array index of a network's prefix length. -/
def index {w : Nat} (block : Block w) : Fin (w + 1) :=
  ⟨block.prefixLen, Nat.lt_succ_of_le block.prefixLen_le⟩

/-- The count at a network's own prefix length. -/
def count (counts : PrefixCounts) : IpNet → Nat
  | .v4 net => counts.v4 (index net)
  | .v6 net => counts.v6 (index net)

/-- The count of the subject's family at a prefix length within its range. -/
def atLength (counts : PrefixCounts) (subject : IpNet) (len : Nat) : Nat :=
  match subject with
  | .v4 _ => if inRange : len < 33 then counts.v4 ⟨len, inRange⟩ else 0
  | .v6 _ => if inRange : len < 129 then counts.v6 ⟨len, inRange⟩ else 0

/-- Change the count at a network's own prefix length. -/
def updatePrefix (counts : PrefixCounts) (change : Nat → Nat) : IpNet → PrefixCounts
  | .v4 net =>
    { counts with v4 := Function.update counts.v4 (index net) (change (counts.v4 (index net))) }
  | .v6 net =>
    { counts with v6 := Function.update counts.v6 (index net) (change (counts.v6 (index net))) }

/-- The increment of a `u32` is not checked. -/
def incPrefix (counts : PrefixCounts) (net : IpNet) : PrefixCounts :=
  counts.updatePrefix (fun count => (count + 1) % 2 ^ 32) net

/-- The decrement saturates at zero. -/
def decPrefix (counts : PrefixCounts) (net : IpNet) : PrefixCounts :=
  counts.updatePrefix (· - 1) net

/-- Count all keys afresh. -/
def rebuildPrefixCounts (keys : List IpNet) : PrefixCounts :=
  keys.foldl incPrefix zero

@[simp]
theorem count_zero (net : IpNet) : zero.count net = 0 := by
  cases net <;> rfl

theorem update_index {w : Nat} (counts : Fin (w + 1) → Nat) (change : Nat → Nat)
    (changed net : Block w) :
    Function.update counts (index changed) (change (counts (index changed))) (index net) =
      if changed.prefixLen = net.prefixLen then change (counts (index net))
      else counts (index net) := by
  by_cases same : changed.prefixLen = net.prefixLen
  · have index_eq : index net = index changed := Fin.ext same.symm
    rw [index_eq, Function.update_self, if_pos same]
  · have index_ne : index net ≠ index changed :=
      fun equal => same (congrArg Fin.val equal).symm
    rw [Function.update_of_ne index_ne, if_neg same]

theorem count_updatePrefix (counts : PrefixCounts) (change : Nat → Nat) (changed net : IpNet) :
    (counts.updatePrefix change changed).count net =
      if changed.samePrefix net then change (counts.count net) else counts.count net := by
  cases changed <;> cases net <;>
    simp [count, updatePrefix, IpNet.samePrefix, update_index]

theorem count_foldl_incPrefix (keys : List IpNet) (counts : PrefixCounts) (net : IpNet)
    (small : counts.count net < 2 ^ 32) :
    (keys.foldl incPrefix counts).count net =
      (counts.count net + keys.countP fun key => key.samePrefix net) % 2 ^ 32 := by
  induction keys generalizing counts with
  | nil => exact (Nat.mod_eq_of_lt small).symm
  | cons key keys ih =>
    have step := count_updatePrefix counts (fun count => (count + 1) % 2 ^ 32) key net
    rw [← incPrefix] at step
    rw [List.foldl_cons, List.countP_cons]
    by_cases same : key.samePrefix net = true
    · rw [if_pos same] at step ⊢
      rw [ih _ (step ▸ Nat.mod_lt _ (by decide)), step, Nat.mod_add_mod]
      congr 1
      omega
    · rw [if_neg same] at step ⊢
      rw [ih _ (step ▸ small), step, Nat.add_zero]

theorem count_rebuildPrefixCounts (keys : List IpNet) (net : IpNet) :
    (rebuildPrefixCounts keys).count net =
      (keys.countP fun key => key.samePrefix net) % 2 ^ 32 := by
  rw [rebuildPrefixCounts, count_foldl_incPrefix keys zero net (by simp), count_zero,
    Nat.zero_add]

end PrefixCounts

/-- In-memory ban store with prefix-length counts. -/
structure InMemoryBanStore where
  bans : Dict IpNet BanRecord
  counts : PrefixCounts
  subject_eq : ∀ net record, bans.lookup net = some record → record.subject = net

namespace InMemoryBanStore

variable (self : InMemoryBanStore)

def new : InMemoryBanStore where
  bans := ∅
  counts := .zero
  subject_eq := by simp

/-- File a record under its subject; a new key raises the count of its prefix
length. -/
def addBan (record : BanRecord) : InMemoryBanStore where
  bans := self.bans.insert record.subject record
  counts :=
    if (self.bans.lookup record.subject).isSome then self.counts
    else self.counts.incPrefix record.subject
  subject_eq := by
    intro net stored found
    rw [lookup_insert] at found
    split at found
    · rename_i same
      cases found
      exact same.symm
    · exact self.subject_eq net stored found

/-- Remove the record of a subject; reports whether there was one. -/
def removeBan (subject : IpNet) : Bool × InMemoryBanStore :=
  ((self.bans.lookup subject).isSome,
    { bans := self.bans.erase subject
      counts :=
        if (self.bans.lookup subject).isSome then self.counts.decPrefix subject
        else self.counts
      subject_eq := by
        intro net stored found
        rw [lookup_erase] at found
        split at found
        · contradiction
        · exact self.subject_eq net stored found })

/-- All bans whose network contains `subject`, the subject itself included and
expired ones too, from the widest to the narrowest. -/
def coveringBans (subject : IpNet) : List BanRecord :=
  ((List.range (subject.prefixLen + 1)).filter fun len =>
      decide (0 < self.counts.atLength subject len)).filterMap (IpNet.new subject.addr)
    |>.filterMap fun net => self.bans.lookup net.trunc

/-- The stored record of the longest prefix that holds an address.  Lengths
without bans are skipped. -/
def longestMatch {w : Nat} (counts : Fin (w + 1) → Nat) (family : Block w → IpNet)
    (bans : Dict IpNet BanRecord) (ip : BitVec w) : Option BanRecord :=
  (List.finRange (w + 1)).reverse.findSome? fun len =>
    if counts len = 0 then
      none
    else
      let mask := if len.val = 0 then 0#w else BitVec.allOnes w <<< (w - len.val)
      bans.lookup (family ⟨ip &&& mask, len.val, Nat.le_of_lt_succ len.isLt⟩)

/-- The most specific ban that holds an address. -/
def isBanned : IpAddr → Option BanRecord
  | .v4 ip => longestMatch self.counts.v4 .v4 self.bans ip
  | .v6 ip => longestMatch self.counts.v6 .v6 self.bans ip

def getAllBans : List BanRecord :=
  values self.bans

/-- Has the record not run out at `now`?  A record without an end never does. -/
def unexpired (now : DateTime) (record : BanRecord) : Bool :=
  match record.expiresAt with
  | none => true
  | some expiry => decide (now < expiry)

/-- Drop expired bans; reports how many.  The counts are rebuilt only when
something was dropped. -/
def cleanupExpired (now : DateTime) : Nat × InMemoryBanStore :=
  let kept := retain (fun _ record => unexpired now record) self.bans
  (self.bans.entries.length - kept.entries.length,
    { bans := kept
      counts :=
        if 0 < self.bans.entries.length - kept.entries.length then
          .rebuildPrefixCounts kept.keys
        else self.counts
      subject_eq := by
        intro net stored found
        rw [lookup_retain, Option.filter_eq_some_iff] at found
        exact self.subject_eq net stored found.1 })

/-! ## The counters -/

variable {self} {record : BanRecord}

/-- Every counter is the number of bans of its prefix length. -/
def Counted (self : InMemoryBanStore) : Prop :=
  ∀ net, self.counts.count net = self.bans.keys.countP fun key => key.samePrefix net

/-- Every prefix length has fewer bans than a counter can count. -/
def Fits (self : InMemoryBanStore) : Prop :=
  ∀ net, (self.bans.keys.countP fun key => key.samePrefix net) < 2 ^ 32

theorem fits_of_length (short : self.bans.keys.length < 2 ^ 32) : self.Fits :=
  fun _ => List.countP_le_length.trans_lt short

theorem counted_new : new.Counted :=
  fun net => PrefixCounts.count_zero net

theorem counted_addBan (counted : self.Counted) (fits : (self.addBan record).Fits) :
    (self.addBan record).Counted := by
  intro net
  have room := fits net
  by_cases present : record.subject ∈ self.bans
  · simp only [addBan, countP_keys_insert_of_mem present,
      if_pos (AList.lookup_isSome.mpr present), counted net]
  · simp only [addBan, countP_keys_insert_of_notMem present,
      if_neg (mt AList.lookup_isSome.mp present)] at room ⊢
    rw [PrefixCounts.incPrefix, PrefixCounts.count_updatePrefix, counted net]
    split at room
    · rename_i same
      rw [if_pos same, if_pos same, Nat.mod_eq_of_lt room]
    · rename_i other
      rw [if_neg other, if_neg other]
      rfl

/-- One more ban leaves no prefix length with fewer. -/
theorem countP_le_addBan (self : InMemoryBanStore) (record : BanRecord) (net : IpNet) :
    (self.bans.keys.countP fun key => key.samePrefix net) ≤
      (self.addBan record).bans.keys.countP fun key => key.samePrefix net := by
  by_cases present : record.subject ∈ self.bans
  · rw [addBan, countP_keys_insert_of_mem present]
  · rw [addBan, countP_keys_insert_of_notMem present]
    exact Nat.le_add_right _ _

theorem counted_removeBan (counted : self.Counted) (subject : IpNet) :
    (self.removeBan subject).2.Counted := by
  intro net
  by_cases present : subject ∈ self.bans
  · simp only [removeBan, countP_keys_erase_of_mem present,
      if_pos (AList.lookup_isSome.mpr present)]
    rw [PrefixCounts.decPrefix, PrefixCounts.count_updatePrefix, counted net]
    split <;> rfl
  · simp only [removeBan, erase_of_notMem present,
      if_neg (mt AList.lookup_isSome.mp present), counted net]

theorem counted_cleanupExpired (counted : self.Counted) (fits : self.Fits) (now : DateTime) :
    (self.cleanupExpired now).2.Counted := by
  intro net
  rw [cleanupExpired]
  dsimp only
  split
  · rw [PrefixCounts.count_rebuildPrefixCounts]
    exact Nat.mod_eq_of_lt ((keys_retain_sublist _ self.bans).countP_le.trans_lt (fits net))
  · rename_i nothingDropped
    have entries_eq : (retain (fun _ record => unexpired now record) self.bans).entries =
        self.bans.entries :=
      List.Sublist.eq_of_length_le List.filter_sublist (by omega)
    have keys_eq := congrArg List.keys entries_eq
    rw [counted net]
    exact congrArg (List.countP fun key => key.samePrefix net) keys_eq.symm

/-! ## What a lookup finds -/

theorem getAllBans_mem_iff :
    record ∈ self.getAllBans ↔ self.bans.lookup record.subject = some record := by
  rw [getAllBans, mem_values_iff]
  constructor
  · rintro ⟨net, found⟩
    rw [self.subject_eq net record found]
    exact found
  · intro found
    exact ⟨record.subject, found⟩

/-- A stored key is never skipped by the counts. -/
theorem count_ne_zero_of_lookup (counted : self.Counted) {net : IpNet}
    (found : self.bans.lookup net = some record) : self.counts.count net ≠ 0 := by
  have member : net ∈ self.bans.keys := mem_keys_iff.mpr ⟨record, found⟩
  have same : net.samePrefix net = true := by cases net <;> simp [IpNet.samePrefix]
  have positive : 0 < self.bans.keys.countP fun key => key.samePrefix net :=
    List.countP_pos_iff.mpr ⟨net, member, same⟩
  rw [counted]
  exact positive.ne'

variable {w : Nat}

/-- The masked address of a lookup is the network address of the truncated
block. -/
theorem masked_eq_trunc (block : Block w) :
    (⟨block.addr &&& if block.prefixLen = 0 then 0#w
        else BitVec.allOnes w <<< (w - block.prefixLen),
      block.prefixLen, block.prefixLen_le⟩ : Block w) = block.trunc := by
  have mask_eq : (if block.prefixLen = 0 then 0#w
      else BitVec.allOnes w <<< (w - block.prefixLen)) = block.netmask := by
    split
    · rename_i wholeRange
      simp [Block.netmask, Block.hostBits, wholeRange]
    · rfl
  simp only [mask_eq, Block.trunc, Block.network]

theorem exists_of_longestMatch {counts : Fin (w + 1) → Nat}
    {family : Block w → IpNet} {bans : Dict IpNet BanRecord} {ip : BitVec w}
    (found : longestMatch counts family bans ip = some record) :
    ∃ block : Block w, block.addr = ip ∧ bans.lookup (family block.trunc) = some record := by
  obtain ⟨len, -, matched⟩ := List.exists_of_findSome?_eq_some found
  split at matched
  · contradiction
  · refine ⟨⟨ip, len.val, Nat.le_of_lt_succ len.isLt⟩, rfl, ?_⟩
    rw [← masked_eq_trunc]
    exact matched

theorem longestMatch_ne_none {counts : Fin (w + 1) → Nat}
    {family : Block w → IpNet} {bans : Dict IpNet BanRecord} {block : Block w}
    (counted : counts (PrefixCounts.index block) ≠ 0)
    (found : bans.lookup (family block.trunc) = some record) :
    longestMatch counts family bans block.addr ≠ none := by
  intro missed
  have skipped := List.findSome?_eq_none_iff.mp missed (PrefixCounts.index block) (by simp)
  rw [if_neg counted] at skipped
  rw [← masked_eq_trunc] at found
  exact absurd (found.symm.trans skipped) (by simp)

/-- A lookup returns a record filed under a network of the address. -/
theorem exists_of_isBanned {ip : IpAddr} (found : self.isBanned ip = some record) :
    ∃ net : IpNet, net.addr = ip ∧ self.bans.lookup net.trunc = some record := by
  cases ip with
  | v4 ip =>
    obtain ⟨block, rfl, stored⟩ := exists_of_longestMatch found
    exact ⟨.v4 block, rfl, stored⟩
  | v6 ip =>
    obtain ⟨block, rfl, stored⟩ := exists_of_longestMatch found
    exact ⟨.v6 block, rfl, stored⟩

/-- A ban on a network is seen by a lookup of the network's address. -/
theorem isBanned_ne_none (counted : self.Counted) {net : IpNet}
    (found : self.bans.lookup net.trunc = some record) : self.isBanned net.addr ≠ none := by
  have seen := count_ne_zero_of_lookup counted found
  cases net with
  | v4 block => exact longestMatch_ne_none seen found
  | v6 block => exact longestMatch_ne_none seen found

end InMemoryBanStore

end HiveGuard.Core
