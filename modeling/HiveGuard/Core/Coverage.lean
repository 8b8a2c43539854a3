import HiveGuard.Core.BanStore

/-!
# Protection

What the bans of a store are for: an address is covered until some deadline if an
active ban holds it at least that long.  Storing a ban replaces the one of the same
subject, so it keeps all protection if it lasts as long as the one it replaces.
-/

namespace HiveGuard.Core

open Library.Dictionary

/-- An expiry is not before the deadline; `none` is never reached. -/
def LastsUntil : Option DateTime → Option DateTime → Prop
  | none, _ => True
  | some _, none => False
  | some expiry, some deadline => deadline ≤ expiry

instance decidableLastsUntil : DecidableRel LastsUntil
  | none, _ => isTrue trivial
  | some _, none => isFalse not_false
  | some expiry, some deadline => inferInstanceAs (Decidable (deadline ≤ expiry))

theorem LastsUntil.refl (expiry : Option DateTime) : LastsUntil expiry expiry := by
  cases expiry with
  | none => exact trivial
  | some expiry => exact le_refl expiry

theorem LastsUntil.trans {first second third : Option DateTime}
    (earlier : LastsUntil first second) (later : LastsUntil second third) :
    LastsUntil first third := by
  cases first with
  | none => exact trivial
  | some first =>
    cases second with
    | none => contradiction
    | some second =>
      cases third with
      | none => contradiction
      | some third => exact le_trans later earlier

namespace InMemoryBanStore

/-- An active ban holds the address at least until the deadline. -/
def Covers (self : InMemoryBanStore) (now : DateTime) (ip : IpAddr)
    (deadline : Option DateTime) : Prop :=
  ∃ record, self.bans.lookup record.subject = some record ∧ unexpired now record = true ∧
    record.subject.contains ip = true ∧ LastsUntil record.expiresAt deadline

variable {self : InMemoryBanStore} {now : DateTime}

theorem covers_iff {ip : IpAddr}
    {deadline : Option DateTime} :
    self.Covers now ip deadline ↔ ∃ record ∈ self.getAllBans, unexpired now record = true ∧
      record.subject.contains ip = true ∧ LastsUntil record.expiresAt deadline :=
  exists_congr fun _ => and_congr_left' getAllBans_mem_iff.symm

/-- Some active ban holds the address. -/
def Protects (self : InMemoryBanStore) (now : DateTime) (ip : IpAddr) : Prop :=
  ∃ record ∈ self.getAllBans, unexpired now record = true ∧ record.subject.contains ip = true

/-- Whatever was covered stays covered for as long. -/
def KeepsCover (now : DateTime) (before after : InMemoryBanStore) : Prop :=
  ∀ ip deadline, before.Covers now ip deadline → after.Covers now ip deadline

theorem KeepsCover.refl (now : DateTime) (store : InMemoryBanStore) : KeepsCover now store store :=
  fun _ _ covers => covers

theorem KeepsCover.trans {first second third : InMemoryBanStore}
    (earlier : KeepsCover now first second) (later : KeepsCover now second third) :
    KeepsCover now first third :=
  fun ip deadline covers => later ip deadline (earlier ip deadline covers)

variable {record : BanRecord}

/-- What outlasts an active ban is active. -/
theorem unexpired_of_lastsUntil {existing : BanRecord}
    (active : unexpired now existing = true)
    (lasts : LastsUntil record.expiresAt existing.expiresAt) : unexpired now record = true := by
  rw [unexpired] at active ⊢
  cases expiry : record.expiresAt with
  | none => rfl
  | some expiry =>
    rw [expiry] at lasts
    cases previous : existing.expiresAt with
    | none =>
      rw [previous] at lasts
      contradiction
    | some previous =>
      simp only [previous, decide_eq_true_eq] at active lasts ⊢
      exact active.trans_le lasts

/-- A ban covers its own addresses once it is stored. -/
theorem covers_addBan (self : InMemoryBanStore)
    {ip : IpAddr} {deadline : Option DateTime} (active : unexpired now record = true)
    (member : record.subject.contains ip = true) (lasts : LastsUntil record.expiresAt deadline) :
    (self.addBan record).Covers now ip deadline :=
  ⟨record, (lookup_insert _ _ _ _).trans (if_pos rfl), active, member, lasts⟩

variable {subject : IpNet}

/-- A covering ban is stored and its network holds the whole subject. -/
theorem within_of_mem_coveringBans (member : record ∈ self.coveringBans subject) :
    self.bans.lookup record.subject = some record ∧ subject.Within record.subject := by
  simp only [coveringBans, List.mem_filterMap, List.mem_filter, List.mem_range] at member
  obtain ⟨net, ⟨len, ⟨shorter, -⟩, made⟩, found⟩ := member
  have subject_eq := self.subject_eq net.trunc record found
  obtain ⟨addr_eq, len_eq⟩ := IpNet.addr_of_new made
  have shares : IpNet.SharesAddress subject net :=
    ⟨net.addr, by rw [addr_eq, IpNet.contains_addr], net.contains_addr⟩
  refine ⟨by rwa [subject_eq], fun ip inSubject => ?_⟩
  rw [subject_eq, IpNet.contains_trunc]
  exact shares.within (len_eq ▸ Nat.le_of_lt_succ shorter) ip inSubject

theorem atLength_prefixLen (counts : PrefixCounts) (subject : IpNet) :
    counts.atLength subject subject.prefixLen = counts.count subject.trunc := by
  cases subject with
  | v4 block => exact dif_pos (Nat.lt_succ_of_le block.prefixLen_le)
  | v6 block => exact dif_pos (Nat.lt_succ_of_le block.prefixLen_le)

/-- The ban of the subject's own network covers it. -/
theorem mem_coveringBans_of_lookup (counted : self.Counted)
    (found : self.bans.lookup subject.trunc = some record) :
    record ∈ self.coveringBans subject := by
  have seen := count_ne_zero_of_lookup counted found
  simp only [coveringBans, List.mem_filterMap, List.mem_filter, List.mem_range]
  refine ⟨subject, ⟨subject.prefixLen, ⟨Nat.lt_succ_self _, ?_⟩, subject.new_addr⟩, found⟩
  rw [decide_eq_true_eq, atLength_prefixLen]
  exact Nat.pos_of_ne_zero seen

/-- A covering ban is filed under a network without host bits. -/
theorem trunc_of_mem_coveringBans (member : record ∈ self.coveringBans subject) :
    record.subject.trunc = record.subject := by
  simp only [coveringBans, List.mem_filterMap] at member
  rcases member with ⟨net, -, found⟩
  rw [self.subject_eq net.trunc record found, IpNet.trunc_trunc]

theorem atLength_trunc (counts : PrefixCounts) (subject : IpNet) (len : Nat) :
    counts.atLength subject.trunc len = counts.atLength subject len := by
  cases subject <;> rfl

/-- The host bits of the subject do not matter. -/
theorem coveringBans_trunc (self : InMemoryBanStore) (subject : IpNet) :
    self.coveringBans subject.trunc = self.coveringBans subject := by
  have lookup_eq : ∀ len ≤ subject.prefixLen,
      ((IpNet.new subject.trunc.addr len).bind fun net => self.bans.lookup net.trunc) =
        (IpNet.new subject.addr len).bind fun net => self.bans.lookup net.trunc := by
    intro len shorter
    have nets_eq := congrArg (Option.bind · self.bans.lookup) (IpNet.new_addr_trunc shorter)
    simp only [Option.bind_map] at nets_eq
    exact nets_eq
  simp only [coveringBans, IpNet.prefixLen_trunc, atLength_trunc, List.filterMap_filterMap]
  apply List.filterMap_congr
  intro len member
  rw [List.mem_filter, List.mem_range] at member
  exact lookup_eq len (Nat.le_of_lt_succ member.1)

end InMemoryBanStore

end HiveGuard.Core
