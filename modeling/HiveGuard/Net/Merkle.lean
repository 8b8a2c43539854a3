import HiveGuard.Library.SortedJoin
import HiveGuard.Net.Wire

/-!
# Merkle digests of ban subjects

Subjects are put into buckets by the first byte of their hash.  A digest holds a hash of
each bucket and a hash of all bucket hashes, so two nodes see from the digests which
buckets differ.
-/

namespace HiveGuard.Net

open Library.Encoding Library.SortedJoin Library.Text
open Std (ExtTreeMap)

structure MerkleDigest where
  rootHash : Vector UInt8 32
  buckets : ExtTreeMap (Fin 256) (Vector UInt8 32)
  entryCount : Nat

namespace MerkleDigest

section Digests

variable (blake3 : Bytes → Vector UInt8 32) (subjects : List String)

/-- The bucket of a subject: the first byte of its hash. -/
def bucketKey (subject : String) : Fin 256 :=
  (blake3 (encode subject.toList))[0].toFin

/-- The subjects by their buckets, each bucket in the order of the list. -/
def groups : ExtTreeMap (Fin 256) (List String) :=
  subjects.foldl (fun groups subject =>
    groups.alter (bucketKey blake3 subject) fun entries =>
      some (entries.getD [] ++ [subject])) ∅

def bucketHashes : ExtTreeMap (Fin 256) (Vector UInt8 32) :=
  (groups blake3 subjects).map fun _ entries => blake3 (joinedBytes ',' entries)

/-- The bucket hashes, one after the other. -/
def rootMessage (buckets : ExtTreeMap (Fin 256) (Vector UInt8 32)) : Bytes :=
  buckets.toList.flatMap fun bucket => bucket.2.toList

def build : MerkleDigest where
  rootHash := blake3 (rootMessage (bucketHashes blake3 subjects))
  buckets := bucketHashes blake3 subjects
  entryCount := subjects.length

/-- Are two digests equal? -/
def matchesDigest (self other : MerkleDigest) : Bool :=
  decide (self.rootHash = other.rootHash)

/-- The buckets of the first digest that the second does not have or has with another
hash, and then the buckets that only the second has. -/
def differing (self other : MerkleDigest) : List (Fin 256) :=
  (self.buckets.toList.filter fun bucket =>
      decide (other.buckets[bucket.1]? ≠ some bucket.2)).map Prod.fst ++
    other.buckets.keys.filter fun key => !self.buckets.contains key

/-- The buckets whose hashes differ, in order. -/
def diffBuckets (self other : MerkleDigest) : List (Fin 256) :=
  (sorted (self.differing other)).destutter (· ≠ ·)

/-- The subjects that belong to some buckets. -/
def subjectsInBuckets (buckets : List (Fin 256)) : List String :=
  subjects.filter fun subject => decide (bucketKey blake3 subject ∈ buckets)

def bucket (key : Fin 256) : List String :=
  subjects.filter fun subject => decide (bucketKey blake3 subject = key)

/-- The messages whose hashes are compared: the buckets, and their hashes together. -/
def messages : List Bytes :=
  rootMessage (bucketHashes blake3 subjects) ::
    (groups blake3 subjects).toList.map fun group => joinedBytes ',' group.2

end Digests

/-! ## Buckets -/

section Buckets

variable {blake3 : Bytes → Vector UInt8 32} {subjects first second : List String}
  {subject : String} {key : Fin 256}

theorem groups_append (subjects : List String) (subject : String) :
    groups blake3 (subjects ++ [subject]) =
      (groups blake3 subjects).alter (bucketKey blake3 subject) fun entries =>
        some (entries.getD [] ++ [subject]) := by
  rw [groups, List.foldl_append]
  rfl

theorem bucket_append (subjects : List String) (subject : String) (key : Fin 256) :
    bucket blake3 (subjects ++ [subject]) key =
      if bucketKey blake3 subject = key then bucket blake3 subjects key ++ [subject]
      else bucket blake3 subjects key := by
  rw [bucket, List.filter_append]
  split
  · rename_i same
    simp [bucket, same]
  · rename_i different
    simp [bucket, different]

/-- A group is a bucket that is not empty. -/
theorem getElem?_groups (subjects : List String) (key : Fin 256) :
    (groups blake3 subjects)[key]? =
      if bucket blake3 subjects key = [] then none else some (bucket blake3 subjects key) := by
  induction subjects using List.reverseRecOn with
  | nil => exact ExtTreeMap.getElem?_empty
  | append_singleton subjects subject ih =>
    rw [groups_append, ExtTreeMap.getElem?_alter, bucket_append]
    simp only [Std.compare_eq_iff_eq]
    split
    · rename_i same
      subst key
      rw [ih,
        if_neg (List.append_ne_nil_of_right_ne_nil _ (List.cons_ne_nil subject []))]
      split
      · rename_i empty
        rw [empty]
        rfl
      · rfl
    · exact ih

theorem getElem?_bucketHashes (subjects : List String) (key : Fin 256) :
    (bucketHashes blake3 subjects)[key]? = if bucket blake3 subjects key = [] then none
      else some (blake3 (joinedBytes ',' (bucket blake3 subjects key))) := by
  rw [bucketHashes, ExtTreeMap.getElem?_map, getElem?_groups]
  split <;> rfl

theorem mem_bucket_iff : subject ∈ bucket blake3 subjects key ↔
    subject ∈ subjects ∧ bucketKey blake3 subject = key := by
  rw [bucket, List.mem_filter, decide_eq_true_eq]

theorem count_bucket (blake3 : Bytes → Vector UInt8 32) (subjects : List String)
    (subject : String) :
    (bucket blake3 subjects (bucketKey blake3 subject)).count subject = subjects.count subject :=
  List.count_filter (decide_eq_true rfl)

/-- The order of the subjects does not matter. -/
theorem build_congr (perm : first.Perm second) : build blake3 first = build blake3 second := by
  have buckets_eq : bucketHashes blake3 first = bucketHashes blake3 second := by
    refine ExtTreeMap.ext_getElem? fun key => ?_
    have bucketPerm : (bucket blake3 first key).Perm (bucket blake3 second key) :=
      perm.filter _
    have empty_iff : bucket blake3 first key = [] ↔ bucket blake3 second key = [] := by
      rw [← List.perm_nil, ← List.perm_nil]
      exact ⟨bucketPerm.symm.trans, bucketPerm.trans⟩
    rw [getElem?_bucketHashes, getElem?_bucketHashes, joinedBytes, joinedBytes,
      sorted_eq_iff.mpr bucketPerm]
    simp only [empty_iff]
  rw [build, build, buckets_eq, perm.length_eq]

/-! ## Differing buckets -/

variable {digest other : MerkleDigest}

theorem mem_differing_iff :
    key ∈ digest.differing other ↔ digest.buckets[key]? ≠ other.buckets[key]? := by
  have changed_iff : key ∈ (digest.buckets.toList.filter fun bucket =>
      decide (other.buckets[bucket.1]? ≠ some bucket.2)).map Prod.fst ↔
        ∃ hash, digest.buckets[key]? = some hash ∧ other.buckets[key]? ≠ some hash := by
    simp only [List.mem_map, List.mem_filter, decide_eq_true_eq, Prod.exists,
      ExtTreeMap.mem_toList_iff_getElem?_eq_some]
    constructor
    · rintro ⟨key, hash, found, rfl⟩
      exact ⟨hash, found⟩
    · rintro ⟨hash, found⟩
      exact ⟨key, hash, found, rfl⟩
  rw [differing, List.mem_append, changed_iff, List.mem_filter, ExtTreeMap.mem_keys,
    Bool.not_eq_true', ← Bool.not_eq_true, ExtTreeMap.contains_iff_mem,
    ExtTreeMap.mem_iff_isSome_getElem?, ExtTreeMap.mem_iff_isSome_getElem?]
  cases digest.buckets[key]? with
  | none => cases other.buckets[key]? <;> simp
  | some hash =>
    simp only [Option.some.injEq, exists_eq_left', Option.isSome_some, not_true_eq_false,
      and_false, or_false]
    exact ne_comm

theorem nodup_differing (digest other : MerkleDigest) : (digest.differing other).Nodup := by
  refine List.Nodup.append ?_ (ExtTreeMap.nodup_keys.filter _) ?_
  · have distinct : (digest.buckets.toList.map Prod.fst).Nodup := by
      rw [ExtTreeMap.map_fst_toList_eq_keys]
      exact ExtTreeMap.nodup_keys
    exact distinct.sublist (List.filter_sublist.map Prod.fst)
  · intro key changed added
    rcases List.mem_map.mp changed with ⟨⟨_, hash⟩, member, rfl⟩
    have found := ExtTreeMap.mem_toList_iff_getElem?_eq_some.mp (List.mem_filter.mp member).1
    have absent := (List.mem_filter.mp added).2
    rw [Bool.not_eq_true', ← Bool.not_eq_true, ExtTreeMap.contains_iff_mem,
      ExtTreeMap.mem_iff_isSome_getElem?, found] at absent
    exact absent rfl

/-- No bucket is found twice. -/
theorem diffBuckets_eq_sorted (digest other : MerkleDigest) :
    digest.diffBuckets other = sorted (digest.differing other) := by
  refine List.destutter_of_isChain _ _ (List.Pairwise.isChain ?_)
  exact (sorted_perm _).nodup_iff.mpr (nodup_differing digest other)

/-- A bucket is returned exactly if the digests differ on it. -/
theorem mem_diffBuckets_iff :
    key ∈ digest.diffBuckets other ↔ digest.buckets[key]? ≠ other.buckets[key]? := by
  rw [diffBuckets_eq_sorted, (sorted_perm _).mem_iff, mem_differing_iff]

/-- The difference is the same from both sides. -/
theorem diffBuckets_comm (digest other : MerkleDigest) :
    digest.diffBuckets other = other.diffBuckets digest := by
  rw [diffBuckets_eq_sorted, diffBuckets_eq_sorted, sorted_eq_iff,
    List.perm_ext_iff_of_nodup (nodup_differing digest other) (nodup_differing other digest)]
  intro key
  rw [mem_differing_iff, mem_differing_iff, ne_comm]

/-! ## What the hashes say -/

/-- The hashed bytes of the lists determine their buckets. -/
structure Distinguishes (blake3 : Bytes → Vector UInt8 32) (first second : List String) :
    Prop where
  texts : Separates ',' (first ++ second)
  hashes : Set.InjOn blake3 {message | message ∈ messages blake3 first ++ messages blake3 second}

theorem joinedBytes_mem_messages (nonempty : bucket blake3 subjects key ≠ []) :
    joinedBytes ',' (bucket blake3 subjects key) ∈ messages blake3 subjects := by
  refine List.mem_cons_of_mem _ (List.mem_map.mpr ⟨(key, bucket blake3 subjects key), ?_, rfl⟩)
  rw [ExtTreeMap.mem_toList_iff_getElem?_eq_some, getElem?_groups, if_neg nonempty]

section Lawful

variable (lawful : Distinguishes blake3 first second)

include lawful

/-- Two buckets with the same hash hold the same subjects. -/
theorem Distinguishes.perm_of_hash_eq {firstKey secondKey : Fin 256}
    (nonemptyFirst : bucket blake3 first firstKey ≠ [])
    (nonemptySecond : bucket blake3 second secondKey ≠ [])
    (same : blake3 (joinedBytes ',' (bucket blake3 first firstKey)) =
      blake3 (joinedBytes ',' (bucket blake3 second secondKey))) :
    (bucket blake3 first firstKey).Perm (bucket blake3 second secondKey) := by
  have bytes_eq := lawful.hashes
    (List.mem_append_left _ (joinedBytes_mem_messages nonemptyFirst))
    (List.mem_append_right _ (joinedBytes_mem_messages nonemptySecond)) same
  refine (joinedBytes_eq_iff ?_ ?_ nonemptyFirst nonemptySecond).mp bytes_eq
  · intro text member
    exact lawful.texts text (List.mem_append_left _ (mem_bucket_iff.mp member).1)
  · intro text member
    exact lawful.texts text (List.mem_append_right _ (mem_bucket_iff.mp member).1)

theorem Distinguishes.symm :
    Distinguishes blake3 second first where
  texts text member := lawful.texts text (List.mem_append.mpr (List.mem_append.mp member).symm)
  hashes := lawful.hashes.mono fun _ member =>
    List.mem_append.mpr (List.mem_append.mp member).symm

/-- A bucket on which the digests agree holds each subject equally often. -/
theorem Distinguishes.count_eq_of_agree
    (agree : (build blake3 first).buckets[bucketKey blake3 subject]? =
      (build blake3 second).buckets[bucketKey blake3 subject]?) :
    first.count subject = second.count subject := by
  rw [build, build, getElem?_bucketHashes, getElem?_bucketHashes] at agree
  rw [← count_bucket blake3 first, ← count_bucket blake3 second]
  split at agree
  · rename_i emptyFirst
    split at agree
    · rename_i emptySecond
      rw [emptyFirst, emptySecond]
    · cases agree
  · rename_i nonemptyFirst
    split at agree
    · cases agree
    · rename_i nonemptySecond
      exact (lawful.perm_of_hash_eq nonemptyFirst nonemptySecond
        (Option.some.inj agree)).count_eq subject

/-- With equal roots, each subject of the first list occurs as often in the second. -/
theorem Distinguishes.count_eq_of_root_eq
    (same : (build blake3 first).rootHash = (build blake3 second).rootHash)
    (member : subject ∈ first) : first.count subject = second.count subject := by
  have messages_eq := lawful.hashes (List.mem_append_left _ List.mem_cons_self)
    (List.mem_append_right _ List.mem_cons_self) same
  have hashes_eq : (bucketHashes blake3 first).toList.map Prod.snd =
      (bucketHashes blake3 second).toList.map Prod.snd := by
    refine flatMap_toList_injective (by decide) ?_
    rw [List.flatMap_map, List.flatMap_map]
    exact messages_eq
  have nonemptyFirst : bucket blake3 first (bucketKey blake3 subject) ≠ [] :=
    List.ne_nil_of_mem (mem_bucket_iff.mpr ⟨member, rfl⟩)
  -- The hash of the subject's bucket occurs among the hashes of the other digest.
  have hashMember : blake3 (joinedBytes ',' (bucket blake3 first (bucketKey blake3 subject))) ∈
      (bucketHashes blake3 second).toList.map Prod.snd := by
    rw [← hashes_eq]
    refine List.mem_map.mpr ⟨(bucketKey blake3 subject, _), ?_, rfl⟩
    rw [ExtTreeMap.mem_toList_iff_getElem?_eq_some, getElem?_bucketHashes, if_neg nonemptyFirst]
  rcases List.mem_map.mp hashMember with ⟨⟨key, hash⟩, found, hash_eq⟩
  rw [ExtTreeMap.mem_toList_iff_getElem?_eq_some, getElem?_bucketHashes] at found
  split at found
  · cases found
  · rename_i nonemptySecond
    have perm := lawful.perm_of_hash_eq nonemptyFirst nonemptySecond
      (hash_eq.symm.trans (Option.some.inj found).symm)
    have inSecond := perm.mem_iff.mp (mem_bucket_iff.mpr ⟨member, rfl⟩)
    have key_eq := (mem_bucket_iff.mp inSecond).2
    rw [← key_eq] at perm
    rw [← count_bucket blake3 first, ← count_bucket blake3 second]
    exact perm.count_eq subject

theorem Distinguishes.matchesDigest_iff :
    (build blake3 first).matchesDigest (build blake3 second) = true ↔ first.Perm second := by
  rw [matchesDigest, decide_eq_true_eq]
  constructor
  · intro same
    refine List.perm_iff_count.mpr fun subject => ?_
    by_cases inFirst : subject ∈ first
    · exact lawful.count_eq_of_root_eq same inFirst
    · by_cases inSecond : subject ∈ second
      · exact (lawful.symm.count_eq_of_root_eq same.symm inSecond).symm
      · rw [List.count_eq_zero_of_not_mem inFirst, List.count_eq_zero_of_not_mem inSecond]
  · intro perm
    rw [build_congr perm]

end Lawful

/-- The subjects of a returned bucket are all found. -/
theorem count_subjectsInBuckets {buckets : List (Fin 256)}
    (inside : bucketKey blake3 subject ∈ buckets) (subjects : List String) :
    (subjectsInBuckets blake3 subjects buckets).count subject = subjects.count subject :=
  List.count_filter (decide_eq_true inside)

/-- Digests match exactly if the lists hold the same subjects equally often.  Otherwise the
subjects that make the difference are in the differing buckets, and they are found there.
The differing buckets are the same from both sides and for every order of the lists. -/
theorem merkle_localises (blake3 : Bytes → Vector UInt8 32) (first second : List String)
    (lawful : Distinguishes blake3 first second) :
    let diff := (build blake3 first).diffBuckets (build blake3 second)
    ((build blake3 first).matchesDigest (build blake3 second) = true ↔ first.Perm second) ∧
      (∀ subject, first.count subject ≠ second.count subject →
        bucketKey blake3 subject ∈ diff ∧
          (subjectsInBuckets blake3 first diff).count subject = first.count subject ∧
          (subjectsInBuckets blake3 second diff).count subject = second.count subject) ∧
      diff = (build blake3 second).diffBuckets (build blake3 first) ∧
      ∀ first' second', first'.Perm first → second'.Perm second →
        (build blake3 first').diffBuckets (build blake3 second') = diff := by
  refine ⟨lawful.matchesDigest_iff, fun subject different => ?_, diffBuckets_comm _ _, ?_⟩
  · have inside : bucketKey blake3 subject ∈
        (build blake3 first).diffBuckets (build blake3 second) :=
      mem_diffBuckets_iff.mpr fun agree => different (lawful.count_eq_of_agree agree)
    exact ⟨inside, count_subjectsInBuckets inside first, count_subjectsInBuckets inside second⟩
  · intro first' second' firstPerm secondPerm
    rw [build_congr firstPerm, build_congr secondPerm]

end Buckets

namespace Sample

open HiveGuard.Persistence.Wire (octets)

/-- The second list lacks one of two occurrences of a subject, and has another order. -/
def first : List String :=
  ["8.8.8.8/32", "1.2.3.0/24", "8.8.8.8/32"]

def second : List String :=
  ["1.2.3.0/24", "8.8.8.8/32"]

/-- BLAKE3 of the subjects, the buckets and the hashes of the buckets, as numbers. -/
def knownHashes : List (Bytes × Nat) :=
  let single := 0xdd692c3ead01d32b0d96a42f11bf63bc9da391fe1060b8e4cebc0db96afe500e
  let other := 0x2d01d222d795d255b78e02842e8d42006cb2f9f597dd5b9652d3a3cf9e8562c1
  let twice := 0xd2a12d4adf6cc92a911819267b52f40776bcd29352676bbcd6f03d582f8b86c2
  [(encode "8.8.8.8/32".toList, single), (encode "1.2.3.0/24".toList, other),
    (encode "8.8.8.8/32,8.8.8.8/32".toList, twice),
    (octets 32 other ++ octets 32 twice,
      0x993efaa99f0bc457a1a0e29d183f35d3f5e7b2b70398487859212373255a54fc),
    (octets 32 other ++ octets 32 single,
      0x36028268239475a6427db4ea814dac3d9efe3aadb22099bc8df40121d5f75e64)]

def blake3 : Bytes → Vector UInt8 32 :=
  Wire.hashOf knownHashes

/-- All messages are in the table. -/
theorem messages_subset :
    ∀ message ∈ messages blake3 first ++ messages blake3 second,
      message ∈ knownHashes.map Prod.fst := by
  have firstGroups : (groups blake3 first).toList =
      [(0x2d, ["1.2.3.0/24"]), (0xdd, ["8.8.8.8/32", "8.8.8.8/32"])] := by
    decide +kernel
  have secondGroups : (groups blake3 second).toList =
      [(0x2d, ["1.2.3.0/24"]), (0xdd, ["8.8.8.8/32"])] := by
    decide +kernel
  rw [messages, messages, rootMessage, rootMessage, bucketHashes, bucketHashes,
    ExtTreeMap.toList_map, ExtTreeMap.toList_map, firstGroups, secondGroups]
  simp only [List.map_cons, List.map_nil]
  rw [joinedBytes_of_ascending (by decide) (.refl _),
    joinedBytes_of_ascending (by decide) (.refl _), joinedBytes_of_ascending (by decide) (.refl _)]
  decide +kernel

end Sample

/-- The bucket of the subject that is missing once is found, and the subject in it. -/
theorem merkle_localises_at_one_difference :
    let diff := (build Sample.blake3 Sample.first).diffBuckets (build Sample.blake3 Sample.second)
    (build Sample.blake3 Sample.first).matchesDigest (build Sample.blake3 Sample.second) = false ∧
      0xdd ∈ diff ∧
      (subjectsInBuckets Sample.blake3 Sample.first diff).count "8.8.8.8/32" = 2 := by
  have lawful : Distinguishes Sample.blake3 Sample.first Sample.second :=
    ⟨by decide, fun first firstMember second secondMember =>
      Wire.hashOf_injective (by decide) (by decide) first
        (Sample.messages_subset first firstMember) second
        (Sample.messages_subset second secondMember)⟩
  obtain ⟨matches_iff, localised, -⟩ :=
    merkle_localises Sample.blake3 Sample.first Sample.second lawful
  obtain ⟨inside, found, -⟩ := localised "8.8.8.8/32" (by decide)
  have key_eq : bucketKey Sample.blake3 "8.8.8.8/32" = 0xdd := by decide +kernel
  refine ⟨?_, key_eq ▸ inside, found⟩
  rw [← Bool.not_eq_true, matches_iff]
  decide

end MerkleDigest

end HiveGuard.Net
