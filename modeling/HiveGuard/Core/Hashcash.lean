import HiveGuard.Core.Hlc
import HiveGuard.Library.Encoding

/-!
# Proof of work

A stamp is valid for some bytes when the hash of its nonce and the bytes starts
with as many zero bits as its difficulty says.  The hash function is a
parameter.
-/

namespace HiveGuard.Core

open Library.Encoding

/-- Proof-of-work stamp attached to ban records sent between nodes. -/
structure PowStamp where
  nonce : Fin (2 ^ 64)
  difficulty : Fin 256
  deriving DecidableEq

namespace PowStamp

/-- Minimum accepted difficulty during verification. -/
def minDifficulty : Nat :=
  16

variable (blake3 : Bytes → Vector UInt8 32)

def computeHash (nonce : Fin (2 ^ 64)) (data : Bytes) : Vector UInt8 32 :=
  blake3 (littleEndian 8 nonce.val ++ data)

/-- The first `fullBytes` bytes are zero, and so are the top `remainder` bits of
the byte behind them. -/
def hasLeadingZeros (hash : Vector UInt8 32) (fullBytes remainder : Nat) : Bool :=
  (hash.toList.take fullBytes).all (fun byte => decide (byte = 0)) &&
    (decide (remainder = 0) ||
      decide (hash.toList.getD fullBytes 0 &&& (0xFF <<< UInt8.ofNat (8 - remainder)) = 0))

/-- The search of `mine`, from a nonce on. -/
def mineFrom (canonicalBytes : Bytes) (difficulty : Fin 256) (nonce : Fin (2 ^ 64)) :
    Nat → Option PowStamp
  | 0 => none
  | attempts + 1 =>
    if hasLeadingZeros (computeHash blake3 nonce canonicalBytes)
        (difficulty.val / 8) (difficulty.val % 8) then
      some ⟨nonce, difficulty⟩
    else
      mineFrom canonicalBytes difficulty (nonce + 1) attempts

/-- The stamp with the least nonce below the number of attempts. -/
def mine (canonicalBytes : Bytes) (difficulty : Fin 256) (maxAttempts : Fin (2 ^ 64)) :
    Option PowStamp :=
  mineFrom blake3 canonicalBytes difficulty 0 maxAttempts.val

def verify (self : PowStamp) (canonicalBytes : Bytes) : Except String Unit :=
  if self.difficulty.val < minDifficulty then
    .error ("PoW difficulty " ++ toString self.difficulty.val ++ " below minimum " ++
      toString minDifficulty)
  else if hasLeadingZeros (computeHash blake3 self.nonce canonicalBytes)
      (self.difficulty.val / 8) (self.difficulty.val % 8) then
    .ok ()
  else
    .error ("PoW verification failed (difficulty=" ++ toString self.difficulty.val ++
      ", nonce=" ++ toString self.nonce.val ++ ")")

/-! ## The hash as a number -/

/-- The top bits of a byte are zero when it is below the weight of the last of them. -/
theorem and_mask_eq_zero_iff (byte : UInt8) {remainder : Nat} (positive : 0 < remainder)
    (part : remainder < 8) :
    byte &&& (0xFF <<< UInt8.ofNat (8 - remainder)) = 0 ↔ byte.toNat < 2 ^ (8 - remainder) := by
  have masks : ∀ (remainder : Fin 8) (byte : Fin 256), 0 < remainder.val →
      (UInt8.ofFin byte &&& (0xFF <<< UInt8.ofNat (8 - remainder.val)) = 0 ↔
        byte.val < 2 ^ (8 - remainder.val)) := by
    decide +kernel
  exact masks ⟨remainder, part⟩ byte.toFin positive

/-- The hash starts with so many zero bits exactly if it is below the target. -/
theorem hasLeadingZeros_iff (hash : Vector UInt8 32) (difficulty : Fin 256) :
    hasLeadingZeros hash (difficulty.val / 8) (difficulty.val % 8) = true ↔
      fromBeBytes hash.toList < 2 ^ (256 - difficulty.val) := by
  have difficulty_eq : difficulty.val = 8 * (difficulty.val / 8) + difficulty.val % 8 := by omega
  have inside : difficulty.val / 8 < 32 := by omega
  have part : difficulty.val % 8 < 8 := by omega
  generalize difficulty.val / 8 = fullBytes, difficulty.val % 8 = remainder at *
  rw [difficulty_eq]
  let front := hash.toList.take fullBytes
  let byte := hash.toList.getD fullBytes 0
  let back := hash.toList.drop (fullBytes + 1)
  have split : front ++ [byte] ++ back = hash.toList := by
    have here : byte :: back = hash.toList.drop fullBytes := by
      rw [← List.getElem_cons_drop (by simpa using inside), ← List.getD_eq_getElem _ 0]
    rw [List.append_assoc, List.singleton_append, here, List.take_append_drop]
  have target : 2 ^ (256 - (8 * fullBytes + remainder)) =
      2 ^ (8 - remainder) * 256 ^ back.length := by
    have length_eq : back.length = 31 - fullBytes := by simp [back]
    have weight : 256 ^ (31 - fullBytes) = 2 ^ (8 * (31 - fullBytes)) := pow_mul 2 8 _ ▸ rfl
    rw [length_eq, weight, ← pow_add]
    congr 1
    omega
  have target_le : 2 ^ (8 - remainder) ≤ 2 ^ 8 := Nat.pow_le_pow_right Nat.two_pos (Nat.sub_le 8 _)
  rw [target, ← split, fromBeBytes_lt_iff target_le, hasLeadingZeros]
  rcases Nat.eq_zero_or_pos remainder with rfl | positive
  · simp [front, byte.toNat_lt]
  · rw [← and_mask_eq_zero_iff byte positive part]
    simp [front, byte, positive.ne']

/-- The test with the index checked; `none` is the panic. -/
def indexedLeadingZeros (hash : Vector UInt8 32) (fullBytes remainder : Nat) : Option Bool :=
  if (hash.toList.take fullBytes).all fun byte => decide (byte = 0) then
    if 0 < remainder then
      hash.toList[fullBytes]?.map fun byte =>
        decide (byte &&& (0xFF <<< UInt8.ofNat (8 - remainder)) = 0)
    else
      some true
  else
    some false

theorem indexedLeadingZeros_eq (hash : Vector UInt8 32) {fullBytes : Nat}
    (inside : fullBytes < 32) (remainder : Nat) :
    indexedLeadingZeros hash fullBytes remainder =
      some (hasLeadingZeros hash fullBytes remainder) := by
  have indexed : hash.toList[fullBytes]? = some (hash.toList.getD fullBytes 0) := by
    rw [List.getD_eq_getElem?_getD, List.getElem?_eq_getElem (by simpa using inside)]
    rfl
  rw [indexedLeadingZeros, hasLeadingZeros, indexed]
  cases (hash.toList.take fullBytes).all fun byte => decide (byte = 0) with
  | false => rfl
  | true =>
    rcases Nat.eq_zero_or_pos remainder with rfl | positive
    · rfl
    · simp [positive, positive.ne']

/-! ## Verifying and mining -/

variable (data : Bytes) (difficulty : Fin 256)

/-- The hash is below the target of the difficulty. -/
def Solves (nonce : Fin (2 ^ 64)) : Prop :=
  fromBeBytes (computeHash blake3 nonce data).toList < 2 ^ (256 - difficulty.val)

theorem verify_eq_ok_iff (nonce : Fin (2 ^ 64)) : verify blake3 ⟨nonce, difficulty⟩ data = .ok () ↔
    minDifficulty ≤ difficulty.val ∧ Solves blake3 data difficulty nonce := by
  rw [verify, Solves, ← hasLeadingZeros_iff]
  split
  · rename_i low
    simp [low]
  · rename_i high
    split
    · rename_i zeros
      simp [zeros, not_lt.mp high]
    · rename_i zeros
      simp [zeros]

/-- The solutions among the next attempts. -/
def solutions (first attempts : Nat) : Set (Fin (2 ^ 64)) :=
  { nonce | first ≤ nonce.val ∧ nonce.val < first + attempts ∧
    Solves blake3 data difficulty nonce }

/-- The search returns the first solution of its range. -/
theorem mineFrom_spec (nonce : Fin (2 ^ 64)) {attempts : Nat}
    (fits : nonce.val + attempts < 2 ^ 64) :
    match mineFrom blake3 data difficulty nonce attempts with
    | none => solutions blake3 data difficulty nonce.val attempts = ∅
    | some stamp => stamp.difficulty = difficulty ∧
        IsLeast (solutions blake3 data difficulty nonce.val attempts) stamp.nonce := by
  induction attempts generalizing nonce with
  | zero =>
    refine Set.eq_empty_of_forall_notMem fun later member => ?_
    exact absurd (member.1.trans_lt member.2.1) (lt_irrefl _)
  | succ attempts ih =>
    rw [mineFrom]
    split_ifs with solved
    · rw [hasLeadingZeros_iff] at solved
      exact ⟨rfl, ⟨le_rfl, by dsimp only; omega, solved⟩, fun later member => member.1⟩
    · rw [hasLeadingZeros_iff] at solved
      have next_val : (nonce + 1).val = nonce.val + 1 := Fin.val_add_one_of_lt' (by omega)
      have same : solutions blake3 data difficulty nonce.val (attempts + 1) =
          solutions blake3 data difficulty (nonce + 1).val attempts := by
        ext later
        rw [solutions, solutions, next_val]
        constructor
        · rintro ⟨le, lt, solves⟩
          have ne : nonce.val ≠ later.val := fun same => solved (Fin.ext same ▸ solves)
          exact ⟨by omega, by omega, solves⟩
        · rintro ⟨le, lt, solves⟩
          exact ⟨by omega, by omega, solves⟩
      rw [same]
      exact ih (nonce + 1) (by omega)

/-- A stamp is accepted exactly if its difficulty is high enough and its hash, as a number, is
below the target; the byte that is cut is always inside the hash.  Mining returns the least
accepted nonce, if there is one. -/
theorem proof_of_work_is_exact :
    (∀ nonce, verify blake3 ⟨nonce, difficulty⟩ data = .ok () ↔
      minDifficulty ≤ difficulty.val ∧
        fromBeBytes (computeHash blake3 nonce data).toList < 2 ^ (256 - difficulty.val)) ∧
    (∀ hash, indexedLeadingZeros hash (difficulty.val / 8) (difficulty.val % 8) =
      some (hasLeadingZeros hash (difficulty.val / 8) (difficulty.val % 8))) ∧
    ∀ maxAttempts, minDifficulty ≤ difficulty.val →
      let accepted := { nonce | nonce < maxAttempts ∧
        verify blake3 ⟨nonce, difficulty⟩ data = .ok () }
      ((mine blake3 data difficulty maxAttempts).isSome ↔ accepted.Nonempty) ∧
        ∀ stamp, mine blake3 data difficulty maxAttempts = some stamp →
          stamp.difficulty = difficulty ∧ IsLeast accepted stamp.nonce := by
  refine ⟨verify_eq_ok_iff blake3 data difficulty, fun hash => ?_, fun maxAttempts high => ?_⟩
  · exact indexedLeadingZeros_eq hash (by omega) _
  · have accepted_eq : { nonce | nonce < maxAttempts ∧
        verify blake3 ⟨nonce, difficulty⟩ data = .ok () } =
          solutions blake3 data difficulty 0 maxAttempts.val := by
      ext nonce
      simp [solutions, verify_eq_ok_iff, high]
    have spec := @mineFrom_spec blake3 data difficulty 0 maxAttempts.val (by simp)
    rw [accepted_eq, mine]
    cases mined : mineFrom blake3 data difficulty 0 maxAttempts.val with
    | none =>
      rw [mined] at spec
      exact ⟨iff_of_false Bool.false_ne_true (Set.not_nonempty_iff_eq_empty.mpr spec), nofun⟩
    | some stamp =>
      rw [mined] at spec
      refine ⟨iff_of_true rfl ⟨_, spec.2.1⟩, ?_⟩
      rintro _ ⟨⟩
      exact spec

end PowStamp

end HiveGuard.Core
