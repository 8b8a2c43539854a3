import HiveGuard.Net.SignedRecord

/-!
# Pages of signed records

Signed records are sent in messages of bounded size.  The records are taken in order and
put on the current page as long as the message stays within its limit and the page has
room; a record that does not fit into a message of its own is left out.
-/

namespace HiveGuard.Net

open Library.Encoding

/-- The largest message that is sent or accepted. -/
def maxMessageSize : Nat :=
  4 * 1024 * 1024

/-- How many records a page may hold. -/
def maxPageRecords : Nat :=
  128

/-- The bytes around the records of a message: the variant and the number of records. -/
def messageHeader : Nat :=
  12

section Paging

variable (env : Externals)

/-- `bincode::serialized_size`. -/
def serializedSize (signed : SignedBanRecord) : Except String Nat :=
  (env.serializeSigned signed).map List.length

/-- The loop variables of `signed_pages`. -/
structure Paging where
  pages : List (List SignedBanRecord)
  page : List SignedBanRecord
  bytes : Nat

/-- One round of the loop. -/
def addRecord (state : Paging) (signed : SignedBanRecord) : Paging :=
  match serializedSize env signed with
  | .error _ => state
  | .ok size =>
    if maxMessageSize < size + messageHeader then
      state
    else if !state.page.isEmpty &&
        (decide (maxMessageSize < state.bytes + size) ||
          decide (maxPageRecords ≤ state.page.length)) then
      ⟨state.pages ++ [state.page], [signed], messageHeader + size⟩
    else
      ⟨state.pages, state.page ++ [signed], state.bytes + size⟩

def signedPages (records : List SignedBanRecord) : List (List SignedBanRecord) :=
  let final := records.foldl (addRecord env) ⟨[], [], messageHeader⟩
  if final.page.isEmpty then final.pages else final.pages ++ [final.page]

/-- The bincode form of a `DiffResponse`: its variant, the number of records, and the
records one after the other. -/
def serializeDiffResponse (records : List SignedBanRecord) : Except String Bytes := do
  let bodies ← records.mapM env.serializeSigned
  .ok (littleEndian 4 6 ++ littleEndian 8 records.length ++ bodies.flatten)

/-- The record fits into a message of its own. -/
def isSendable (signed : SignedBanRecord) : Bool :=
  match serializedSize env signed with
  | .error _ => false
  | .ok size => decide (size + messageHeader ≤ maxMessageSize)

/-- A page whose message has the given size and stays within the limits. -/
structure IsPage (page : List SignedBanRecord) (bytes : Nat) : Prop where
  room : page.length ≤ maxPageRecords
  message : ∃ message, serializeDiffResponse env page = .ok message ∧ message.length = bytes
  small : bytes ≤ maxMessageSize

end Paging

section Messages

variable {env : Externals} {page : List SignedBanRecord} {bytes size : Nat}
  {signed : SignedBanRecord}

theorem serializeDiffResponse_eq_ok_iff {message : Bytes} :
    serializeDiffResponse env page = .ok message ↔
      ∃ bodies, page.mapM env.serializeSigned = .ok bodies ∧
        littleEndian 4 6 ++ littleEndian 8 page.length ++ bodies.flatten = message := by
  rw [serializeDiffResponse]
  cases page.mapM env.serializeSigned with
  | error error => exact iff_of_false nofun nofun
  | ok bodies =>
    constructor
    · intro written
      exact ⟨bodies, rfl, Except.ok.inj written⟩
    · rintro ⟨_, same, rfl⟩
      rw [Except.ok.inj same]
      rfl

theorem isPage_nil : IsPage env [] messageHeader where
  room := Nat.zero_le _
  message := ⟨_, rfl, by simp [length_littleEndian, messageHeader]⟩
  small := by decide

theorem IsPage.bytes_eq_of_nil (isPage : IsPage env page bytes) (empty : page = []) :
    bytes = messageHeader := by
  subst empty
  rcases isPage.message with ⟨message, written, rfl⟩
  cases written
  simp [length_littleEndian, messageHeader]

/-- A record adds its size to the message. -/
theorem IsPage.concat (isPage : IsPage env page bytes) (room : page.length < maxPageRecords)
    (size_eq : serializedSize env signed = .ok size) (small : bytes + size ≤ maxMessageSize) :
    IsPage env (page ++ [signed]) (bytes + size) where
  room := by
    rw [List.length_append, List.length_singleton]
    exact room
  message := by
    rcases isPage.message with ⟨message, written, rfl⟩
    rcases serializeDiffResponse_eq_ok_iff.mp written with ⟨bodies, bodies_eq, rfl⟩
    rw [serializedSize] at size_eq
    cases body_eq : env.serializeSigned signed with
    | error error =>
      rw [body_eq] at size_eq
      cases size_eq
    | ok body =>
      rw [body_eq] at size_eq
      cases size_eq
      refine ⟨_, serializeDiffResponse_eq_ok_iff.mpr ⟨bodies ++ [body], ?_, rfl⟩, ?_⟩
      · rw [List.mapM_append, bodies_eq, List.mapM_cons, body_eq]
        rfl
      · simp only [List.length_append, length_littleEndian, List.flatten_append,
          List.flatten_singleton]
        omega
  small := small

end Messages

/-! ## The loop -/

section Loop

variable {env : Externals} {done : List SignedBanRecord} {state : Paging}

/-- The pages hold the sendable records so far, and all of them are within the limits. -/
structure Keeps (env : Externals) (done : List SignedBanRecord) (state : Paging) : Prop where
  records : state.pages.flatten ++ state.page = done.filter (isSendable env)
  pages : ∀ page ∈ state.pages, page ≠ [] ∧ ∃ bytes, IsPage env page bytes
  page : IsPage env state.page state.bytes

theorem keeps_nil : Keeps env [] ⟨[], [], messageHeader⟩ where
  records := rfl
  pages := nofun
  page := isPage_nil

theorem Keeps.addRecord (keeps : Keeps env done state) (signed : SignedBanRecord) :
    Keeps env (done ++ [signed]) (addRecord env state signed) := by
  rw [Net.addRecord]
  cases size_eq : serializedSize env signed with
  | error error =>
    refine ⟨?_, keeps.pages, keeps.page⟩
    rw [List.filter_append, keeps.records]
    simp [isSendable, size_eq]
  | ok size =>
    dsimp only
    split
    · rename_i large
      refine ⟨?_, keeps.pages, keeps.page⟩
      rw [List.filter_append, keeps.records]
      simp [isSendable, size_eq, large]
    · rename_i fits
      have sendable : isSendable env signed = true := by
        simpa [isSendable, size_eq] using fits
      have filter_eq : (done ++ [signed]).filter (isSendable env) =
          done.filter (isSendable env) ++ [signed] := by
        rw [List.filter_append, List.filter_cons_of_pos sendable, List.filter_nil]
      split
      · rename_i full
        rw [Bool.and_eq_true, Bool.not_eq_true', List.isEmpty_eq_false_iff] at full
        refine ⟨?_, ?_, ?_⟩
        · rw [filter_eq, ← keeps.records, List.flatten_append, List.flatten_singleton]
        · intro page member
          rcases List.mem_append.mp member with earlier | last
          · exact keeps.pages page earlier
          · rw [List.mem_singleton.mp last]
            exact ⟨full.1, state.bytes, keeps.page⟩
        · refine isPage_nil.concat (by decide) size_eq ?_
          omega
      · rename_i room
        refine ⟨?_, keeps.pages, ?_⟩
        · rw [filter_eq, ← keeps.records, List.append_assoc]
        · have bounds : state.page.length < maxPageRecords ∧
              state.bytes + size ≤ maxMessageSize := by
            cases page_eq : state.page with
            | nil =>
              have bytes_eq : state.bytes = messageHeader := keeps.page.bytes_eq_of_nil page_eq
              exact ⟨by decide, by omega⟩
            | cons first others =>
              simp only [page_eq, List.isEmpty_cons, Bool.not_false, Bool.true_and,
                Bool.or_eq_true, decide_eq_true_eq, not_or, not_lt, not_le] at room
              exact ⟨room.2, room.1⟩
          exact keeps.page.concat bounds.1 size_eq bounds.2

/-- The loop keeps the pages within the limits and loses no sendable record. -/
theorem keeps_foldl (keeps : Keeps env done state) (records : List SignedBanRecord) :
    Keeps env (done ++ records) (records.foldl (Net.addRecord env) state) := by
  induction records generalizing done state with
  | nil =>
    rw [List.append_nil]
    exact keeps
  | cons signed records ih =>
    rw [List.append_cons, List.foldl_cons]
    exact ih (keeps.addRecord signed)

end Loop

/-- The pages hold exactly the records that fit into a message of their own, in order.
Every page holds some records, not too many, and its message is within the limit. -/
theorem signedPages_lossless (env : Externals) (records : List SignedBanRecord) :
    (signedPages env records).flatten = records.filter (isSendable env) ∧
      ∀ page ∈ signedPages env records, page ≠ [] ∧ page.length ≤ maxPageRecords ∧
        ∃ message, serializeDiffResponse env page = .ok message ∧
          message.length ≤ maxMessageSize := by
  have keeps : Keeps env records _ := keeps_foldl keeps_nil records
  rw [signedPages]
  generalize records.foldl (addRecord env) ⟨[], [], messageHeader⟩ = final at keeps ⊢
  have within : ∀ {page bytes}, page ≠ [] → IsPage env page bytes →
      page ≠ [] ∧ page.length ≤ maxPageRecords ∧
        ∃ message, serializeDiffResponse env page = .ok message ∧
          message.length ≤ maxMessageSize := by
    rintro page _ nonempty ⟨room, ⟨message, written, rfl⟩, small⟩
    exact ⟨nonempty, room, message, written, small⟩
  have earlier : ∀ page ∈ final.pages, _ := fun page member =>
    (keeps.pages page member).2.elim fun _ => within (keeps.pages page member).1
  split
  · rename_i empty
    rw [List.isEmpty_iff] at empty
    refine ⟨?_, earlier⟩
    rw [← keeps.records, empty, List.append_nil]
  · rename_i nonempty
    rw [List.isEmpty_iff] at nonempty
    refine ⟨?_, fun page member => ?_⟩
    · rw [← keeps.records, List.flatten_append, List.flatten_singleton]
    · rcases List.mem_append.mp member with inside | last
      · exact earlier page inside
      · rw [List.mem_singleton.mp last]
        exact within nonempty keeps.page

end HiveGuard.Net
