import HiveGuard.Core.Chrono
import HiveGuard.Library.Rotation
import HiveGuard.Net.Digest

/-!
# Answers to requests for missing bans

A peer that sends the keys of its bans gets a part of those it is missing: at most 256 at
a time, since each of them has to be signed.  The node goes through them in a circle and
keeps an offset for each peer, so that bans which the peer cannot apply do not keep it from
the others.
-/

namespace HiveGuard.Daemon

open HiveGuard.Core Library.Dictionary Library.Rotation Net

/-- Shortest time between two answers to one peer. -/
def maintenanceInterval : Duration :=
  Duration.seconds 5

/-- Limit on the records of an answer. -/
def maxDiffRecords : Nat :=
  256

/-- A request with what the node reads when it arrives: the clock and its bans. -/
structure DiffRequest where
  sender : String
  missingKeys : List String
  now : DateTime
  localBans : List BanRecord

/-- An answer: the records that could be sent, and those selected from them. -/
structure DiffAnswer where
  sender : String
  missing : List BanRecord
  selected : List BanRecord

/-- What the node keeps about the requests of its peers.  An offset is always below the
length of an earlier list, so adding to it does not overflow. -/
structure DiffService where
  diffRequests : Dict String DateTime
  diffOffsets : Dict String Nat

namespace DiffService

variable (env : Externals)

/-- The bans to send to the peer, by the text of their subjects.  Bans of other nodes and
permanent bans are not announced. -/
def announceable (request : DiffRequest) : List BanRecord :=
  let missing := GossipEngine.handleDiffRequest env request.missingKeys request.localBans
  let missing := missing.filter fun record => !record.source.isClusterPeer
  let missing := missing.filter fun record => record.expiresAt.isSome
  missing.mergeSort fun first second =>
    decide (env.display first.subject ≤ env.display second.subject)

/-- Has the peer been answered a moment ago?  Time between two instants is never
negative. -/
def tooSoon (self : DiffService) (request : DiffRequest) : Bool :=
  match self.diffRequests.lookup request.sender with
  | none => false
  | some last => decide (max (request.now - last) 0 < maintenanceInterval)

def offset (self : DiffService) (peer : String) : Nat :=
  (self.diffOffsets.lookup peer).getD 0

def handle (self : DiffService) (request : DiffRequest) : Option DiffAnswer × DiffService :=
  if self.tooSoon request then
    (none, self)
  else
    let missing := announceable env request
    let offset := self.offset request.sender
    let diffRequests := self.diffRequests.insert request.sender request.now
    if missing.isEmpty then
      (some ⟨request.sender, missing, []⟩,
        ⟨diffRequests, self.diffOffsets.insert request.sender offset⟩)
    else
      (some ⟨request.sender, missing, page maxDiffRecords missing offset⟩,
        ⟨diffRequests, self.diffOffsets.insert request.sender
          (nextOffset maxDiffRecords missing offset)⟩)

/-- The answers to a sequence of requests, of any peers. -/
def answers (self : DiffService) : List DiffRequest → List DiffAnswer
  | [] => []
  | request :: requests =>
    let (answer, next) := self.handle env request
    answer.toList ++ next.answers requests

end DiffService

def selections (peer : String) (answers : List DiffAnswer) : List (List BanRecord) :=
  (answers.filter fun answer => decide (answer.sender = peer)).map DiffAnswer.selected

namespace DiffService

variable {env : Externals} {self : DiffService} {peer : String}

/-- What handling a request does to one peer: nothing, or a page and the offset behind
it. -/
theorem handle_cases (env : Externals) (self : DiffService) (request : DiffRequest)
    (peer : String) :
    ((self.handle env request).1.toList.filter fun answer => decide (answer.sender = peer)) = []
        ∧ (self.handle env request).2.offset peer = self.offset peer ∨ ∃ missing selected,
        ((self.handle env request).1.toList.filter
          fun answer => decide (answer.sender = peer)) = [⟨peer, missing, selected⟩] ∧
        (missing ≠ [] → selected = page maxDiffRecords missing (self.offset peer) ∧
          (self.handle env request).2.offset peer =
            nextOffset maxDiffRecords missing (self.offset peer)) := by
  rw [handle]
  split
  · exact Or.inl ⟨rfl, rfl⟩
  · dsimp only
    rcases eq_or_ne request.sender peer with rfl | different
    · refine Or.inr ?_
      split
      · rename_i empty
        rw [List.isEmpty_iff] at empty
        refine ⟨announceable env request, [], by simp, fun nonempty => ?_⟩
        exact absurd empty nonempty
      · refine ⟨announceable env request, _, by simp, fun _ => ⟨rfl, ?_⟩⟩
        rw [offset, AList.lookup_insert]
        rfl
    · refine Or.inl ?_
      split
      · exact ⟨by simp [different], by rw [offset, AList.lookup_insert_ne different.symm, offset]⟩
      · exact ⟨by simp [different], by rw [offset, AList.lookup_insert_ne different.symm, offset]⟩

/-- As long as the same records are missing, the selections for a peer are consecutive
pages, from the stored offset on. -/
theorem selections_answers {missing : List BanRecord} (nonempty : missing ≠ [])
    (requests : List DiffRequest)
    (same : ∀ answer ∈ self.answers env requests, answer.sender = peer → answer.missing = missing) :
    ∃ rounds, selections peer (self.answers env requests) =
      pages maxDiffRecords missing rounds (self.offset peer) := by
  induction requests generalizing self with
  | nil => exact ⟨0, rfl⟩
  | cons request requests ih =>
    rw [answers] at same ⊢
    dsimp only at same ⊢
    have sameLater := fun answer member =>
      same answer (List.mem_append_right _ member)
    rcases ih sameLater with ⟨rounds, later⟩
    rw [selections, List.filter_append, List.map_append]
    rw [selections] at later
    rcases handle_cases env self request peer with ⟨unanswered, offset_eq⟩ |
      ⟨listed, selected, answered, spec⟩
    · rw [unanswered, later, offset_eq]
      exact ⟨rounds, rfl⟩
    · have listed_eq : listed = missing := by
        have member : ⟨peer, listed, selected⟩ ∈ (self.handle env request).1.toList :=
          (List.mem_filter.mp (answered ▸ List.mem_singleton_self _)).1
        exact same _ (List.mem_append_left _ member) rfl
      subst listed
      rcases spec nonempty with ⟨rfl, offset_eq⟩
      rw [answered, later, offset_eq]
      exact ⟨rounds + 1, rfl⟩

/-- As long as the same records are missing, each answer to a peer selects as many distinct
records as it may, and any consecutive answers that have room for all of them select all of
them. -/
theorem selections_cover (env : Externals) (self : DiffService) (requests : List DiffRequest)
    (peer : String) (missing : List BanRecord) (nonempty : missing ≠ [])
    (same : ∀ answer ∈ self.answers env requests, answer.sender = peer → answer.missing = missing) :
    (∀ selected ∈ selections peer (self.answers env requests),
        selected.length = min missing.length 256 ∧ selected.Subperm missing ∧
          (missing.Nodup → selected.Nodup)) ∧
      ∀ window, window <:+: selections peer (self.answers env requests) →
        (missing.length + 255) / 256 ≤ window.length →
          ∀ record ∈ missing, ∃ selected ∈ window, record ∈ selected := by
  rcases selections_answers nonempty requests same with ⟨rounds, pages_eq⟩
  rw [pages_eq]
  constructor
  · intro selected member
    rcases exists_eq_page_of_mem member with ⟨offset, rfl⟩
    refine ⟨?_, page_subperm maxDiffRecords missing offset, nodup_page⟩
    rw [length_page, Nat.min_comm]
    rfl
  · rintro window ⟨front, back, split⟩ enough record member
    rcases pages_infix split.symm with ⟨later, window_eq⟩
    rw [window_eq]
    exact pages_cover (by decide) enough member

theorem handle_of_not_tooSoon {request : DiffRequest} (served : self.tooSoon request = false) :
    ∃ selected next, self.handle env request =
        (some ⟨request.sender, announceable env request, selected⟩, next) ∧
      next.diffRequests = self.diffRequests.insert request.sender request.now := by
  rw [handle, served, if_neg Bool.false_ne_true]
  dsimp only
  split
  · exact ⟨_, _, rfl, rfl⟩
  · exact ⟨_, _, rfl, rfl⟩

namespace Sample

open Net.Sample

/-- Bans of three hundred addresses. -/
def bans : List BanRecord :=
  (List.range 300).map fun host =>
    { alphaRecord with subject := .ofV4 (BitVec.ofNat 32 (0x0a000000 + host)) 32 }

/-- A peer that has no bans asks for those of a node. -/
def request (now : DateTime) : DiffRequest :=
  ⟨"beta", [], now, bans⟩

/-- The stored offset is from a time when there were more bans. -/
def service : DiffService :=
  ⟨∅, (∅ : Dict String Nat).insert "beta" 700⟩

theorem perm_announceable (now : DateTime) : (announceable externals (request now)).Perm bans := by
  have all : GossipEngine.handleDiffRequest externals [] bans = bans := by
    rw [GossipEngine.handleDiffRequest, List.filter_eq_self]
    simp
  have own : bans.filter (fun record => !record.source.isClusterPeer) = bans := by
    rw [List.filter_eq_self, bans, List.forall_mem_map]
    exact fun _ _ => rfl
  have finite : bans.filter (fun record => record.expiresAt.isSome) = bans := by
    rw [List.filter_eq_self, bans, List.forall_mem_map]
    exact fun _ _ => rfl
  rw [announceable, request]
  dsimp only
  rw [all, own, finite]
  exact List.mergeSort_perm _ _

/-- Both requests are answered. -/
theorem answers_eq : ∃ first second, service.answers externals [request 0, request 5000000000] =
    [⟨"beta", announceable externals (request 0), first⟩,
      ⟨"beta", announceable externals (request 0), second⟩] := by
  obtain ⟨first, next, handled, requests_eq⟩ :=
    @handle_of_not_tooSoon externals service (request 0) (by decide)
  have served : next.tooSoon (request 5000000000) = false := by
    rw [tooSoon, requests_eq]
    decide
  obtain ⟨second, last, handledAgain, -⟩ := @handle_of_not_tooSoon externals next _ served
  refine ⟨first, second, ?_⟩
  rw [answers, handled]
  dsimp only
  rw [answers, handledAgain]
  rfl

end Sample

/-- Three hundred bans take two answers of 256. -/
theorem selections_cover_at_stale_offset :
    let selected := selections "beta" (Sample.service.answers Net.Sample.externals
      [Sample.request 0, Sample.request 5000000000])
    (∀ records ∈ selected, records.length = 256) ∧
      ∀ record ∈ Sample.bans, ∃ records ∈ selected, record ∈ records := by
  have perm := Sample.perm_announceable 0
  have length_eq : (announceable Net.Sample.externals (Sample.request 0)).length = 300 := by
    rw [perm.length_eq, Sample.bans, List.length_map, List.length_range]
  obtain ⟨first, second, answers_eq⟩ := Sample.answers_eq
  have same : ∀ answer ∈ Sample.service.answers Net.Sample.externals
      [Sample.request 0, Sample.request 5000000000], answer.sender = "beta" →
        answer.missing = announceable Net.Sample.externals (Sample.request 0) := by
    simp [answers_eq]
  have two : (selections "beta" (Sample.service.answers Net.Sample.externals
      [Sample.request 0, Sample.request 5000000000])).length = 2 := by
    rw [answers_eq]
    rfl
  obtain ⟨each, cover⟩ := selections_cover Net.Sample.externals Sample.service
    [Sample.request 0, Sample.request 5000000000] "beta" _
    (List.ne_nil_of_length_pos (by rw [length_eq]; decide)) same
  refine ⟨fun records member => ?_, fun record member => ?_⟩
  · rw [(each records member).1, length_eq]
    rfl
  · exact cover _ List.infix_rfl (by rw [two, length_eq]) record (perm.mem_iff.mpr member)

end DiffService

end HiveGuard.Daemon
