import Mathlib

/-!
# Reading from a list of tokens

A cursor is what a parser has left to read and how much it has read.  `Reads` names the
tokens between two cursors; what a parser accepts is described by it, with any tokens
behind.
-/

namespace HiveGuard.Library

/-- The tokens that are left, and how many were read. -/
structure Cursor (T : Type) where
  tokens : List T
  pos : Nat
  deriving DecidableEq

namespace Cursor

variable {T α β ε : Type}

def next (self : Cursor T) : Option T × Cursor T :=
  match self.tokens with
  | [] => (none, self)
  | token :: tokens => (some token, ⟨tokens, self.pos + 1⟩)

/-- The next token has to be of a kind. -/
def take (self : Cursor T) (kind : T → Option α) (failure : Option T → ε) :
    Except ε (α × Cursor T) :=
  match self.next with
  | (none, _) => .error (failure none)
  | (some token, rest) =>
    match kind token with
    | none => .error (failure (some token))
    | some value => .ok (value, rest)

/-- The tokens between two cursors. -/
def Reads (tokens : List T) (self rest : Cursor T) : Prop :=
  self.tokens = tokens ++ rest.tokens ∧ rest.pos = self.pos + tokens.length

theorem Reads.refl (self : Cursor T) : Reads [] self self :=
  ⟨rfl, rfl⟩

theorem Reads.trans {first second : List T} {self middle rest : Cursor T}
    (front : Reads first self middle) (back : Reads second middle rest) :
    Reads (first ++ second) self rest := by
  rcases front with ⟨frontTokens, frontPos⟩
  rcases back with ⟨backTokens, backPos⟩
  constructor
  · rw [frontTokens, backTokens, List.append_assoc]
  · rw [backPos, frontPos, List.length_append, Nat.add_assoc]

/-- What is read in two parts has a cursor between them. -/
theorem reads_append_iff {first second : List T} {self rest : Cursor T} :
    Reads (first ++ second) self rest ↔
      ∃ middle, Reads first self middle ∧ Reads second middle rest := by
  constructor
  · rintro ⟨tokens, pos⟩
    refine ⟨⟨second ++ rest.tokens, self.pos + first.length⟩, ⟨?_, rfl⟩, rfl, ?_⟩
    · rw [tokens, List.append_assoc]
    · rw [pos, List.length_append, Nat.add_assoc]
  · rintro ⟨middle, front, back⟩
    exact front.trans back

theorem reads_cons_iff {token : T} {tokens : List T} {self rest : Cursor T} :
    Reads (token :: tokens) self rest ↔
      ∃ middle, Reads [token] self middle ∧ Reads tokens middle rest := by
  rw [← List.singleton_append, reads_append_iff]

theorem reads_singleton_iff {token : T} {self rest : Cursor T} :
    Reads [token] self rest ↔
      ∃ tokens pos, self = ⟨token :: tokens, pos⟩ ∧ rest = ⟨tokens, pos + 1⟩ := by
  constructor
  · rintro ⟨tokens, pos⟩
    refine ⟨rest.tokens, self.pos, ?_, ?_⟩
    · rw [← List.singleton_append, ← tokens]
    · rw [← List.length_singleton (a := token), ← pos]
  · rintro ⟨tokens, pos, rfl, rfl⟩
    exact ⟨rfl, rfl⟩

theorem Reads.length {tokens : List T} {self rest : Cursor T} (reads : Reads tokens self rest) :
    self.tokens.length = tokens.length + rest.tokens.length := by
  rw [reads.1, List.length_append]

/-- The same tokens lead from a cursor to one cursor only. -/
theorem Reads.unique {tokens : List T} {self first second : Cursor T}
    (left : Reads tokens self first) (right : Reads tokens self second) : first = second := by
  rcases first with ⟨firstTokens, firstPos⟩
  rcases second with ⟨secondTokens, secondPos⟩
  have sameTokens : firstTokens = secondTokens :=
    List.append_cancel_left (left.1.symm.trans right.1)
  have samePos : firstPos = secondPos := left.2.trans right.2.symm
  rw [sameTokens, samePos]

theorem next_eq_some_iff {self rest : Cursor T} {token : T} :
    self.next = (some token, rest) ↔ Reads [token] self rest := by
  rcases self with ⟨tokens, pos⟩
  rcases rest with ⟨after, stop⟩
  cases tokens with
  | nil => simp [next, Reads]
  | cons first tokens =>
    simp only [next, Reads, Prod.mk.injEq, Option.some.injEq, mk.injEq, List.cons_append,
      List.nil_append, List.cons.injEq, List.length_singleton]
    constructor
    · rintro ⟨rfl, rfl, rfl⟩
      exact ⟨⟨rfl, rfl⟩, rfl⟩
    · rintro ⟨⟨rfl, rfl⟩, rfl⟩
      exact ⟨rfl, rfl, rfl⟩

theorem take_eq_ok_iff {self rest : Cursor T} {kind : T → Option α}
    {failure : Option T → ε} {value : α} :
    self.take kind failure = .ok (value, rest) ↔
      ∃ token, kind token = some value ∧ Reads [token] self rest := by
  simp only [← next_eq_some_iff]
  rcases read : self.next with ⟨front, after⟩
  cases front with
  | none => simp [take, read]
  | some token =>
    simp only [take, read]
    cases known : kind token with
    | none => simp [known]
    | some found => simp [known, eq_comm]

/-- A sequence of fallible steps succeeds when both of them do. -/
theorem bind_eq_ok_iff {first : Except ε α} {next : α → Except ε β} {result : β} :
    (first >>= next) = .ok result ↔ ∃ value, first = .ok value ∧ next value = .ok result := by
  cases first with
  | error failure => simp [bind, Except.bind]
  | ok value => simp [bind, Except.bind]

end Cursor

end HiveGuard.Library
