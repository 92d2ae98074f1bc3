import PrefixArithmetic.Fault

/-!
# Cursors

A cursor stands before one of the tokens or behind the last: it knows the index
of the next token and the tokens not read yet. A reading step that starts at a
cursor has an outcome, which is what it read or a fault, together with the
cursor it leaves behind. Every step reads at least one token while one is left,
and an outcome carries the proof.
-/
namespace PrefixArithmetic

structure Cursor where
  position : Nat
  rest : List String
  deriving DecidableEq

namespace Cursor

/-- The cursor before the first of these tokens. -/
def start (tokens : List String) : Cursor := ⟨0, tokens⟩

/-- The number of tokens not read yet. -/
def remaining (cursor : Cursor) : Nat := cursor.rest.length

/-- The next token, which stays where it is. -/
def peek (cursor : Cursor) : Option String := cursor.rest.head?

theorem remaining_le_of_rest_eq_nil {cursor : Cursor} (h : cursor.rest = []) :
    cursor.remaining ≤ cursor.remaining - 1 := by
  simp [remaining, h]

@[simp] theorem remaining_start (tokens : List String) :
    (start tokens).remaining = tokens.length := rfl

@[simp] theorem remaining_mk (position : Nat) (rest : List String) :
    (Cursor.mk position rest).remaining = rest.length := rfl

end Cursor

/-- What a step read and where it left the cursor. -/
structure Outcome (start : Cursor) (α : Type) where
  result : Except (Fault ParseCause) α
  cursor : Cursor
  /-- One token at least was read, if there was one. -/
  advances : cursor.remaining ≤ start.remaining - 1

namespace Outcome

/-- The outcome with what was read turned into something else. -/
def map {start : Cursor} {α β : Type} (f : α → β) (outcome : Outcome start α) :
    Outcome start β :=
  ⟨outcome.result.map f, outcome.cursor, outcome.advances⟩

@[simp] theorem map_result {start : Cursor} {α β : Type} (f : α → β)
    (outcome : Outcome start α) : (outcome.map f).result = outcome.result.map f := rfl

@[simp] theorem map_cursor {start : Cursor} {α β : Type} (f : α → β)
    (outcome : Outcome start α) : (outcome.map f).cursor = outcome.cursor := rfl

/-- A step that started further on, seen from a cursor that has at least as many tokens. -/
def since {start : Cursor} {α : Type} (earlier : Cursor) (outcome : Outcome start α)
    (h : start.remaining ≤ earlier.remaining) : Outcome earlier α :=
  ⟨outcome.result, outcome.cursor, Nat.le_trans outcome.advances (Nat.sub_le_sub_right h 1)⟩

@[simp] theorem since_result {start : Cursor} {α : Type} (earlier : Cursor)
    (outcome : Outcome start α) (h : start.remaining ≤ earlier.remaining) :
    (outcome.since earlier h).result = outcome.result := rfl

@[simp] theorem since_cursor {start : Cursor} {α : Type} (earlier : Cursor)
    (outcome : Outcome start α) (h : start.remaining ≤ earlier.remaining) :
    (outcome.since earlier h).cursor = outcome.cursor := rfl

end Outcome

/-- Reads one token, with its index. At the end of the tokens the cursor stays. -/
def Cursor.consume : (cursor : Cursor) → Outcome cursor (Nat × String)
  | ⟨position, []⟩ => ⟨.error ⟨position, .endOfInput⟩, ⟨position, []⟩, Nat.zero_le _⟩
  | ⟨position, token :: rest⟩ => ⟨.ok (position, token), ⟨position + 1, rest⟩, Nat.le_refl _⟩

end PrefixArithmetic
