import PrefixArithmetic.Parsing
import Mathlib.Tactic

/-!
# Where a reading stops

A literal takes one token, and an operation takes all that are left. That is so
unless some token cannot be read; then every reading that is under way ends, and
the cursor stands right behind that token, however many operations were open. So
the place of the cursor says which token the fault is about.
-/
namespace PrefixArithmetic

namespace Cursor

/-- The cursor so many tokens further on. -/
def forward (cursor : Cursor) (count : ℕ) : Cursor :=
  ⟨cursor.position + count, cursor.rest.drop count⟩

@[simp] theorem forward_position (cursor : Cursor) (count : ℕ) :
    (cursor.forward count).position = cursor.position + count := rfl

@[simp] theorem forward_rest (cursor : Cursor) (count : ℕ) :
    (cursor.forward count).rest = cursor.rest.drop count := rfl

theorem forward_cons (position : ℕ) (token : String) (rest : List String) (count : ℕ) :
    (Cursor.mk position (token :: rest)).forward (count + 1) =
      (Cursor.mk (position + 1) rest).forward count := by
  simp [forward, Nat.add_assoc, Nat.add_comm 1]

end Cursor

/-- A token past which nothing is read: the fault is about it, and the cursor is behind it. -/
structure Fault.Blocks (fault : Fault ParseCause) (start next : Cursor) (index : ℕ) : Prop where
  index_lt : index < start.remaining
  position_eq : fault.position = start.position + index
  cursor_eq : next = start.forward (index + 1)
  cause_ne : fault.cause ≠ .endOfInput

/-- Seen from a cursor before it, the token at fault is one further away. -/
lemma Fault.Blocks.cons {fault : Fault ParseCause} {position index : ℕ} {rest : List String}
    {next : Cursor} (token : String) (h : fault.Blocks ⟨position + 1, rest⟩ next index) :
    fault.Blocks ⟨position, token :: rest⟩ next (index + 1) where
  index_lt := Nat.succ_lt_succ h.index_lt
  position_eq := by
    have hposition : fault.position = position + 1 + index := h.position_eq
    change fault.position = position + (index + 1)
    omega
  cursor_eq := h.cursor_eq.trans (Cursor.forward_cons ..).symm
  cause_ne := h.cause_ne

namespace Outcome
variable {start : Cursor} {α β : Type}

/-- A reading that takes `count` tokens, or fails at one of those that are left. -/
structure Halts (outcome : Outcome start α) (count : ℕ) : Prop where
  reads : ∀ found, outcome.result = .ok found → outcome.cursor = start.forward count
  fails : ∀ fault, outcome.result = .error fault →
    ∃ index, fault.Blocks start outcome.cursor index

namespace Halts

/-- A reading that ends with the fault of its first part stands where that part stood. -/
lemma of_error {part : Outcome start α} {outcome : Outcome start β}
    {fault : Fault ParseCause} {count total : ℕ} (h : part.Halts count)
    (hpart : part.result = .error fault) (hresult : outcome.result = .error fault)
    (hcursor : outcome.cursor = part.cursor) : outcome.Halts total where
  reads := by
    intro found hfound
    rw [hresult] at hfound
    cases hfound
  fails := by
    intro fault' hfault
    rw [hresult] at hfault
    cases hfault
    rw [hcursor]
    exact h.fails fault hpart

/-- What is made of what was read does not matter. -/
lemma map {part : Outcome start α} {outcome : Outcome start β} {f : α → β} {count : ℕ}
    (h : part.Halts count) (hresult : outcome.result = part.result.map f)
    (hcursor : outcome.cursor = part.cursor) : outcome.Halts count := by
  cases hpart : part.result with
  | error fault =>
    rw [hpart] at hresult
    exact h.of_error hpart hresult hcursor
  | ok inner =>
    rw [hpart] at hresult
    constructor
    · intro _ _
      rw [hcursor, h.reads inner hpart]
    · intro fault hfault
      rw [hresult] at hfault
      cases hfault

/-- One more token is taken by a reading that is seen from a token before it. -/
lemma since {position count : ℕ} {rest : List String} {tail : Outcome ⟨position + 1, rest⟩ α}
    (h : tail.Halts count) (token : String) :
    (tail.since ⟨position, token :: rest⟩ (Nat.le_succ _)).Halts (count + 1) where
  reads := by
    intro found hfound
    exact (h.reads found hfound).trans (Cursor.forward_cons ..).symm
  fails := by
    intro fault hfault
    obtain ⟨index, hblocks⟩ := h.fails fault hfault
    exact ⟨index + 1, hblocks.cons token⟩

/-- A reading that takes all tokens leaves none. -/
lemma rest_eq_nil {outcome : Outcome start α} (h : outcome.Halts start.remaining) :
    ∀ found, outcome.result = .ok found → outcome.cursor.rest = [] := by
  intro found hfound
  rw [h.reads found hfound]
  exact List.drop_length

end Halts

/-- A step that takes `count` tokens if it succeeds. It fails where it stands only when no
token is left. -/
structure Proceeds (outcome : Outcome start α) (count : ℕ) : Prop where
  ended : start.rest = [] →
    outcome.result = .error ⟨start.position, .endOfInput⟩ ∧ outcome.cursor = start
  halts : start.rest ≠ [] → 0 < count ∧ count ≤ start.remaining ∧ outcome.Halts count

namespace Proceeds
variable {position count : ℕ}

lemma of_nil {outcome : Outcome ⟨position, []⟩ α}
    (hresult : outcome.result = .error ⟨position, .endOfInput⟩)
    (hcursor : outcome.cursor = ⟨position, []⟩) : outcome.Proceeds count where
  ended _ := ⟨hresult, hcursor⟩
  halts h := absurd rfl h

lemma of_cons {token : String} {rest : List String} {outcome : Outcome ⟨position, token :: rest⟩ α}
    (hpos : 0 < count) (hle : count ≤ rest.length + 1) (h : outcome.Halts count) :
    outcome.Proceeds count where
  ended hrest := by cases hrest
  halts _ := ⟨hpos, hle, h⟩

end Proceeds

end Outcome

namespace Parsing

section Steps
variable (position depth : ℕ) (token : String) (rest : List String)

@[simp] theorem literal_cursor :
    (literal ⟨position, token :: rest⟩).cursor = ⟨position + 1, rest⟩ := rfl

theorem expression_of_literal (h : Token.isLiteral token = true) :
    expression ⟨position, token :: rest⟩ depth = literal ⟨position, token :: rest⟩ := by
  rw [expression]
  simp [Cursor.peek, h]

theorem expression_of_word (h : Token.isLiteral token = false) :
    expression ⟨position, token :: rest⟩ depth = operation ⟨position, token :: rest⟩ depth := by
  rw [expression]
  simp [Cursor.peek, h]

theorem operation_of_limit_le (h : nestingLimit ≤ depth) :
    (operation ⟨position, token :: rest⟩ depth).result =
        .error ⟨position, .nestingTooDeep nestingLimit⟩ ∧
      (operation ⟨position, token :: rest⟩ depth).cursor = ⟨position + 1, rest⟩ := by
  rw [operation]
  simp [h]

/-- Inside fewer operations than the limit a word reads all the operands it can. -/
theorem operation_of_lt_limit (h : ¬nestingLimit ≤ depth) :
    (operation ⟨position, token :: rest⟩ depth).result =
        (operands ⟨position + 1, rest⟩ (depth + 1)).result.map
          (.operation (Head.ofWord token) · position) ∧
      (operation ⟨position, token :: rest⟩ depth).cursor =
        (operands ⟨position + 1, rest⟩ (depth + 1)).cursor := by
  rw [operation]
  simp [h]

theorem operands_nil : operands ⟨position, []⟩ depth =
    ⟨.ok [], ⟨position, []⟩, Cursor.remaining_le_of_rest_eq_nil rfl⟩ := by
  rw [operands]
  rfl

/-- The first operand that cannot be read ends the reading, and the cursor stays where it is. -/
theorem operands_of_error {fault : Fault ParseCause}
    (h : (expression ⟨position, token :: rest⟩ depth).result = .error fault) :
    (operands ⟨position, token :: rest⟩ depth).result = .error fault ∧
      (operands ⟨position, token :: rest⟩ depth).cursor =
        (expression ⟨position, token :: rest⟩ depth).cursor := by
  rw [operands]
  rcases hread : expression ⟨position, token :: rest⟩ depth with ⟨result, next, advances⟩
  rw [hread] at h
  subst h
  simp

/-- After an operand the reading goes on where the operand ended. -/
theorem operands_of_ok {found : Expr}
    (h : (expression ⟨position, token :: rest⟩ depth).result = .ok found) :
    (operands ⟨position, token :: rest⟩ depth).result =
        (operands (expression ⟨position, token :: rest⟩ depth).cursor depth).result.map
          (found :: ·) ∧
      (operands ⟨position, token :: rest⟩ depth).cursor =
        (operands (expression ⟨position, token :: rest⟩ depth).cursor depth).cursor := by
  rw [operands]
  rcases hread : expression ⟨position, token :: rest⟩ depth with ⟨result, next, advances⟩
  rw [hread] at h
  subst h
  simp

/-- An operand behind which there is no token is the last one. -/
theorem operands_of_ends
    (h : ∀ found, (expression ⟨position, token :: rest⟩ depth).result = .ok found →
      (expression ⟨position, token :: rest⟩ depth).cursor.rest = []) :
    (operands ⟨position, token :: rest⟩ depth).result =
        (expression ⟨position, token :: rest⟩ depth).result.map ([·]) ∧
      (operands ⟨position, token :: rest⟩ depth).cursor =
        (expression ⟨position, token :: rest⟩ depth).cursor := by
  cases hfirst : (expression ⟨position, token :: rest⟩ depth).result with
  | error fault => exact operands_of_error position depth token rest hfirst
  | ok found =>
    obtain ⟨hresult, hcursor⟩ := operands_of_ok position depth token rest hfirst
    have hrest := h found hfirst
    rcases hnext : (expression ⟨position, token :: rest⟩ depth).cursor with ⟨stop, left⟩
    rw [hnext] at hrest hresult hcursor
    subst hrest
    rw [operands_nil] at hresult hcursor
    exact ⟨hresult, hcursor⟩

end Steps

section Halting
variable (position depth : ℕ) (token : String) (rest : List String)

theorem literal_halts : (literal ⟨position, token :: rest⟩).Halts 1 where
  reads := by
    intro _ _
    rfl
  fails := by
    intro fault hfault
    cases hinteger : Token.integer? token with
    | some value =>
      have hresult : (literal ⟨position, token :: rest⟩).result = .ok (.literal value position) := by
        simp [literal, Cursor.consume, Except.bind, hinteger]
      rw [hresult] at hfault
      cases hfault
    | none =>
      have hresult : (literal ⟨position, token :: rest⟩).result =
          .error ⟨position, .literalTooLarge token⟩ := by
        simp [literal, Cursor.consume, Except.bind, hinteger]
      rw [hresult] at hfault
      cases hfault
      exact ⟨0, Nat.succ_pos _, rfl, rfl, by simp⟩

/-- An operation takes what its operands take, after its word. -/
lemma operation_halts_of_operands
    (h : (operands ⟨position + 1, rest⟩ (depth + 1)).Halts rest.length) :
    (operation ⟨position, token :: rest⟩ depth).Halts (rest.length + 1) := by
  by_cases hdepth : nestingLimit ≤ depth
  · obtain ⟨hresult, hcursor⟩ := operation_of_limit_le position depth token rest hdepth
    constructor
    · intro found hfound
      rw [hresult] at hfound
      cases hfound
    · intro fault hfault
      rw [hresult] at hfault
      cases hfault
      exact ⟨0, Nat.succ_pos _, rfl, hcursor, by simp⟩
  · obtain ⟨hresult, hcursor⟩ := operation_of_lt_limit position depth token rest hdepth
    exact (h.since token).map hresult hcursor

/-- Operands are read to the last token. The induction is on the tokens: a literal leaves all
behind it to the operands that follow, and a word takes them for its own operands. -/
theorem operands_halts : (operands ⟨position, rest⟩ depth).Halts rest.length := by
  induction rest generalizing position depth with
  | nil =>
    rw [operands_nil]
    exact ⟨fun _ _ => rfl, fun _ hfault => by cases hfault⟩
  | cons token rest ih =>
    by_cases hliteral : Token.isLiteral token = true
    · have hread := expression_of_literal position depth token rest hliteral
      have hhalts := literal_halts position token rest
      rw [← hread] at hhalts
      cases hfirst : (expression ⟨position, token :: rest⟩ depth).result with
      | error fault =>
        obtain ⟨hresult, hcursor⟩ := operands_of_error position depth token rest hfirst
        exact hhalts.of_error hfirst hresult hcursor
      | ok found =>
        obtain ⟨hresult, hcursor⟩ := operands_of_ok position depth token rest hfirst
        rw [hread, literal_cursor] at hresult hcursor
        exact ((ih (position + 1) depth).since token).map hresult hcursor
    · have hword : Token.isLiteral token = false := Bool.eq_false_iff.mpr hliteral
      have hhalts := operation_halts_of_operands position depth token rest
        (ih (position + 1) (depth + 1))
      rw [← expression_of_word position depth token rest hword] at hhalts
      obtain ⟨hresult, hcursor⟩ := operands_of_ends position depth token rest hhalts.rest_eq_nil
      exact hhalts.map hresult hcursor

theorem operation_halts : (operation ⟨position, token :: rest⟩ depth).Halts (rest.length + 1) :=
  operation_halts_of_operands position depth token rest
    (operands_halts (position + 1) (depth + 1) rest)

end Halting

section Proceeding
variable (cursor : Cursor) (depth : ℕ)

theorem consume_proceeds : cursor.consume.Proceeds 1 := by
  rcases cursor with ⟨position, _ | ⟨token, rest⟩⟩
  · exact .of_nil rfl rfl
  · exact .of_cons Nat.one_pos (Nat.succ_pos _) ⟨fun _ _ => rfl, fun _ hfault => by cases hfault⟩

theorem literal_proceeds : (literal cursor).Proceeds 1 := by
  rcases cursor with ⟨position, _ | ⟨token, rest⟩⟩
  · exact .of_nil rfl rfl
  · exact .of_cons Nat.one_pos (Nat.succ_pos _) (literal_halts position token rest)

theorem operation_proceeds : (operation cursor depth).Proceeds cursor.remaining := by
  rcases cursor with ⟨position, _ | ⟨token, rest⟩⟩
  · rw [operation]
    exact .of_nil rfl rfl
  · exact .of_cons (Nat.succ_pos _) le_rfl (operation_halts position depth token rest)

/-- An expression is read as the one or the other by its first token. -/
theorem expression_proceeds : (expression cursor depth).Proceeds
    (if cursor.peek.any Token.isLiteral then 1 else cursor.remaining) := by
  rw [expression]
  split_ifs with hliteral
  · exact literal_proceeds cursor
  · exact operation_proceeds cursor depth

end Proceeding

end Parsing

end PrefixArithmetic
