import PrefixArithmetic.Proofs.Parsing.OnePass
import PrefixArithmetic.Proofs.Positions
import PrefixArithmetic.Proofs.Suffix

/-!
# Reading from anywhere

What is read at a cursor depends on the tokens behind it. The tokens before it only
add to the positions in what is read, and in the fault if there is one. The depth
only decides whether a word is refused: inside fewer operations everything that can
be read is read to the same result, and the first word that has too many operations
around it is at fault, unless a literal before it is too large.
-/
namespace PrefixArithmetic

namespace Cursor

/-- The cursor before the token at an index. -/
def before (tokens : List String) (index : ℕ) : Cursor := ⟨index, tokens.drop index⟩

/-- The cursor with `offset` more tokens before it. -/
def moved (offset : ℕ) (cursor : Cursor) : Cursor := ⟨offset + cursor.position, cursor.rest⟩

theorem moved_start (tokens : List String) (index : ℕ) :
    (start (tokens.drop index)).moved index = before tokens index := rfl

theorem moved_forward (offset : ℕ) (cursor : Cursor) (count : ℕ) :
    (cursor.forward count).moved offset = (cursor.moved offset).forward count := by
  simp [moved, forward, Nat.add_assoc]

end Cursor

namespace Outcome
variable {start : Cursor} {offset count : ℕ}

/-- A reading made `offset` tokens further on does the same there: every position is moved. -/
structure Moves (offset : ℕ) {there : Cursor} (outcome : Outcome start Expr)
    (later : Outcome there Expr) : Prop where
  result_eq : later.result = (outcome.result.map (Expr.mapPosition (offset + ·))).mapError
    (Fault.mapPosition (offset + ·))
  cursor_eq : later.cursor = outcome.cursor.moved offset

/-- A reading that succeeds has taken its tokens. -/
theorem Proceeds.cursor_of_ok {outcome : Outcome start Expr} {found : Expr}
    (h : outcome.Proceeds count) (hfound : outcome.result = .ok found) :
    outcome.cursor = start.forward count := by
  by_cases hrest : start.rest = []
  · obtain ⟨hended, -⟩ := h.ended hrest
    rw [hended] at hfound
    cases hfound
  · obtain ⟨-, -, hhalts⟩ := h.halts hrest
    exact hhalts.reads found hfound

/-- The place of the cursor follows from the result, so it is enough to compare results. -/
theorem Proceeds.moves {outcome : Outcome start Expr} {later : Outcome (start.moved offset) Expr}
    (h : outcome.Proceeds count) (hlater : later.Proceeds count)
    (hresult : later.result = (outcome.result.map (Expr.mapPosition (offset + ·))).mapError
      (Fault.mapPosition (offset + ·))) : outcome.Moves offset later := by
  refine ⟨hresult, ?_⟩
  by_cases hrest : start.rest = []
  · rw [(h.ended hrest).2, (hlater.ended hrest).2]
  · cases hread : outcome.result with
    | ok found =>
      rw [hread] at hresult
      rw [h.cursor_of_ok hread, hlater.cursor_of_ok hresult, Cursor.moved_forward]
    | error fault =>
      rw [hread] at hresult
      obtain ⟨-, -, hhalts⟩ := h.halts hrest
      obtain ⟨-, -, hlater⟩ := hlater.halts hrest
      obtain ⟨index, hblocks⟩ := hhalts.fails fault hread
      obtain ⟨other, hother⟩ := hlater.fails _ hresult
      -- Both are at fault at the same token, and stand behind it.
      have hposition := hblocks.position_eq
      have hmoved : offset + fault.position = offset + start.position + other := hother.position_eq
      have hsame : other = index := by omega
      rw [hblocks.cursor_eq, hother.cursor_eq, hsame, Cursor.moved_forward]

/-- The faults of the later reading are those of the earlier one, further on. -/
theorem Moves.eq_error_iff {there : Cursor} {outcome : Outcome start Expr}
    {later : Outcome there Expr} (h : outcome.Moves offset later) {position : ℕ}
    {cause : ParseCause} :
    later.result = .error ⟨position, cause⟩ ↔
      ∃ index, position = offset + index ∧ outcome.result = .error ⟨index, cause⟩ := by
  rw [h.result_eq]
  cases outcome.result with
  | ok found => simp [Except.map, Except.mapError]
  | error fault =>
    rcases fault with ⟨index, other⟩
    simp [Except.map, Except.mapError, Fault.mapPosition, eq_comm]

end Outcome

namespace Parsing

section Moved
variable (offset position depth : ℕ)

theorem flatOperands_add (tokens : List String) :
    flatOperands (offset + position) depth tokens =
      ((flatOperands position depth tokens).map
        (List.map (Expr.mapPosition (offset + ·)))).mapError (Fault.mapPosition (offset + ·)) := by
  induction tokens generalizing position depth with
  | nil => rfl
  | cons token rest ih =>
    rw [flatOperands, flatOperands, Nat.add_assoc, ih, ih]
    split_ifs
    · cases flatOperands (position + 1) depth rest <;> simp [Except.map, Except.mapError]
    · rfl
    · rfl
    · cases flatOperands (position + 1) (depth + 1) rest <;> simp [Except.map, Except.mapError]

/-- An operation reads its operands flat, unless it stands too deep. -/
theorem operation_result (token : String) (rest : List String) :
    (operation ⟨position, token :: rest⟩ depth).result =
      if nestingLimit ≤ depth then .error ⟨position, .nestingTooDeep nestingLimit⟩
      else (flatOperands (position + 1) (depth + 1) rest).map
        (.operation (Head.ofWord token) · position) := by
  split_ifs with hdepth
  · exact (operation_of_limit_le position depth token rest hdepth).1
  · rw [(operation_of_lt_limit position depth token rest hdepth).1, operands_eq_flat]

theorem literal_moves (cursor : Cursor) :
    (literal cursor).Moves offset (literal (cursor.moved offset)) := by
  refine (literal_proceeds cursor).moves (literal_proceeds _) ?_
  rcases cursor with ⟨position, _ | ⟨token, rest⟩⟩
  · rfl
  · simp only [literal, Cursor.moved, Cursor.consume, Except.bind]
    cases Token.integer? token <;> simp [Except.map, Except.mapError, Fault.mapPosition]

theorem operation_moves (cursor : Cursor) :
    (operation cursor depth).Moves offset (operation (cursor.moved offset) depth) := by
  refine (operation_proceeds cursor depth).moves (operation_proceeds _ depth) ?_
  rcases cursor with ⟨position, _ | ⟨token, rest⟩⟩
  · rw [operation, Cursor.moved, operation]
    rfl
  · rw [operation_result, Cursor.moved, operation_result, Nat.add_assoc, flatOperands_add]
    split_ifs
    · rfl
    · cases flatOperands (position + 1) (depth + 1) rest <;> simp [Except.map, Except.mapError]

theorem expression_moves (cursor : Cursor) :
    (expression cursor depth).Moves offset (expression (cursor.moved offset) depth) := by
  have hpeek : (cursor.moved offset).peek = cursor.peek := rfl
  rw [expression, expression, hpeek]
  split_ifs
  · exact literal_moves offset cursor
  · exact operation_moves offset depth cursor

end Moved

section Shallower
variable {position depth deeper : ℕ} (hle : depth ≤ deeper)
include hle

theorem flatOperands_of_le {tokens : List String} {row : List Expr}
    (h : flatOperands position deeper tokens = .ok row) :
    flatOperands position depth tokens = .ok row := by
  induction tokens generalizing position depth deeper row with
  | nil => exact h
  | cons token rest ih =>
    cases hliteral : Token.isLiteral token with
    | true =>
      rw [flatOperands_of_literal_eq_ok_iff hliteral] at h ⊢
      obtain ⟨hrange, inner, hinner, hrow⟩ := h
      exact ⟨hrange, inner, ih hle hinner, hrow⟩
    | false =>
      rw [flatOperands_of_word_eq_ok_iff hliteral] at h ⊢
      obtain ⟨hlt, inner, hinner, hrow⟩ := h
      exact ⟨by omega, inner, ih (by omega) hinner, hrow⟩

theorem operation_of_le {cursor : Cursor} {found : Expr}
    (h : (operation cursor deeper).result = .ok found) :
    (operation cursor depth).result = .ok found := by
  rcases cursor with ⟨position, _ | ⟨token, rest⟩⟩
  · rw [operation] at h
    cases h
  · rw [operation_result] at h ⊢
    split_ifs at h with hdeeper
    obtain ⟨row, hrow, rfl⟩ := map_eq_ok_iff.mp h
    have hdepth : ¬nestingLimit ≤ depth := by omega
    rw [if_neg hdepth, flatOperands_of_le (Nat.succ_le_succ hle) hrow]
    rfl

theorem expression_of_le {cursor : Cursor} {found : Expr}
    (h : (expression cursor deeper).result = .ok found) :
    (expression cursor depth).result = .ok found := by
  rw [expression] at h ⊢
  split_ifs at h ⊢
  · exact h
  · exact operation_of_le hle h

end Shallower

/-- A word that has too many operations around it, when all tokens stand inside `depth`. -/
def TooDeep (depth : ℕ) (tokens : List String) (index : ℕ) : Prop :=
  ∃ word ∈ tokens[index]?, Token.isLiteral word = false ∧ 512 - depth ≤ wordsBefore tokens index

/-- A literal of more than 64 bits. -/
def TooLarge (tokens : List String) (index : ℕ) : Prop :=
  ∃ token ∈ tokens[index]?, Token.isLiteral token = true ∧ 2 ^ 63 - 1 < Token.decimal token

section Faults
variable {depth index : ℕ} {tokens : List String}

section At
variable {token : String} (htoken : tokens[index]? = some token)
include htoken

lemma tooDeep_iff : TooDeep depth tokens index ↔
    Token.isLiteral token = false ∧ 512 ≤ depth + wordsBefore tokens index := by
  simp only [TooDeep, htoken, Option.mem_some_iff, exists_eq_left', Nat.sub_le_iff_le_add']

lemma tooLarge_iff : TooLarge tokens index ↔
    Token.isLiteral token = true ∧ ¬Integer64.InRange (Token.decimal token) := by
  simp only [TooLarge, htoken, Option.mem_some_iff, exists_eq_left', Token.inRange_decimal_iff,
    Nat.not_le]

end At

theorem faultAt?_eq_nestingTooDeep_iff {position limit : ℕ} :
    faultAt? depth tokens index = some ⟨position, .nestingTooDeep limit⟩ ↔
      position = index ∧ limit = 512 ∧ TooDeep depth tokens index := by
  cases htoken : tokens[index]? with
  | none => simp [faultAt?, TooDeep, htoken]
  | some token =>
    rw [faultAt?, htoken, Option.bind_some, tooDeep_iff htoken]
    split_ifs with hliteral hrange hdepth
    · simp [hliteral]
    · simp [hliteral]
    · simp [hliteral, hdepth, eq_comm]
    · simp [hliteral, hdepth]

theorem faultAt?_eq_none_iff :
    faultAt? depth tokens index = none ↔
      ¬TooDeep depth tokens index ∧ ¬TooLarge tokens index := by
  cases htoken : tokens[index]? with
  | none => simp [faultAt?, TooDeep, TooLarge, htoken]
  | some token =>
    rw [faultAt?, htoken, Option.bind_some, tooDeep_iff htoken, tooLarge_iff htoken]
    split_ifs with hliteral hrange hdepth
    · simp [hliteral, hrange]
    · simp [hliteral, hrange]
    · simp [hliteral, hdepth]
    · simpa [hliteral] using hdepth

/-- The first fault is the one of the least index that is at fault. -/
theorem firstFault?_eq_some_iff {fault : Fault ParseCause} :
    firstFault? depth tokens = some fault ↔
      faultAt? depth tokens fault.position = some fault ∧
        ∀ index < fault.position, faultAt? depth tokens index = none := by
  constructor
  · exact firstFault?_eq_some
  · intro h
    obtain ⟨hfault, hnone⟩ := h
    obtain ⟨token, htoken, -⟩ := Option.bind_eq_some_iff.mp hfault
    obtain ⟨hlt, -⟩ := List.getElem?_eq_some_iff.mp htoken
    cases hfirst : firstFault? depth tokens with
    | none =>
      have hall := List.findSome?_eq_none_iff.mp hfirst _ (List.mem_range.mpr hlt)
      rw [hfault] at hall
      cases hall
    | some other =>
      obtain ⟨hother, hbefore⟩ := firstFault?_eq_some hfirst
      rcases Nat.lt_trichotomy fault.position other.position with hlt | heq | hgt
      · rw [hbefore _ hlt] at hfault
        cases hfault
      · rw [← hother, ← heq, hfault]
      · rw [hnone _ hgt] at hother
        cases hother

/-- The first fault of all tokens is one of depth if a word stands too deep and no literal before
the first such word is too large. -/
theorem firstFault?_eq_nestingTooDeep_iff {limit : ℕ} :
    firstFault? depth tokens = some ⟨index, .nestingTooDeep limit⟩ ↔
      limit = 512 ∧ IsLeast {index | TooDeep depth tokens index} index ∧
        ∀ earlier < index, ¬TooLarge tokens earlier := by
  simp only [firstFault?_eq_some_iff, faultAt?_eq_nestingTooDeep_iff, faultAt?_eq_none_iff,
    true_and]
  constructor
  · intro h
    obtain ⟨⟨hlimit, hdeep⟩, hbefore⟩ := h
    refine ⟨hlimit, ⟨hdeep, ?_⟩, fun earlier hlt => (hbefore earlier hlt).2⟩
    intro other hother
    by_contra hlt
    exact (hbefore other (Nat.not_le.mp hlt)).1 hother
  · intro h
    obtain ⟨hlimit, ⟨hdeep, hleast⟩, hbefore⟩ := h
    refine ⟨⟨hlimit, hdeep⟩, fun earlier hlt => ⟨?_, hbefore earlier hlt⟩⟩
    intro hother
    exact absurd (hleast hother) (Nat.not_le.mpr hlt)

/-- An operation that is read from a word on fails with the first fault of the tokens. -/
theorem operation_eq_error_iff {word : String} {rest : List String} {fault : Fault ParseCause}
    (hword : Token.isLiteral word = false) :
    (operation (.start (word :: rest)) depth).result = .error fault ↔
      firstFault? depth (word :: rest) = some fault := by
  -- The rule for a row of operands covers the operation too, as the only operand of its row.
  have hrow : flatOperands 0 depth (word :: rest) =
      (operation (.start (word :: rest)) depth).result.map ([·]) := by
    rw [flatOperands, if_neg (Bool.eq_false_iff.mp hword), Cursor.start, operation_result]
    split_ifs
    · rfl
    · cases flatOperands 1 (depth + 1) rest <;> rfl
  have hdrop := flatOperands_drop depth (word :: rest) (word :: rest).length 0 (Nat.zero_add _)
  have hnone : wordsBefore (word :: rest) 0 = 0 := rfl
  rw [hnone, Nat.add_zero, List.drop_zero, ← List.range_eq_range', ← firstFault?, hrow] at hdrop
  rw [← map_eq_error_iff, hdrop]
  cases firstFault? depth (word :: rest) <;> simp [outcomeOf]

theorem operation_eq_nestingTooDeep_iff {limit : ℕ}
    (hfirst : tokens.head?.any Token.isLiteral = false) :
    (operation (.start tokens) depth).result = .error ⟨index, .nestingTooDeep limit⟩ ↔
      limit = 512 ∧ IsLeast {index | TooDeep depth tokens index} index ∧
        ∀ earlier < index, ¬TooLarge tokens earlier := by
  rw [← firstFault?_eq_nestingTooDeep_iff]
  cases tokens with
  | nil =>
    rw [Cursor.start, operation]
    simp [firstFault?]
  | cons word rest => exact operation_eq_error_iff hfirst

end Faults

section Readers
variable {read : (cursor : Cursor) → ℕ → Outcome cursor Expr}
  (hread : read = expression ∨ read = operation)
include hread

lemma read_moves (offset depth : ℕ) (cursor : Cursor) :
    (read cursor depth).Moves offset (read (cursor.moved offset) depth) := by
  rcases hread with rfl | rfl
  · exact expression_moves offset depth cursor
  · exact operation_moves offset depth cursor

/-- Inside fewer operations a reader reads the same. -/
lemma read_of_le {cursor : Cursor} {depth deeper : ℕ} {found : Expr} (hle : depth ≤ deeper)
    (h : (read cursor deeper).result = .ok found) :
    (read cursor depth).result = .ok found ∧
      (read cursor depth).cursor = (read cursor deeper).cursor := by
  rcases hread with rfl | rfl
  · have hsame := expression_of_le hle h
    rw [(expression_proceeds cursor depth).cursor_of_ok hsame,
      (expression_proceeds cursor deeper).cursor_of_ok h]
    exact ⟨hsame, rfl⟩
  · have hsame := operation_of_le hle h
    rw [(operation_proceeds cursor depth).cursor_of_ok hsame,
      (operation_proceeds cursor deeper).cursor_of_ok h]
    exact ⟨hsame, rfl⟩

/-- Before a word both readers read an operation. -/
lemma read_eq_operation {cursor : Cursor}
    (hfirst : cursor.rest.head?.any Token.isLiteral = false) (depth : ℕ) :
    read cursor depth = operation cursor depth := by
  rcases hread with rfl | rfl
  · rw [expression, Cursor.peek, if_neg (Bool.eq_false_iff.mp hfirst)]
  · rfl

end Readers

/-- Reading is local: at any place among the tokens it does what it does on the tokens from there
on alone, with all positions moved to that place. And it is monotone in the depth: inside fewer
operations the same is read, and what is refused for its depth is the first word that has too
many operations around it, unless a literal before it is too large. -/
theorem reading_local_and_monotone {read : (cursor : Cursor) → ℕ → Outcome cursor Expr}
    (hread : read = expression ∨ read = operation) (tokens : List String) (start depth : ℕ) :
    (read (.start (tokens.drop start)) depth).Moves start (read (.before tokens start) depth) ∧
      (∀ deeper found, depth ≤ deeper → (read (.before tokens start) deeper).result = .ok found →
        (read (.before tokens start) depth).result = .ok found ∧
          (read (.before tokens start) depth).cursor =
            (read (.before tokens start) deeper).cursor) ∧
      (tokens[start]?.any Token.isLiteral = false → ∀ position limit,
        (read (.before tokens start) depth).result =
            .error ⟨position, .nestingTooDeep limit⟩ ↔
          ∃ index, position = start + index ∧ limit = 512 ∧
            IsLeast {index | TooDeep depth (tokens.drop start) index} index ∧
              ∀ earlier < index, ¬TooLarge (tokens.drop start) earlier) := by
  have hmoves := read_moves hread start depth (.start (tokens.drop start))
  rw [Cursor.moved_start] at hmoves
  refine ⟨hmoves, fun _ _ => read_of_le hread, fun hword position limit => ?_⟩
  have hfirst : (tokens.drop start).head?.any Token.isLiteral = false := by
    rw [List.head?_drop, hword]
  rw [hmoves.eq_error_iff, read_eq_operation hread hfirst]
  simp only [operation_eq_nestingTooDeep_iff hfirst]

/-- A word inside an operation is refused where 511 more stand around both, and read inside 510. -/
theorem reading_local_and_monotone_pow :
    let tokens := ["9", "sum", "007", "pow", "2"]
    (operation (.before tokens 1) 511).result = .error ⟨3, .nestingTooDeep 512⟩ ∧
      ∃ found, (operation (.before tokens 1) 510).result = .ok found ∧
        (operation (.before tokens 1) 0).result = .ok found := by
  intro tokens
  obtain ⟨-, -, hdeep⟩ := reading_local_and_monotone (.inr rfl) tokens 1 511
  obtain ⟨-, hmono, -⟩ := reading_local_and_monotone (.inr rfl) tokens 1 0
  constructor
  · refine (hdeep (by decide) 3 512).mpr ⟨2, rfl, rfl, ⟨⟨"pow", rfl, by decide, by decide⟩, ?_⟩, ?_⟩
    · rintro index ⟨word, hword, hliteral, hcount⟩
      by_contra hlt
      obtain rfl | rfl : index = 0 ∨ index = 1 := by omega
      · exact absurd hcount (by decide)
      · cases hword
        exact absurd hliteral (by decide)
    · rintro index hlt ⟨token, htoken, hliteral, hlarge⟩
      obtain rfl | rfl : index = 0 ∨ index = 1 := by omega
      · cases htoken
        exact absurd hliteral (by decide)
      · cases htoken
        exact absurd hlarge (by decide)
  · have hread : (operation (.before tokens 1) 510).result = .ok (.operation (.known .sum)
        [.literal 7 2, .operation (.unknown "pow") [.literal 2 4] 3] 1) := by
      change (operation ⟨1, "sum" :: ["007", "pow", "2"]⟩ 510).result = _
      rw [operation_result]
      rfl
    exact ⟨_, hread, (hmono 510 _ (by decide) hread).1⟩

end Parsing

end PrefixArithmetic
