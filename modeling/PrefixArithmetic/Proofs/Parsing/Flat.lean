import PrefixArithmetic.Proofs.Parsing.Halting

/-!
# Reading without nesting

An operation that is read successfully leaves no token, so the operations around
it end with it. What the rest of the tokens gives as operands is therefore found
in one pass over them: literals one by one up to the next word, whose operation
takes all that is left. The number of operations around a token is a counter that
every word moves up by one.
-/
namespace PrefixArithmetic

namespace Token

/-- The number that the digits of a literal stand for, however large. -/
def decimal (token : String) : ℕ := Nat.ofDigitChars 10 token.toList 0

/-- The integer of a literal whose number has 64 bits. -/
def value (token : String) : Int64 := Int64.ofInt (decimal token)

/-- No keyword is taken for a number. -/
theorem isLiteral_keyword (op : Operator) : isLiteral op.keyword = false := by
  cases op <;> decide

lemma not_isDigit_sign : '+'.isDigit = false ∧ '-'.isDigit = false := by decide

/-- A row of digits has no sign before it. -/
lemma signed?_eq_magnitude? {cs : List Char} (h : Integer64.isDigits cs = true) :
    Integer64.signed? cs = (Integer64.magnitude? cs).map fun n => (n : ℤ) := by
  unfold Integer64.signed?
  split
  · simp [Integer64.isDigits, not_isDigit_sign] at h
  · simp [Integer64.isDigits, not_isDigit_sign] at h
  · rfl

theorem integer?_of_isLiteral {token : String} (h : isLiteral token = true) :
    integer? token = if Integer64.InRange (decimal token) then some (value token) else none := by
  have hdigits : Integer64.isDigits token.toList = true := h
  rw [integer?, Integer64.ofText?, signed?_eq_magnitude? hdigits]
  rw [Integer64.magnitude?, if_pos hdigits]
  rfl

theorem inRange_decimal_iff {token : String} :
    Integer64.InRange (decimal token) ↔ decimal token ≤ 2 ^ 63 - 1 := by
  unfold Integer64.InRange
  omega

/-- The integer of a literal is its number, where the literal has an integer at all. -/
theorem toInt_value {token : String} (h : Integer64.InRange (decimal token)) :
    (value token).toInt = decimal token :=
  Integer64.ofInt?_eq_some_iff.mp (by rw [Integer64.ofInt?, if_pos h]; rfl)

end Token

namespace Parsing

/-- The operands that tokens give from a position on, all inside `depth` operations. -/
def flatOperands (position depth : ℕ) : List String → Except (Fault ParseCause) (List Expr)
  | [] => .ok []
  | token :: rest =>
    if Token.isLiteral token then
      if Integer64.InRange (Token.decimal token) then
        (flatOperands (position + 1) depth rest).map (.literal (Token.value token) position :: ·)
      else .error ⟨position, .literalTooLarge token⟩
    else if nestingLimit ≤ depth then .error ⟨position, .nestingTooDeep nestingLimit⟩
    else
      (flatOperands (position + 1) (depth + 1) rest).map fun found =>
        [.operation (Head.ofWord token) found position]

section Rows
variable (position depth : ℕ) (token : String) (rest : List String)

theorem literal_result (h : Token.isLiteral token = true) :
    (literal ⟨position, token :: rest⟩).result =
      if Integer64.InRange (Token.decimal token) then .ok (.literal (Token.value token) position)
      else .error ⟨position, .literalTooLarge token⟩ := by
  have hinteger := Token.integer?_of_isLiteral h
  by_cases hrange : Integer64.InRange (Token.decimal token)
  · rw [if_pos hrange] at hinteger ⊢
    simp [literal, Cursor.consume, Except.bind, hinteger]
  · rw [if_neg hrange] at hinteger ⊢
    simp [literal, Cursor.consume, Except.bind, hinteger]

/-- An operation read from within a row ends the row: the row holds that operation last. -/
lemma operands_of_word (hword : Token.isLiteral token = false) (hdepth : ¬nestingLimit ≤ depth) :
    (operands ⟨position, token :: rest⟩ depth).result =
      (operands ⟨position + 1, rest⟩ (depth + 1)).result.map
        fun found => [.operation (Head.ofWord token) found position] := by
  have hread := expression_of_word position depth token rest hword
  have hends := (operation_halts position depth token rest).rest_eq_nil
  rw [← hread] at hends
  obtain ⟨hrow, -⟩ := operands_of_ends position depth token rest hends
  obtain ⟨hresult, -⟩ := operation_of_lt_limit position depth token rest hdepth
  rw [hrow, hread, hresult]
  cases (operands ⟨position + 1, rest⟩ (depth + 1)).result <;> rfl

/-- Reading operands to the end gives what the flat reading gives. The induction is on the
tokens: a literal and a word both leave exactly the tokens behind them. -/
theorem operands_eq_flat :
    (operands ⟨position, rest⟩ depth).result = flatOperands position depth rest := by
  induction rest generalizing position depth with
  | nil =>
    rw [operands_nil]
    rfl
  | cons token rest ih =>
    rw [flatOperands]
    by_cases hliteral : Token.isLiteral token = true
    · have hread := literal_result position token rest hliteral
      rw [← expression_of_literal position depth token rest hliteral] at hread
      rw [if_pos hliteral]
      split_ifs at hread ⊢ with hrange
      · obtain ⟨hresult, -⟩ := operands_of_ok position depth token rest hread
        rw [expression_of_literal position depth token rest hliteral, literal_cursor] at hresult
        rw [hresult, ih (position + 1) depth]
      · exact (operands_of_error position depth token rest hread).1
    · rw [if_neg hliteral]
      have hword : Token.isLiteral token = false := Bool.eq_false_iff.mpr hliteral
      split_ifs with hdepth
      · obtain ⟨hread, -⟩ := operation_of_limit_le position depth token rest hdepth
        rw [← expression_of_word position depth token rest hword] at hread
        exact (operands_of_error position depth token rest hread).1
      · rw [operands_of_word position depth token rest hword hdepth, ih (position + 1) (depth + 1)]

end Rows

end Parsing

section Parse
variable (token : String) (rest : List String)

theorem parse_nil : parse [] = .error ⟨0, .endOfInput⟩ := by
  rw [parse, Parsing.expression]
  simp [Cursor.peek, Cursor.start, Parsing.operation]

theorem parse_of_literal (h : Token.isLiteral token = true) :
    parse (token :: rest) =
      if Integer64.InRange (Token.decimal token) then .ok (.literal (Token.value token) 0)
      else .error ⟨0, .literalTooLarge token⟩ := by
  rw [parse, Cursor.start, Parsing.expression_of_literal 0 0 token rest h]
  exact Parsing.literal_result 0 token rest h

/-- Of a literal in front parsing takes the number and leaves the other tokens. -/
theorem parse_of_literal_eq_ok_iff {tokens : List String} {first : String} {expr : Expr}
    (hhead : tokens.head? = some first) (h : Token.isLiteral first = true) :
    parse tokens = .ok expr ↔
      ∃ value, expr = .literal value 0 ∧ value.toInt = Token.decimal first := by
  obtain ⟨rest, rfl⟩ := List.head?_eq_some_iff.mp hhead
  rw [parse_of_literal first rest h]
  constructor
  · intro hparse
    split_ifs at hparse with hrange
    cases hparse
    exact ⟨_, rfl, Token.toInt_value hrange⟩
  · intro hliteral
    obtain ⟨value, rfl, hvalue⟩ := hliteral
    have hrange : Integer64.InRange (Token.decimal first) := hvalue ▸ Integer64.inRange_toInt value
    rw [if_pos hrange, Int64.toInt_inj.mp ((Token.toInt_value hrange).trans hvalue.symm)]

/-- A word in front takes the flat reading of everything behind it. -/
theorem parse_of_word (h : Token.isLiteral token = false) :
    parse (token :: rest) =
      (Parsing.flatOperands 1 1 rest).map (.operation (Head.ofWord token) · 0) := by
  have hdepth : ¬Parsing.nestingLimit ≤ 0 := by decide
  obtain ⟨hresult, -⟩ := Parsing.operation_of_lt_limit 0 0 token rest hdepth
  rw [parse, Cursor.start, Parsing.expression_of_word 0 0 token rest h, hresult]
  rw [Parsing.operands_eq_flat 1 1 rest]

end Parse

end PrefixArithmetic
