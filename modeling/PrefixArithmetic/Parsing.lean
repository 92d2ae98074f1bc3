import PrefixArithmetic.Cursor
import PrefixArithmetic.Expr.Basic
import PrefixArithmetic.Token

/-!
# Parsing

An expression is a literal, or an operation: a word and then expressions for as
long as tokens remain. So an operation is never closed, and what follows a word
belongs to it down to the last token. Each word stands inside the operations of
the words before it, and their number is bounded.
-/
namespace PrefixArithmetic.Parsing

/-- The most operations that may enclose one another. -/
def nestingLimit : Nat := 512

/-- Reads one token as an integer. -/
def literal (cursor : Cursor) : Outcome cursor Expr :=
  let next := cursor.consume
  ⟨next.result.bind fun (position, token) =>
    match Token.integer? token with
    | some value => .ok (.literal value position)
    | none => .error ⟨position, .literalTooLarge token⟩,
  next.cursor, next.advances⟩

mutual
/-- Reads one expression that stands inside `depth` operations. -/
def expression (cursor : Cursor) (depth : Nat) : Outcome cursor Expr :=
  if cursor.peek.any Token.isLiteral then literal cursor else operation cursor depth
termination_by (cursor.remaining, 1)

/-- Reads a word and all its operands. The word is read before the depth is looked at. -/
def operation : (cursor : Cursor) → (depth : Nat) → Outcome cursor Expr
  | ⟨position, []⟩, _ => ⟨.error ⟨position, .endOfInput⟩, ⟨position, []⟩, Nat.zero_le _⟩
  | ⟨position, word :: rest⟩, depth =>
    if nestingLimit ≤ depth then
      ⟨.error ⟨position, .nestingTooDeep nestingLimit⟩, ⟨position + 1, rest⟩, Nat.le_refl _⟩
    else
      let tail := operands ⟨position + 1, rest⟩ (depth + 1)
      ⟨tail.result.map fun found => .operation (Head.ofWord word) found position, tail.cursor,
        Nat.le_trans tail.advances (Nat.sub_le _ _)⟩
termination_by cursor => (cursor.remaining, 0)

/-- Reads expressions while tokens remain. The first that fails ends the reading. -/
def operands (cursor : Cursor) (depth : Nat) : Outcome cursor (List Expr) :=
  if h : cursor.rest = [] then ⟨.ok [], cursor, Cursor.remaining_le_of_rest_eq_nil h⟩
  else
    have : 0 < cursor.remaining := List.length_pos_iff.mpr h
    match expression cursor depth with
    | ⟨.error fault, next, advances⟩ => ⟨.error fault, next, advances⟩
    | ⟨.ok found, next, advances⟩ =>
      (operands next depth).map (found :: ·) |>.since cursor
        (Nat.le_trans advances (Nat.sub_le _ _))
termination_by (cursor.remaining, 2)
end

end PrefixArithmetic.Parsing

namespace PrefixArithmetic

/-- Reads one expression from the first token on. Tokens behind it are ignored; only a
literal leaves any. -/
def parse (tokens : List String) : Except (Fault ParseCause) Expr :=
  (Parsing.expression (.start tokens) 0).result

end PrefixArithmetic
