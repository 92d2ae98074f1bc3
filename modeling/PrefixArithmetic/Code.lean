import PrefixArithmetic.Expr.Basic
import PrefixArithmetic.Fault

/-!
# Infix code

A literal is written in decimal. An operation is written as its operands with
the symbol of its operator between them, in brackets. Only an unknown operator
cannot be written; its operands are written first.
-/
namespace PrefixArithmetic

/-- What a head makes of the code of its operands. -/
def Head.join : Head → List String → Except CodeCause String
  | .known op, parts => .ok ("(" ++ (" " ++ op.symbol ++ " ").intercalate parts ++ ")")
  | .unknown name, _ => .error (.unknownOperator name)

namespace Expr

/-- The infix code of an expression, or the first fault on the way to it. -/
def code : Expr → Except (Fault CodeCause) String :=
  fold (fun value _ => .ok (Integer64.text value)) fun head results position =>
    (results.mapM id).bind fun parts => located position (head.join parts)

@[simp] theorem code_literal (value : Int64) (position : Nat) :
    (literal value position).code = .ok (Integer64.text value) := by simp [code]

@[simp] theorem code_operation (head : Head) (operands : List Expr) (position : Nat) :
    (operation head operands position).code =
      (operands.mapM code).bind fun parts => located position (head.join parts) := by
  rw [code, fold_operation, List.mapM_map]
  rfl

end Expr

end PrefixArithmetic
