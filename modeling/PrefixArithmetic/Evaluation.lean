import PrefixArithmetic.Expr.Basic
import PrefixArithmetic.Value.Fold

/-!
# Evaluation

The value of a literal is the literal. An operation takes the values of all its
operands, from left to right, before its head is looked at; so what fails inside
an operand is reported rather than what is wrong with the operation.
-/
namespace PrefixArithmetic

/-- What a head makes of the values of its operands. -/
def Head.apply : Head → List Value → Except EvalCause Value
  | .known op, values => op.fold values
  | .unknown name, _ => .error (.unknownOperator name)

namespace Expr

/-- The value of an expression, or the first fault on the way to it. -/
def evaluate : Expr → Except (Fault EvalCause) Value :=
  fold (fun value _ => .ok (.integer value)) fun head results position =>
    (results.mapM id).bind fun values => located position (head.apply values)

@[simp] theorem evaluate_literal (value : Int64) (position : Nat) :
    (literal value position).evaluate = .ok (.integer value) := by simp [evaluate]

@[simp] theorem evaluate_operation (head : Head) (operands : List Expr) (position : Nat) :
    (operation head operands position).evaluate =
      (operands.mapM evaluate).bind fun values => located position (head.apply values) := by
  rw [evaluate, fold_operation, List.mapM_map]
  rfl

end Expr

end PrefixArithmetic
