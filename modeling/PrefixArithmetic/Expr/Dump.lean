import PrefixArithmetic.Expr.Basic
import PrefixArithmetic.Integer64
import PrefixArithmetic.Text.Quoted

/-!
# Dumps of expressions

A dump shows every field of every node by name, in one line.
-/
namespace PrefixArithmetic

/-- The name of an operator in dumps. -/
def Operator.dump : Operator → String
  | sum => "Sum"
  | sub => "Sub"
  | div => "Div"
  | mul => "Mul"

def Head.dump : Head → String
  | known op => "Known(" ++ op.dump ++ ")"
  | unknown name => "Unknown(" ++ Text.quoted name ++ ")"

/-- A node's name and its fields in braces. -/
def dumpNode (name : String) (fields : List (String × String)) : String :=
  name ++ " \x7b " ++ ", ".intercalate (fields.map fun field => field.1 ++ ": " ++ field.2) ++ " \x7d"

def Expr.dump : Expr → String :=
  fold
    (fun value position =>
      dumpNode "Number" [("value", Integer64.text value), ("position", position.repr)])
    (fun head operands position =>
      dumpNode "Operation"
        [("operator", head.dump), ("operands", Text.listed operands), ("position", position.repr)])

namespace Expr

@[simp] theorem dump_literal (value : Int64) (position : Nat) :
    (literal value position).dump =
      dumpNode "Number" [("value", Integer64.text value), ("position", position.repr)] := by
  simp [dump]

@[simp] theorem dump_operation (head : Head) (operands : List Expr) (position : Nat) :
    (operation head operands position).dump =
      dumpNode "Operation" [("operator", head.dump), ("operands", Text.listed (operands.map dump)),
        ("position", position.repr)] := by
  rw [dump, fold_operation]

end Expr

end PrefixArithmetic
