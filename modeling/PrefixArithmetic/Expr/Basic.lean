import PrefixArithmetic.Operator

/-!
# Expressions

An expression is a literal, or an operation of a head on any number of operands.
Every node knows the index of the token it was read from. Whatever is computed
from an expression is a fold: a result for literals, and a result for an
operation from the results of its operands.
-/
namespace PrefixArithmetic

inductive Expr where
  | literal (value : Int64) (position : Nat)
  | operation (head : Head) (operands : List Expr) (position : Nat)

namespace Expr

/-- Induction on expressions, with the operands given as the members of a list. -/
@[induction_eliminator]
theorem induct {motive : Expr → Prop}
    (literal : ∀ value position, motive (.literal value position))
    (operation : ∀ head operands position, (∀ operand ∈ operands, motive operand) →
      motive (.operation head operands position)) (expr : Expr) : motive expr :=
  Expr.rec (motive_2 := fun operands => ∀ operand ∈ operands, motive operand)
    literal operation (fun _ h => absurd h List.not_mem_nil)
    (fun _ _ hhead htail _ h =>
      (List.mem_cons.mp h).elim (fun heq => heq ▸ hhead) (fun hmem => htail _ hmem)) expr

section Fold
variable {α : Type} (ofLiteral : Int64 → Nat → α) (ofOperation : Head → List α → Nat → α)

mutual
/-- The result of an expression, from the results of its operands. -/
def fold : Expr → α
  | .literal value position => ofLiteral value position
  | .operation head operands position => ofOperation head (foldAll operands) position

def foldAll : List Expr → List α
  | [] => []
  | expr :: rest => fold expr :: foldAll rest
end

theorem foldAll_eq_map (operands : List Expr) :
    foldAll ofLiteral ofOperation operands = operands.map (fold ofLiteral ofOperation) := by
  induction operands with
  | nil => simp [foldAll]
  | cons expr rest ih => simp [foldAll, ih]

@[simp] theorem fold_literal (value : Int64) (position : Nat) :
    fold ofLiteral ofOperation (.literal value position) = ofLiteral value position := by
  simp [fold]

@[simp] theorem fold_operation (head : Head) (operands : List Expr) (position : Nat) :
    fold ofLiteral ofOperation (.operation head operands position) =
      ofOperation head (operands.map (fold ofLiteral ofOperation)) position := by
  simp [fold, foldAll_eq_map]

end Fold

/-- The index of the token that a node was read from. -/
def position : Expr → Nat
  | .literal _ position => position
  | .operation _ _ position => position

def leafCount : Expr → Nat := fold (fun _ _ => 1) (fun _ counts _ => counts.foldr (· + ·) 0)

def operationCount : Expr → Nat := fold (fun _ _ => 0) (fun _ counts _ => counts.foldr (· + ·) 0 + 1)

/-- The height of an expression; a literal and an operation of no operands have height one. -/
def depth : Expr → Nat := fold (fun _ _ => 1) (fun _ depths _ => depths.foldr max 0 + 1)

section Measures
variable (value : Int64) (head : Head) (operands : List Expr) (position : Nat)

@[simp] theorem leafCount_literal : (literal value position).leafCount = 1 := by simp [leafCount]

@[simp] theorem leafCount_operation :
    (operation head operands position).leafCount = (operands.map leafCount).foldr (· + ·) 0 := by
  simp [leafCount]

@[simp] theorem operationCount_literal : (literal value position).operationCount = 0 := by
  simp [operationCount]

@[simp] theorem operationCount_operation :
    (operation head operands position).operationCount =
      (operands.map operationCount).foldr (· + ·) 0 + 1 := by
  simp [operationCount]

@[simp] theorem depth_literal : (literal value position).depth = 1 := by simp [depth]

@[simp] theorem depth_operation :
    (operation head operands position).depth = (operands.map depth).foldr max 0 + 1 := by
  simp [depth]

end Measures

end Expr

end PrefixArithmetic
