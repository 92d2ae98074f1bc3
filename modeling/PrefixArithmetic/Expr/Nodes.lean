import PrefixArithmetic.Expr.Basic

/-!
# Expressions as rows of nodes

The nodes of an expression in preorder, each operation with the number of its
operands, determine the expression. A row of nodes is read from its end: the
expressions read so far wait in order, and an operation takes as many of them as
it has operands.
-/
namespace PrefixArithmetic

inductive Node where
  | literal (value : Int64) (position : Nat)
  | operation (head : Head) (operandCount : Nat) (position : Nat)
  deriving DecidableEq

namespace Expr

/-- The nodes in preorder. -/
def nodes : Expr → List Node :=
  fold (fun value position => [.literal value position])
    (fun head rows position => .operation head rows.length position :: rows.flatten)

@[simp] theorem nodes_literal (value : Int64) (position : Nat) :
    (literal value position).nodes = [.literal value position] := by simp [nodes]

@[simp] theorem nodes_operation (head : Head) (operands : List Expr) (position : Nat) :
    (operation head operands position).nodes =
      .operation head operands.length position :: (operands.map nodes).flatten := by
  simp [nodes]

/-- One node in front of the expressions that wait for it. -/
def takeNode (node : Node) (waiting : List Expr) : Option (List Expr) :=
  match node with
  | .literal value position => some (.literal value position :: waiting)
  | .operation head count position =>
    if count ≤ waiting.length then
      some (.operation head (waiting.take count) position :: waiting.drop count)
    else none

/-- The expressions whose nodes stand in a row, one after the other. -/
def rowOfNodes? : List Node → Option (List Expr)
  | [] => some []
  | node :: row => (rowOfNodes? row).bind (takeNode node)

/-- The one expression with these nodes in preorder. -/
def ofNodes? (row : List Node) : Option Expr :=
  match rowOfNodes? row with
  | some [expr] => some expr
  | _ => none

theorem rowOfNodes?_nodes_append (expr : Expr) (row : List Node) (waiting : List Expr)
    (h : rowOfNodes? row = some waiting) :
    rowOfNodes? (expr.nodes ++ row) = some (expr :: waiting) := by
  induction expr generalizing row waiting with
  | literal value position => simp [rowOfNodes?, h, takeNode]
  | operation head operands position ih =>
    have hrow : ∀ rest ⊆ operands,
        rowOfNodes? ((rest.map nodes).flatten ++ row) = some (rest ++ waiting) := by
      intro rest
      induction rest with
      | nil => intro _; simpa using h
      | cons first rest hrest =>
        intro hsub
        have htail := hrest (List.subset_of_cons_subset hsub)
        simpa using ih first (hsub List.mem_cons_self) _ _ htail
    simp [rowOfNodes?, hrow operands (List.Subset.refl _), takeNode]

/-- Reading the nodes of an expression gives the expression. -/
@[simp] theorem ofNodes?_nodes (expr : Expr) : ofNodes? expr.nodes = some expr := by
  have h := rowOfNodes?_nodes_append expr [] [] rfl
  simp only [List.append_nil] at h
  simp [ofNodes?, h]

end Expr

end PrefixArithmetic
