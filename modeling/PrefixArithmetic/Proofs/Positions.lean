import PrefixArithmetic.Proofs.Walk

/-!
# Positions

An expression knows where its nodes were read, and this is for its faults alone.
When the nodes are said to stand somewhere else, whatever is computed from them
stays as it was, and a fault is reported where its node now stands.
-/
namespace PrefixArithmetic.Expr

/-- The expression with its nodes moved to other positions. -/
def mapPosition (f : ℕ → ℕ) : Expr → Expr :=
  fold (fun value position => .literal value (f position)) fun head operands position =>
    .operation head operands (f position)

section Moved
variable (f : ℕ → ℕ)

@[simp] theorem mapPosition_literal (value : Int64) (position : ℕ) :
    (literal value position).mapPosition f = literal value (f position) := by simp [mapPosition]

@[simp] theorem mapPosition_operation (head : Head) (operands : List Expr) (position : ℕ) :
    (operation head operands position).mapPosition f =
      operation head (operands.map (mapPosition f)) (f position) := by
  simp [mapPosition]

/-- A fold of the moved nodes is a fold of the nodes that looks up where they are now. -/
theorem fold_mapPosition {α : Type} (ofLiteral : Int64 → ℕ → α)
    (ofOperation : Head → List α → ℕ → α) (expr : Expr) :
    fold ofLiteral ofOperation (expr.mapPosition f) =
      fold (fun value position => ofLiteral value (f position))
        (fun head results position => ofOperation head results (f position)) expr := by
  induction expr with
  | literal value position => simp
  | operation head operands position ih =>
    have hoperands := List.map_congr_left ih
    simp only [mapPosition_operation, fold_operation, List.map_map, Function.comp_def, hoperands]

section Measures
variable (expr : Expr)

theorem leafCount_mapPosition : (expr.mapPosition f).leafCount = expr.leafCount :=
  fold_mapPosition f _ _ expr

theorem operationCount_mapPosition : (expr.mapPosition f).operationCount = expr.operationCount :=
  fold_mapPosition f _ _ expr

theorem depth_mapPosition : (expr.mapPosition f).depth = expr.depth :=
  fold_mapPosition f _ _ expr

end Measures

/-- A walk comes to the same result, or to the same cause at the position that its node has now. -/
theorem walk_mapPosition {Cause α : Type} (ofLiteral : Int64 → α)
    (ofHead : Head → List α → Except Cause α) (expr : Expr) :
    walk ofLiteral ofHead (expr.mapPosition f) =
      (walk ofLiteral ofHead expr).mapError (Fault.mapPosition f) := by
  induction expr with
  | literal value position =>
    rw [mapPosition_literal, walk_literal, walk_literal]
    rfl
  | operation head operands position ih =>
    have hoperands : operands.mapM (walk ofLiteral ofHead ∘ mapPosition f) =
        (operands.mapM (walk ofLiteral ofHead)).mapError (Fault.mapPosition f) :=
      mapM_mapError ih
    rw [mapPosition_operation, walk_operation, walk_operation, List.mapM_map, hoperands]
    cases operands.mapM (walk ofLiteral ofHead) with
    | error fault => rfl
    | ok found => exact located_mapPosition f position (ofHead head found)

/-- Positions only say where a fault is: with the nodes at other positions the value, the code and
the measures are the same, and so are the faults but for their positions, which move along. -/
theorem positions_only_locate (expr : Expr) :
    (expr.mapPosition f).evaluate = expr.evaluate.mapError (Fault.mapPosition f) ∧
      (expr.mapPosition f).code = expr.code.mapError (Fault.mapPosition f) ∧
      (expr.mapPosition f).leafCount = expr.leafCount ∧
      (expr.mapPosition f).operationCount = expr.operationCount ∧
      (expr.mapPosition f).depth = expr.depth := by
  have hvalue := walk_mapPosition f .integer Head.apply expr
  have hcode := walk_mapPosition f Integer64.text Head.join expr
  rw [← evaluate_eq_walk] at hvalue
  rw [← code_eq_walk] at hcode
  exact ⟨hvalue, hcode, leafCount_mapPosition f expr, operationCount_mapPosition f expr,
    depth_mapPosition f expr⟩

end Moved

end PrefixArithmetic.Expr
