import PrefixArithmetic.Proofs.Code.Meaning

/-!
# What code tells

Code does not tell the positions of an expression, and it does not tell the
operator of an operation with fewer than two operands, because no symbol is
written there. It tells all the rest: expressions have the same code exactly if
they are equal when this much is erased.
-/
namespace PrefixArithmetic

/-- The head of an operation, erased where it has fewer than two operands. -/
def Head.written (head : Head) (operandCount : ℕ) : Head :=
  if operandCount < 2 then .known .sum else head

namespace Expr

/-- The expression with its positions erased. -/
def unplaced : Expr → Expr :=
  fold (fun value _ => .literal value 0) fun head operands _ => .operation head operands 0

/-- The expression with its positions and the operators that are not written erased. -/
def bare : Expr → Expr :=
  fold (fun value _ => .literal value 0) fun head operands _ =>
    .operation (head.written operands.length) operands 0

section Erasures
variable (value : Int64) (head : Head) (operands : List Expr) (position : ℕ)

@[simp] theorem unplaced_literal : (literal value position).unplaced = literal value 0 := by
  simp [unplaced]

@[simp] theorem unplaced_operation :
    (operation head operands position).unplaced = operation head (operands.map unplaced) 0 := by
  simp [unplaced]

@[simp] theorem bare_literal : (literal value position).bare = literal value 0 := by simp [bare]

@[simp] theorem bare_operation :
    (operation head operands position).bare =
      operation (head.written operands.length) (operands.map bare) 0 := by
  simp [bare]

end Erasures

/-- Every operation has two operands at least. -/
def Branching (expr : Expr) : Prop := expr.EveryOperation (2 ≤ ·.length)

/-- With two operands everywhere every operator is written. -/
theorem bare_eq_unplaced {expr : Expr} (h : expr.Branching) : expr.bare = expr.unplaced := by
  induction expr with
  | literal value position => rw [bare_literal, unplaced_literal]
  | operation head operands position ih =>
    obtain ⟨hlength, hoperands⟩ := everyOperation_operation_iff.mp h
    have hrow : operands.map bare = operands.map unplaced :=
      List.map_congr_left fun operand hmem => ih operand hmem (hoperands operand hmem)
    rw [bare_operation, unplaced_operation, hrow, Head.written, if_neg (by omega)]

end Expr

namespace Formula

mutual
/-- The expression that a formula is written for, as far as the formula tells it. -/
def expr : Formula → Expr
  | integer numeral => .literal (Int64.ofInt numeral.value) 0
  | empty => .operation (.known .sum) [] 0
  | alone inner => .operation (.known .sum) [expr inner] 0
  | joined op first second rest =>
    .operation (.known op) (expr first :: expr second :: exprs rest) 0

def exprs : List Formula → List Expr
  | [] => []
  | part :: rest => expr part :: exprs rest
end

theorem exprs_eq_map (parts : List Formula) : exprs parts = parts.map expr := by
  induction parts with
  | nil => rfl
  | cons part rest ih => rw [exprs, ih, List.map_cons]

end Formula

/-- The formula of an operation tells the operands and the written head. -/
theorem Head.expr_formula {head : Head} {parts : List Formula} {formula : Formula}
    (h : head.formula parts = .ok formula) :
    formula.expr = .operation (head.written parts.length) (parts.map Formula.expr) 0 := by
  cases head with
  | unknown name => cases h
  | known op =>
    match parts with
    | [] =>
      cases h
      rw [Formula.expr]
      rfl
    | [inner] =>
      cases h
      rw [Formula.expr]
      rfl
    | first :: second :: rest =>
      cases h
      rw [Formula.expr, Formula.exprs_eq_map]
      rfl

/-- An unwritten head makes no difference to the formula. -/
theorem Head.formula_written {head : Head} {parts : List Formula} {formula : Formula}
    (h : head.formula parts = .ok formula) :
    (head.written parts.length).formula parts = .ok formula := by
  cases head with
  | unknown name => cases h
  | known op =>
    match parts with
    | [] => exact h
    | [inner] => exact h
    | first :: second :: rest => exact h

namespace Expr

/-- A formula tells its expression but for what is erased. -/
theorem expr_formula {expr : Expr} {formula : Formula} (h : expr.formula = .ok formula) :
    formula.expr = expr.bare := by
  induction expr generalizing formula with
  | literal value position =>
    rw [Expr.formula, walk_literal] at h
    cases h
    rw [Formula.expr, Numeral.value_ofInt, Int64.ofInt_toInt, bare_literal]
  | operation head operands position ih =>
    obtain ⟨found, hfound, hhead⟩ := (walk_operation_eq_ok_iff _ _).mp h
    have hparts : found.map Formula.expr = operands.map bare := by
      have hrow := forall₂_imp_of_mem hfound fun operand hmem part hpart => ih operand hmem hpart
      rw [← List.forall₂_eq_eq_eq, List.forall₂_map_left_iff, List.forall₂_map_right_iff]
      exact hrow.flip
    rw [Head.expr_formula hhead, hparts, bare_operation, hfound.length_eq]

/-- What is erased makes no difference to the formula. -/
theorem formula_bare {expr : Expr} {formula : Formula} (h : expr.formula = .ok formula) :
    expr.bare.formula = .ok formula := by
  induction expr generalizing formula with
  | literal value position =>
    rw [Expr.formula, walk_literal] at h
    rw [bare_literal, Expr.formula, walk_literal, h]
  | operation head operands position ih =>
    obtain ⟨found, hfound, hhead⟩ := (walk_operation_eq_ok_iff _ _).mp h
    have hrow := forall₂_imp_of_mem hfound fun operand hmem part hpart => ih operand hmem hpart
    rw [bare_operation]
    refine (walk_operation_eq_ok_iff _ _).mpr ⟨found, ?_, ?_⟩
    · exact List.forall₂_map_left_iff.mpr hrow
    · rw [hfound.length_eq]
      exact Head.formula_written hhead

theorem formula_eq_iff_bare_eq {expr other : Expr} {formula formula' : Formula}
    (h : expr.formula = .ok formula) (h' : other.formula = .ok formula') :
    formula = formula' ↔ expr.bare = other.bare := by
  constructor
  · intro hformula
    rw [← expr_formula h, ← expr_formula h', hformula]
  · intro hbare
    have hformula := formula_bare h
    rw [hbare, formula_bare h'] at hformula
    exact (Except.ok.inj hformula).symm

end Expr

lemma Formula.code_injective : Function.Injective Formula.code := by
  intro formula other h
  exact Formula.text_injective (String.ofList_injective h)

/-- Expressions without unknown operators have the same code exactly if they are equal up to
positions and unwritten operators; where every operation has two operands, up to positions. -/
theorem code_eq_iff_bare_eq {expr other : Expr} (hknown : expr.unknowns = [])
    (hknown' : other.unknowns = []) :
    (expr.code = other.code ↔ expr.bare = other.bare) ∧
      (expr.Branching → other.Branching →
        (expr.code = other.code ↔ expr.unplaced = other.unplaced)) := by
  obtain ⟨formula, hformula⟩ := Expr.exists_formula_of_unknowns hknown
  obtain ⟨formula', hformula'⟩ := Expr.exists_formula_of_unknowns hknown'
  have hcode : expr.code = other.code ↔ expr.bare = other.bare := by
    rw [← Expr.formula_eq_iff_bare_eq hformula hformula', Expr.code_eq_formula,
      Expr.code_eq_formula, hformula, hformula']
    exact (Except.ok.injEq ..).to_iff.trans Formula.code_injective.eq_iff
  refine ⟨hcode, ?_⟩
  intro hbranching hbranching'
  rw [hcode, Expr.bare_eq_unplaced hbranching, Expr.bare_eq_unplaced hbranching']

/-- Differences of three terms, `(1 - (2 - -3))` and `(1 - 2 - -3)`, are told apart by code. -/
theorem code_eq_iff_bare_eq_differences :
    let nested := Expr.operation (.known .sub) [.literal 1 1,
      .operation (.known .sub) [.literal 2 3, .literal (-3) 4] 2] 0
    let flat := Expr.operation (.known .sub) [.literal 1 1, .literal 2 2, .literal (-3) 3] 0
    nested.unknowns = [] ∧ flat.unknowns = [] ∧ nested.Branching ∧ flat.Branching ∧
      nested.unplaced ≠ flat.unplaced ∧ nested.bare ≠ flat.bare ∧ nested.code ≠ flat.code := by
  intro nested flat
  have hnested : nested.Branching := by
    simp [nested, Expr.Branching, Expr.everyOperation_operation_iff]
  have hflat : flat.Branching := by
    simp [flat, Expr.Branching, Expr.everyOperation_operation_iff]
  obtain ⟨hbare, hunplaced⟩ := @code_eq_iff_bare_eq nested flat rfl rfl
  have hne : nested.unplaced ≠ flat.unplaced := by simp [nested, flat]
  have hcode : nested.code ≠ flat.code := fun h => hne ((hunplaced hnested hflat).mp h)
  exact ⟨rfl, rfl, hnested, hflat, hne, fun h => hcode (hbare.mpr h), hcode⟩

end PrefixArithmetic
