import PrefixArithmetic.Proofs.Code.Formula
import PrefixArithmetic.Proofs.Evaluation.Exact
import PrefixArithmetic.Proofs.Postorder

/-!
# The meaning of code

Code means what its formula means in rational arithmetic, each group worked out
from the left. An expression has the formula whose text is its code, and where
evaluation gives an integer that formula has the same value. The seeds of sums
and products are neutral, so a group does not need them.
-/
namespace PrefixArithmetic

namespace Formula

mutual
/-- The rational value of a formula, if nothing is divided by zero. -/
def value? : Formula → Option ℚ
  | integer numeral => some numeral.value
  | empty => none
  | alone inner => value? inner
  | joined op first second rest =>
    (value? first).bind fun a => (value? second).bind fun b => (values? rest).bind fun others =>
      (b :: others).foldlM op.rational? a

def values? : List Formula → Option (List ℚ)
  | [] => some []
  | part :: rest => (value? part).bind fun a => (values? rest).map (a :: ·)
end

/-- The code is derived in exactly one way without empty brackets, and has this value. -/
def Means (code : String) (value : ℚ) : Prop :=
  ∃ formula : Formula, (formula.Filled ∧ formula.text = code.toList) ∧
    (∀ other : Formula, other.Filled ∧ other.text = code.toList → other = formula) ∧
    formula.value? = some value

theorem values?_eq_mapM (parts : List Formula) : values? parts = parts.mapM value? := by
  induction parts with
  | nil => rfl
  | cons part rest ih =>
    rw [values?, ih, List.mapM_cons]
    cases value? part with
    | none => rfl
    | some a => cases rest.mapM value? <;> rfl

end Formula

/-- The formula of an operation: brackets around its operands, with the operator between them. -/
def Head.formula : Head → List Formula → Except CodeCause Formula
  | .known _, [] => .ok .empty
  | .known _, [inner] => .ok (.alone inner)
  | .known op, first :: second :: rest => .ok (.joined op first second rest)
  | .unknown name, _ => .error (.unknownOperator name)

namespace Expr

/-- The formula whose text is the code of an expression. -/
def formula : Expr → Except (Fault CodeCause) Formula :=
  walk (fun value => .integer (.ofInt value.toInt)) Head.formula

/-- Every operation has an operand. -/
inductive Supplied : Expr → Prop
  | literal (value : Int64) (position : ℕ) : Supplied (.literal value position)
  | operation {operands : List Expr} (head : Head) (position : ℕ) (nonempty : operands ≠ [])
      (supplied : ∀ operand ∈ operands, Supplied operand) :
      Supplied (.operation head operands position)

end Expr

namespace Formula

/-- The code of a formula as a string. -/
def code (formula : Formula) : String := String.ofList formula.text

lemma intercalate_eq_closing (op : Operator) (first : Formula) (rest : List Formula) :
    ((" " ++ op.symbol ++ " ").intercalate ((first :: rest).map code)).toList ++ [')'] =
      first.text ++ closing op rest := by
  induction rest generalizing first with
  | nil => simp [code, closing]
  | cons second rest ih =>
    rw [List.map_cons, List.map_cons, String.intercalate_cons_cons, ← List.map_cons]
    simp only [String.toList_append, List.append_assoc, ih]
    simp [code, closing, separator]

end Formula

/-- Joining the code of some formulas gives the code of their formula. -/
theorem Head.join_map_code (head : Head) (parts : List Formula) :
    head.join (parts.map Formula.code) = (head.formula parts).map Formula.code := by
  cases head with
  | unknown name => rfl
  | known op =>
    match parts with
    | [] => rfl
    | [inner] =>
      refine congrArg Except.ok (String.toList_inj.mp ?_)
      simp [Formula.code, Formula.text]
    | first :: second :: rest =>
      have hclosing := Formula.intercalate_eq_closing op first (second :: rest)
      refine congrArg Except.ok (String.toList_inj.mp ?_)
      rw [String.toList_append, String.toList_append, List.append_assoc]
      refine (congrArg (['('] ++ ·) hclosing).trans ?_
      simp [Formula.code, Formula.text, Formula.closing]

namespace Expr

/-- The code of an expression is the text of its formula. -/
theorem code_eq_formula (expr : Expr) : expr.code = expr.formula.map Formula.code := by
  have htext : Integer64.text = fun value : Int64 =>
      Formula.code (.integer (.ofInt value.toInt)) := by
    funext value
    simp [Formula.code, Formula.text, Integer64.text]
  rw [code_eq_walk, htext, formula]
  exact walk_map _ _ Formula.code Head.join_map_code expr

theorem refusesUnknown_formula : RefusesUnknown Head.formula .unknownOperator where
  unknown _ _ := rfl
  known op found name h := by
    match found with
    | [] => cases h
    | [_] => cases h
    | _ :: _ :: _ => cases h
  injective _ _ := CodeCause.unknownOperator.inj

/-- Without unknown operators every expression has a formula. -/
theorem exists_formula_of_unknowns {expr : Expr} (h : expr.unknowns = []) :
    ∃ formula, expr.formula = .ok formula :=
  (exists_walk_eq_ok_iff refusesUnknown_formula).mpr h

/-- Evaluation refuses an unknown operator as coding does, so a value comes with a formula. -/
theorem exists_formula {expr : Expr} {value : Value} (h : expr.evaluate = .ok value) :
    ∃ formula, expr.formula = .ok formula :=
  exists_formula_of_unknowns (unknowns_of_walk_eq_ok refusesUnknown_apply h)

end Expr

/-- Seeds are neutral: any fold may start at its first operand. -/
theorem Operator.rationalFold?_cons (op : Operator) (first : ℚ) (rest : List ℚ) :
    op.rationalFold? (first :: rest) = rest.foldlM op.rational? first := by
  cases op <;> simp [rationalFold?, rational?]

namespace Expr

/-- A row of formulas has the values of its expressions, and no empty brackets if they have none. -/
lemma values?_row {operands : List Expr} {found : List Formula}
    (h : List.Forall₂ (fun operand part => part.Filled ∧ part.value? = operand.rational?)
      operands found) :
    (∀ part ∈ found, part.Filled) ∧ Formula.values? found = operands.mapM rational? := by
  induction h with
  | nil => exact ⟨nofun, rfl⟩
  | cons hpart _ ih =>
    obtain ⟨hfilled, hvalue⟩ := hpart
    refine ⟨List.forall_mem_cons.mpr ⟨hfilled, ih.1⟩, ?_⟩
    rw [Formula.values?_eq_mapM, List.mapM_cons, List.mapM_cons, hvalue, ← ih.2,
      Formula.values?_eq_mapM]

/-- The formula of an expression has the value of the expression. -/
theorem value?_formula {expr : Expr} {formula : Formula} (hsupplied : expr.Supplied)
    (h : expr.formula = .ok formula) :
    formula.Filled ∧ formula.value? = expr.rational? := by
  induction expr generalizing formula with
  | literal value position =>
    rw [Expr.formula, walk_literal] at h
    cases h
    refine ⟨.integer _, ?_⟩
    rw [Formula.value?, Numeral.value_ofInt, rational?_literal]
  | operation head operands position ih =>
    obtain ⟨found, hfound, hhead⟩ := (walk_operation_eq_ok_iff _ _).mp h
    cases hsupplied with
    | operation _ _ hne hsupplied =>
    cases head with
    | unknown name => cases hhead
    | known op =>
      have hparts := forall₂_imp_of_mem hfound fun operand hmem part hpart =>
        ih operand hmem (hsupplied operand hmem) hpart
      obtain ⟨hfilled, hvalues⟩ := values?_row hparts
      rw [rational?_operation, ← hvalues]
      match found with
      | [] =>
        rw [List.forall₂_nil_right_iff] at hfound
        exact absurd hfound hne
      | [inner] =>
        cases hhead
        refine ⟨.alone (hfilled inner List.mem_cons_self), ?_⟩
        rw [Formula.value?, Formula.values?, Formula.values?]
        cases inner.value? with
        | none => rfl
        | some a => exact (op.rationalFold?_cons a []).symm
      | first :: second :: rest =>
        cases hhead
        obtain ⟨hfirst, hsecond, hrest⟩ := by simpa using hfilled
        refine ⟨.joined op hfirst hsecond hrest, ?_⟩
        rw [Formula.value?, Formula.values?, Formula.values?]
        cases first.value? with
        | none => rfl
        | some a =>
          cases second.value? with
          | none => rfl
          | some b =>
            cases Formula.values? rest with
            | none => rfl
            | some others => exact (op.rationalFold?_cons a (b :: others)).symm

end Expr

/-- Where evaluation gives an integer, the code means this integer. -/
theorem code_means_of_evaluate (expr : Expr) (word : Int64) (hsupplied : expr.Supplied)
    (hvalue : expr.evaluate = .ok (.integer word)) :
    ∃ code, expr.code = .ok code ∧ Formula.Means code word.toInt := by
  obtain ⟨formula, hformula⟩ := Expr.exists_formula hvalue
  obtain ⟨hfilled, hmeaning⟩ := Expr.value?_formula hsupplied hformula
  have hexact : expr.HasValue word.toInt := (Expr.hasValue_iff expr _).mpr ⟨word, rfl, hvalue⟩
  have htext : formula.text = formula.code.toList := by simp [Formula.code]
  refine ⟨formula.code, ?_, formula, ⟨hfilled, htext⟩, ?_, ?_⟩
  · rw [Expr.code_eq_formula, hformula]
    rfl
  · intro other hother
    exact Formula.text_injective (hother.2.trans htext.symm)
  · rw [hmeaning, Expr.rational?_of_hasValue hexact]

/-- A quotient by a sum with a negative term: `(-6 / (-1 + 4))`. -/
theorem code_means_of_evaluate_quotient :
    ∃ code, (Expr.operation (.known .div)
      [.literal (-6) 1, .operation (.known .sum) [.literal (-1) 3, .literal 4 4] 2] 0).code
        = .ok code ∧ Formula.Means code (-2 : Int64).toInt := by
  refine code_means_of_evaluate _ (-2) (.operation _ _ (by simp) ?_) (by rfl)
  simp only [List.forall_mem_cons]
  refine ⟨.literal _ _, .operation _ _ (by simp) ?_, nofun⟩
  simp only [List.forall_mem_cons]
  exact ⟨.literal _ _, .literal _ _, nofun⟩

end PrefixArithmetic
