import PrefixArithmetic.Proofs.Evaluation.Accumulators
import PrefixArithmetic.Proofs.Evaluation.Exact
import PrefixArithmetic.Proofs.FirstFault

/-!
# Where reals come from

Literals are integers, and steps on integers give integers or leave their range. Only
a quotient that does not come out even goes over to reals. So every real that an
expression evaluates to, and every fault that only reals have, goes back to such a
quotient somewhere in the expression. There is no way back: from a real on a fold
gives reals.
-/
namespace PrefixArithmetic

/-- What no arithmetic on integers gives: a real, or a fault of reals. -/
inductive OfReals : Except EvalCause Value → Prop
  | real (number : Binary64) : OfReals (.ok (.real number))
  | precisionLoss (value : Int64) : OfReals (.error (.precisionLoss value))
  | underflow (op : Operator) : OfReals (.error (.underflow op))

namespace Operator

/-- The fold of the quotients of these operands comes to an integer that its divisor, which is an
integer too, does not divide. -/
def DividesUnevenly (values : List Value) : Prop :=
  ∃ front back, ∃ a b : Int64, values = front ++ .integer b :: back ∧
    div.Accumulates front (.integer a) ∧ b ≠ 0 ∧ ¬b.toInt ∣ a.toInt

section Integers
variable {op : Operator} {words : List Int64} {front : List Value} {held a b : Int64}

lemma not_ofReals_checked (op : Operator) (exact : ℤ) : ¬OfReals (op.checked exact) := by
  unfold checked
  cases Integer64.ofInt? exact <;> nofun

/-- Integers go over to reals in a quotient that does not come out even. -/
theorem uneven_of_combine (h : OfReals (op.combine (.integer a) (.integer b))) :
    op = div ∧ b ≠ 0 ∧ ¬b.toInt ∣ a.toInt := by
  rcases combine_integers op a b with ⟨-, -, hstep⟩ | ⟨hzero, hstep⟩
  · rw [hstep] at h
    cases h
  · rw [hstep] at h
    cases op with
    | sum | sub | mul => exact absurd h (not_ofReals_checked _ _)
    | div =>
      rw [combineInteger] at h
      split_ifs at h with hdvd
      · exact absurd h (not_ofReals_checked _ _)
      · exact ⟨rfl, hzero rfl, hdvd⟩

/-- A fold that holds an integer in front of integers gives integers until a quotient does not come
out even. The induction is on the integers to come: each step moves one of them to the front. -/
theorem uneven_of_foldlM (hheld : op.Accumulates front (.integer held))
    (h : OfReals ((integers words).foldlM op.combine (.integer held))) :
    op = div ∧ DividesUnevenly (front ++ integers words) := by
  induction words generalizing front held with
  | nil => cases h
  | cons word words ih =>
    have hfold : (integers (word :: words)).foldlM op.combine (.integer held) =
        (op.combine (.integer held) (.integer word)).bind
          ((integers words).foldlM op.combine) := List.foldlM_cons
    by_cases hstep : OfReals (op.combine (.integer held) (.integer word))
    · obtain ⟨rfl, hword, hdvd⟩ := uneven_of_combine hstep
      exact ⟨rfl, front, integers words, held, word, rfl, hheld, hword, hdvd⟩
    · rw [hfold] at h
      cases hcombine : op.combine (.integer held) (.integer word) with
      | error cause =>
        rw [hcombine] at h hstep
        exact absurd h hstep
      | ok next =>
        rw [hcombine] at h hstep
        cases next with
        | real number => exact absurd (.real number) hstep
        | integer next =>
          have hnext : op.Accumulates (front ++ [.integer word]) (.integer next) :=
            hheld.step hcombine
          have hrest := ih hnext h
          rwa [List.append_assoc] at hrest

theorem uneven_of_fold (h : OfReals (op.fold (integers words))) :
    op = div ∧ DividesUnevenly (integers words) := by
  have hseeded : ∀ {seed : Int64}, op.seed? = some (.integer seed) →
      OfReals ((integers words).foldlM op.combine (.integer seed)) →
        op = div ∧ DividesUnevenly (integers words) :=
    fun hseed hfold => uneven_of_foldlM (.seed hseed) hfold
  cases op with
  | sum => exact hseeded rfl (fold_sum _ ▸ h)
  | mul => exact hseeded rfl (fold_mul _ ▸ h)
  | sub | div =>
    cases words with
    | nil => cases h
    | cons first rest => exact uneven_of_foldlM (.first (.integer first) rfl) h

end Integers

lemma exists_integers_or_real (values : List Value) :
    (∃ words, values = integers words) ∨ ∃ number, .real number ∈ values := by
  induction values with
  | nil => exact .inl ⟨[], rfl⟩
  | cons value rest ih =>
    cases value with
    | real number => exact .inr ⟨number, List.mem_cons_self⟩
    | integer word =>
      rcases ih with ⟨words, rfl⟩ | ⟨number, hmem⟩
      · exact .inl ⟨word :: words, rfl⟩
      · exact .inr ⟨number, List.mem_cons_of_mem _ hmem⟩

/-- A fold that has held a real, or has folded one in, gives no integer. -/
theorem exists_real_of_fold {op : Operator} {front back : List Value} {number : Binary64}
    {result : Value} (hreal : op.Accumulates front (.real number) ∨ .real number ∈ front)
    (h : op.fold (front ++ back) = .ok result) : ∃ other, result = .real other := by
  cases result with
  | real other => exact ⟨other, rfl⟩
  | integer word =>
    rcases hreal with hheld | hmem
    · rw [fold_append_of_fold (accumulates_iff.mp hheld)] at h
      obtain ⟨_, _, hinteger, -⟩ := foldlM_eq_integer_iff.mp h
      cases hinteger
    · obtain ⟨words, hwords, -⟩ := fold_eq_integer_iff.mp h
      have hinteger : Value.real number ∈ integers words :=
        hwords ▸ List.mem_append_left back hmem
      obtain ⟨_, -, heq⟩ := List.mem_map.mp hinteger
      cases heq

end Operator

namespace Expr

/-- What an expression evaluates to, wherever its fault is. -/
def bareResult (expr : Expr) : Except EvalCause Value := expr.evaluate.mapError Fault.cause

/-- The result of an operation is that of an operand, or what its head makes of the values of all
of them. -/
theorem bareResult_operation (head : Head) (operands : List Expr) (position : ℕ) :
    (∃ operand ∈ operands,
        (operation head operands position).bareResult = operand.bareResult) ∨
      ∃ values, List.Forall₂ (fun operand value => operand.evaluate = .ok value) operands values ∧
        (operation head operands position).bareResult = head.apply values := by
  unfold bareResult
  cases hresult : (operation head operands position).evaluate with
  | ok value =>
    obtain ⟨values, hvalues, hhead⟩ := (walk_operation_eq_ok_iff _ _).mp hresult
    exact .inr ⟨values, hvalues, hhead.symm⟩
  | error fault =>
    rcases (walk_operation_eq_error_iff _ _).mp hresult with
      ⟨before, operand, after, rfl, -, hoperand⟩ | ⟨values, hvalues, hhead, -⟩
    · have hfault : operand.evaluate = .error fault := hoperand
      exact .inl ⟨operand, by simp, by rw [hfault]⟩
    · exact .inr ⟨values, hvalues, hhead.symm⟩

/-- Reals, and faults of reals, go back to a quotient of integers that does not come out even. -/
theorem exists_uneven_quotient {expr : Expr} (h : OfReals expr.bareResult) :
    ∃ operands position values, operation (.known .div) operands position ∈ expr.postorder ∧
      List.Forall₂ (fun operand value => operand.evaluate = .ok value) operands values ∧
        Operator.DividesUnevenly values := by
  induction expr with
  | literal value position =>
    rw [bareResult, evaluate_literal] at h
    cases h
  | operation head operands position ih =>
    have hinner : ∀ operand ∈ operands, OfReals operand.bareResult →
        ∃ inner position' values,
          operation (.known .div) inner position' ∈ (operation head operands position).postorder ∧
            List.Forall₂ (fun operand value => operand.evaluate = .ok value) inner values ∧
              Operator.DividesUnevenly values := by
      intro operand hmem hreal
      obtain ⟨inner, position', values, hsubtree, hvalues, huneven⟩ := ih operand hmem hreal
      exact ⟨inner, position', values,
        mem_postorder_operation.mpr (.inl ⟨operand, hmem, hsubtree⟩), hvalues, huneven⟩
    rcases bareResult_operation head operands position with
      ⟨operand, hmem, hresult⟩ | ⟨values, hvalues, hresult⟩
    · exact hinner operand hmem (hresult ▸ h)
    · rw [hresult] at h
      rcases Operator.exists_integers_or_real values with ⟨words, rfl⟩ | ⟨number, hnumber⟩
      · cases head with
        | unknown name => cases h
        | known op =>
          obtain ⟨rfl, huneven⟩ := Operator.uneven_of_fold h
          exact ⟨operands, position, _, mem_postorder_self _, hvalues, huneven⟩
      · obtain ⟨operand, hmem, hvalue⟩ := exists_mem_of_forall₂ hvalues.flip hnumber
        have hoperand : operand.evaluate = .ok (.real number) := hvalue
        refine hinner operand hmem ?_
        rw [bareResult, hoperand]
        exact .real number

/-- Only quotients are refused for a divisor of zero. -/
theorem exists_quotient_of_divisionByZero {expr : Expr} {position : ℕ}
    (h : expr.evaluate = .error ⟨position, .divisionByZero⟩) :
    ∃ operands, operation (.known .div) operands position ∈ expr.postorder := by
  have hwalk : walk .integer Head.apply expr = .error ⟨position, .divisionByZero⟩ := h
  obtain ⟨head, operands, ⟨values, -, hhead⟩, before, after, hsplit, -⟩ :=
    exists_refusesFirst hwalk
  cases head with
  | unknown name => cases hhead
  | known op =>
    rcases Operator.cause_of_fold hhead with ⟨hcause, -⟩ | hcause
    · cases hcause
    · cases hcause with
      | divisionByZero isDiv =>
        rw [isDiv] at hsplit
        exact ⟨operands, hsplit ▸ by simp⟩

/-- A real, a loss of precision and an underflow go back to a quotient of two integers that does not
come out even. Without quotients there are integers and faults of integers only, and from a real on a
fold gives a real if it gives anything. -/
theorem reals_from_uneven_quotients (expr : Expr) :
    ((∃ number, expr.evaluate = .ok (.real number)) ∨
      (∃ position value, expr.evaluate = .error ⟨position, .precisionLoss value⟩) ∨
      (∃ position op, expr.evaluate = .error ⟨position, .underflow op⟩) →
        ∃ operands position values, operation (.known .div) operands position ∈ expr.postorder ∧
          List.Forall₂ (fun operand value => operand.evaluate = .ok value) operands values ∧
            Operator.DividesUnevenly values) ∧
    ((∀ operands position, operation (.known .div) operands position ∉ expr.postorder) →
      (∃ word, expr.evaluate = .ok (.integer word)) ∨
        ∃ position cause, expr.evaluate = .error ⟨position, cause⟩ ∧
          ((∃ op, cause = .overflow op) ∨ (∃ op, cause = .missingOperand op) ∨
            ∃ name, cause = .unknownOperator name)) ∧
    ∀ (op : Operator) (front back : List Value) (number : Binary64) (result : Value),
      op.Accumulates front (.real number) ∨ .real number ∈ front →
        op.fold (front ++ back) = .ok result → ∃ other, result = .real other := by
  refine ⟨?_, ?_, fun _ _ _ _ _ => Operator.exists_real_of_fold⟩
  · intro h
    refine exists_uneven_quotient ?_
    rcases h with ⟨number, h⟩ | ⟨position, value, h⟩ | ⟨position, op, h⟩ <;> rw [bareResult, h]
    · exact .real number
    · exact .precisionLoss value
    · exact .underflow op
  · intro hnone
    have hintegers : ¬OfReals expr.bareResult := by
      intro hreal
      obtain ⟨operands, position, -, hmem, -⟩ := exists_uneven_quotient hreal
      exact hnone operands position hmem
    rw [bareResult] at hintegers
    cases hresult : expr.evaluate with
    | ok value =>
      rw [hresult] at hintegers
      cases value with
      | integer word => exact .inl ⟨word, rfl⟩
      | real number => exact absurd (.real number) hintegers
    | error fault =>
      rw [hresult] at hintegers
      obtain ⟨position, cause⟩ := fault
      refine .inr ⟨position, cause, rfl, ?_⟩
      cases cause with
      | overflow op => exact .inl ⟨op, rfl⟩
      | missingOperand op => exact .inr (.inl ⟨op, rfl⟩)
      | unknownOperator name => exact .inr (.inr ⟨name, rfl⟩)
      | precisionLoss value => exact absurd (.precisionLoss value) hintegers
      | underflow op => exact absurd (.underflow op) hintegers
      | divisionByZero =>
        obtain ⟨operands, hmem⟩ := exists_quotient_of_divisionByZero hresult
        exact absurd hmem (hnone operands position)

/-- Seven halves, doubled: a real that is whole, from a quotient that did not come out even. -/
theorem reals_from_uneven_quotients_doubled :
    let quotient := operation (.known .div) [.literal 7 2, .literal 2 3] 1
    let double := operation (.known .mul) [.literal 2 4, quotient] 0
    let product := operation (.known .mul) [.literal 2 1, .literal 3 2] 0
    let seven := Value.real (.ofInt 7 (by decide))
    (double.evaluate = .ok seven ∧
      ∃ operands position values, operation (.known .div) operands position ∈ double.postorder ∧
        List.Forall₂ (fun operand value => operand.evaluate = .ok value) operands values ∧
          Operator.DividesUnevenly values) ∧
    (∃ word, product.evaluate = .ok (.integer word)) ∧
    ∃ result, Operator.sub.fold [seven, .integer 7] = .ok result ∧
      ∃ number, result = .real number := by
  have hhalves : Operator.div.fold [.integer 7, .integer 2] =
      .ok (.real (.div (.ofInt 7 (by decide)) (.ofInt 2 (by decide)))) := by decide +kernel
  have hdoubled : Operator.mul.fold
      [.integer 2, .real (.div (.ofInt 7 (by decide)) (.ofInt 2 (by decide)))] =
        .ok (.real (.ofInt 7 (by decide))) := by decide +kernel
  have hdifference : Operator.sub.fold [.real (.ofInt 7 (by decide)), .integer 7] =
      .ok (.real (.finite false .zero)) := by decide +kernel
  intro quotient double product seven
  have hquotient : quotient.evaluate = _ :=
    (walk_operation_eq_ok_iff _ _).mpr ⟨_, .cons rfl (.cons rfl .nil), hhalves⟩
  have hdouble : double.evaluate = .ok seven :=
    (walk_operation_eq_ok_iff _ _).mpr ⟨_, .cons rfl (.cons hquotient .nil), hdoubled⟩
  obtain ⟨horigin, -, hkept⟩ := reals_from_uneven_quotients double
  obtain ⟨-, hintegers, -⟩ := reals_from_uneven_quotients product
  have hnone : ∀ operands position,
      operation (.known .div) operands position ∉ product.postorder := by
    intro operands position hmem
    simp [product] at hmem
  have hproduct : product.evaluate = .ok (.integer 6) := rfl
  refine ⟨⟨hdouble, horigin (.inl ⟨_, hdouble⟩)⟩, ?_, _, hdifference, ?_⟩
  · refine (hintegers hnone).resolve_right ?_
    rintro ⟨position, cause, hfault, -⟩
    rw [hproduct] at hfault
    cases hfault
  · exact hkept .sub [seven] [.integer 7] _ _ (.inr List.mem_cons_self) hdifference

end Expr

end PrefixArithmetic
