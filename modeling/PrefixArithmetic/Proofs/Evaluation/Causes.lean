import PrefixArithmetic.Proofs.Evaluation.OneStep

/-!
# What a fold can report

An operator reports its own name or what went wrong with its operands, and each
cause can come from some operators only: a zero divisor from quotients, a result
that vanishes from products and quotients, and an operand that is missing from
differences and quotients, which start at their first.
-/
namespace PrefixArithmetic.Operator

/-- The causes that one step of an operator can report. -/
inductive StepCause (op : Operator) : EvalCause → Prop
  | divisionByZero (isDiv : op = div) : StepCause op .divisionByZero
  | overflow : StepCause op (.overflow op)
  | underflow (vanishes : op.mayUnderflow = true) : StepCause op (.underflow op)
  | precisionLoss {value : Int64} (large : Binary64.digitBound ≤ value.toInt.natAbs) :
      StepCause op (.precisionLoss value)

section Steps
variable {op : Operator} {cause : EvalCause}

theorem stepCause_of_combineReal {a b : Binary64} (h : op.combineReal a b = .error cause) :
    op.StepCause cause := by
  unfold combineReal at h
  dsimp only at h
  split_ifs at h with hfinite hzero
  · cases h
    exact .overflow
  · cases h
    simp only [Bool.and_eq_true] at hzero
    exact .underflow hzero.2

/-- A value has no equal real only if it is an integer of more than 53 binary digits. -/
theorem stepCause_of_toReal {value : Value} (h : value.toReal = .error cause) :
    op.StepCause cause := by
  cases value with
  | real value => cases h
  | integer word =>
    rcases Nat.lt_or_ge word.toInt.natAbs Binary64.digitBound with hword | hword
    · rw [Value.toReal_integer word hword] at h
      cases h
    · rw [Value.toReal_integer_of_le hword] at h
      cases h
      exact .precisionLoss hword

theorem stepCause_of_combinePromoted {left right : Value}
    (h : op.combinePromoted left right = .error cause) : op.StepCause cause := by
  rcases bind_eq_error_iff.mp h with hleft | ⟨a, -, h⟩
  · exact stepCause_of_toReal hleft
  · rcases bind_eq_error_iff.mp h with hright | ⟨b, -, h⟩
    · exact stepCause_of_toReal hright
    · exact stepCause_of_combineReal h

theorem stepCause_of_checked {exact : ℤ} (h : op.checked exact = .error cause) :
    op.StepCause cause := by
  unfold checked at h
  split at h
  next => cases h
  next =>
    cases h
    exact .overflow

theorem stepCause_of_combineInteger {a b : Int64} (h : op.combineInteger a b = .error cause) :
    op.StepCause cause := by
  cases op with
  | sum | sub | mul => exact stepCause_of_checked h
  | div =>
    rw [combineInteger] at h
    split_ifs at h
    · exact stepCause_of_checked h
    · exact stepCause_of_combinePromoted h

theorem stepCause_of_combine {left right : Value} (h : op.combine left right = .error cause) :
    op.StepCause cause := by
  rcases combine_cases op left right with
    ⟨hop, -, hstep⟩ | ⟨-, ⟨a, b, -, -, hstep⟩ | ⟨-, hstep⟩⟩ <;> rw [hstep] at h
  · cases h
    exact .divisionByZero hop
  · exact stepCause_of_combineInteger h
  · exact stepCause_of_combinePromoted h

/-- A loop of steps reports what one of them reports. -/
theorem stepCause_of_foldlM {values : List Value} {start : Value}
    (h : values.foldlM op.combine start = .error cause) : op.StepCause cause := by
  induction values generalizing start with
  | nil => cases h
  | cons value values ih =>
    rw [List.foldlM_cons] at h
    rcases bind_eq_error_iff.mp h with hstep | ⟨next, -, hrest⟩
    · exact stepCause_of_combine hstep
    · exact ih hrest

end Steps

/-- Differences and quotients have no seed. -/
def Unseeded (op : Operator) : Prop := op = sub ∨ op = div

/-- Only without operands does a fold report that one is missing. -/
theorem fold_nil_of_unseeded {op : Operator} (h : op.Unseeded) :
    op.fold [] = .error (.missingOperand op) := by
  rcases h with rfl | rfl <;> rfl

theorem cause_of_fold {op : Operator} {values : List Value} {cause : EvalCause}
    (h : op.fold values = .error cause) :
    (cause = .missingOperand op ∧ op.Unseeded ∧ values = []) ∨ op.StepCause cause := by
  cases op with
  | sum => exact .inr (stepCause_of_foldlM (fold_sum values ▸ h))
  | mul => exact .inr (stepCause_of_foldlM (fold_mul values ▸ h))
  | sub =>
    cases values with
    | nil =>
      cases h
      exact .inl ⟨rfl, .inl rfl, rfl⟩
    | cons first rest => exact .inr (stepCause_of_foldlM h)
  | div =>
    cases values with
    | nil =>
      cases h
      exact .inl ⟨rfl, .inr rfl, rfl⟩
    | cons first rest => exact .inr (stepCause_of_foldlM h)

/-- A fold knows nothing of words. -/
theorem fold_ne_unknownOperator (op : Operator) (values : List Value) (name : String) :
    op.fold values ≠ .error (.unknownOperator name) := by
  intro h
  rcases cause_of_fold h with ⟨hcause, -⟩ | hcause
  · cases hcause
  · cases hcause

end PrefixArithmetic.Operator
