import PrefixArithmetic.Fault
import PrefixArithmetic.Value.Basic

/-!
# Folds of values

An operator takes its operands from the left, one step at a time. A step on
integers is exact or fails; a quotient that does not come out even is carried
out on reals, and so is every step with a real in it. A real step must stay
finite, and a product or quotient of nonzero reals must not vanish.
-/
namespace PrefixArithmetic

namespace Operator

/-- One step on reals. -/
def real : Operator → Binary64 → Binary64 → Binary64
  | sum => Binary64.add
  | sub => Binary64.sub
  | div => Binary64.div
  | mul => Binary64.mul

/-- A zero result of nonzero reals has lost its value; sums and differences are exact there. -/
def mayUnderflow : Operator → Bool
  | sum | sub => false
  | div | mul => true

/-- One step on reals, refused where the result says nothing about the operands. -/
def combineReal (op : Operator) (a b : Binary64) : Except EvalCause Value :=
  let result := op.real a b
  if !result.isFinite then .error (.overflow op)
  else if result.isZero && !a.isZero && !b.isZero && op.mayUnderflow then .error (.underflow op)
  else .ok (.real result)

end Operator

/-- The real equal to a value. -/
def Value.toReal : Value → Except EvalCause Binary64
  | integer value => promote value (.precisionLoss value)
  | real value => .ok value

namespace Operator

/-- One step on values as reals. The left value is promoted first. -/
def combinePromoted (op : Operator) (left right : Value) : Except EvalCause Value := do
  let a ← left.toReal
  let b ← right.toReal
  op.combineReal a b

/-- An exact result, if it is a 64-bit integer. -/
def checked (op : Operator) (exact : Int) : Except EvalCause Value :=
  match Integer64.ofInt? exact with
  | some value => .ok (.integer value)
  | none => .error (.overflow op)

theorem checked_eq_ok_iff {op : Operator} {exact : Int} {value : Value} :
    op.checked exact = .ok value ↔ ∃ word : Int64, value = .integer word ∧ word.toInt = exact := by
  unfold checked
  cases h : Integer64.ofInt? exact with
  | none =>
    constructor
    · intro hv
      cases hv
    · rintro ⟨word, -, hword⟩
      rw [Integer64.ofInt?_eq_some_iff.mpr hword] at h
      cases h
  | some word =>
    have hword := Integer64.ofInt?_eq_some_iff.mp h
    constructor
    · intro hv
      cases hv
      exact ⟨word, rfl, hword⟩
    · rintro ⟨other, rfl, hother⟩
      rw [Int64.toInt_inj.mp (hword.trans hother.symm)]

/-- One step on integers. -/
def combineInteger (op : Operator) (a b : Int64) : Except EvalCause Value :=
  match op with
  | sum => op.checked (a.toInt + b.toInt)
  | sub => op.checked (a.toInt - b.toInt)
  | mul => op.checked (a.toInt * b.toInt)
  | div =>
    if b.toInt ∣ a.toInt then op.checked (a.toInt / b.toInt)
    else op.combinePromoted (.integer a) (.integer b)

/-- One step of a fold. A zero divisor is refused before anything else is looked at. -/
def combine (op : Operator) (left right : Value) : Except EvalCause Value :=
  if op = div ∧ right.isZero then .error .divisionByZero
  else
    match left, right with
    | .integer a, .integer b => op.combineInteger a b
    | _, _ => op.combinePromoted left right

/-- Sums start at zero and products at one; differences and quotients start at their first
operand, and need one. -/
def fold (op : Operator) (values : List Value) : Except EvalCause Value :=
  match op, values with
  | sum, values => values.foldlM sum.combine (.integer 0)
  | mul, values => values.foldlM mul.combine (.integer 1)
  | op, first :: rest => rest.foldlM op.combine first
  | op, [] => .error (.missingOperand op)

@[simp] theorem fold_sum (values : List Value) :
    sum.fold values = values.foldlM sum.combine (.integer 0) := by
  cases values <;> rfl

@[simp] theorem fold_mul (values : List Value) :
    mul.fold values = values.foldlM mul.combine (.integer 1) := by
  cases values <;> rfl

end Operator

end PrefixArithmetic
