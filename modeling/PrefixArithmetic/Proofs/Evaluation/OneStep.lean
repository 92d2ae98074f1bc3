import PrefixArithmetic.Proofs.Walk

/-!
# Single steps

A step of a fold refuses a divisor of zero, is a step on integers, or promotes its
left value and then its right one to reals. Integers of at most 53 binary digits are
promoted to themselves, and all others are refused. A real result that is finite
stands, if it is not a zero that comes from nonzero values.
-/
namespace PrefixArithmetic

theorem Integer64.toInt_eq_zero_iff {word : Int64} : word.toInt = 0 ↔ word = 0 := by
  rw [← Int64.toInt_inj, Int64.toInt_zero]

/-- An integer of at most 53 binary digits is promoted to itself. -/
theorem Value.toReal_integer (word : Int64) (h : word.toInt.natAbs < Binary64.digitBound) :
    (Value.integer word).toReal = .ok (.ofInt word.toInt h) := by
  rw [toReal, promote, promote?, dif_pos h]

/-- An integer of more binary digits is not promoted. -/
theorem Value.toReal_integer_of_le {word : Int64} (h : Binary64.digitBound ≤ word.toInt.natAbs) :
    (Value.integer word).toReal = .error (.precisionLoss word) := by
  rw [toReal, promote, promote?_eq_none_iff.mpr h]

namespace Operator

section Reals
variable {op : Operator} {left right value : Value} {a b number : Binary64}

theorem eq_of_combineReal (h : op.combineReal a b = .ok value) : value = .real (op.real a b) := by
  unfold combineReal at h
  dsimp only at h
  split_ifs at h
  cases h
  rfl

/-- A finite result stands, if it is not a zero that hides nonzero operands. -/
theorem combineReal_eq_ok (hreal : op.real a b = number) (hfinite : number.isFinite = true)
    (hzero : number.isZero = true → a.isZero = true ∨ b.isZero = true ∨ op.mayUnderflow = false) :
    op.combineReal a b = .ok (.real number) := by
  have hkept : ¬(number.isZero && !a.isZero && !b.isZero && op.mayUnderflow) = true := by
    simp only [Bool.and_eq_true, Bool.not_eq_true', not_and, Bool.not_eq_true]
    rintro ⟨⟨hnumber, ha⟩, hb⟩
    rcases hzero hnumber with h | h | h
    · rw [h] at ha; cases ha
    · rw [h] at hb; cases hb
    · exact h
  unfold combineReal
  dsimp only
  rw [hreal, hfinite, if_neg (by decide), if_neg hkept]

theorem combinePromoted_eq_ok_iff : op.combinePromoted left right = .ok value ↔
    ∃ a, left.toReal = .ok a ∧ ∃ b, right.toReal = .ok b ∧ op.combineReal a b = .ok value := by
  rw [combinePromoted]
  refine bind_eq_ok_iff.trans (exists_congr fun a => and_congr_right fun _ => ?_)
  exact bind_eq_ok_iff

end Reals

/-- All that a step can be: a refused divisor, a step on integers, or a step with a real in it. -/
theorem combine_cases (op : Operator) (left right : Value) :
    (op = div ∧ right.isZero = true ∧ op.combine left right = .error .divisionByZero) ∨
      (op = div → right.isZero = false) ∧
        ((∃ a b, left = .integer a ∧ right = .integer b ∧
            op.combine left right = op.combineInteger a b) ∨
          (∃ number, left = .real number ∨ right = .real number) ∧
            op.combine left right = op.combinePromoted left right) := by
  by_cases hzero : op = div ∧ right.isZero = true
  · exact .inl ⟨hzero.1, hzero.2, if_pos hzero⟩
  · have hstep : op.combine left right = _ := if_neg hzero
    refine .inr ⟨fun hop => Bool.eq_false_iff.mpr fun h => hzero ⟨hop, h⟩, ?_⟩
    cases left with
    | real a => exact .inr ⟨⟨a, .inl rfl⟩, hstep⟩
    | integer a =>
      cases right with
      | real b => exact .inr ⟨⟨b, .inr rfl⟩, hstep⟩
      | integer b => exact .inl ⟨a, b, rfl, rfl, hstep⟩

/-- Between integers there are two kinds of step. -/
theorem combine_integers (op : Operator) (a b : Int64) :
    (op = div ∧ b = 0 ∧ op.combine (.integer a) (.integer b) = .error .divisionByZero) ∨
      (op = div → b ≠ 0) ∧ op.combine (.integer a) (.integer b) = op.combineInteger a b := by
  rcases combine_cases op (.integer a) (.integer b) with
    ⟨hop, hzero, hstep⟩ | ⟨hzero, ⟨_, _, ⟨⟩, ⟨⟩, hstep⟩ | ⟨⟨_, hreal⟩, -⟩⟩
  · exact .inl ⟨hop, beq_iff_eq.mp hzero, hstep⟩
  · exact .inr ⟨fun hop => beq_eq_false_iff_ne.mp (hzero hop), hstep⟩
  · rcases hreal with hreal | hreal <;> cases hreal

end Operator

end PrefixArithmetic
