import PrefixArithmetic.Proofs.Binary64.Neutral
import PrefixArithmetic.Proofs.Evaluation.Accumulators
import PrefixArithmetic.Proofs.Evaluation.OneStep

/-!
# Regrouping

The first operands of a fold may be replaced by the one value that they give. A fold
without a seed then starts with that value instead of coming to it. A fold with a
seed takes one step more, from the seed to the value: zero and one change nothing
that such a fold can hold, because it holds finite values, and a sum that starts at
zero never comes to negative zero.
-/
namespace PrefixArithmetic

theorem Value.toReal_ne_negativeZero {value : Value} {number : Binary64}
    (h : value ≠ .real Binary64.negativeZero) (hreal : value.toReal = .ok number) :
    number ≠ Binary64.negativeZero := by
  cases value with
  | real other =>
    cases hreal
    exact fun heq => h (congrArg Value.real heq)
  | integer word =>
    rcases Nat.lt_or_ge word.toInt.natAbs Binary64.digitBound with hword | hword
    · rw [toReal_integer word hword] at hreal
      cases hreal
      exact Binary64.ofInt_ne_negativeZero _ hword
    · rw [toReal_integer_of_le hword] at hreal
      cases hreal

namespace Operator

section Seeds
variable {op : Operator} {front : List Value} {left right held next seed : Value}

lemma combinePromoted_sum_ne_negativeZero (h : sum.combinePromoted left right = .ok next)
    (hleft : left ≠ .real Binary64.negativeZero) : next ≠ .real Binary64.negativeZero := by
  obtain ⟨a, ha, b, -, hreal⟩ := combinePromoted_eq_ok_iff.mp h
  have hsum := Binary64.add_ne_negativeZero (Value.toReal_ne_negativeZero hleft ha) b
  rw [eq_of_combineReal hreal]
  exact fun heq => hsum (Value.real.inj heq)

/-- A step of a sum comes to negative zero from negative zero only. -/
theorem combine_sum_ne_negativeZero (h : sum.combine left right = .ok next)
    (hleft : left ≠ .real Binary64.negativeZero) : next ≠ .real Binary64.negativeZero := by
  rcases combine_cases sum left right with
    ⟨hop, -, -⟩ | ⟨-, ⟨a, b, -, -, hstep⟩ | ⟨-, hstep⟩⟩
  · cases hop
  · obtain ⟨word, rfl, -⟩ := checked_eq_ok_iff.mp (hstep.symm.trans h)
    exact nofun
  · exact combinePromoted_sum_ne_negativeZero (hstep.symm.trans h) hleft

theorem Accumulates.ne_negativeZero (h : sum.Accumulates front held) :
    held ≠ .real Binary64.negativeZero := by
  induction h with
  | seed seeded => cases seeded; exact nofun
  | first value unseeded => cases unseeded
  | step _ combines ih => exact combine_sum_ne_negativeZero combines ih

/-- A fold with a seed takes in no operand unchecked. -/
theorem Accumulates.isFinite_of_seed (h : op.Accumulates front held) (hseed : op.seed? = some seed) :
    held.IsFinite := by
  cases h with
  | seed seeded =>
    cases op with
    | sum | mul => cases seeded; trivial
    | sub | div => cases seeded
  | first value unseeded => rw [unseeded] at hseed; cases hseed
  | step _ combines => exact isFinite_of_combine combines

theorem combine_zero (hfinite : held.IsFinite) (h : held ≠ .real Binary64.negativeZero) :
    sum.combine (.integer 0) held = .ok held := by
  cases held with
  | integer word =>
    exact checked_eq_ok_iff.mpr ⟨word, rfl, by rw [Int64.toInt_zero, Int.zero_add]⟩
  | real number =>
    have hnumber : number ≠ Binary64.negativeZero := fun heq => h (congrArg Value.real heq)
    have hzero := Value.toReal_integer 0 (by decide)
    simp only [Int64.toInt_zero, Binary64.ofInt_zero] at hzero
    exact combinePromoted_eq_ok_iff.mpr ⟨_, hzero, number, rfl,
      combineReal_eq_ok (Binary64.zero_add hnumber) hfinite fun _ => .inr (.inr rfl)⟩

theorem combine_one (hfinite : held.IsFinite) : mul.combine (.integer 1) held = .ok held := by
  cases held with
  | integer word =>
    exact checked_eq_ok_iff.mpr ⟨word, rfl, by rw [Int64.toInt_one, Int.one_mul]⟩
  | real number =>
    have hone := Value.toReal_integer 1 (by decide)
    simp only [Int64.toInt_one] at hone
    exact combinePromoted_eq_ok_iff.mpr ⟨_, hone, number, rfl,
      combineReal_eq_ok (Binary64.one_mul _ number) hfinite fun hzero => .inr (.inl hzero)⟩

/-- The step from a seed to what the fold has come to changes nothing. -/
theorem Accumulates.combine_seed (h : op.Accumulates front held) (hseed : op.seed? = some seed) :
    op.combine seed held = .ok held := by
  have hfinite := h.isFinite_of_seed hseed
  cases op with
  | sum => cases hseed; exact combine_zero hfinite h.ne_negativeZero
  | mul => cases hseed; exact combine_one hfinite
  | sub | div => cases hseed

/-- What operands give, in front of others, is where the fold of the others starts. -/
theorem fold_cons_of_fold (h : op.fold front = .ok held) (others : List Value) :
    op.fold (held :: others) = others.foldlM op.combine held := by
  have hseeded : ∀ {seed}, op.seed? = some seed →
      (held :: others).foldlM op.combine seed = others.foldlM op.combine held := by
    intro seed hseed
    rw [List.foldlM_cons, (accumulates_iff.mpr h).combine_seed hseed]
    rfl
  cases op with
  | sum => rw [fold_sum]; exact hseeded rfl
  | mul => rw [fold_mul]; exact hseeded rfl
  | sub | div => rfl

end Seeds

/-- A fold of a row of operands is the fold of the value of its first ones and of the others, or
fails as its first ones do. -/
theorem fold_regroups (op : Operator) {values : List Value} (h : values ≠ []) (others : List Value)
    (position : ℕ) :
    located position (op.fold (values ++ others)) =
      (located position (op.fold values)).bind fun value =>
        located position (op.fold ([value] ++ others)) := by
  rw [fold_append (.inl h)]
  cases hfold : op.fold values with
  | error cause => rfl
  | ok held =>
    change located position (others.foldlM op.combine held) =
      located position (op.fold (held :: others))
    rw [fold_cons_of_fold hfold]

/-- Two negative zeros add up to zero without a sign, and so does zero with the second of them. -/
theorem fold_regroups_negativeZero :
    let negative : Value := .real Binary64.negativeZero
    let zero : Value := .real (.finite false .zero)
    [negative] ≠ [] ∧ located 3 (sum.fold [negative]) = .ok zero ∧
      located 3 (sum.fold ([negative] ++ [negative])) =
        located 3 (sum.fold ([zero] ++ [negative])) := by
  intro negative zero
  have hne : [negative] ≠ [] := List.cons_ne_nil negative []
  have hfirst : located 3 (sum.fold [negative]) = .ok zero := by decide +kernel
  have hregroups := fold_regroups sum hne [negative] 3
  rw [hfirst] at hregroups
  exact ⟨hne, hfirst, hregroups⟩

end Operator

end PrefixArithmetic
