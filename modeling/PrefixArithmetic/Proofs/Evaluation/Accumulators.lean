import PrefixArithmetic.Proofs.Postorder

/-!
# Accumulators

A fold goes through its operands with one value at hand: first its seed, or the
first operand where there is no seed, and then what each step makes of it. What it
holds after some of its operands is what it would give for them alone. No step
gives a real that is not finite, so a fold of finite values holds nothing else, and
neither does evaluation, which starts from integers.
-/
namespace PrefixArithmetic

namespace Operator

/-- What a fold holds before its first operand, if it can start without one. -/
def seed? : Operator → Option Value
  | sum => some (.integer 0)
  | mul => some (.integer 1)
  | sub | div => none

/-- What a fold holds after some operands. -/
inductive Accumulates (op : Operator) : List Value → Value → Prop
  | seed {value : Value} (seeded : op.seed? = some value) : Accumulates op [] value
  | first (value : Value) (unseeded : op.seed? = none) : Accumulates op [value] value
  | step {front : List Value} {held value next : Value} (holds : Accumulates op front held)
      (combines : op.combine held value = .ok next) : Accumulates op (front ++ [value]) next

section Folds
variable {op : Operator} {values : List Value} {value held : Value}

theorem fold_nil_eq_ok_iff : op.fold [] = .ok value ↔ op.seed? = some value := by
  cases op with
  | sum | mul => simp [seed?, pure, Except.pure]
  | sub | div => simp [seed?, fold]

theorem fold_singleton (unseeded : op.seed? = none) (value : Value) : op.fold [value] = .ok value := by
  cases op with
  | sum | mul => cases unseeded
  | sub | div => rfl

/-- Further operands are folded from what the first ones give. -/
theorem fold_append (h : values ≠ [] ∨ op.seed? ≠ none) (others : List Value) :
    op.fold (values ++ others) = (op.fold values).bind fun held => others.foldlM op.combine held := by
  cases op with
  | sum => rw [fold_sum, fold_sum, List.foldlM_append]; rfl
  | mul => rw [fold_mul, fold_mul, List.foldlM_append]; rfl
  | sub | div =>
    cases values with
    | nil => simp [seed?] at h
    | cons first rest => exact List.foldlM_append

/-- One more operand is one more step. -/
theorem fold_concat (h : values ≠ [] ∨ op.seed? ≠ none) (value : Value) :
    op.fold (values ++ [value]) = (op.fold values).bind fun held => op.combine held value := by
  rw [fold_append h]
  cases op.fold values with
  | error cause => rfl
  | ok held => exact bind_pure (op.combine held value)

theorem started_of_fold (h : op.fold values = .ok held) : values ≠ [] ∨ op.seed? ≠ none := by
  by_cases hvalues : values = []
  · rw [hvalues, fold_nil_eq_ok_iff] at h
    exact .inr (by rw [h]; nofun)
  · exact .inl hvalues

/-- A fold goes on from what it holds. -/
theorem fold_append_of_fold (h : op.fold values = .ok held) (others : List Value) :
    op.fold (values ++ others) = others.foldlM op.combine held := by
  rw [fold_append (started_of_fold h), h]
  rfl

/-- What a fold gives is what it holds after all its operands. -/
theorem accumulates_iff : op.Accumulates values held ↔ op.fold values = .ok held := by
  constructor
  · intro h
    induction h with
    | seed seeded => exact fold_nil_eq_ok_iff.mpr seeded
    | first value unseeded => exact fold_singleton unseeded value
    | step _ combines ih =>
      rw [fold_concat (started_of_fold ih), ih]
      exact combines
  · intro h
    induction values using List.reverseRecOn generalizing held with
    | nil => exact .seed (fold_nil_eq_ok_iff.mp h)
    | append_singleton front value ih =>
      by_cases hstart : front ≠ [] ∨ op.seed? ≠ none
      · rw [fold_concat hstart] at h
        obtain ⟨before, hbefore, hcombines⟩ := bind_eq_ok_iff.mp h
        exact .step (ih hbefore) hcombines
      · obtain ⟨hfront, hunseeded⟩ := not_or.mp hstart
        obtain rfl := not_not.mp hfront
        rw [List.nil_append, fold_singleton (not_not.mp hunseeded)] at h
        cases h
        exact .first value (not_not.mp hunseeded)

end Folds

end Operator

/-- An integer, or a real that is neither infinite nor undefined. -/
def Value.IsFinite : Value → Prop
  | .integer _ => True
  | .real number => number.isFinite = true

namespace Operator

section Finite
variable {op : Operator} {left right result : Value}

theorem isFinite_of_combineReal {a b : Binary64} (h : op.combineReal a b = .ok result) :
    result.IsFinite := by
  unfold combineReal at h
  dsimp only at h
  split_ifs at h with hfinite hzero
  cases h
  simpa [Value.IsFinite] using hfinite

theorem isFinite_of_combinePromoted (h : op.combinePromoted left right = .ok result) :
    result.IsFinite := by
  obtain ⟨a, -, b, -, hreal⟩ := combinePromoted_eq_ok_iff.mp h
  exact isFinite_of_combineReal hreal

theorem isFinite_of_checked {exact : ℤ} (h : op.checked exact = .ok result) : result.IsFinite := by
  obtain ⟨word, rfl, -⟩ := checked_eq_ok_iff.mp h
  trivial

/-- Whatever the operands are, a step gives a finite value or none. -/
theorem isFinite_of_combine (h : op.combine left right = .ok result) : result.IsFinite := by
  rcases combine_cases op left right with
    ⟨-, -, hstep⟩ | ⟨-, ⟨a, b, -, -, hstep⟩ | ⟨-, hstep⟩⟩ <;> rw [hstep] at h
  · cases h
  · cases op with
    | sum | sub | mul => exact isFinite_of_checked h
    | div =>
      rw [combineInteger] at h
      split_ifs at h
      · exact isFinite_of_checked h
      · exact isFinite_of_combinePromoted h
  · exact isFinite_of_combinePromoted h

/-- Only a first operand comes into an accumulator unchecked. -/
theorem Accumulates.isFinite {values : List Value} {held : Value} (h : op.Accumulates values held)
    (hvalues : ∀ value ∈ values, value.IsFinite) : held.IsFinite := by
  cases h with
  | seed seeded =>
    cases op with
    | sum | mul => cases seeded; trivial
    | sub | div => cases seeded
  | first value => exact hvalues held List.mem_cons_self
  | step _ combines => exact isFinite_of_combine combines

theorem isFinite_of_fold {values : List Value} (h : op.fold values = .ok result)
    (hvalues : ∀ value ∈ values, value.IsFinite) : result.IsFinite :=
  (accumulates_iff.mpr h).isFinite hvalues

end Finite

end Operator

/-- Literals are integers, so nothing that is not finite is ever folded. -/
theorem Expr.isFinite_of_evaluate {expr : Expr} {value : Value} (h : expr.evaluate = .ok value) :
    value.IsFinite := by
  induction expr generalizing value with
  | literal word position =>
    rw [evaluate_literal] at h
    cases h
    trivial
  | operation head operands position ih =>
    obtain ⟨values, hvalues, hhead⟩ := (walk_operation_eq_ok_iff _ _).mp h
    cases head with
    | unknown name => cases hhead
    | known op =>
      refine Operator.isFinite_of_fold hhead fun other hmem => ?_
      obtain ⟨operand, hoperand, hother⟩ := exists_mem_of_forall₂ hvalues.flip hmem
      exact ih operand hoperand hother

end PrefixArithmetic
