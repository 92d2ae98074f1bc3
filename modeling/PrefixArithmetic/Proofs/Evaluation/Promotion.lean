import PrefixArithmetic.Proofs.Binary64.Quotient
import PrefixArithmetic.Proofs.Evaluation.Causes
import PrefixArithmetic.Proofs.Parsing.Flat

/-!
# Integers that are not promoted

An integer is equal to a real exactly if the spacing of the reals around it divides
it: up to `2^53` every integer is, and from there on those that end in enough binary
zeros. Promotion does not look at the digits. It refuses every integer of `2^53` or
more, so a loss of precision is reported for each of them in some expression, also
where a real would have been equal to it, and for no other integer.
-/
namespace PrefixArithmetic

namespace Binary64

/-- The integer has at most 53 binary digits before the zeros at its end. -/
def Representable (n : ℤ) : Prop :=
  ∃ (digits : ℤ) (zeros : ℕ), |digits| < 2 ^ 53 ∧ n = digits * 2 ^ zeros

section Integers
variable {n : ℤ}

/-- The integers that keep to the spacing of reals are those with at most 53 binary digits. -/
theorem representable_iff_spacing_dvd : Representable n ↔ spacing n.natAbs ∣ n.natAbs := by
  constructor
  · rintro ⟨digits, zeros, hdigits, rfl⟩
    have hbound : digits.natAbs ≤ digitBound := by
      rw [Int.abs_eq_natAbs] at hdigits
      rw [digitBound]
      omega
    have habs : (digits * 2 ^ zeros).natAbs = digits.natAbs * Nat.pow 2 zeros := by
      rw [Int.natAbs_mul, Int.natAbs_pow]
      rfl
    rw [habs]
    exact spacing_mul_two_pow_dvd zeros hbound
  · intro h
    have hdvd : (spacing n.natAbs : ℤ) ∣ n := Int.natCast_dvd.mpr h
    refine ⟨n / spacing n.natAbs, n.natAbs.log2 - 52, ?_, ?_⟩
    · have hlt := div_spacing_lt n.natAbs
      rw [Int.abs_eq_natAbs, Int.natAbs_ediv_of_dvd hdvd, Int.natAbs_natCast]
      rw [digitBound] at hlt
      omega
    · exact (Int.ediv_mul_cancel hdvd).symm

/-- What keeps to the spacing when it is shifted keeps to it before. -/
lemma spacing_dvd_of_shifted {n places : ℕ}
    (h : spacing (n * Nat.pow 2 places) ∣ n * Nat.pow 2 places) : spacing n ∣ n := by
  have hdigits := div_spacing_lt (n * Nat.pow 2 places)
  have hshifted := Nat.div_mul_cancel h
  generalize n * Nat.pow 2 places / spacing (n * Nat.pow 2 places) = digits at hdigits hshifted
  rw [spacing] at hshifted
  generalize (n * Nat.pow 2 places).log2 - 52 = zeros at hshifted
  rcases Nat.le_total places zeros with hle | hle
  · -- the zeros at the end are more than the shift has put there
    have hn : digits * Nat.pow 2 (zeros - places) = n := by
      refine Nat.eq_of_mul_eq_mul_right (Nat.two_pow_pos places) ?_
      rw [Nat.mul_assoc, Nat.pow_eq, ← Nat.pow_add, Nat.sub_add_cancel hle]
      exact hshifted
    rw [← hn]
    exact spacing_mul_two_pow_dvd _ hdigits.le
  · have hn : digits = n * Nat.pow 2 (places - zeros) := by
      refine Nat.eq_of_mul_eq_mul_right (Nat.two_pow_pos zeros) ?_
      rw [Nat.mul_assoc, Nat.pow_eq, ← Nat.pow_add, Nat.sub_add_cancel hle]
      exact hshifted
    have hbound : n ≤ digitBound :=
      calc n ≤ n * Nat.pow 2 (places - zeros) := Nat.le_mul_of_pos_right n (Nat.two_pow_pos _)
        _ ≤ digitBound := hn ▸ hdigits.le
    simpa using spacing_mul_two_pow_dvd 0 hbound

/-- The real is equal to the integer. -/
def Equals (number : Binary64) (n : ℤ) : Prop :=
  ∃ negative magnitude, number = finite negative magnitude ∧ signed negative magnitude = n * one

lemma natAbs_mul_one_lt (word : Int64) : word.toInt.natAbs * one < quantaBound := by
  have hbound : word.toInt.natAbs < 2 ^ 64 := by
    have hlo := word.le_toInt
    have hhi := word.toInt_lt
    omega
  have hplaces : 64 + binaryPlaces ≤ binaryDigits := by
    unfold binaryPlaces binaryDigits
    decide
  calc word.toInt.natAbs * one < 2 ^ 64 * 2 ^ binaryPlaces :=
        Nat.mul_lt_mul_of_pos_right hbound one_pos
    _ = 2 ^ (64 + binaryPlaces) := (Nat.pow_add 2 64 binaryPlaces).symm
    _ ≤ quantaBound := Nat.pow_le_pow_right (by decide) hplaces

/-- A 64-bit integer is equal to a real exactly if it has at most 53 binary digits before the zeros
at its end. -/
theorem exists_equals_iff (word : Int64) :
    (∃ number : Binary64, number.Equals word.toInt) ↔ Representable word.toInt := by
  rw [representable_iff_spacing_dvd]
  constructor
  · rintro ⟨_, negative, magnitude, rfl, hsigned⟩
    have hquanta : magnitude.quanta = word.toInt.natAbs * one := by
      rw [← natAbs_signed negative, hsigned, Int.natAbs_mul, Int.natAbs_natCast]
    exact spacing_dvd_of_shifted (hquanta ▸ magnitude.spaced)
  · intro h
    have hspaced : spacing (word.toInt.natAbs * one) ∣ word.toInt.natAbs * one := by
      have hdigits := spacing_mul_two_pow_dvd (word.toInt.natAbs.log2 - 52 + binaryPlaces)
        (div_spacing_lt word.toInt.natAbs).le
      rwa [Nat.pow_eq, Nat.pow_add, ← Nat.mul_assoc, ← Nat.pow_eq, ← spacing, Nat.div_mul_cancel h]
        at hdigits
    refine ⟨_, decide (word.toInt < 0), ⟨_, natAbs_mul_one_lt word, hspaced⟩, rfl, ?_⟩
    rw [signed]
    split_ifs with hsign
    · have hneg : word.toInt < 0 := of_decide_eq_true hsign
      rw [Nat.cast_mul, ← neg_mul, Int.ofNat_natAbs_of_nonpos hneg.le, neg_neg]
    · have hnonneg : 0 ≤ word.toInt := by simpa using hsign
      rw [Nat.cast_mul, Int.natAbs_of_nonneg hnonneg]

end Integers

end Binary64

namespace Expr
variable {expr : Expr} {position : ℕ} {word : Int64}

/-- Only integers of more than 53 binary digits are reported. -/
theorem le_of_precisionLoss (h : expr.evaluate = .error ⟨position, .precisionLoss word⟩) :
    Binary64.digitBound ≤ word.toInt.natAbs := by
  induction expr with
  | literal value start => rw [evaluate_literal] at h; cases h
  | operation head operands start ih =>
    rcases (walk_operation_eq_error_iff _ _).mp h with
      ⟨before, operand, after, rfl, -, hoperand⟩ | ⟨found, -, hhead, -⟩
    · exact ih operand (by simp) hoperand
    · cases head with
      | unknown name => cases hhead
      | known op =>
        rcases Operator.cause_of_fold hhead with ⟨hcause, -⟩ | hcause
        · cases hcause
        · cases hcause
          assumption

/-- The sum of an integer and a half. -/
def andHalf (word : Int64) : Expr :=
  .operation (.known .sum) [.literal word 1,
    .operation (.known .div) [.literal 1 3, .literal 2 4] 2] 0

/-- An integer of more than 53 binary digits is reported where a half is added to it. -/
theorem evaluate_andHalf (h : Binary64.digitBound ≤ word.toInt.natAbs) :
    (andHalf word).evaluate = .error ⟨0, .precisionLoss word⟩ := by
  obtain ⟨magnitude, hhalf, -⟩ : ∃ magnitude, Operator.div.combine (.integer 1) (.integer 2) =
      .ok (.real (.finite false magnitude)) ∧ ¬Binary64.one ∣ magnitude.quanta :=
    Operator.exists_combine_of_not_dvd (by decide) (by decide) (by decide) (by decide)
  have hquotient : (operation (.known .div) [literal 1 3, literal 2 4] 2).evaluate =
      .ok (.real (.finite false magnitude)) := by
    rw [evaluate_operation]
    change located 2 ((Operator.div.combine (.integer 1) (.integer 2)).bind .ok) = _
    rw [hhalf]
    rfl
  have hseed : Operator.sum.combine (.integer 0) (.integer word) = .ok (.integer word) :=
    Operator.checked_eq_ok_iff.mpr ⟨word, rfl, by rw [Int64.toInt_zero, Int.zero_add]⟩
  have hsum : Operator.sum.combine (.integer word) (.real (.finite false magnitude)) =
      .error (.precisionLoss word) :=
    Operator.combinePromoted_of_left (Value.toReal_integer_of_le h)
  have hfold : Operator.sum.fold [.integer word, .real (.finite false magnitude)] =
      .error (.precisionLoss word) := by
    rw [Operator.fold_sum, List.foldlM_cons, hseed]
    change (Operator.sum.combine (.integer word) (.real (.finite false magnitude))).bind .ok = _
    rw [hsum]
    rfl
  rw [andHalf, evaluate_operation, List.mapM_cons, List.mapM_cons, hquotient]
  change located 0 (Operator.sum.fold [.integer word, .real (.finite false magnitude)]) = _
  rw [hfold, located_error]

/-- A loss of precision is reported for the integers of `2^53` or more, whatever their digits are.
The report is right exactly where no real is equal to the integer, that is, where the integer does
not end in as many binary zeros as it has digits more than 53. -/
theorem precisionLoss_iff_large (word : Int64) :
    ((∃ (expr : Expr) (position : ℕ), expr.evaluate = .error ⟨position, .precisionLoss word⟩) ↔
        2 ^ 53 ≤ |word.toInt|) ∧
      (Binary64.Representable word.toInt ↔ ∃ number : Binary64, number.Equals word.toInt) ∧
      (Binary64.Representable word.toInt ↔
        2 ^ (word.toInt.natAbs.log2 - 52) ∣ word.toInt.natAbs) := by
  have hlarge : 2 ^ 53 ≤ |word.toInt| ↔ Binary64.digitBound ≤ word.toInt.natAbs := by
    rw [Int.abs_eq_natAbs, Binary64.digitBound]
    omega
  refine ⟨?_, (Binary64.exists_equals_iff word).symm, Binary64.representable_iff_spacing_dvd⟩
  rw [hlarge]
  constructor
  · rintro ⟨expr, position, hreport⟩
    exact le_of_precisionLoss hreport
  · intro hword
    exact ⟨andHalf word, 0, evaluate_andHalf hword⟩

/-- Half of `2^53` is reported as a loss of precision, though a real is equal to `2^53`. -/
theorem precisionLoss_of_representable :
    let expr := Expr.operation (.known .mul) [.literal 9007199254740992 1,
      .operation (.known .div) [.literal 1 3, .literal 2 4] 2] 0
    parse (tokenize "mul 9007199254740992 div 1 2") = .ok expr ∧
      expr.evaluate = .error ⟨0, .precisionLoss 9007199254740992⟩ ∧
      Binary64.Representable (9007199254740992 : Int64).toInt := by
  intro expr
  have htokens : tokenize "mul 9007199254740992 div 1 2" =
      ["mul", "9007199254740992", "div", "1", "2"] := by decide
  refine ⟨?_, by decide +kernel, 1, 53, by decide, by decide⟩
  rw [htokens, parse_of_word _ _ (by decide)]
  rfl

end Expr

end PrefixArithmetic
