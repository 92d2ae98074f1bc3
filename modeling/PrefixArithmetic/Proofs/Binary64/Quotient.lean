import PrefixArithmetic.Proofs.Binary64.Whole
import PrefixArithmetic.Proofs.Evaluation.OneStep

/-!
# Quotients that do not come out even

If `b` does not divide `a`, then `a / b` is at least `1 / b` away from every whole
number. Rounding moves it by half a spacing, and the spacing is at most `a / b`
divided by `2^52`. For `a` below `2^53` that is less than `1 / b`, so the rounded
quotient is not whole either: it is not zero and it is written with a point.
-/
namespace PrefixArithmetic

namespace Binary64

section Naturals
variable {a b : ℕ}

lemma two_pow_le_one : 2 ^ 105 ≤ one := by
  have hplaces : 105 ≤ binaryPlaces := by
    unfold binaryPlaces
    decide
  exact Nat.pow_le_pow_right (by decide) hplaces

/-- The whole quanta of a quotient of two numbers, which are given in quanta. -/
lemma quanta_div (a b : ℕ) : a * one * one / (b * one) = a * one / b :=
  Nat.mul_div_mul_right _ _ one_pos

/-- A quotient of numbers of 53 binary digits has 53 binary digits in quanta. -/
lemma two_pow_le_quanta (ha : 0 < a) (hb : b < digitBound) (hpos : 0 < b) :
    2 ^ 52 ≤ a * one / b := by
  rw [Nat.le_div_iff_mul_le hpos]
  calc 2 ^ 52 * b ≤ 2 ^ 52 * 2 ^ 53 := Nat.mul_le_mul_left _ hb.le
    _ ≤ one := two_pow_le_one
    _ ≤ a * one := Nat.le_mul_of_pos_left one ha

/-- Divisors of 53 binary digits keep the spacing of a quotient below one. -/
lemma mul_spacing_lt (ha : a < digitBound) (h : 2 ^ 52 ≤ a * one / b) :
    b * spacing (a * one / b) < 2 * one := by
  have hspacing : b * spacing (a * one / b) * 2 ^ 52 ≤ a * one :=
    calc b * spacing (a * one / b) * 2 ^ 52 = b * (spacing (a * one / b) * 2 ^ 52) :=
          Nat.mul_assoc _ _ _
      _ ≤ b * (a * one / b) := Nat.mul_le_mul_left b (spacing_mul_le h)
      _ ≤ a * one := Nat.mul_div_le _ _
  have hbound : a * one < 2 * one * 2 ^ 52 :=
    calc a * one < digitBound * one := Nat.mul_lt_mul_of_pos_right ha one_pos
      _ = 2 * one * 2 ^ 52 := by rw [digitBound]; ring
  exact Nat.lt_of_mul_lt_mul_right (hspacing.trans_lt hbound)

/-- Multiples of the divisor are too far from the dividend for the quotient to be rounded to
them. -/
theorem not_one_dvd_round (ha : a < digitBound) (hb : b < digitBound) (hpos : 0 < b)
    (h : ¬b ∣ a) : ¬one ∣ round (a * one * one) (b * one) := by
  rintro ⟨n, hround⟩
  have hdividend : 0 < a := Nat.pos_of_ne_zero fun hzero => h (hzero ▸ Nat.dvd_zero b)
  have hspacing := mul_spacing_lt ha (two_pow_le_quanta hdividend hb hpos)
  obtain ⟨hlower, hupper⟩ := round_error_le (a * one * one) (Nat.mul_pos hpos one_pos)
  rw [hround, quanta_div] at hlower hupper
  have hbelow : 2 * (a * one) ≤ 2 * (n * b * one) + b * spacing (a * one / b) := by
    refine Nat.le_of_mul_le_mul_right ?_ one_pos
    linarith
  have habove : 2 * (n * b * one) ≤ 2 * (a * one) + b * spacing (a * one / b) := by
    refine Nat.le_of_mul_le_mul_right ?_ one_pos
    linarith
  rcases Nat.lt_trichotomy a (n * b) with hlt | heq | hgt
  · have hstep := Nat.mul_le_mul_right one (Nat.succ_le_of_lt hlt)
    rw [Nat.succ_mul] at hstep
    omega
  · exact h (Dvd.intro_left n heq.symm)
  · have hstep := Nat.mul_le_mul_right one (Nat.succ_le_of_lt hgt)
    rw [Nat.succ_mul] at hstep
    omega

theorem round_quotient_lt (ha : a < digitBound) (hb : b < digitBound) (hdividend : 0 < a)
    (hpos : 0 < b) : round (a * one * one) (b * one) < quantaBound := by
  have hquanta : a * one / b ≠ 0 := by
    have := two_pow_le_quanta hdividend hb hpos
    omega
  have hshift : 53 + (binaryPlaces + 1) ≤ binaryDigits := by
    unfold binaryPlaces binaryDigits
    decide
  calc round (a * one * one) (b * one) ≤ a * one / b + spacing (a * one / b) :=
        quanta_div a b ▸ round_le _ _
    _ ≤ a * one / b + a * one / b := Nat.add_le_add_left (spacing_le hquanta) _
    _ ≤ a * one + a * one := Nat.add_le_add (Nat.div_le_self _ _) (Nat.div_le_self _ _)
    _ = a * Nat.pow 2 (binaryPlaces + 1) := by
        rw [one, Nat.pow_eq, Nat.pow_eq, Nat.pow_succ]
        ring
    _ < quantaBound := mul_two_pow_lt ha hshift

end Naturals

theorem natAbs_lt_digitBound_iff {n : ℤ} : n.natAbs < digitBound ↔ |n| ≤ 2 ^ 53 - 1 := by
  rw [Int.abs_eq_natAbs, digitBound]
  omega

/-- The quotient of two integers, if it does not come out even, is finite and not whole, and signs
go by the rule. -/
theorem exists_div_ofInt {a b : ℤ} (ha : a.natAbs < digitBound) (hb : b.natAbs < digitBound)
    (hzero : b ≠ 0) (h : ¬b ∣ a) :
    ∃ magnitude, div (ofInt a ha) (ofInt b hb) = finite (decide (a < 0) ^^ decide (b < 0)) magnitude ∧
      ¬one ∣ magnitude.quanta := by
  obtain ⟨m, hm, hdividend⟩ := exists_ofInt_eq a ha
  obtain ⟨n, hn, hdivisor⟩ := exists_ofInt_eq b hb
  have hpos : 0 < b.natAbs := Int.natAbs_pos.mpr hzero
  have hne : 0 < a.natAbs := Int.natAbs_pos.mpr fun ha => h (ha ▸ dvd_zero b)
  have hdvd : ¬b.natAbs ∣ a.natAbs := fun hdvd => h (Int.natAbs_dvd_natAbs.mp hdvd)
  refine ⟨⟨_, round_quotient_lt ha hb hne hpos, spacing_round_dvd _ _⟩, ?_,
    not_one_dvd_round ha hb hpos hdvd⟩
  have hquanta : n.quanta ≠ 0 := hdivisor ▸ (Nat.mul_pos hpos one_pos).ne'
  rw [hm, hn, div, if_neg hquanta, hdividend, hdivisor]
  exact rounded_eq_finite_iff.mpr ⟨rfl, rfl⟩

end Binary64

namespace Operator

section Integers
variable {a b : Int64}

/-- A quotient of integers that does not come out even is carried out on reals. -/
theorem combine_of_not_dvd (hzero : b ≠ 0) (h : ¬b.toInt ∣ a.toInt) :
    div.combine (.integer a) (.integer b) = div.combinePromoted (.integer a) (.integer b) := by
  rcases combine_integers div a b with ⟨-, hb, -⟩ | ⟨-, hstep⟩
  · exact absurd hb hzero
  · rw [hstep]
    exact if_neg h

theorem combinePromoted_of_left {op : Operator} {left right : Value} {cause : EvalCause}
    (h : left.toReal = .error cause) : op.combinePromoted left right = .error cause := by
  rw [combinePromoted, h]
  rfl

theorem combinePromoted_of_right {op : Operator} {left right : Value} {number : Binary64}
    {cause : EvalCause} (hleft : left.toReal = .ok number) (h : right.toReal = .error cause) :
    op.combinePromoted left right = .error cause := by
  rw [combinePromoted, hleft, h]
  rfl

/-- A quotient of integers of 53 binary digits, if it does not come out even, is a real that is
not whole. -/
theorem exists_combine_of_not_dvd (hzero : b ≠ 0) (h : ¬b.toInt ∣ a.toInt)
    (ha : a.toInt.natAbs < Binary64.digitBound) (hb : b.toInt.natAbs < Binary64.digitBound) :
    ∃ magnitude, div.combine (.integer a) (.integer b) =
        .ok (.real (.finite (decide (a.toInt < 0) ^^ decide (b.toInt < 0)) magnitude)) ∧
      ¬Binary64.one ∣ magnitude.quanta := by
  have hne : b.toInt ≠ 0 := hzero ∘ Integer64.toInt_eq_zero_iff.mp
  obtain ⟨magnitude, hquotient, hwhole⟩ := Binary64.exists_div_ofInt ha hb hne h
  refine ⟨magnitude, ?_, hwhole⟩
  rw [combine_of_not_dvd hzero h]
  refine combinePromoted_eq_ok_iff.mpr ⟨_, Value.toReal_integer a ha, _, Value.toReal_integer b hb,
    combineReal_eq_ok hquotient rfl fun hvanishes => ?_⟩
  have hquanta : magnitude.quanta = 0 := beq_iff_eq.mp hvanishes
  exact absurd (hquanta ▸ dvd_zero _) hwhole

end Integers

lemma quotient_neg_iff {a b : ℤ} (ha : a ≠ 0) (hb : b ≠ 0) :
    (a : ℚ) / b < 0 ↔ (decide (a < 0) ^^ decide (b < 0)) = true := by
  rw [div_neg_iff, Int.cast_pos, Int.cast_lt_zero, Int.cast_pos, Int.cast_lt_zero]
  by_cases hdividend : a < 0 <;> by_cases hdivisor : b < 0 <;> simp [hdividend, hdivisor] <;> omega

/-- A quotient of integers that does not come out even needs both of them to have 53 binary digits,
and then it is a fraction of the right sign: never zero, never whole, and never written like an
integer. -/
theorem uneven_quotient_is_fraction (a b : Int64) (position : ℕ) (hzero : b ≠ 0)
    (h : ¬b.toInt ∣ a.toInt) :
    let result := located position (div.combine (.integer a) (.integer b))
    (2 ^ 53 - 1 < |a.toInt| → result = .error ⟨position, .precisionLoss a⟩) ∧
    (|a.toInt| ≤ 2 ^ 53 - 1 → 2 ^ 53 - 1 < |b.toInt| →
      result = .error ⟨position, .precisionLoss b⟩) ∧
    (|a.toInt| ≤ 2 ^ 53 - 1 → |b.toInt| ≤ 2 ^ 53 - 1 →
      ∃ number quotient, result = .ok (.real number) ∧ number.toRat? = some quotient ∧
        quotient ≠ 0 ∧ (quotient < 0 ↔ (a.toInt : ℚ) / b.toInt < 0) ∧ (∀ n : ℤ, quotient ≠ n) ∧
          ∀ n : ℤ, (Value.real number).text ≠ n.repr) := by
  intro result
  have hsmall : ∀ {n : ℤ}, |n| ≤ 2 ^ 53 - 1 → n.natAbs < Binary64.digitBound :=
    Binary64.natAbs_lt_digitBound_iff.mpr
  have hlarge : ∀ {n : ℤ}, 2 ^ 53 - 1 < |n| → Binary64.digitBound ≤ n.natAbs := fun hn =>
    Nat.not_lt.mp fun hlt => hn.not_ge (Binary64.natAbs_lt_digitBound_iff.mp hlt)
  have hpromoted : result = located position (div.combinePromoted (.integer a) (.integer b)) :=
    congrArg (located position) (combine_of_not_dvd hzero h)
  refine ⟨fun ha => ?_, fun ha hb => ?_, fun ha hb => ?_⟩
  · rw [hpromoted, combinePromoted_of_left (Value.toReal_integer_of_le (hlarge ha))]
    rfl
  · rw [hpromoted, combinePromoted_of_right (Value.toReal_integer a (hsmall ha))
      (Value.toReal_integer_of_le (hlarge hb))]
    rfl
  · obtain ⟨magnitude, hcombine, hwhole⟩ :=
      exists_combine_of_not_dvd hzero h (hsmall ha) (hsmall hb)
    have hdividend : a.toInt ≠ 0 := fun ha => h (ha ▸ dvd_zero _)
    have hdivisor : b.toInt ≠ 0 := hzero ∘ Integer64.toInt_eq_zero_iff.mp
    have hmagnitude : magnitude ≠ .zero := fun heq => hwhole (heq ▸ dvd_zero _)
    have hfraction := Binary64.signed_div_one_ne
      (decide (a.toInt < 0) ^^ decide (b.toInt < 0)) hwhole
    refine ⟨_, _, congrArg (located position) hcombine, rfl, ?_, ?_, hfraction, fun n htext => ?_⟩
    · exact_mod_cast hfraction 0
    · rw [Binary64.signed_div_one_neg_iff hmagnitude, quotient_neg_iff hdividend hdivisor]
    · exact intRepr_point n (htext ▸ Binary64.point_mem_text hwhole)

/-- The quotient of neighbours, which is as near to one as such quotients come, and operands of more
binary digits. -/
theorem uneven_quotient_is_fraction_neighbours :
    (∃ number quotient, located 3 (div.combine (.integer 9007199254740991)
        (.integer (-9007199254740990))) = .ok (.real number) ∧
      number.toRat? = some quotient ∧ quotient < 0 ∧ quotient ≠ -1 ∧
        (Value.real number).text ≠ "-1") ∧
    located 3 (div.combine (.integer (-9223372036854775808)) (.integer 9007199254740993)) =
      .error ⟨3, .precisionLoss (-9223372036854775808)⟩ ∧
    located 3 (div.combine (.integer 7) (.integer 9007199254740993)) =
      .error ⟨3, .precisionLoss 9007199254740993⟩ := by
  obtain ⟨-, -, hreal⟩ := uneven_quotient_is_fraction 9007199254740991 (-9007199254740990) 3
    (by decide) (by decide)
  obtain ⟨hleft, -, -⟩ := uneven_quotient_is_fraction (-9223372036854775808) 9007199254740993 3
    (by decide) (by decide)
  obtain ⟨-, hright, -⟩ := uneven_quotient_is_fraction 7 9007199254740993 3 (by decide) (by decide)
  obtain ⟨number, quotient, hresult, hrational, -, hsign, hfraction, htext⟩ :=
    hreal (by decide) (by decide)
  have hminus : (-1 : ℤ).repr = "-1" := rfl
  refine ⟨⟨number, quotient, hresult, hrational, hsign.mpr ?_, ?_, hminus ▸ htext (-1)⟩,
    hleft (by decide), hright (by decide) (by decide)⟩
  · rw [quotient_neg_iff (by decide) (by decide)]
    decide
  · exact_mod_cast hfraction (-1)

end Operator

end PrefixArithmetic
