import PrefixArithmetic.Proofs.Binary64.Rounding

/-!
# Zero and one

Zero is neutral for sums and one is for products, bit for bit, but for a single
number: zero added to negative zero is zero without a sign. A sum is never negative
zero unless its first term is.
-/
namespace PrefixArithmetic.Binary64

theorem one_pos : 0 < one := Nat.two_pow_pos _

/-- Zero below zero, which is no integer. -/
def negativeZero : Binary64 := finite true .zero

section Integers
variable (n : ℤ) (h : n.natAbs < digitBound)

theorem exists_ofInt_eq : ∃ magnitude, ofInt n h = finite (n < 0) magnitude ∧
    magnitude.quanta = n.natAbs * one :=
  ⟨_, rfl, rfl⟩

theorem ofInt_zero (h : (0 : ℤ).natAbs < digitBound) : ofInt 0 h = finite false .zero := by
  obtain ⟨magnitude, hof, hquanta⟩ := exists_ofInt_eq 0 h
  have hzero : magnitude = .zero := Magnitude.ext (hquanta.trans (Nat.zero_mul one))
  rw [hof, hzero]
  rfl

theorem ofInt_ne_negativeZero : ofInt n h ≠ negativeZero := by
  intro heq
  obtain ⟨magnitude, hof, hquanta⟩ := exists_ofInt_eq n h
  rw [hof] at heq
  obtain ⟨hnegative, rfl⟩ := finite.inj heq
  have hn : n < 0 := of_decide_eq_true hnegative
  have hpos : 0 < n.natAbs * one := Nat.mul_pos (by omega) one_pos
  exact hpos.ne hquanta

end Integers

section Signed
variable {negative : Bool} {magnitude : Magnitude}

theorem natAbs_signed (negative : Bool) (magnitude : Magnitude) :
    (signed negative magnitude).natAbs = magnitude.quanta := by
  cases negative <;> simp [signed]

theorem signed_eq_zero_iff : signed negative magnitude = 0 ↔ magnitude = .zero := by
  rw [← Int.natAbs_eq_zero, natAbs_signed, Magnitude.ext_iff]
  rfl

theorem signed_neg_iff (h : magnitude ≠ .zero) :
    signed negative magnitude < 0 ↔ negative = true := by
  have hquanta : magnitude.quanta ≠ 0 := fun hzero => h (Magnitude.ext hzero)
  cases negative with
  | true =>
    simp only [signed, if_true, iff_true]
    omega
  | false =>
    simp only [signed, Bool.false_eq_true, if_false, iff_false]
    omega

end Signed

/-- Zero is neutral for every number but its negative. -/
theorem zero_add {number : Binary64} (h : number ≠ negativeZero) :
    add (finite false .zero) number = number := by
  cases number with
  | infinite negative => rfl
  | nan => rfl
  | finite negative magnitude =>
    have hzero : signed false .zero = 0 := rfl
    rw [add, hzero, Int.zero_add]
    split_ifs with htotal
    · obtain rfl := signed_eq_zero_iff.mp htotal
      cases negative with
      | true => exact absurd rfl h
      | false => rfl
    · have hmagnitude : magnitude ≠ .zero := fun heq => htotal (signed_eq_zero_iff.mpr heq)
      have hsign : decide (signed negative magnitude < 0) = negative := by
        rw [Bool.eq_iff_iff, decide_eq_true_iff, signed_neg_iff hmagnitude]
      have hself := rounded_mul_right negative magnitude Nat.one_pos
      rw [Nat.mul_one] at hself
      rw [hsign, natAbs_signed, hself]

/-- A sum that is exactly zero is negative only if both its terms are, and no other sum is rounded
to zero. -/
theorem add_ne_negativeZero {a : Binary64} (h : a ≠ negativeZero) (b : Binary64) :
    add a b ≠ negativeZero := by
  intro hsum
  cases a with
  | nan => cases hsum
  | infinite s =>
    cases b with
    | nan => cases hsum
    | finite t n => cases hsum
    | infinite t =>
      rw [add] at hsum
      split_ifs at hsum <;> cases hsum
  | finite s m =>
    cases b with
    | nan => cases hsum
    | infinite t => cases hsum
    | finite t n =>
      rw [add] at hsum
      split_ifs at hsum with htotal
      · obtain ⟨hs, ht⟩ := Bool.and_eq_true_iff.mp (finite.inj hsum).1
        subst hs ht
        have hm : m = .zero := by
          simp only [signed, if_true] at htotal
          exact Magnitude.ext (by change m.quanta = 0; omega)
        exact h (by rw [hm, negativeZero])
      · obtain ⟨-, hquanta⟩ := rounded_eq_finite_iff.mp hsum
        have hpos := round_pos Nat.one_pos (Int.natAbs_pos.mpr htotal)
        exact absurd hquanta hpos.ne'

/-- One is neutral for every number. -/
theorem one_mul (h : (1 : ℤ).natAbs < digitBound) (number : Binary64) :
    mul (ofInt 1 h) number = number := by
  obtain ⟨unit, hof, hquanta⟩ := exists_ofInt_eq 1 h
  have hunit : unit.quanta = one := hquanta.trans (Nat.one_mul one)
  have hsign : ∀ negative, (decide ((1 : ℤ) < 0) ^^ negative) = negative := Bool.false_xor
  rw [hof]
  cases number with
  | nan => rfl
  | infinite negative => rw [mul, if_neg (hunit ▸ one_pos.ne'), hsign]
  | finite negative magnitude =>
    rw [mul, hunit, hsign, Nat.mul_comm]
    exact rounded_mul_right negative magnitude one_pos

end PrefixArithmetic.Binary64
