/-!
# Rounding to 53 binary digits

All finite binary64 numbers are whole multiples of one quantum, `2^-1074`, so a
magnitude is a natural number of quanta. Around `n` quanta the magnitudes keep a
distance of `spacing n`, which leaves `n` at most 53 binary digits. A quotient is
rounded to the nearest multiple of that spacing, and from halfway between two to
the even one.
-/
namespace PrefixArithmetic.Binary64

/-- The whole number nearest to a quotient; of two equally near the even one. -/
def nearest (num den : Nat) : Nat :=
  let quotient := num / den
  let rest := num % den
  if 2 * rest < den ∨ (2 * rest = den ∧ quotient % 2 = 0) then quotient else quotient + 1

theorem le_nearest (num den : Nat) : num / den ≤ nearest num den := by
  unfold nearest
  dsimp only
  split <;> omega

theorem nearest_le (num den : Nat) : nearest num den ≤ num / den + 1 := by
  unfold nearest
  dsimp only
  split <;> omega

/-- The nearest whole number is at most one half away. -/
theorem nearest_error_le {num den : Nat} (h : 0 < den) :
    2 * num ≤ 2 * (nearest num den * den) + den ∧ 2 * (nearest num den * den) ≤ 2 * num + den := by
  have hdiv := Nat.div_add_mod' num den
  have hrest := Nat.mod_lt num h
  unfold nearest
  dsimp only
  split
  next hdown => omega
  next hup => rw [Nat.add_mul]; omega

@[simp] theorem nearest_mul_right {den : Nat} (n : Nat) (h : 0 < den) :
    nearest (n * den) den = n := by
  unfold nearest
  simp [Nat.mul_div_cancel n h, h]

/-- Numbers of at most 53 binary digits are below `2^53`. -/
def digitBound : Nat := 9007199254740992

theorem digitBound_eq : digitBound = Nat.pow 2 53 := by decide

/-- The distance between neighbouring magnitudes around `n` quanta. -/
def spacing (n : Nat) : Nat := Nat.pow 2 (n.log2 - 52)

theorem spacing_pos (n : Nat) : 0 < spacing n := Nat.two_pow_pos _

theorem div_spacing_lt (n : Nat) : n / spacing n < digitBound := by
  have hlog := Nat.lt_log2_self (n := n)
  have hle : n.log2 + 1 ≤ 53 + (n.log2 - 52) := by omega
  rw [Nat.div_lt_iff_lt_mul (spacing_pos n)]
  simp only [spacing, digitBound_eq, Nat.pow_eq]
  rw [← Nat.pow_add]
  exact Nat.lt_of_lt_of_le hlog (Nat.pow_le_pow_right (by decide) hle)

theorem mul_two_pow_lt {digits shift exponent : Nat} (hdigits : digits < digitBound)
    (hshift : 53 + shift ≤ exponent) : digits * Nat.pow 2 shift < Nat.pow 2 exponent := by
  rw [digitBound_eq] at hdigits
  have hmul := Nat.mul_lt_mul_of_pos_right hdigits (Nat.two_pow_pos shift)
  simp only [Nat.pow_eq] at hmul ⊢
  rw [← Nat.pow_add] at hmul
  exact Nat.lt_of_lt_of_le hmul (Nat.pow_le_pow_right (by decide) hshift)

/-- Fifty-three binary digits, shifted, keep to the spacing. -/
theorem spacing_mul_two_pow_dvd {digits : Nat} (shift : Nat) (h : digits ≤ digitBound) :
    spacing (digits * Nat.pow 2 shift) ∣ digits * Nat.pow 2 shift := by
  rcases Nat.eq_or_lt_of_le h with rfl | hlt
  · simp only [spacing, digitBound_eq, Nat.pow_eq]
    rw [← Nat.pow_add, Nat.log2_two_pow]
    exact Nat.pow_dvd_pow 2 (by omega)
  · refine Nat.dvd_mul_left_of_dvd (Nat.pow_dvd_pow 2 ?_) _
    by_cases hzero : digits * Nat.pow 2 shift = 0
    · rw [hzero]
      exact Nat.zero_le _
    · have hbound := mul_two_pow_lt hlt (Nat.le_refl (53 + shift))
      have := (Nat.log2_lt hzero).mpr hbound
      omega

/-- A quotient of quanta rounded to 53 binary digits. -/
def round (num den : Nat) : Nat :=
  let unit := spacing (num / den)
  nearest num (den * unit) * unit

theorem spacing_round_dvd (num den : Nat) : spacing (round num den) ∣ round num den := by
  refine spacing_mul_two_pow_dvd _ (Nat.le_trans (nearest_le _ _) ?_)
  rw [← Nat.div_div_eq_div_mul]
  exact div_spacing_lt (num / den)

/-- What keeps to the spacing is not changed by rounding. -/
theorem round_mul_right {n den : Nat} (hden : 0 < den) (h : spacing n ∣ n) :
    round (n * den) den = n := by
  have hmul : n * den = n / spacing n * (den * spacing n) := by
    calc n * den = n / spacing n * spacing n * den := by rw [Nat.div_mul_cancel h]
      _ = n / spacing n * (den * spacing n) := by rw [Nat.mul_assoc, Nat.mul_comm den]
  rw [round, Nat.mul_div_cancel n hden]
  rw [hmul, nearest_mul_right _ (Nat.mul_pos hden (spacing_pos n)), Nat.div_mul_cancel h]

end PrefixArithmetic.Binary64
