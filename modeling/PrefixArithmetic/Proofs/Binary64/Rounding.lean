import PrefixArithmetic.Binary64.Basic
import Mathlib.Tactic

/-!
# What rounding keeps

The spacing around a number is at most the number, so a quotient of at least one
quantum is not rounded away. A rounded quotient is finite exactly if its quanta are
in bounds, and then its magnitude has these quanta; what is a magnitude already is
rounded to itself.
-/
namespace PrefixArithmetic.Binary64

attribute [ext] Magnitude

theorem spacing_le {n : ℕ} (h : n ≠ 0) : spacing n ≤ n :=
  calc spacing n ≤ 2 ^ n.log2 := Nat.pow_le_pow_right (by decide) (Nat.sub_le _ _)
    _ ≤ n := Nat.log2_self_le h

/-- Where there are 53 binary digits, the spacing is at most the last of them. -/
theorem spacing_mul_le {n : ℕ} (h : 2 ^ 52 ≤ n) : spacing n * 2 ^ 52 ≤ n := by
  have hne : n ≠ 0 := by omega
  have hlog : 52 ≤ n.log2 := (Nat.le_log2 hne).mpr h
  calc spacing n * 2 ^ 52 = 2 ^ (n.log2 - 52 + 52) := (pow_add 2 (n.log2 - 52) 52).symm
    _ = 2 ^ n.log2 := by rw [Nat.sub_add_cancel hlog]
    _ ≤ n := Nat.log2_self_le hne

/-- Rounding goes up by one spacing at most. -/
theorem round_le (num den : ℕ) : round num den ≤ num / den + spacing (num / den) := by
  have hnearest := nearest_le num (den * spacing (num / den))
  rw [← Nat.div_div_eq_div_mul] at hnearest
  calc round num den ≤ (num / den / spacing (num / den) + 1) * spacing (num / den) :=
        Nat.mul_le_mul_right _ hnearest
    _ = num / den / spacing (num / den) * spacing (num / den) + spacing (num / den) := by
        rw [Nat.add_mul, Nat.one_mul]
    _ ≤ num / den + spacing (num / den) := Nat.add_le_add_right (Nat.div_mul_le_self _ _) _

/-- A rounded quotient is at most half a spacing away from the exact one. -/
theorem round_error_le (num : ℕ) {den : ℕ} (hden : 0 < den) :
    2 * num ≤ 2 * (round num den * den) + den * spacing (num / den) ∧
      2 * (round num den * den) ≤ 2 * num + den * spacing (num / den) := by
  have hround : round num den * den =
      nearest num (den * spacing (num / den)) * (den * spacing (num / den)) := by
    rw [round, Nat.mul_assoc, Nat.mul_comm (spacing _) den]
  rw [hround]
  exact nearest_error_le (Nat.mul_pos hden (spacing_pos (num / den)))

/-- A quotient of at least one quantum is not rounded to nothing. -/
theorem round_pos {num den : ℕ} (hden : 0 < den) (h : den ≤ num) : 0 < round num den := by
  have hquotient : num / den ≠ 0 := (Nat.div_pos h hden).ne'
  have hunits : 1 ≤ num / (den * spacing (num / den)) := by
    rw [← Nat.div_div_eq_div_mul]
    exact Nat.div_pos (spacing_le hquotient) (spacing_pos _)
  have hnearest := hunits.trans (le_nearest num (den * spacing (num / den)))
  exact Nat.mul_pos hnearest (spacing_pos _)

theorem rounded_eq_finite_iff {negative sign : Bool} {num den : ℕ} {magnitude : Magnitude} :
    rounded negative num den = finite sign magnitude ↔
      negative = sign ∧ round num den = magnitude.quanta := by
  unfold rounded Magnitude.round?
  split_ifs with h
  · simp [Magnitude.ext_iff]
  · constructor
    · intro hinfinite
      cases hinfinite
    · intro hround
      exact absurd (hround.2 ▸ magnitude.bounded) h

/-- A magnitude is not changed by rounding, whatever number of parts its quanta are cut into. -/
theorem rounded_mul_right (negative : Bool) (magnitude : Magnitude) {den : ℕ} (hden : 0 < den) :
    rounded negative (magnitude.quanta * den) den = finite negative magnitude :=
  rounded_eq_finite_iff.mpr ⟨rfl, round_mul_right hden magnitude.spaced⟩

end PrefixArithmetic.Binary64
