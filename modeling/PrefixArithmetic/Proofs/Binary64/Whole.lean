import PrefixArithmetic.Binary64.Shortest
import PrefixArithmetic.Proofs.Binary64.Neutral
import Mathlib.Data.List.DropRight

/-!
# Whole numbers

A finite number is a rational number, and a whole one if one divides its quanta.
Whole decimals are read as whole numbers, because the spacing either divides one or
is divided by it. So a number that is not whole is never written without a point.
-/
namespace PrefixArithmetic

theorem natRepr_point (n : ℕ) : '.' ∉ n.repr.toList := by
  intro hmem
  rw [Nat.toList_repr] at hmem
  have hdigit := Nat.isDigit_of_mem_toDigits (by decide) (by decide) hmem
  exact absurd hdigit (by decide)

theorem intRepr_point (n : ℤ) : '.' ∉ n.repr.toList := by
  cases n with
  | ofNat n => exact natRepr_point n
  | negSucc n =>
    have hchars : (Int.negSucc n).repr.toList = '-' :: (n + 1).repr.toList := by
      simp [Int.repr]
    rw [hchars]
    exact List.not_mem_cons_of_ne_of_not_mem (by decide) (natRepr_point (n + 1))

/-- A number other than zero has a digit other than zero. -/
theorem exists_mem_toDigits_ne {n : ℕ} (h : n ≠ 0) : ∃ c ∈ Nat.toDigits 10 n, c ≠ '0' := by
  have hdigit : ∀ digit < 10, digit ≠ 0 → Nat.digitChar digit ≠ '0' := by decide
  induction n using Nat.strong_induction_on with
  | _ n ih =>
    rw [Nat.toDigits_eq_if (by decide)]
    split_ifs with hlt
    · exact ⟨_, List.mem_singleton_self _, hdigit n hlt h⟩
    · obtain ⟨c, hc, hne⟩ := ih (n / 10) (by omega) (by omega)
      exact ⟨c, List.mem_append_left _ hc, hne⟩

namespace Binary64

/-- The rational number that a finite number is. -/
def toRat? : Binary64 → Option ℚ
  | finite negative magnitude => some ((signed negative magnitude : ℚ) / one)
  | _ => none

section Rational
variable {negative : Bool} {magnitude : Magnitude}

/-- One divides the quanta of whole numbers. -/
theorem signed_div_one_ne (negative : Bool) (h : ¬one ∣ magnitude.quanta) (n : ℤ) :
    (signed negative magnitude : ℚ) / one ≠ n := by
  intro heq
  have hone : (one : ℚ) ≠ 0 := Nat.cast_ne_zero.mpr one_pos.ne'
  rw [div_eq_iff hone] at heq
  have hsigned : signed negative magnitude = n * one := by exact_mod_cast heq
  refine h (Dvd.intro_left n.natAbs ?_)
  rw [← natAbs_signed negative magnitude, hsigned, Int.natAbs_mul, Int.natAbs_natCast]

theorem signed_div_one_neg_iff (h : magnitude ≠ .zero) :
    (signed negative magnitude : ℚ) / one < 0 ↔ negative = true := by
  have hone : (0 : ℚ) < one := Nat.cast_pos.mpr one_pos
  rw [div_lt_iff₀ hone, zero_mul, Int.cast_lt_zero, signed_neg_iff h]

end Rational

theorem one_dvd_round {n den : ℕ} (hden : 0 < den) (h : one ∣ n) : one ∣ round (n * den) den := by
  rcases Nat.le_total (n.log2 - 52) binaryPlaces with hle | hle
  · have hspacing : spacing n ∣ n := (Nat.pow_dvd_pow 2 hle).trans h
    rwa [round_mul_right hden hspacing]
  · have hspacing : one ∣ spacing n := Nat.pow_dvd_pow 2 hle
    rw [round, Nat.mul_div_cancel n hden]
    exact hspacing.mul_left _

theorem oneUnits_eq : oneUnits = one * quantumUnits := by
  unfold oneUnits quantumUnits one places
  simp only [Nat.pow_eq]
  rw [← Nat.mul_pow]

/-- A whole decimal is read as a whole number. -/
theorem one_dvd_quanta_of_readsBack {magnitude : Magnitude} {units : ℕ}
    (hwhole : oneUnits ∣ units) (h : magnitude.readsBack units = true) :
    one ∣ magnitude.quanta := by
  have hunits : 0 < quantumUnits := Nat.pow_pos (by decide)
  obtain ⟨n, rfl⟩ := hwhole
  have hround : round (one * n * quantumUnits) quantumUnits = magnitude.quanta := by
    rw [Magnitude.readsBack, beq_iff_eq, oneUnits_eq] at h
    rw [← h, Nat.mul_right_comm]
  rw [← hround]
  exact one_dvd_round hunits (Dvd.intro n rfl)

/-- Decimals with a fraction are written with a point. -/
theorem point_mem_unitsText {units : ℕ} (h : ¬oneUnits ∣ units) :
    '.' ∈ (unitsText units).toList := by
  have hrest : units % oneUnits ≠ 0 := fun hzero => h (Nat.dvd_of_mod_eq_zero hzero)
  obtain ⟨c, hc, hne⟩ := exists_mem_toDigits_ne hrest
  have hkept : ∀ zeros : List Char,
      (zeros ++ Nat.toDigits 10 (units % oneUnits)).rdropWhile (· == '0') ≠ [] := by
    intro zeros hnil
    have hzero := List.rdropWhile_eq_nil_iff.mp hnil c (List.mem_append_right zeros hc)
    exact hne (beq_iff_eq.mp hzero)
  unfold unitsText
  rw [String.toList_append]
  refine List.mem_append_right _ ?_
  split_ifs with hempty
  · exact absurd (List.isEmpty_iff.mp hempty) (hkept _)
  · simp

theorem point_mem_text {negative : Bool} {magnitude : Magnitude} (h : ¬one ∣ magnitude.quanta) :
    '.' ∈ (finite negative magnitude).text.toList := by
  have hunits : ¬oneUnits ∣ magnitude.shortest :=
    fun hwhole => h (one_dvd_quanta_of_readsBack hwhole magnitude.readsBack_shortest)
  rw [text, String.toList_append]
  exact List.mem_append_right _ (point_mem_unitsText hunits)

end Binary64

end PrefixArithmetic
