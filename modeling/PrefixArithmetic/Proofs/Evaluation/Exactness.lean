import PrefixArithmetic.Proofs.Binary64.Quotient
import PrefixArithmetic.Proofs.Evaluation.OneStep

/-!
# Exact promotion

Converting an integer to a real takes the nearest real. For an integer of at most 53
binary digits that is the integer itself, and no other integer is promoted: nothing
is ever rounded on the way from integers to reals. So a step with a real in it is the
step on the exact values of both its operands, or else it names the integer among
them that could not be promoted.
-/
namespace PrefixArithmetic

namespace Binary64

/-- The real nearest to an integer. -/
def nearestTo (n : ℤ) : Binary64 := rounded (n < 0) (n.natAbs * one) 1

/-- The order of reals. The infinities are its ends, and what is no number has no place in it. -/
def Less : Binary64 → Binary64 → Prop
  | finite s m, finite t n => signed s m < signed t n
  | finite _ _, infinite t => t = false
  | infinite s, finite _ _ => s = true
  | infinite s, infinite t => s = true ∧ t = false
  | nan, _ | _, nan => False

/-- Finite reals are ordered as the rational numbers that they are. -/
theorem less_iff {a b : Binary64} {p q : ℚ} (ha : a.toRat? = some p) (hb : b.toRat? = some q) :
    a.Less b ↔ p < q := by
  have hone : (0 : ℚ) < one := Nat.cast_pos.mpr one_pos
  cases a with
  | infinite s => cases ha
  | nan => cases ha
  | finite s m =>
    cases b with
    | infinite t => cases hb
    | nan => cases hb
    | finite t n =>
      cases ha
      cases hb
      rw [div_lt_div_iff_of_pos_right hone, Int.cast_lt]
      rfl

section Integers
variable {n : ℤ} (h : n.natAbs < digitBound)
include h

/-- No rounding is needed for an integer of at most 53 binary digits. -/
theorem nearestTo_eq_ofInt : nearestTo n = ofInt n h := by
  obtain ⟨magnitude, hof, hquanta⟩ := exists_ofInt_eq n h
  have hself := rounded_mul_right (n < 0) magnitude Nat.one_pos
  rw [Nat.mul_one, hquanta] at hself
  rw [nearestTo, hof, hself]

theorem toRat?_ofInt : (ofInt n h).toRat? = some (n : ℚ) := by
  obtain ⟨magnitude, hof, hquanta⟩ := exists_ofInt_eq n h
  have hone : (one : ℚ) ≠ 0 := Nat.cast_ne_zero.mpr one_pos.ne'
  have hsigned : signed (n < 0) magnitude = n * one := by
    rw [signed, hquanta, Nat.cast_mul]
    split_ifs with hsign
    · have hneg : n < 0 := of_decide_eq_true hsign
      rw [Int.ofNat_natAbs_of_nonpos hneg.le]
      ring
    · have hnonneg : 0 ≤ n := by simpa using hsign
      rw [Int.natAbs_of_nonneg hnonneg]
  rw [hof, toRat?, hsigned, Int.cast_mul, Int.cast_natCast, mul_div_cancel_right₀ _ hone]

end Integers

end Binary64

/-- An integer of at most 53 binary digits is converted, and any other refused. -/
theorem promote_eq {ε : Type} (word : Int64) (label : ε) :
    promote word label =
      if |word.toInt| ≤ 2 ^ 53 - 1 then .ok (Binary64.nearestTo word.toInt) else .error label := by
  by_cases hsmall : |word.toInt| ≤ 2 ^ 53 - 1
  · have h := Binary64.natAbs_lt_digitBound_iff.mpr hsmall
    rw [if_pos hsmall, promote, promote?, dif_pos h, Binary64.nearestTo_eq_ofInt h]
  · have h := Binary64.natAbs_lt_digitBound_iff.not.mpr hsmall
    rw [if_neg hsmall, promote, promote?, dif_neg h]

theorem toRat?_nearestTo {n : ℤ} (h : |n| ≤ 2 ^ 53 - 1) :
    (Binary64.nearestTo n).toRat? = some (n : ℚ) := by
  have hbound := Binary64.natAbs_lt_digitBound_iff.mpr h
  rw [Binary64.nearestTo_eq_ofInt hbound, Binary64.toRat?_ofInt]

section Promoted
variable {ε : Type} {word other : Int64} {label : ε} {number number' : Binary64}

theorem promote_eq_ok_iff :
    promote word label = .ok number ↔
      |word.toInt| ≤ 2 ^ 53 - 1 ∧ number = .nearestTo word.toInt := by
  rw [promote_eq]
  split_ifs with h
  · rw [and_iff_right h, Except.ok.injEq, eq_comm]
  · exact iff_of_false nofun fun hboth => h hboth.1

theorem toRat?_of_promote (h : promote word label = .ok number) :
    number.toRat? = some (word.toInt : ℚ) := by
  obtain ⟨hsmall, rfl⟩ := promote_eq_ok_iff.mp h
  exact toRat?_nearestTo hsmall

/-- Different integers are promoted to different reals. -/
theorem promoted_eq_iff (h : promote word label = .ok number)
    (h' : promote other label = .ok number') : number = number' ↔ word = other := by
  constructor
  · rintro rfl
    have hsame : (word.toInt : ℚ) = other.toInt :=
      Option.some.inj ((toRat?_of_promote h).symm.trans (toRat?_of_promote h'))
    exact Int64.toInt_inj.mp (by exact_mod_cast hsame)
  · rintro rfl
    exact Except.ok.inj (h.symm.trans h')

theorem promoted_less_iff (h : promote word label = .ok number)
    (h' : promote other label = .ok number') : number.Less number' ↔ word < other := by
  rw [Binary64.less_iff (toRat?_of_promote h) (toRat?_of_promote h'), Int.cast_lt,
    Int64.lt_iff_toInt_lt]

end Promoted

theorem promote_zero {ε : Type} (label : ε) : promote 0 label = .ok (.finite false .zero) := by
  have hzero : (0 : ℤ).natAbs < Binary64.digitBound := by decide
  refine promote_eq_ok_iff.mpr ⟨by decide, ?_⟩
  rw [Int64.toInt_zero, Binary64.nearestTo_eq_ofInt hzero, Binary64.ofInt_zero]

namespace Value

/-- The integer has at most 53 binary digits, if the value is one. -/
def Fits : Value → Prop
  | integer word => |word.toInt| ≤ 2 ^ 53 - 1
  | real _ => True

/-- The real is the exact value: equal to an integer, and without a sign if that is zero. -/
def IsReal : Value → Binary64 → Prop
  | integer word, number => number.toRat? = some (word.toInt : ℚ) ∧ number ≠ .negativeZero
  | real other, number => number = other

theorem exists_toReal_of_fits {value : Value} (h : value.Fits) :
    ∃ number, value.IsReal number ∧ value.toReal = .ok number := by
  cases value with
  | real other => exact ⟨other, rfl, rfl⟩
  | integer word =>
    have hsmall : |word.toInt| ≤ 2 ^ 53 - 1 := h
    refine ⟨_, ⟨toRat?_nearestTo hsmall, ?_⟩, (promote_eq word _).trans (if_pos hsmall)⟩
    rw [Binary64.nearestTo_eq_ofInt (Binary64.natAbs_lt_digitBound_iff.mpr hsmall)]
    exact Binary64.ofInt_ne_negativeZero _ _

theorem toReal_of_not_fits {word : Int64} (h : ¬(integer word).Fits) :
    (integer word).toReal = .error (.precisionLoss word) :=
  (promote_eq word _).trans (if_neg h)

end Value

namespace Operator
variable {op : Operator} {left right : Value}

/-- A step with a real in it is made on reals, unless it divides by zero. -/
lemma combine_of_real (hreal : ∃ number, left = .real number ∨ right = .real number)
    (hdivisor : ¬(op = div ∧ right.isZero = true)) :
    op.combine left right = op.combinePromoted left right := by
  rcases combine_cases op left right with
    ⟨hop, hzero, -⟩ | ⟨-, ⟨a, b, rfl, rfl, -⟩ | ⟨-, hstep⟩⟩
  · exact absurd ⟨hop, hzero⟩ hdivisor
  · obtain ⟨number, hnumber | hnumber⟩ := hreal <;> cases hnumber
  · exact hstep

lemma combinePromoted_of_fits (hleft : left.Fits) (hright : right.Fits) :
    ∃ a b, left.IsReal a ∧ right.IsReal b ∧
      op.combinePromoted left right = op.combineReal a b := by
  obtain ⟨a, ha, hpromoted⟩ := Value.exists_toReal_of_fits hleft
  obtain ⟨b, hb, hpromoted'⟩ := Value.exists_toReal_of_fits hright
  refine ⟨a, b, ha, hb, ?_⟩
  rw [combinePromoted, hpromoted, hpromoted']
  rfl

/-- An integer beside a real is the one that is reported, on whichever side it stands. -/
lemma combinePromoted_of_not_fits {word : Int64}
    (hreal : ∃ number, left = .real number ∨ right = .real number)
    (hword : left = .integer word ∨ right = .integer word) (h : ¬(Value.integer word).Fits) :
    op.combinePromoted left right = .error (.precisionLoss word) := by
  have hrefused := Value.toReal_of_not_fits h
  -- The left operand is promoted first, but only an integer can fail, and the other is a real.
  rcases hword with rfl | rfl
  · exact combinePromoted_of_left hrefused
  · obtain ⟨number, rfl | hnumber⟩ := hreal
    · exact combinePromoted_of_right rfl hrefused
    · cases hnumber

/-- Promotion is exact wherever it succeeds, and it succeeds for the integers of at most 53 binary
digits: the nearest real is then the integer itself, zero has no sign, and integers keep their
order and are kept apart. So a step with a real in it that does not divide by zero is the step on
the exact values of its operands, or else reports the integer among them. -/
theorem promotion_never_rounds {ε : Type} (label : ε) (position : ℕ) :
    (∀ word : Int64,
      ((∃ number, promote word label = .ok number) ↔ |word.toInt| ≤ 2 ^ 53 - 1) ∧
        (2 ^ 53 - 1 < |word.toInt| → promote word label = .error label) ∧
        ∀ number, promote word label = .ok number →
          number = .nearestTo word.toInt ∧ number.toRat? = some (word.toInt : ℚ)) ∧
    promote 0 label = .ok (.finite false .zero) ∧
    (∀ (word other : Int64) number number', promote word label = .ok number →
      promote other label = .ok number' →
        (number = number' ↔ word = other) ∧ (number.Less number' ↔ word < other)) ∧
    ∀ (op : Operator) (left right : Value),
      (∃ number, left = .real number ∨ right = .real number) →
        let result := located position (op.combine left right)
        (op = div ∧ right.isZero = true → result = .error ⟨position, .divisionByZero⟩) ∧
        (¬(op = div ∧ right.isZero = true) →
          (∀ word : Int64, left = .integer word ∨ right = .integer word →
            2 ^ 53 - 1 < |word.toInt| → result = .error ⟨position, .precisionLoss word⟩) ∧
          (left.Fits → right.Fits → ∃ a b, left.IsReal a ∧ right.IsReal b ∧
            result = located position (op.combineReal a b))) := by
  refine ⟨fun word => ⟨?_, ?_, ?_⟩, promote_zero label, ?_, fun op left right hreal => ⟨?_, ?_⟩⟩
  · simp only [promote_eq_ok_iff, exists_and_left, exists_eq, and_true]
  · intro hlarge
    exact (promote_eq word label).trans (if_neg (Int.not_le.mpr hlarge))
  · intro number hnumber
    exact ⟨(promote_eq_ok_iff.mp hnumber).2, toRat?_of_promote hnumber⟩
  · intro word other number number' hnumber hnumber'
    exact ⟨promoted_eq_iff hnumber hnumber', promoted_less_iff hnumber hnumber'⟩
  · intro hzero
    exact congrArg (located position) (if_pos hzero)
  · intro hdivisor
    rw [combine_of_real hreal hdivisor]
    constructor
    · intro word hword hlarge
      rw [combinePromoted_of_not_fits hreal hword (Int.not_le.mpr hlarge)]
      rfl
    · intro hleft hright
      obtain ⟨a, b, ha, hb, hstep⟩ := combinePromoted_of_fits hleft hright
      exact ⟨a, b, ha, hb, congrArg _ hstep⟩

/-- The outermost integers that are promoted keep their order. The least integer of all is refused
beside a real, but not before a division by zero. -/
theorem promotion_never_rounds_least :
    (∃ number number', promote (-9007199254740991) () = .ok number ∧
      promote 9007199254740991 () = .ok number' ∧ number.toRat? = some (-9007199254740991) ∧
        number.Less number') ∧
    promote (-9223372036854775808) () = .error () ∧
    located 3 (sub.combine (.real .negativeZero) (.integer (-9223372036854775808))) =
      .error ⟨3, .precisionLoss (-9223372036854775808)⟩ ∧
    located 3 (div.combine (.integer (-9223372036854775808)) (.real .negativeZero)) =
      .error ⟨3, .divisionByZero⟩ ∧
    ∃ a, (Value.integer 9007199254740991).IsReal a ∧
      located 3 (mul.combine (.integer 9007199254740991) (.real .negativeZero)) =
        located 3 (mul.combineReal a .negativeZero) := by
  obtain ⟨hwords, -, hordered, hsteps⟩ := promotion_never_rounds () 3
  obtain ⟨hlow, -, hexact⟩ := hwords (-9007199254740991)
  obtain ⟨hhigh, -⟩ := hwords 9007199254740991
  obtain ⟨-, hrefused, -⟩ := hwords (-9223372036854775808)
  obtain ⟨number, hnumber⟩ := hlow.mpr (by decide)
  obtain ⟨number', hnumber'⟩ := hhigh.mpr (by decide)
  have hvalue : number.toRat? = some (-9007199254740991) := by
    have hword : (-9007199254740991 : Int64).toInt = -9007199254740991 := by decide
    rw [(hexact number hnumber).2, hword]
    norm_cast
  obtain ⟨-, hsub⟩ :=
    hsteps sub (.real .negativeZero) (.integer (-9223372036854775808)) ⟨_, .inl rfl⟩
  obtain ⟨hdiv, -⟩ :=
    hsteps div (.integer (-9223372036854775808)) (.real .negativeZero) ⟨_, .inr rfl⟩
  obtain ⟨-, hmul⟩ := hsteps mul (.integer 9007199254740991) (.real .negativeZero) ⟨_, .inr rfl⟩
  have hfits : (Value.integer 9007199254740991).Fits :=
    show |(9007199254740991 : Int64).toInt| ≤ 2 ^ 53 - 1 by decide
  obtain ⟨a, b, ha, rfl, hstep⟩ := (hmul (by decide)).2 hfits trivial
  exact ⟨⟨number, number', hnumber, hnumber', hvalue,
      (hordered _ _ _ _ hnumber hnumber').2.mpr (by decide)⟩, hrefused (by decide),
    (hsub (by decide)).1 _ (.inr rfl) (by decide), hdiv (by decide), a, ha, hstep⟩

end Operator

end PrefixArithmetic
