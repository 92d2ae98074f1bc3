/-!
# 64-bit integers

Integers keep to the range from `-2^63` to `2^63 - 1`. An exact result is turned
into one only if it lies there, so nothing wraps. In text an integer is a row of
decimal digits with at most one sign before it.
-/
namespace PrefixArithmetic.Integer64

/-- The range of 64 bits. -/
def InRange (n : Int) : Prop := -9223372036854775808 ≤ n ∧ n ≤ 9223372036854775807

instance (n : Int) : Decidable (InRange n) := inferInstanceAs (Decidable (_ ∧ _))

theorem inRange_toInt (word : Int64) : InRange word.toInt := by
  have hlo := word.le_toInt
  have hhi := word.toInt_lt
  exact ⟨by omega, by omega⟩

/-- The integer equal to `n`, if it has 64 bits. -/
def ofInt? (n : Int) : Option Int64 := if InRange n then some (Int64.ofInt n) else none

theorem ofInt?_eq_some_iff {n : Int} {word : Int64} : ofInt? n = some word ↔ word.toInt = n := by
  unfold ofInt?
  constructor
  · intro h
    split at h
    next hn =>
      cases h
      unfold InRange at hn
      exact Int64.toInt_ofInt_of_le (by omega) (by omega)
    next => cases h
  · rintro rfl
    rw [if_pos (inRange_toInt word), Int64.ofInt_toInt]

@[simp] theorem ofInt?_toInt (word : Int64) : ofInt? word.toInt = some word :=
  ofInt?_eq_some_iff.mpr rfl

/-- Decimal text, with a sign on negative integers only. -/
def text (word : Int64) : String := word.toInt.repr

/-- Only the ten decimal digits, and at least one of them. -/
def isDigits (cs : List Char) : Bool := !cs.isEmpty && cs.all Char.isDigit

/-- The number that a row of decimal digits stands for. -/
def magnitude? (cs : List Char) : Option Nat :=
  if isDigits cs then some (Nat.ofDigitChars 10 cs 0) else none

/-- The number with or without a sign; two signs are none. -/
def signed? : List Char → Option Int
  | '+' :: cs => (magnitude? cs).map fun n => (n : Int)
  | '-' :: cs => (magnitude? cs).map fun n => -(n : Int)
  | cs => (magnitude? cs).map fun n => (n : Int)

/-- Reads an integer, and refuses one that does not have 64 bits. -/
def ofText? (cs : List Char) : Option Int64 := (signed? cs).bind ofInt?

end PrefixArithmetic.Integer64
