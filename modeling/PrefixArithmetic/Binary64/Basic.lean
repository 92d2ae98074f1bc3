import PrefixArithmetic.Binary64.Rounding

/-!
# Binary64 numbers

A binary64 number is finite, with a sign and a magnitude, or infinite, or not a
number. Each operation is exact on the quanta of its operands and then rounded
once, so its result is the binary64 number nearest to the exact one; a magnitude
of `2^1024` or more is infinite. Zero has a sign like any other number.
-/
namespace PrefixArithmetic

namespace Binary64

/-- One quantum has this many binary places. -/
@[irreducible] def binaryPlaces : Nat := 1074

/-- One, in quanta. -/
def one : Nat := Nat.pow 2 binaryPlaces

/-- A finite magnitude has at most this many binary digits: 1024 and the binary places. -/
@[irreducible] def binaryDigits : Nat := 2098

/-- Finite magnitudes are below `2^1024`. -/
def quantaBound : Nat := Nat.pow 2 binaryDigits

theorem binaryPlaces_le : 53 + binaryPlaces ≤ binaryDigits := by
  unfold binaryPlaces binaryDigits
  decide

theorem shift_le_binaryDigits {shift : Nat} (h : shift ≤ 2045) : 53 + shift ≤ binaryDigits := by
  unfold binaryDigits
  omega

/-- A finite magnitude, counted in quanta. -/
structure Magnitude where
  quanta : Nat
  bounded : quanta < quantaBound
  spaced : spacing quanta ∣ quanta
  deriving DecidableEq

namespace Magnitude

def zero : Magnitude := ⟨0, Nat.two_pow_pos _, Nat.dvd_zero _⟩

/-- The magnitude nearest to a quotient of quanta, if it is finite. -/
def round? (num den : Nat) : Option Magnitude :=
  if h : round num den < quantaBound then
    some ⟨round num den, h, spacing_round_dvd num den⟩
  else none

/-- At most 53 binary digits, shifted. -/
def ofDigits (digits shift : Nat) (hdigits : digits < digitBound)
    (hshift : 53 + shift ≤ binaryDigits) : Magnitude :=
  ⟨digits * Nat.pow 2 shift, mul_two_pow_lt hdigits hshift,
    spacing_mul_two_pow_dvd shift (Nat.le_of_lt hdigits)⟩

end Magnitude

end Binary64

open Binary64 in
inductive Binary64 where
  | finite (negative : Bool) (magnitude : Magnitude)
  | infinite (negative : Bool)
  | nan
  deriving DecidableEq

namespace Binary64

/-- The number whose exact magnitude is a quotient of quanta, rounded. -/
def rounded (negative : Bool) (num den : Nat) : Binary64 :=
  match Magnitude.round? num den with
  | some magnitude => finite negative magnitude
  | none => infinite negative

def isFinite : Binary64 → Bool
  | finite _ _ => true
  | _ => false

/-- Zero of either sign. -/
def isZero : Binary64 → Bool
  | finite _ magnitude => magnitude.quanta == 0
  | _ => false

def neg : Binary64 → Binary64
  | finite negative magnitude => finite (!negative) magnitude
  | infinite negative => infinite (!negative)
  | nan => nan

/-- The quanta of a magnitude, below zero if it is negative. -/
def signed (negative : Bool) (magnitude : Magnitude) : Int :=
  if negative then -(magnitude.quanta : Int) else magnitude.quanta

/-- A sum that is exactly zero is negative only if both terms are. -/
def add : Binary64 → Binary64 → Binary64
  | finite s m, finite t n =>
    let total := signed s m + signed t n
    if total = 0 then finite (s && t) .zero else rounded (total < 0) total.natAbs 1
  | infinite s, infinite t => if s = t then infinite s else nan
  | infinite s, finite _ _ => infinite s
  | finite _ _, infinite t => infinite t
  | nan, _ => nan
  | _, nan => nan

def sub (a b : Binary64) : Binary64 := add a (neg b)

def mul : Binary64 → Binary64 → Binary64
  | finite s m, finite t n => rounded (s ^^ t) (m.quanta * n.quanta) one
  | infinite s, infinite t => infinite (s ^^ t)
  | infinite s, finite t n => if n.quanta = 0 then nan else infinite (s ^^ t)
  | finite s m, infinite t => if m.quanta = 0 then nan else infinite (s ^^ t)
  | nan, _ => nan
  | _, nan => nan

def div : Binary64 → Binary64 → Binary64
  | finite s m, finite t n =>
    if n.quanta = 0 then if m.quanta = 0 then nan else infinite (s ^^ t)
    else rounded (s ^^ t) (m.quanta * one) n.quanta
  | infinite _, infinite _ => nan
  | infinite s, finite t _ => infinite (s ^^ t)
  | finite s _, infinite t => finite (s ^^ t) .zero
  | nan, _ => nan
  | _, nan => nan

/-- The number equal to an integer of at most 53 binary digits. -/
def ofInt (n : Int) (h : n.natAbs < digitBound) : Binary64 :=
  finite (n < 0) (.ofDigits n.natAbs binaryPlaces h binaryPlaces_le)

/-- The size of the fraction, which has 52 bits. -/
def fractionSize : Nat := 4503599627370496

/-- The size of the exponent, which has eleven bits. -/
def exponentSize : Nat := 2048

theorem fraction_lt (n : Nat) : n % fractionSize < digitBound := by
  unfold fractionSize digitBound
  omega

theorem normal_lt (n : Nat) : fractionSize + n % fractionSize < digitBound := by
  unfold fractionSize digitBound
  omega

theorem exponent_le {n : Nat} (h : n % exponentSize ≠ 2047) : n % exponentSize - 1 ≤ 2045 := by
  unfold exponentSize at *
  omega

/-- The number with these bits: a sign, an exponent and a fraction. The largest exponent is
for what is not finite, and the least for magnitudes without a leading binary digit. -/
def ofBits (bits : UInt64) : Binary64 :=
  let high := bits.toNat / fractionSize
  let negative := decide (exponentSize ≤ high)
  if high % exponentSize = 0 then
    finite negative (.ofDigits (bits.toNat % fractionSize) 0 (fraction_lt _)
      (shift_le_binaryDigits (Nat.zero_le _)))
  else if h : high % exponentSize = 2047 then
    if bits.toNat % fractionSize = 0 then infinite negative else nan
  else
    finite negative (.ofDigits (fractionSize + bits.toNat % fractionSize)
      (high % exponentSize - 1) (normal_lt _) (shift_le_binaryDigits (exponent_le h)))

end Binary64

end PrefixArithmetic
