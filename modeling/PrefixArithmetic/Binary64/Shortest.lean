import PrefixArithmetic.Binary64.Basic

/-!
# Shortest decimal text

One quantum has 1074 decimal places, so a magnitude is a whole number of units
of `10^-1074`, and so is every shorter decimal. A decimal reads back as a
magnitude if it rounds to it. The shortest text of a magnitude is found by trying
ever finer decimal grids: on the coarsest grid with a point that reads back, one
of the two neighbours of the exact value does. Of two neighbours that read back
the nearer is written, and from halfway the upper one.
-/
namespace PrefixArithmetic.Binary64

/-- One quantum has as many decimal places as binary ones. -/
def places : Nat := binaryPlaces

/-- A quantum in units of the last decimal place: `2^-1074 = 5^1074 * 10^-1074`. -/
def quantumUnits : Nat := Nat.pow 5 places

namespace Magnitude

/-- The exact value in units of the last decimal place. -/
def exactUnits (magnitude : Magnitude) : Nat := magnitude.quanta * quantumUnits

/-- The binary64 magnitude nearest to the decimal is this one. -/
def readsBack (magnitude : Magnitude) (units : Nat) : Bool :=
  round units quantumUnits == magnitude.quanta

/-- The neighbour of the exact value on a grid that stands for it. -/
def onGrid? (magnitude : Magnitude) (step : Nat) : Option Nat :=
  let exact := magnitude.exactUnits
  let lower := exact / step * step
  let upper := lower + step
  if magnitude.readsBack upper && (upper - exact ≤ exact - lower || !magnitude.readsBack lower) then
    some upper
  else if magnitude.readsBack lower then some lower
  else none

theorem readsBack_of_onGrid? {magnitude : Magnitude} {step units : Nat}
    (h : magnitude.onGrid? step = some units) : magnitude.readsBack units := by
  unfold onGrid? at h
  dsimp only at h
  split at h
  next hupper =>
    cases h
    exact (Bool.and_eq_true_iff.mp hupper).1
  next =>
    split at h
    next hlower => cases h; exact hlower
    next => cases h

theorem readsBack_exactUnits (magnitude : Magnitude) :
    magnitude.readsBack magnitude.exactUnits := by
  have hpos : 0 < quantumUnits := Nat.pow_pos (by decide)
  simp [readsBack, exactUnits, round_mul_right hpos magnitude.spaced]

/-- The first hit on the grids of `10^exponent` units and finer. -/
def shortestFrom (magnitude : Magnitude) : Nat → Nat
  | 0 => magnitude.exactUnits
  | exponent + 1 =>
    (magnitude.onGrid? (Nat.pow 10 (exponent + 1))).getD (magnitude.shortestFrom exponent)

theorem readsBack_shortestFrom (magnitude : Magnitude) (exponent : Nat) :
    magnitude.readsBack (magnitude.shortestFrom exponent) := by
  induction exponent with
  | zero => exact magnitude.readsBack_exactUnits
  | succ exponent ih =>
    rw [shortestFrom]
    cases h : magnitude.onGrid? (Nat.pow 10 (exponent + 1)) with
    | none => exact ih
    | some units => exact readsBack_of_onGrid? h

/-- The decimal of fewest digits that reads back. Ten to a third of the binary digits is more
than the exact value, so no coarser grid is left out. -/
def shortest (magnitude : Magnitude) : Nat :=
  magnitude.shortestFrom (magnitude.exactUnits.log2 / 3 + 1)

/-- The number that was written is the number that is read. -/
theorem readsBack_shortest (magnitude : Magnitude) : magnitude.readsBack magnitude.shortest :=
  readsBack_shortestFrom magnitude _

end Magnitude

/-- One, in units of the last decimal place. -/
def oneUnits : Nat := Nat.pow 10 places

/-- Units of the last decimal place as a decimal without needless zeros or point. -/
def unitsText (units : Nat) : String :=
  let digits := Nat.toDigits 10 (units % oneUnits)
  let padded := List.replicate (places - digits.length) '0' ++ digits
  let kept := (padded.reverse.dropWhile (· == '0')).reverse
  (units / oneUnits).repr ++ if kept.isEmpty then "" else "." ++ String.ofList kept

def signText (negative : Bool) : String := if negative then "-" else ""

/-- Positional decimal text, never with an exponent. -/
def text : Binary64 → String
  | finite negative magnitude => signText negative ++ unitsText magnitude.shortest
  | infinite negative => signText negative ++ "inf"
  | nan => "NaN"

end PrefixArithmetic.Binary64
