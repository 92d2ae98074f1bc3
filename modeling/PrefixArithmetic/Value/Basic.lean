import PrefixArithmetic.Binary64.Shortest
import PrefixArithmetic.Integer64

/-!
# Values

A value is a 64-bit integer or a binary64 real. An integer becomes a real only
if it is smaller in magnitude than `2^53`, where no integer is rounded.
-/
namespace PrefixArithmetic

inductive Value where
  | integer (value : Int64)
  | real (value : Binary64)
  deriving DecidableEq

/-- The real equal to an integer that has at most 53 binary digits. -/
def promote? (value : Int64) : Option Binary64 :=
  if h : value.toInt.natAbs < Binary64.digitBound then some (.ofInt value.toInt h) else none

theorem promote?_eq_none_iff {value : Int64} :
    promote? value = none ↔ Binary64.digitBound ≤ value.toInt.natAbs := by
  unfold promote?
  split <;> simp <;> omega

/-- The real equal to an integer, or what is to be reported if there is none for certain. -/
def promote {ε : Type} (value : Int64) (refusal : ε) : Except ε Binary64 :=
  match promote? value with
  | some real => .ok real
  | none => .error refusal

namespace Value

/-- Decimal text. A real that is whole is written like an integer. -/
def text : Value → String
  | integer value => Integer64.text value
  | real value => value.text

def isZero : Value → Bool
  | integer value => value == 0
  | real value => value.isZero

def integer? : Value → Option Int64
  | integer value => some value
  | real _ => none

end Value

end PrefixArithmetic
