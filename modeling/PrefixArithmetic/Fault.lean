import PrefixArithmetic.Integer64
import PrefixArithmetic.Operator

/-!
# Faults

A fault is a cause at the position of a token. Each stage has causes of its own;
what is computed without regard to positions reports a bare cause, and the
operation it was computed for adds where it stands.
-/
namespace PrefixArithmetic

/-- Why tokens form no expression. -/
inductive ParseCause where
  | endOfInput
  | literalTooLarge (token : String)
  | nestingTooDeep (limit : Nat)
  deriving DecidableEq

/-- Why an expression has no value. -/
inductive EvalCause where
  | unknownOperator (name : String)
  | missingOperand (operator : Operator)
  | divisionByZero
  | overflow (operator : Operator)
  | underflow (operator : Operator)
  | precisionLoss (value : Int64)
  deriving DecidableEq

/-- Why an expression has no infix code. -/
inductive CodeCause where
  | unknownOperator (name : String)
  deriving DecidableEq

/-- A cause and the index of the token it concerns. -/
structure Fault (Cause : Type) where
  position : Nat
  cause : Cause
  deriving DecidableEq

/-- A cause at a position is a fault. -/
def located {Cause α : Type} (position : Nat) (found : Except Cause α) : Except (Fault Cause) α :=
  found.mapError (Fault.mk position)

@[simp] theorem located_ok {Cause α : Type} (position : Nat) (a : α) :
    located position (.ok a : Except Cause α) = .ok a := rfl

@[simp] theorem located_error {Cause α : Type} (position : Nat) (cause : Cause) :
    located position (.error cause : Except Cause α) = .error ⟨position, cause⟩ := rfl

/-- Causes that can be told to a reader. -/
class HasMessage (Cause : Type) where
  /-- What went wrong, in one sentence. -/
  message : Cause → String

instance : HasMessage ParseCause where
  message
    | .endOfInput => "Unexpected end of input."
    | .literalTooLarge token => "Literal " ++ token ++ " is too large."
    | .nestingTooDeep limit => "Expression nests deeper than " ++ limit.repr ++ " operations."

def unknownOperatorMessage (name : String) : String := "Unknown operator '" ++ name ++ "'."

instance : HasMessage EvalCause where
  message
    | .unknownOperator name => unknownOperatorMessage name
    | .missingOperand op => "'" ++ op.keyword ++ "' needs at least one operand."
    | .divisionByZero => "Division by zero."
    | .overflow op => "Overflow while computing '" ++ op.keyword ++ "'."
    | .underflow op => "Real underflow while computing '" ++ op.keyword ++ "'."
    | .precisionLoss value =>
      Integer64.text value ++ " cannot be represented exactly as a real."

instance : HasMessage CodeCause where
  message
    | .unknownOperator name => unknownOperatorMessage name

/-- The sentence of the cause, after the position it concerns. -/
def Fault.message {Cause : Type} [HasMessage Cause] (fault : Fault Cause) : String :=
  "Error at token " ++ fault.position.repr ++ ": " ++ HasMessage.message fault.cause

end PrefixArithmetic
