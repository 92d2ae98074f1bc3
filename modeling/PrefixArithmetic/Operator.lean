/-!
# Operators and heads

The language has four operators, each with a prefix keyword and an infix
symbol. What stands in front of operands is a head: an operator, or a word that
names none and is kept as it was written.
-/
namespace PrefixArithmetic

inductive Operator where
  | sum
  | sub
  | div
  | mul
  deriving DecidableEq

namespace Operator

def all : List Operator := [sum, sub, div, mul]

@[simp] theorem mem_all (op : Operator) : op ∈ all := by cases op <;> decide

/-- The word that stands in front of the operands. -/
def keyword : Operator → String
  | sum => "sum"
  | sub => "sub"
  | div => "div"
  | mul => "mul"

/-- The sign that stands between operands in infix code. -/
def symbol : Operator → String
  | sum => "+"
  | sub => "-"
  | div => "/"
  | mul => "*"

theorem symbol_injective {op other : Operator} (h : op.symbol = other.symbol) : op = other := by
  revert h
  cases op <;> cases other <;> decide

def ofKeyword? (word : String) : Option Operator := all.find? (·.keyword == word)

theorem ofKeyword?_eq_some_iff {word : String} {op : Operator} :
    ofKeyword? word = some op ↔ op.keyword = word := by
  constructor
  · intro h
    have := List.find?_some h
    simpa using this
  · rintro rfl
    cases op <;> rfl

@[simp] theorem ofKeyword?_keyword (op : Operator) : ofKeyword? op.keyword = some op :=
  ofKeyword?_eq_some_iff.mpr rfl

theorem ofKeyword?_eq_none_iff {word : String} :
    ofKeyword? word = none ↔ ∀ op : Operator, op.keyword ≠ word := by
  simp [ofKeyword?, List.find?_eq_none]

end Operator

/-- What an operation applies. A word that is no keyword is kept, and is refused
only where the operation has to be carried out or written as code. -/
inductive Head where
  | known (operator : Operator)
  | unknown (name : String)
  deriving DecidableEq

namespace Head

def ofWord (word : String) : Head :=
  match Operator.ofKeyword? word with
  | some op => known op
  | none => unknown word

/-- The word a head is written with. -/
def word : Head → String
  | known op => op.keyword
  | unknown name => name

@[simp] theorem ofWord_keyword (op : Operator) : ofWord op.keyword = known op := by simp [ofWord]

@[simp] theorem word_ofWord (text : String) : (ofWord text).word = text := by
  unfold ofWord
  split
  next op h => exact Operator.ofKeyword?_eq_some_iff.mp h
  next => rfl

end Head

end PrefixArithmetic
