import PrefixArithmetic.Proofs.Walk

/-!
# Formulas

A formula is a derivation of infix code: a numeral, or formulas in brackets with
one operator between each two of them. Code is the text of a formula, so that
what is to be said of code can be said of formulas. A text belongs to one
formula at most: after a bracket or a numeral it is always the next character
that tells how the formula goes on.
-/
namespace PrefixArithmetic

/-- A decimal numeral with an optional sign. -/
structure Numeral where
  negative : Bool
  digits : List Char
  isDigits : Integer64.isDigits digits = true

namespace Numeral

def text (numeral : Numeral) : List Char :=
  if numeral.negative then '-' :: numeral.digits else numeral.digits

/-- The integer that a numeral stands for. -/
def value (numeral : Numeral) : ℤ :=
  if numeral.negative then -(Nat.ofDigitChars 10 numeral.digits 0 : ℤ)
  else Nat.ofDigitChars 10 numeral.digits 0

lemma isDigits_toDigits (n : ℕ) : Integer64.isDigits (Nat.toDigits 10 n) = true := by
  have hall : ∀ c ∈ Nat.toDigits 10 n, c.isDigit = true := fun c hc =>
    Nat.isDigit_of_mem_toDigits (by decide) (by decide) hc
  simpa [Integer64.isDigits, Nat.toDigits_ne_nil] using hall

/-- The canonical numeral of an integer: no sign unless it is negative, no needless zero. -/
def ofInt (n : ℤ) : Numeral := ⟨n < 0, Nat.toDigits 10 n.natAbs, isDigits_toDigits _⟩

@[simp] theorem text_ofInt (n : ℤ) : (ofInt n).text = n.repr.toList := by
  cases n with
  | ofNat m => simp [ofInt, text, Int.repr]
  | negSucc m => simp [ofInt, text, Int.repr, Int.negSucc_lt_zero]

@[simp] theorem value_ofInt (n : ℤ) : (ofInt n).value = n := by
  simp only [ofInt, value, Nat.ofDigitChars_ten_toDigits, decide_eq_true_eq]
  split_ifs <;> omega

end Numeral

inductive Formula where
  | integer (numeral : Numeral)
  | empty
  | alone (inner : Formula)
  | joined (op : Operator) (first second : Formula) (rest : List Formula)

namespace Formula

/-- Induction on formulas, with further parts given as the members of a list. -/
@[induction_eliminator]
theorem induct {motive : Formula → Prop} (integer : ∀ numeral, motive (.integer numeral))
    (empty : motive .empty) (alone : ∀ inner, motive inner → motive (.alone inner))
    (joined : ∀ op first second rest, motive first → motive second →
      (∀ part ∈ rest, motive part) → motive (.joined op first second rest))
    (formula : Formula) : motive formula :=
  Formula.rec (motive_2 := fun rest => ∀ part ∈ rest, motive part) integer empty alone joined
    (fun _ h => absurd h List.not_mem_nil)
    (fun _ _ hfirst hrest _ h =>
      (List.mem_cons.mp h).elim (fun heq => heq ▸ hfirst) (fun hmem => hrest _ hmem)) formula

/-- The usual sign of an operator. -/
def sign : Operator → Char
  | .sum => '+'
  | .sub => '-'
  | .div => '/'
  | .mul => '*'

/-- An operator with the blanks around it. -/
def separator (op : Operator) : List Char := [' ', sign op, ' ']

@[simp] theorem symbol_eq_sign (op : Operator) : op.symbol.toList = [sign op] := by
  cases op <;> rfl

lemma sign_injective : Function.Injective sign := by
  intro op other h
  have hsymbol : op.symbol.toList = other.symbol.toList := by
    rw [symbol_eq_sign, symbol_eq_sign, h]
  exact Operator.symbol_injective (String.toList_inj.mp hsymbol)

mutual
/-- The code that a formula derives. -/
def text : Formula → List Char
  | integer numeral => numeral.text
  | empty => ['(', ')']
  | alone inner => '(' :: (text inner ++ [')'])
  | joined op first second rest =>
    '(' :: (text first ++ (separator op ++ (text second ++ closing op rest)))

/-- The further parts of a group, each with the operator before it, and its last bracket. -/
def closing (op : Operator) : List Formula → List Char
  | [] => [')']
  | part :: rest => separator op ++ (text part ++ closing op rest)
end

section Append
variable (rest : List Char)

theorem text_empty_append : empty.text ++ rest = '(' :: ')' :: rest := by
  rw [text]
  rfl

theorem text_alone_append (inner : Formula) :
    (alone inner).text ++ rest = '(' :: (inner.text ++ ')' :: rest) := by
  simp [text]

theorem text_joined_append (op : Operator) (first second : Formula) (parts : List Formula) :
    (joined op first second parts).text ++ rest =
      '(' :: (first.text ++ (separator op ++ (second.text ++ (closing op parts ++ rest)))) := by
  simp [text]

theorem closing_nil_append (op : Operator) : closing op [] ++ rest = ')' :: rest := by
  rw [closing]
  rfl

theorem closing_cons_append (op : Operator) (part : Formula) (parts : List Formula) :
    closing op (part :: parts) ++ rest =
      separator op ++ (part.text ++ (closing op parts ++ rest)) := by
  simp [closing]

end Append

/-- No brackets are empty. -/
inductive Filled : Formula → Prop
  | integer (numeral : Numeral) : Filled (.integer numeral)
  | alone {inner : Formula} (filled : Filled inner) : Filled (.alone inner)
  | joined {first second : Formula} {rest : List Formula} (op : Operator)
      (firstFilled : Filled first) (secondFilled : Filled second)
      (restFilled : ∀ part ∈ rest, Filled part) : Filled (.joined op first second rest)

end Formula

/-- The characters do not go on with a digit, so that a numeral before them ends there. -/
def NoDigit (rest : List Char) : Prop := ∀ c ∈ rest.head?, c.isDigit = false

lemma takeWhile_isDigit_append {digits rest : List Char}
    (hdigits : ∀ c ∈ digits, c.isDigit = true) (hrest : NoDigit rest) :
    (digits ++ rest).takeWhile Char.isDigit = digits := by
  have hnone : rest.takeWhile Char.isDigit = [] := by
    cases rest with
    | nil => rfl
    | cons c rest => rw [List.takeWhile_cons_of_neg]; simp [hrest c rfl]
  rw [List.takeWhile_append_of_pos hdigits, hnone, List.append_nil]

namespace Numeral

lemma forall_isDigit (numeral : Numeral) : ∀ c ∈ numeral.digits, c.isDigit = true := by
  have h := numeral.isDigits
  simp only [Integer64.isDigits, Bool.and_eq_true, List.all_eq_true] at h
  exact h.2

lemma exists_digits_eq_cons (numeral : Numeral) :
    ∃ c rest, numeral.digits = c :: rest ∧ c.isDigit = true := by
  have h := numeral.isDigits
  simp only [Integer64.isDigits, Bool.and_eq_true, Bool.not_eq_true', List.isEmpty_eq_false_iff,
    List.all_eq_true] at h
  obtain ⟨c, rest, heq⟩ := List.exists_cons_of_ne_nil h.1
  exact ⟨c, rest, heq, h.2 c (by simp [heq])⟩

/-- A numeral starts with a digit or its sign, and not with a bracket. -/
lemma exists_text_eq_cons (numeral : Numeral) :
    ∃ c rest, numeral.text = c :: rest ∧ c ≠ '(' ∧ c ≠ ')' := by
  obtain ⟨c, rest, heq, hdigit⟩ := numeral.exists_digits_eq_cons
  unfold text
  split_ifs
  · exact ⟨'-', numeral.digits, rfl, by decide, by decide⟩
  · refine ⟨c, rest, heq, ?_, ?_⟩ <;> intro hc <;> subst hc <;> exact absurd hdigit (by decide)

/-- No digit is a sign. -/
lemma digits_append_ne (numeral : Numeral) (rest rest' : List Char) :
    numeral.digits ++ rest ≠ '-' :: rest' := by
  intro h
  obtain ⟨c, cs, heq, hdigit⟩ := numeral.exists_digits_eq_cons
  rw [heq, List.cons_append] at h
  rw [(List.cons.inj h).1] at hdigit
  exact absurd hdigit (by decide)

/-- Digits before something else can be told apart from it. -/
lemma digits_append_cancel {numeral other : Numeral} {rest rest' : List Char}
    (hrest : NoDigit rest) (hrest' : NoDigit rest')
    (h : numeral.digits ++ rest = other.digits ++ rest') :
    numeral.digits = other.digits ∧ rest = rest' := by
  have hdigits : numeral.digits = other.digits := by
    rw [← takeWhile_isDigit_append numeral.forall_isDigit hrest, h,
      takeWhile_isDigit_append other.forall_isDigit hrest']
  rw [hdigits] at h
  exact ⟨hdigits, List.append_cancel_left h⟩

theorem text_append_cancel {numeral other : Numeral} {rest rest' : List Char}
    (hrest : NoDigit rest) (hrest' : NoDigit rest')
    (h : numeral.text ++ rest = other.text ++ rest') : numeral = other ∧ rest = rest' := by
  unfold text at h
  split_ifs at h with hsign hsign' hsign'
  · obtain ⟨hdigits, heq⟩ := digits_append_cancel hrest hrest' (List.cons.inj h).2
    rcases numeral with ⟨negative, digits, isDigits⟩
    rcases other with ⟨negative', digits', isDigits'⟩
    simp_all
  · exact absurd h.symm (other.digits_append_ne rest' _)
  · exact absurd h (numeral.digits_append_ne rest _)
  · obtain ⟨hdigits, heq⟩ := digits_append_cancel hrest hrest' h
    rcases numeral with ⟨negative, digits, isDigits⟩
    rcases other with ⟨negative', digits', isDigits'⟩
    simp_all

end Numeral

namespace Formula

lemma separator_append_cancel {op other : Operator} {rest rest' : List Char}
    (h : separator op ++ rest = separator other ++ rest') : op = other ∧ rest = rest' := by
  have hsign : sign op = sign other := (List.cons.inj (List.cons.inj h).2).1
  obtain rfl := sign_injective hsign
  exact ⟨rfl, List.append_cancel_left h⟩

lemma exists_text_eq_cons (formula : Formula) : ∃ c rest, formula.text = c :: rest ∧ c ≠ ')' := by
  cases formula with
  | integer numeral =>
    obtain ⟨c, rest, heq, -, hc⟩ := numeral.exists_text_eq_cons
    exact ⟨c, rest, by rw [text, heq], hc⟩
  | empty => exact ⟨'(', [')'], by rw [text], by decide⟩
  | alone inner => exact ⟨'(', _, by rw [text], by decide⟩
  | joined op first second rest => exact ⟨'(', _, by rw [text], by decide⟩

/-- Brackets are no numeral. -/
lemma numeral_append_ne (numeral : Numeral) (rest rest' : List Char) :
    numeral.text ++ rest ≠ '(' :: rest' := by
  obtain ⟨c, cs, heq, hc, -⟩ := numeral.exists_text_eq_cons
  rw [heq]
  intro h
  exact hc (List.cons.inj h).1

/-- Brackets with something in them are not empty. -/
lemma text_append_ne (formula : Formula) (rest rest' : List Char) :
    formula.text ++ rest ≠ ')' :: rest' := by
  obtain ⟨c, cs, heq, hc⟩ := formula.exists_text_eq_cons
  rw [heq]
  intro h
  exact hc (List.cons.inj h).1

lemma noDigit_cons {c : Char} {rest : List Char} (h : c.isDigit = false) : NoDigit (c :: rest) := by
  intro d hd
  rwa [← Option.some.inj hd]

lemma noDigit_separator (op : Operator) (rest : List Char) : NoDigit (separator op ++ rest) :=
  noDigit_cons (by decide)

lemma noDigit_closing (op : Operator) (parts : List Formula) (rest : List Char) :
    NoDigit (closing op parts ++ rest) := by
  cases parts with
  | nil => rw [closing]; exact noDigit_cons (by decide)
  | cons part parts => rw [closing, List.append_assoc]; exact noDigit_separator op _

/-- The text of a formula before something else can be told apart from it. -/
def Cancels (formula : Formula) : Prop :=
  ∀ (other : Formula) (rest rest' : List Char), NoDigit rest → NoDigit rest' →
    formula.text ++ rest = other.text ++ rest' → formula = other ∧ rest = rest'

/-- The last bracket of a group is not an operator. -/
lemma closeBracket_ne_separator (op : Operator) (rest rest' : List Char) :
    ')' :: rest ≠ separator op ++ rest' := by
  intro h
  have hhead : ')' = ' ' := (List.cons.inj h).1
  exact absurd hhead (by decide)

/-- A group ends at the first bracket that closes no part of it. -/
lemma closing_append_cancel {op : Operator} {parts others : List Formula}
    {rest rest' : List Char} (hparts : ∀ part ∈ parts, Cancels part)
    (h : closing op parts ++ rest = closing op others ++ rest') :
    parts = others ∧ rest = rest' := by
  induction parts generalizing others with
  | nil =>
    rw [closing_nil_append] at h
    cases others with
    | nil =>
      rw [closing_nil_append] at h
      exact ⟨rfl, (List.cons.inj h).2⟩
    | cons other others =>
      rw [closing_cons_append] at h
      exact absurd h (closeBracket_ne_separator op _ _)
  | cons part parts ih =>
    rw [closing_cons_append] at h
    cases others with
    | nil =>
      rw [closing_nil_append] at h
      exact absurd h.symm (closeBracket_ne_separator op _ _)
    | cons other others =>
      rw [closing_cons_append] at h
      have htext := (separator_append_cancel h).2
      obtain ⟨rfl, hclosing⟩ := hparts part List.mem_cons_self other _ _
        (noDigit_closing op parts rest) (noDigit_closing op others rest') htext
      have hrest : ∀ other ∈ parts, Cancels other := fun other hother =>
        hparts other (List.mem_cons_of_mem _ hother)
      obtain ⟨rfl, heq⟩ := ih hrest hclosing
      exact ⟨rfl, heq⟩

/-- Any formula can be told apart from what follows it. The induction is on the formula; the
first character that differs rules out every other shape. -/
theorem cancels (formula : Formula) : Cancels formula := by
  induction formula with
  | integer numeral =>
    intro other rest rest' hrest hrest' h
    cases other with
    | integer numeral' =>
      rw [text, text] at h
      obtain ⟨rfl, heq⟩ := Numeral.text_append_cancel hrest hrest' h
      exact ⟨rfl, heq⟩
    | empty => exact absurd h (numeral_append_ne numeral _ _)
    | alone inner => exact absurd h (numeral_append_ne numeral _ _)
    | joined op first second parts => exact absurd h (numeral_append_ne numeral _ _)
  | empty =>
    intro other rest rest' _ _ h
    rw [text_empty_append] at h
    cases other with
    | integer numeral => exact absurd h.symm (numeral_append_ne numeral _ _)
    | empty =>
      rw [text_empty_append] at h
      exact ⟨rfl, (List.cons.inj (List.cons.inj h).2).2⟩
    | alone inner =>
      rw [text_alone_append] at h
      exact absurd (List.cons.inj h).2.symm (text_append_ne inner _ _)
    | joined op first second parts =>
      rw [text_joined_append] at h
      exact absurd (List.cons.inj h).2.symm (text_append_ne first _ _)
  | alone inner ih =>
    intro other rest rest' _ _ h
    rw [text_alone_append] at h
    have hclose (after : List Char) : NoDigit (')' :: after) := noDigit_cons (by decide)
    cases other with
    | integer numeral => exact absurd h.symm (numeral_append_ne numeral _ _)
    | empty =>
      rw [text_empty_append] at h
      exact absurd (List.cons.inj h).2 (text_append_ne inner _ _)
    | alone inner' =>
      rw [text_alone_append] at h
      obtain ⟨rfl, heq⟩ := ih inner' _ _ (hclose rest) (hclose rest') (List.cons.inj h).2
      exact ⟨rfl, (List.cons.inj heq).2⟩
    | joined op first second parts =>
      rw [text_joined_append] at h
      obtain ⟨-, heq⟩ := ih first _ _ (hclose rest) (noDigit_separator op _) (List.cons.inj h).2
      exact absurd heq (closeBracket_ne_separator op _ _)
  | joined op first second parts ihfirst ihsecond ihparts =>
    intro other rest rest' _ _ h
    rw [text_joined_append] at h
    cases other with
    | integer numeral => exact absurd h.symm (numeral_append_ne numeral _ _)
    | empty =>
      rw [text_empty_append] at h
      exact absurd (List.cons.inj h).2 (text_append_ne first _ _)
    | alone inner =>
      rw [text_alone_append] at h
      have hclose : NoDigit (')' :: rest') := noDigit_cons (by decide)
      obtain ⟨-, heq⟩ := ihfirst inner _ _ (noDigit_separator op _) hclose (List.cons.inj h).2
      exact absurd heq.symm (closeBracket_ne_separator op _ _)
    | joined op' first' second' parts' =>
      rw [text_joined_append] at h
      obtain ⟨rfl, hsecond⟩ := ihfirst first' _ _ (noDigit_separator op _)
        (noDigit_separator op' _) (List.cons.inj h).2
      obtain ⟨rfl, hsecond⟩ := separator_append_cancel hsecond
      obtain ⟨rfl, hclosing⟩ :=
        ihsecond second' _ _ (noDigit_closing op parts _) (noDigit_closing op parts' _) hsecond
      obtain ⟨rfl, heq⟩ := closing_append_cancel ihparts hclosing
      exact ⟨rfl, heq⟩

/-- Code is unambiguous: no text belongs to two formulas. -/
theorem text_injective : Function.Injective text := by
  intro formula other h
  have hnil : NoDigit [] := nofun
  exact (cancels formula other [] [] hnil hnil (by rw [h])).1

end Formula

end PrefixArithmetic
