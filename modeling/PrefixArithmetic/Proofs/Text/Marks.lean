import PrefixArithmetic.Proofs.Code.Formula

/-!
# Marks in a text

Brackets, operators and integers can be found in a text without knowing what the
text was written for. A bracket is one character, an operator is a sign with
blanks around it, and an integer is a run of digits with the minus sign directly
before it. Read in front of some rest, a numeral, a bracket or an operator gives
its own mark and leaves the rest as it is.
-/
namespace PrefixArithmetic

namespace Text

/-- How often a pattern is found in a text, each time behind the place it was found at before. -/
def occurrences (pattern : List Char) : List Char → ℕ
  | [] => 0
  | c :: text =>
    if pattern <+: c :: text then occurrences pattern (text.drop (pattern.length - 1)) + 1
    else occurrences pattern text
termination_by text => text.length
decreasing_by
  all_goals
    simp only [List.length_drop, List.length_cons]
    omega

/-- The integers that are found in a text from left to right. -/
def integers : List Char → List ℤ
  | [] => []
  | c :: text =>
    if c.isDigit then
      (Nat.ofDigitChars 10 (c :: text.takeWhile Char.isDigit) 0 : ℤ) ::
        integers (text.dropWhile Char.isDigit)
    else if c = '-' ∧ text.head?.any Char.isDigit then
      -(Nat.ofDigitChars 10 (text.takeWhile Char.isDigit) 0 : ℤ) ::
        integers (text.dropWhile Char.isDigit)
    else integers text
termination_by text => text.length
decreasing_by
  · exact Nat.lt_succ_of_le (List.dropWhile_sublist _).length_le
  · exact Nat.lt_succ_of_le (List.dropWhile_sublist _).length_le
  · exact Nat.lt_succ_self _

/-- No bracket is closed before it is opened. -/
def Nested (text : List Char) : Prop :=
  ∀ front, front <+: text → front.count ')' ≤ front.count '('

section Nested
variable {text other : List Char}

lemma nested_of_not_mem (h : ')' ∉ text) : Nested text := by
  intro front hfront
  rw [List.count_eq_zero_of_not_mem fun hmem => h (hfront.subset hmem)]
  exact Nat.zero_le _

lemma Nested.append (h : Nested text) (hother : Nested other) : Nested (text ++ other) := by
  intro front hfront
  rcases List.prefix_or_prefix_of_prefix hfront (List.prefix_append text other) with hin | hout
  · exact h front hin
  · obtain ⟨tail, rfl⟩ := hout
    have htext := h text (List.prefix_refl text)
    have htail := hother tail ((List.prefix_append_right_inj text).mp hfront)
    rw [List.count_append, List.count_append]
    omega

/-- A text may be put in brackets. -/
lemma Nested.enclosed (h : Nested text) : Nested ('(' :: (text ++ [')'])) := by
  intro front hfront
  rcases List.prefix_cons_iff.mp hfront with rfl | ⟨inner, rfl, hinner⟩
  · exact le_rfl
  · rcases List.prefix_concat_iff.mp hinner with rfl | hinner
    · have htext := h text (List.prefix_refl text)
      simpa using htext
    · have hcount := h inner hinner
      rw [List.count_cons_self, List.count_cons_of_ne (by decide)]
      omega

end Nested

section Occurrences
variable {pattern text : List Char} {c : Char}

lemma occurrences_cons_of_not_prefix (h : ¬ pattern <+: c :: text) :
    occurrences pattern (c :: text) = occurrences pattern text := by
  rw [occurrences, if_neg h]

lemma occurrences_append_self (hne : pattern ≠ []) :
    occurrences pattern (pattern ++ text) = occurrences pattern text + 1 := by
  cases pattern with
  | nil => exact absurd rfl hne
  | cons c pattern =>
    have hprefix : c :: pattern <+: c :: (pattern ++ text) := List.prefix_append (c :: pattern) text
    rw [List.cons_append, occurrences, if_pos hprefix, List.length_cons, Nat.add_sub_cancel,
      List.drop_left]

end Occurrences

end Text

namespace Formula
open Text

/-- How many operators with blanks around them are found in a text. -/
def signCount (text : List Char) : ℕ :=
  occurrences (separator .sum) text + occurrences (separator .sub) text +
    occurrences (separator .div) text + occurrences (separator .mul) text

/-- A text does not go on as an operator does behind its first blank. -/
def Opens (text : List Char) : Prop := ∀ op, ¬ [sign op, ' '] <+: text

lemma sign_ne_blank (op : Operator) : sign op ≠ ' ' := by cases op <;> decide

lemma opens_cons {c : Char} {text : List Char} (h : ∀ op, sign op ≠ c) : Opens (c :: text) := by
  intro op hprefix
  exact h op (List.cons_prefix_cons.mp hprefix).1

/-- A numeral starts with a digit, or with a sign and a digit. -/
lemma opens_numeral (numeral : Numeral) (rest : List Char) : Opens (numeral.text ++ rest) := by
  obtain ⟨d, digits, heq, hdigit⟩ := numeral.exists_digits_eq_cons
  rw [Numeral.text, heq]
  split_ifs
  · intro op hprefix
    have htail := (List.cons_prefix_cons.mp hprefix).2
    have hblank := (List.cons_prefix_cons.mp htail).1
    rw [← hblank] at hdigit
    exact absurd hdigit (by decide)
  · refine opens_cons fun op hsign => ?_
    rw [← hsign] at hdigit
    cases op <;> exact absurd hdigit (by decide)

lemma not_prefix_of_ne_blank {op : Operator} {c : Char} {text : List Char} (h : c ≠ ' ') :
    ¬ separator op <+: c :: text := by
  intro hprefix
  exact h (List.cons_prefix_cons.mp hprefix).1.symm

lemma signCount_cons {c : Char} {text : List Char} (h : c ≠ ' ') :
    signCount (c :: text) = signCount text := by
  simp only [signCount, occurrences_cons_of_not_prefix (not_prefix_of_ne_blank h)]

lemma signCount_append {text : List Char} (h : ∀ c ∈ text, c ≠ ' ') (rest : List Char) :
    signCount (text ++ rest) = signCount rest := by
  induction text with
  | nil => rfl
  | cons c text ih =>
    obtain ⟨hc, htext⟩ := List.forall_mem_cons.mp h
    rw [List.cons_append, signCount_cons hc, ih htext]

/-- No operator is found in another one, nor across its last blank. -/
lemma occurrences_separator_append {op other : Operator} (hne : other ≠ op) {rest : List Char}
    (hrest : Opens rest) :
    occurrences (separator other) (separator op ++ rest) =
      occurrences (separator other) rest := by
  have hfirst : ¬ separator other <+: ' ' :: sign op :: ' ' :: rest := by
    intro hprefix
    have htail := (List.cons_prefix_cons.mp hprefix).2
    exact hne (sign_injective (List.cons_prefix_cons.mp htail).1)
  have hlast : ¬ separator other <+: ' ' :: rest := by
    intro hprefix
    exact hrest other (List.cons_prefix_cons.mp hprefix).2
  calc occurrences (separator other) (' ' :: sign op :: ' ' :: rest)
      = occurrences (separator other) (sign op :: ' ' :: rest) :=
        occurrences_cons_of_not_prefix hfirst
    _ = occurrences (separator other) (' ' :: rest) :=
        occurrences_cons_of_not_prefix (not_prefix_of_ne_blank (sign_ne_blank op))
    _ = occurrences (separator other) rest := occurrences_cons_of_not_prefix hlast

theorem signCount_separator (op : Operator) {rest : List Char} (hrest : Opens rest) :
    signCount (separator op ++ rest) = signCount rest + 1 := by
  have hself : occurrences (separator op) (separator op ++ rest) =
      occurrences (separator op) rest + 1 := occurrences_append_self (List.cons_ne_nil _ _)
  have hothers (other : Operator) (hne : other ≠ op) := occurrences_separator_append hne hrest
  unfold signCount
  cases op <;> simp [hself, hothers] <;> omega

end Formula

namespace Text
open Formula

lemma dropWhile_isDigit_append {digits rest : List Char}
    (hdigits : ∀ c ∈ digits, c.isDigit = true) (hrest : NoDigit rest) :
    (digits ++ rest).dropWhile Char.isDigit = rest := by
  have hsplit := List.takeWhile_append_dropWhile (p := Char.isDigit) (l := digits ++ rest)
  rw [takeWhile_isDigit_append hdigits hrest] at hsplit
  exact List.append_cancel_left hsplit

lemma noDigit_nil : NoDigit [] := by simp [NoDigit]

/-- A numeral that ends where the rest begins is one integer. -/
theorem integers_numeral (numeral : Numeral) {rest : List Char} (hrest : NoDigit rest) :
    integers (numeral.text ++ rest) = numeral.value :: integers rest := by
  obtain ⟨negative, digits, isDigits⟩ := numeral
  obtain ⟨d, others, hdigits, hd⟩ := (Numeral.mk negative digits isDigits).exists_digits_eq_cons
  have hall := (Numeral.mk negative digits isDigits).forall_isDigit
  obtain rfl : digits = d :: others := hdigits
  cases negative with
  | true =>
    change integers ('-' :: (d :: others ++ rest)) =
      -(Nat.ofDigitChars 10 (d :: others) 0 : ℤ) :: integers rest
    rw [integers, if_neg (by decide), if_pos ⟨rfl, hd⟩, takeWhile_isDigit_append hall hrest,
      dropWhile_isDigit_append hall hrest]
  | false =>
    have hothers := (List.forall_mem_cons.mp hall).2
    change integers (d :: (others ++ rest)) =
      (Nat.ofDigitChars 10 (d :: others) 0 : ℤ) :: integers rest
    rw [integers, if_pos hd, takeWhile_isDigit_append hothers hrest,
      dropWhile_isDigit_append hothers hrest]

/-- What is no digit is passed over if it is no sign of digits behind it. -/
lemma integers_cons {c : Char} {text : List Char} (hc : c.isDigit = false)
    (hsign : c = '-' → NoDigit text) : integers (c :: text) = integers text := by
  have hpassed : ¬ (c = '-' ∧ text.head?.any Char.isDigit = true) := by
    rintro ⟨hminus, hany⟩
    obtain ⟨d, hd, hdigit⟩ := (Option.any_eq_true _ _).mp hany
    rw [hsign hminus d hd] at hdigit
    cases hdigit
  rw [integers, if_neg (by rw [hc]; decide), if_neg hpassed]

/-- The sign of a difference has a blank behind it and is no sign of an integer. -/
theorem integers_separator (op : Operator) (rest : List Char) :
    integers (separator op ++ rest) = integers rest := by
  have hdigit : (sign op).isDigit = false := by cases op <;> decide
  calc integers (' ' :: sign op :: ' ' :: rest)
      = integers (sign op :: ' ' :: rest) := integers_cons (by decide) nofun
    _ = integers (' ' :: rest) := integers_cons hdigit fun _ => noDigit_cons (by decide)
    _ = integers rest := integers_cons (by decide) nofun

end Text

end PrefixArithmetic
