import PrefixArithmetic.Proofs.Gaps
import PrefixArithmetic.Proofs.Parsing.Image
import PrefixArithmetic.Proofs.Report

/-!
# Literals

A row of decimal digits is the shortest text of its number with zeros in front. So
only the number of a literal matters, not its length: if the number has 64 bits it is
the value of the literal, and its shortest text is the code, which is read again as
the same literal. If it has not, the literal is refused as it was written.
-/
namespace PrefixArithmetic

namespace Token

section Digits
variable {c : Char} {cs : List Char}

lemma digitChar_toNat_sub (h : c.isDigit = true) :
    c.toNat - 48 < 10 ∧ Nat.digitChar (c.toNat - 48) = c := by
  rw [Char.isDigit_iff_toNat] at h
  change 48 ≤ c.toNat ∧ c.toNat ≤ 57 at h
  have hlt : c.toNat - 48 < 10 := by omega
  refine ⟨hlt, Char.toNat_inj.mp ?_⟩
  rw [Nat.toNat_digitChar_of_lt_ten hlt]
  omega

/-- Digits behind a number that is not zero are the further digits of a number. -/
lemma toDigits_append_digits {number : ℕ} (hpos : 0 < number) (h : ∀ c ∈ cs, c.isDigit = true) :
    Nat.toDigits 10 number ++ cs = Nat.toDigits 10 (Nat.ofDigitChars 10 cs number) := by
  induction cs generalizing number with
  | nil => simp
  | cons c cs ih =>
    obtain ⟨hc, hcs⟩ := List.forall_mem_cons.mp h
    obtain ⟨hlt, hchar⟩ := digitChar_toNat_sub hc
    have hnext := Nat.toDigits_append_toDigits (by decide : 1 < 10) hpos hlt
    rw [Nat.toDigits_of_lt_base hlt, hchar] at hnext
    rw [Nat.ofDigitChars_cons, List.append_cons, hnext]
    exact ih (by omega) hcs

/-- A row of digits is zeros and then the digits of its number. -/
theorem exists_zeros_append_toDigits (hne : cs ≠ []) (h : ∀ c ∈ cs, c.isDigit = true) :
    ∃ zeros, cs = List.replicate zeros '0' ++ Nat.toDigits 10 (Nat.ofDigitChars 10 cs 0) := by
  induction cs with
  | nil => exact absurd rfl hne
  | cons c cs ih =>
    obtain ⟨hc, hcs⟩ := List.forall_mem_cons.mp h
    by_cases hzero : c = '0'
    · subst hzero
      by_cases hlast : cs = []
      · subst hlast
        exact ⟨0, by simp [Nat.ofDigitChars_cons]⟩
      · obtain ⟨zeros, hzeros⟩ := ih hlast hcs
        refine ⟨zeros + 1, ?_⟩
        rw [Nat.ofDigitChars_cons, List.replicate_succ, List.cons_append]
        exact congrArg _ hzeros
    · -- The first digit that is not zero begins the number, and no digit behind it is left out.
      obtain ⟨hlt, hchar⟩ := digitChar_toNat_sub hc
      have hpos : 0 < c.toNat - 48 := by
        by_contra hnot
        have hdigit : c.toNat - 48 = 0 := by omega
        rw [hdigit] at hchar
        exact hzero hchar.symm
      refine ⟨0, ?_⟩
      have hdigits := toDigits_append_digits hpos hcs
      rw [Nat.toDigits_of_lt_base hlt, hchar] at hdigits
      simpa [Nat.ofDigitChars_cons] using hdigits

/-- The digits of a number begin with a zero only if the number is zero. -/
theorem eq_zero_of_head?_toDigits {number : ℕ} (h : (Nat.toDigits 10 number).head? = some '0') :
    number = 0 := by
  induction number using Nat.strong_induction_on with
  | _ number ih =>
    rw [Nat.toDigits_eq_if (by decide)] at h
    split_ifs at h with hlt
    · simpa using h
    · rw [List.head?_append_of_ne_nil _ Nat.toDigits_ne_nil] at h
      have hquotient := ih (number / 10) (by omega) h
      omega

end Digits

/-- Digits alone, and no zero before other digits. -/
structure Canonical (text : String) : Prop where
  isLiteral : Token.isLiteral text = true
  noZero : text.toList.head? = some '0' → text = "0"

theorem canonical_repr (number : ℕ) : Canonical number.repr where
  isLiteral := by
    rw [Token.isLiteral, Nat.toList_repr]
    exact Numeral.isDigits_toDigits number
  noZero := by
    intro h
    rw [Nat.toList_repr] at h
    rw [eq_zero_of_head?_toDigits h]
    rfl

@[simp] theorem decimal_repr (number : ℕ) : decimal number.repr = number := by
  rw [decimal, Nat.toList_repr, Nat.ofDigitChars_ten_toDigits]

/-- A literal is written with zeros before the text of its number, if with anything. -/
theorem exists_zeros_append {token : String} (h : isLiteral token = true) :
    ∃ zeros, token = String.ofList (List.replicate zeros '0') ++ (decimal token).repr := by
  rw [isLiteral, Integer64.isDigits, Bool.and_eq_true, List.all_eq_true] at h
  obtain ⟨hne, hdigits⟩ := h
  obtain ⟨zeros, hzeros⟩ := exists_zeros_append_toDigits (by simpa using hne) hdigits
  refine ⟨zeros, String.toList_inj.mp ?_⟩
  rw [String.toList_append, String.toList_ofList, Nat.toList_repr]
  exact hzeros

theorem text_value {token : String} (h : decimal token ≤ 2 ^ 63 - 1) :
    Integer64.text (value token) = (decimal token).repr := by
  rw [Integer64.text, toInt_value (inRange_decimal_iff.mpr h)]
  rfl

theorem tokenize_of_isLiteral {token : String} (h : isLiteral token = true) :
    tokenize token = [token] := tokenize_of_isToken (noBlank_of_isLiteral h)

end Token

lemma exists_ite_eq_ok_iff {ε α : Type} {p : Prop} [Decidable p] {a : α} {e : ε} :
    (∃ b, (if p then .ok a else .error e : Except ε α) = .ok b) ↔ p := by
  split_ifs with h <;> simp [h]

section Sources
open Token
variable {token : String} (h : isLiteral token = true)
include h

theorem parse_tokenize_of_isLiteral :
    parse (tokenize token) =
      if decimal token ≤ 2 ^ 63 - 1 then .ok (.literal (value token) 0)
      else .error ⟨0, .literalTooLarge token⟩ := by
  simp only [tokenize_of_isLiteral h, parse_of_literal token [] h, inRange_decimal_iff]

theorem evaluateSource_of_isLiteral :
    evaluateSource token =
      if decimal token ≤ 2 ^ 63 - 1 then .ok (.integer (value token))
      else .error (.parsing ⟨0, .literalTooLarge token⟩) := by
  have hparse := parse_tokenize_of_isLiteral h
  split_ifs at hparse ⊢
  · rw [evaluateSource_of_parse_ok hparse, Expr.evaluate_literal]
    rfl
  · exact evaluateSource_of_parse_error hparse

theorem codeSource_of_isLiteral :
    codeSource token =
      if decimal token ≤ 2 ^ 63 - 1 then .ok (decimal token).repr
      else .error (.parsing ⟨0, .literalTooLarge token⟩) := by
  have hparse := parse_tokenize_of_isLiteral h
  split_ifs at hparse ⊢ with hrange
  · rw [codeSource_of_parse_ok hparse, Expr.code_literal, text_value hrange]
    rfl
  · exact codeSource_of_parse_error hparse

/-- Literals have the same code exactly if they have the same number. -/
theorem codeSource_eq_ok_iff {code other : String} (hcode : codeSource token = .ok code)
    (hother : isLiteral other = true) :
    codeSource other = .ok code ↔ decimal other = decimal token := by
  rw [codeSource_of_isLiteral h] at hcode
  rw [codeSource_of_isLiteral hother]
  split_ifs at hcode with hrange
  cases hcode
  constructor
  · intro hsame
    split_ifs at hsame
    have htext := Except.ok.inj hsame
    rw [← decimal_repr (decimal other), htext, decimal_repr]
  · intro hsame
    rw [hsame, if_pos hrange]

end Sources

section Numbers
open Token

/-- A literal of any length stands for its number. If the number has 64 bits, it is the value, and
both the value and the code are written as the number is, without a sign and without the zeros
that the literal may begin with; what is written is read again as the same literal. If it has more,
there is neither value nor code. Literals have the same code exactly if their numbers are equal. -/
theorem literals_stand_for_numbers {token : String} (h : isLiteral token = true) :
    let number := decimal token
    (Canonical number.repr ∧
      ∃ zeros, token = String.ofList (List.replicate zeros '0') ++ number.repr) ∧
    ((∃ value, evaluateSource token = .ok value) ↔ number ≤ 2 ^ 63 - 1) ∧
    ((∃ code, codeSource token = .ok code) ↔ number ≤ 2 ^ 63 - 1) ∧
    (2 ^ 63 - 1 < number →
      evaluateSource token = .error (.parsing ⟨0, .literalTooLarge token⟩) ∧
        codeSource token = .error (.parsing ⟨0, .literalTooLarge token⟩)) ∧
    (number ≤ 2 ^ 63 - 1 → ∃ (word : Int64) (tree : Expr),
      word.toInt = number ∧ evaluateSource token = .ok (.integer word) ∧
        (Value.integer word).text = number.repr ∧ codeSource token = .ok number.repr ∧
          parse (tokenize token) = .ok tree ∧ parse (tokenize number.repr) = .ok tree) ∧
    ∀ code other, codeSource token = .ok code → isLiteral other = true →
      (codeSource other = .ok code ↔ decimal other = number) := by
  intro number
  have hvalue := evaluateSource_of_isLiteral h
  have hcode := codeSource_of_isLiteral h
  refine ⟨⟨canonical_repr number, exists_zeros_append h⟩, ?_, ?_, ?_, ?_, ?_⟩
  · rw [hvalue]
    exact exists_ite_eq_ok_iff
  · rw [hcode]
    exact exists_ite_eq_ok_iff
  · intro hlarge
    have hnot : ¬decimal token ≤ 2 ^ 63 - 1 := Nat.not_le.mpr hlarge
    rw [hvalue, hcode, if_neg hnot, if_neg hnot]
    exact ⟨rfl, rfl⟩
  · intro hrange
    have htree := parse_tokenize_of_isLiteral h
    have hagain := parse_tokenize_of_isLiteral (canonical_repr number).isLiteral
    rw [decimal_repr] at hagain
    rw [if_pos hrange] at hvalue hcode htree hagain
    have hsame : value number.repr = value token := by rw [value, value, decimal_repr]
    rw [hsame] at hagain
    exact ⟨value token, _, toInt_value (inRange_decimal_iff.mpr hrange), hvalue,
      text_value hrange, hcode, htree, hagain⟩
  · intro code other hok hother
    exact codeSource_eq_ok_iff h hok hother

/-- The greatest number of 64 bits is the value of a literal, whatever zeros it begins with, and the
next number of none. -/
theorem literals_stand_for_numbers_greatest :
    evaluateSource "00009223372036854775807" = .ok (.integer 9223372036854775807) ∧
      codeSource "00009223372036854775807" = .ok "9223372036854775807" ∧
      codeSource "9223372036854775807" = codeSource "00009223372036854775807" ∧
      evaluateSource "00009223372036854775808" =
        .error (.parsing ⟨0, .literalTooLarge "00009223372036854775808"⟩) := by
  have hnumber : decimal "00009223372036854775807" = 9223372036854775807 := by decide
  obtain ⟨-, -, -, -, hfits, hsame⟩ :=
    literals_stand_for_numbers (by decide : isLiteral "00009223372036854775807" = true)
  obtain ⟨-, -, -, hlarge, -⟩ :=
    literals_stand_for_numbers (by decide : isLiteral "00009223372036854775808" = true)
  rw [hnumber] at hfits
  obtain ⟨word, -, hword, hvalue, -, hcode, -⟩ := hfits (by decide)
  obtain rfl : word = 9223372036854775807 := Int64.toInt_inj.mp hword
  have hshort := (hsame _ "9223372036854775807" hcode (by decide)).mpr (by decide)
  exact ⟨hvalue, hcode, hshort.trans hcode.symm, (hlarge (by decide)).1⟩

end Numbers

end PrefixArithmetic
