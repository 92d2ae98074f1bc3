import PrefixArithmetic.Proofs.Evaluation.Accumulators
import PrefixArithmetic.Proofs.Framing

/-!
# The line of the value

The third line of a report shows the value of its source, the fault that is there
instead, or that there was nothing to work out. Evaluation comes to finite values
alone, so a value is shown in digits. The texts for what is not finite stand in the
line only where a word of the source has them in it and is quoted for an unknown
operator.
-/
namespace PrefixArithmetic
open Text

/-- How reals that are not finite are written, but for the sign. -/
def nonFiniteTexts : List String := ["inf", "NaN"]

section Infix
variable {α : Type} {pattern front back : List α} {c : α}

lemma prefix_of_parted (hc : c ∉ pattern) (h : pattern <+: front ++ c :: back) :
    pattern <+: front := by
  have hfront : front ++ [c] <+: front ++ c :: back := ⟨back, by simp⟩
  rcases List.prefix_or_prefix_of_prefix h hfront with hpattern | hlonger
  · rcases List.prefix_concat_iff.mp hpattern with heq | hstart
    · exact absurd (by simp [heq]) hc
    · exact hstart
  · exact absurd (hlonger.subset (by simp)) hc

/-- A pattern does not go across an element that is not in it. -/
theorem infix_of_parted (hc : c ∉ pattern) (h : pattern <:+: front ++ c :: back) :
    pattern <:+: front ∨ pattern <:+: back := by
  induction front with
  | nil =>
    rcases List.infix_cons_iff.mp h with hstart | hback
    · have hnil : pattern <+: [] := prefix_of_parted hc hstart
      exact .inl hnil.isInfix
    · exact .inr hback
  | cons first rest ih =>
    rcases List.infix_cons_iff.mp h with hstart | hrest
    · have hfront : pattern <+: first :: rest := prefix_of_parted hc hstart
      exact .inl hfront.isInfix
    · rcases ih hrest with hfront | hback
      · exact .inl (hfront.trans (List.suffix_cons first rest).isInfix)
      · exact .inr hback

end Infix

/-- The mark stands somewhere in the text. -/
def Shows (mark text : String) : Prop := mark.toList <:+: text.toList

instance (mark text : String) : Decidable (Shows mark text) :=
  inferInstanceAs (Decidable (mark.toList <:+: text.toList))

/-- No text for what is not finite has the character in it. -/
def Parts (c : Char) : Prop := ∀ mark ∈ nonFiniteTexts, c ∉ mark.toList

instance (c : Char) : Decidable (Parts c) :=
  inferInstanceAs (Decidable (∀ mark ∈ nonFiniteTexts, c ∉ mark.toList))

section Shows
variable {mark front back text : String} (hmark : mark ∈ nonFiniteTexts)
include hmark

/-- What stands in two texts stands in one of them, if the first ends with another character. -/
theorem shows_of_last (hlast : ∃ c ∈ front.toList.getLast?, Parts c) (h : Shows mark (front ++ back)) :
    Shows mark front ∨ Shows mark back := by
  obtain ⟨c, hc, hparts⟩ := hlast
  obtain ⟨chars, hfront⟩ := List.getLast?_eq_some_iff.mp hc
  rw [Shows, String.toList_append, hfront, List.append_assoc, List.singleton_append] at h
  rcases infix_of_parted (hparts mark hmark) h with hinner | hback
  · refine .inl (hinner.trans ?_)
    rw [hfront]
    exact (List.prefix_append chars [c]).isInfix
  · exact .inr hback

/-- What stands in two texts stands in one of them, if the second starts with another character. -/
theorem shows_of_head (hhead : ∃ c ∈ back.toList.head?, Parts c) (h : Shows mark (front ++ back)) :
    Shows mark front ∨ Shows mark back := by
  obtain ⟨c, hc, hparts⟩ := hhead
  obtain ⟨chars, hback⟩ := List.head?_eq_some_iff.mp hc
  rw [Shows, String.toList_append, hback] at h
  rcases infix_of_parted (hparts mark hmark) h with hfront | hinner
  · exact .inl hfront
  · refine .inr (hinner.trans ?_)
    rw [hback]
    exact (List.suffix_cons c chars).isInfix

end Shows

/-- No text for what is not finite stands in this one. -/
def Unmarked (text : String) : Prop := ∀ mark ∈ nonFiniteTexts, ¬Shows mark text

instance (text : String) : Decidable (Unmarked text) :=
  inferInstanceAs (Decidable (∀ mark ∈ nonFiniteTexts, ¬Shows mark text))

lemma not_shows {mark text : String} (hmark : mark ∈ nonFiniteTexts) (h : Unmarked text) :
    ¬Shows mark text :=
  h mark hmark

section Numerals

/-- What numbers are written with. -/
def isNumeric (c : Char) : Bool := c.isDigit || c == '-' || c == '.'

theorem isNumeric_of_isDigit {c : Char} (h : c.isDigit = true) : isNumeric c = true := by
  rw [isNumeric, h, Bool.true_or, Bool.true_or]

theorem unmarked_of_isNumeric {text : String} (h : ∀ c ∈ text.toList, isNumeric c = true) :
    Unmarked text := by
  have hletter : ∀ mark ∈ nonFiniteTexts, mark.toList.all isNumeric = false := by decide
  intro mark hmark hshows
  have hnumeric : mark.toList.all isNumeric = true :=
    List.all_eq_true.mpr fun c hc => h c (hshows.subset hc)
  rw [hletter mark hmark] at hnumeric
  cases hnumeric

theorem isNumeric_of_mem_natRepr {n : ℕ} : ∀ c ∈ n.repr.toList, isNumeric c = true := by
  intro c hc
  rw [Nat.toList_repr] at hc
  exact isNumeric_of_isDigit (Nat.isDigit_of_mem_toDigits (by decide) (by decide) hc)

theorem isNumeric_of_mem_intRepr {n : ℤ} : ∀ c ∈ n.repr.toList, isNumeric c = true := by
  cases n with
  | ofNat n => exact isNumeric_of_mem_natRepr
  | negSucc n =>
    have hchars : (Int.negSucc n).repr.toList = '-' :: (n + 1).repr.toList := by
      simp [Int.repr]
    rw [hchars]
    exact List.forall_mem_cons.mpr ⟨rfl, isNumeric_of_mem_natRepr⟩

/-- Finite values are written in digits, with a sign and a point at most. -/
theorem Value.isNumeric_of_mem_text {value : Value} (h : value.IsFinite) :
    ∀ c ∈ value.text.toList, isNumeric c = true := by
  cases value with
  | integer word => exact isNumeric_of_mem_intRepr
  | real number =>
    cases number with
    | finite negative magnitude =>
      have hsign : ∀ negative, (Binary64.signText negative).toList.all isNumeric = true := by decide
      have hunits : ∀ c ∈ (Binary64.unitsText magnitude.shortest).toList, isNumeric c = true :=
        Binary64.forall_mem_unitsText (fun _ hdigit => isNumeric_of_isDigit hdigit) rfl _
      rw [Value.text, Binary64.text, String.toList_append]
      exact List.forall_mem_append.mpr ⟨List.all_eq_true.mp (hsign negative), hunits⟩
    | infinite negative => cases h
    | nan => cases h

end Numerals

section Messages
variable {mark : String} (hmark : mark ∈ nonFiniteTexts)
include hmark

/-- A message of evaluation shows such a text at most in the name of an unknown operator. -/
theorem shows_of_message {cause : EvalCause} (h : Shows mark (HasMessage.message cause)) :
    ∃ name, cause = .unknownOperator name ∧ Shows mark name := by
  cases cause with
  | unknownOperator name =>
    change Shows mark ("Unknown operator '" ++ name ++ "'.") at h
    rcases shows_of_head hmark ⟨_, rfl, by decide⟩ h with hfront | hend
    · rcases shows_of_last hmark ⟨_, rfl, by decide⟩ hfront with hstart | hname
      · exact absurd hstart (not_shows hmark (by decide))
      · exact ⟨name, rfl, hname⟩
    · exact absurd hend (not_shows hmark (by decide))
  | missingOperand op => cases op <;> exact absurd h (not_shows hmark (by decide))
  | divisionByZero => exact absurd h (not_shows hmark (by decide))
  | overflow op => cases op <;> exact absurd h (not_shows hmark (by decide))
  | underflow op => cases op <;> exact absurd h (not_shows hmark (by decide))
  | precisionLoss value =>
    change Shows mark (Integer64.text value ++ " cannot be represented exactly as a real.") at h
    rcases shows_of_head hmark ⟨_, rfl, by decide⟩ h with hnumber | hend
    · exact absurd hnumber (not_shows hmark (unmarked_of_isNumeric isNumeric_of_mem_intRepr))
    · exact absurd hend (not_shows hmark (by decide))

theorem shows_of_faultMessage {fault : Fault EvalCause} (h : Shows mark fault.message) :
    ∃ name, fault.cause = .unknownOperator name ∧ Shows mark name := by
  change Shows mark ("Error at token " ++ fault.position.repr ++ ": " ++
    HasMessage.message fault.cause) at h
  rw [String.append_assoc, String.append_assoc] at h
  rcases shows_of_last hmark ⟨_, rfl, by decide⟩ h with hstart | hrest
  · exact absurd hstart (not_shows hmark (by decide))
  · rcases shows_of_head hmark ⟨':', by simp, by decide⟩ hrest with hindex | hrest
    · exact absurd hindex (not_shows hmark (unmarked_of_isNumeric isNumeric_of_mem_natRepr))
    · rcases shows_of_last hmark ⟨_, rfl, by decide⟩ hrest with hcolon | hmessage
      · exact absurd hcolon (not_shows hmark (by decide))
      · exact shows_of_message hmark hmessage

end Messages

/-- What the line of the value shows for what evaluation of the source gives. -/
def shownValue : Except StageFault Value → String
  | .ok value => value.text
  | .error (.parsing _) => "skipped"
  | .error fault => "error: " ++ fault.message

/-- The third line shows what evaluation of the source gives. -/
theorem valueLine_eq (source : String) :
    (printedLines (report source).text)[2]? =
      some ("value:    " ++ shownValue (evaluateSource source)) := by
  rw [Report.printedLines_text]
  cases hparse : parse (tokenize source) with
  | error fault =>
    rw [report_of_parse_error hparse, evaluateSource_of_parse_error hparse]
    rfl
  | ok tree =>
    rw [report_of_parse_ok hparse, evaluateSource_of_parse_ok hparse]
    change some ("value:    " ++ outcomeText Value.text tree.evaluate) = _
    cases tree.evaluate <;> rfl

theorem isFinite_of_evaluateSource {source : String} {value : Value}
    (h : evaluateSource source = .ok value) : value.IsFinite := by
  obtain ⟨tree, -, hvalue⟩ := evaluateSource_eq_ok_iff.mp h
  exact Expr.isFinite_of_evaluate hvalue

/-- The unknown operator that evaluation of a source refuses is a token of it. -/
theorem mem_tokenize_of_evaluateSource {source name : String} {position : ℕ}
    (h : evaluateSource source = .error (.evaluation ⟨position, .unknownOperator name⟩)) :
    name ∈ tokenize source := by
  obtain ⟨tree, hparse, hfault⟩ := evaluateSource_eq_evaluation_iff.mp h
  obtain ⟨word, hword, -, rfl, -⟩ := concerns_of_evaluate hparse hfault
  exact List.mem_of_getElem? hword

/-- The line shows a text for what is not finite at most in the name of an unknown operator. -/
theorem shows_of_valueLine {source mark : String} (hmark : mark ∈ nonFiniteTexts)
    (h : Shows mark ("value:    " ++ shownValue (evaluateSource source))) :
    ∃ position name, evaluateSource source = .error (.evaluation ⟨position, .unknownOperator name⟩) ∧
      Shows mark name := by
  rcases shows_of_last hmark ⟨_, rfl, by decide⟩ h with hlabel | hshown
  · exact absurd hlabel (not_shows hmark (by decide))
  · cases hsource : evaluateSource source with
    | ok value =>
      rw [hsource] at hshown
      have hnumeric := Value.isNumeric_of_mem_text (isFinite_of_evaluateSource hsource)
      exact absurd hshown (not_shows hmark (unmarked_of_isNumeric hnumeric))
    | error stage =>
      rw [hsource] at hshown
      cases stage with
      | parsing fault =>
        have hskipped : Unmarked "skipped" := by decide
        exact absurd hshown (not_shows hmark hskipped)
      | coding fault => exact absurd hsource (evaluateSource_ne_coding fault)
      | evaluation fault =>
        rcases shows_of_last hmark ⟨_, rfl, by decide⟩ hshown with hlabel | hmessage
        · exact absurd hlabel (not_shows hmark (by decide))
        · obtain ⟨name, hcause, hname⟩ := shows_of_faultMessage hmark hmessage
          obtain ⟨position, cause⟩ := fault
          obtain rfl : cause = .unknownOperator name := hcause
          exact ⟨position, name, rfl, hname⟩

section NonFinite
variable {number : Binary64} (h : number.isFinite = false)
include h

theorem exists_shows_of_isFinite_eq_false : ∃ mark ∈ nonFiniteTexts, Shows mark number.text := by
  cases number with
  | finite negative magnitude => cases h
  | infinite negative => exact ⟨"inf", by decide, by cases negative <;> decide⟩
  | nan => exact ⟨"NaN", by decide, by decide⟩

theorem head?_text_ne : number.text.toList.head? ≠ some 'e' := by
  cases number with
  | finite negative magnitude => cases h
  | infinite negative => cases negative <;> decide
  | nan => decide

/-- The line never shows what is not finite. -/
theorem shownValue_ne (source : String) : shownValue (evaluateSource source) ≠ number.text := by
  intro heq
  obtain ⟨mark, hmark, hshows⟩ := exists_shows_of_isFinite_eq_false h
  rw [← heq] at hshows
  cases hsource : evaluateSource source with
  | ok value =>
    rw [hsource] at hshows
    have hnumeric := Value.isNumeric_of_mem_text (isFinite_of_evaluateSource hsource)
    exact not_shows hmark (unmarked_of_isNumeric hnumeric) hshows
  | error stage =>
    cases stage with
    | parsing fault =>
      rw [hsource] at hshows
      have hskipped : Unmarked "skipped" := by decide
      exact not_shows hmark hskipped hshows
    | coding fault => exact evaluateSource_ne_coding fault hsource
    | evaluation fault =>
      have hmessage : "error: " ++ fault.message = number.text := by
        rw [← heq, hsource]
        rfl
      refine head?_text_ne h ?_
      rw [← hmessage, String.toList_append]
      rfl

end NonFinite

/-- Evaluation never comes to an infinite or undefined real: no fold of finite values holds one at
any time, no subtree of an expression has one as its value, and no report shows one. The texts for
them are in the line of the value only if an unknown operator has them in its name. -/
theorem evaluation_stays_finite :
    (∀ (op : Operator) (values : List Value), (∀ value ∈ values, value.IsFinite) →
      (∀ reached held, reached <+: values → op.Accumulates reached held → held.IsFinite) ∧
        ∀ result, op.fold values = .ok result → result.IsFinite) ∧
    (∀ expr subtree : Expr, subtree ∈ expr.postorder →
      (∀ value, subtree.evaluate = .ok value → value.IsFinite) ∧
        ∀ op operands position values, subtree = .operation (.known op) operands position →
          List.Forall₂ (fun operand value => operand.evaluate = .ok value) operands values →
            ∀ reached held, reached <+: values → op.Accumulates reached held → held.IsFinite) ∧
    (∀ (expr : Expr) (number : Binary64), expr.evaluate = .ok (.real number) →
      number ≠ .nan ∧ ∀ negative, number ≠ .infinite negative) ∧
    ∀ source : String, ∃ shown,
      (printedLines (report source).text)[2]? = some ("value:    " ++ shown) ∧
        (∀ number : Binary64, number.isFinite = false → shown ≠ number.text) ∧
          ∀ mark ∈ ["inf", "NaN"], mark.toList <:+: ("value:    " ++ shown).toList →
            ∃ position name,
              evaluateSource source = .error (.evaluation ⟨position, .unknownOperator name⟩) ∧
                name ∈ tokenize source ∧ mark.toList <:+: name.toList := by
  have hreached : ∀ (op : Operator) (values : List Value), (∀ value ∈ values, value.IsFinite) →
      ∀ reached held, reached <+: values → op.Accumulates reached held → held.IsFinite :=
    fun op values hvalues reached held hpart hheld =>
      hheld.isFinite fun value hmem => hvalues value (hpart.subset hmem)
  refine ⟨?_, ?_, ?_, ?_⟩
  · intro op values hvalues
    exact ⟨hreached op values hvalues, fun result hfold => Operator.isFinite_of_fold hfold hvalues⟩
  · intro expr subtree _
    refine ⟨fun value => Expr.isFinite_of_evaluate, ?_⟩
    intro op operands position values _ hoperands
    refine hreached op values fun value hmem => ?_
    obtain ⟨operand, -, hvalue⟩ := exists_mem_of_forall₂ hoperands.flip hmem
    exact Expr.isFinite_of_evaluate hvalue
  · intro expr number hvalue
    have hfinite : number.isFinite = true := Expr.isFinite_of_evaluate hvalue
    constructor
    · rintro rfl
      cases hfinite
    · rintro negative rfl
      cases hfinite
  · intro source
    refine ⟨shownValue (evaluateSource source), valueLine_eq source,
      fun number h => shownValue_ne h source, ?_⟩
    intro mark hmark hshows
    obtain ⟨position, name, hsource, hname⟩ := shows_of_valueLine hmark hshows
    exact ⟨position, name, hsource, mem_tokenize_of_evaluateSource hsource, hname⟩

/-- A quotient that does not come out even and is multiplied out again, and an unknown operator
that is named like a real. -/
theorem evaluation_stays_finite_quotient :
    let quotient := Expr.operation (.known .div) [.literal 7 1, .literal 2 2] 0
    let number := Binary64.div (.ofInt 7 (by decide)) (.ofInt 2 (by decide))
    (Operator.div.Accumulates [.integer 7, .integer 2] (.real number) ∧
      (Value.real number).IsFinite) ∧
    (quotient.evaluate = .ok (.real number) ∧ number ≠ .nan) ∧
    (∃ result, Operator.mul.fold [.real number, .integer 2] = .ok result ∧ result.IsFinite) ∧
    ∃ shown, (printedLines (report "inf").text)[2]? = some ("value:    " ++ shown) ∧
      shown ≠ "inf" ∧ ∃ name ∈ tokenize "inf", "inf".toList <:+: name.toList := by
  have hfold : Operator.div.fold [.integer 7, .integer 2] =
      .ok (.real (.div (.ofInt 7 (by decide)) (.ofInt 2 (by decide)))) := by decide +kernel
  have hproduct : Operator.mul.fold
      [.real (.div (.ofInt 7 (by decide)) (.ofInt 2 (by decide))), .integer 2] =
        .ok (.real (.ofInt 7 (by decide))) := by decide +kernel
  intro quotient number
  have hheld : Operator.div.Accumulates [.integer 7, .integer 2] (.real number) :=
    Operator.accumulates_iff.mpr hfold
  have hoperands : List.Forall₂ (fun operand value => Expr.evaluate operand = .ok value)
      [.literal 7 1, .literal 2 2] [.integer 7, .integer 2] :=
    .cons (Expr.evaluate_literal 7 1) (.cons (Expr.evaluate_literal 2 2) .nil)
  have hvalue : quotient.evaluate = .ok (.real number) :=
    (Expr.walk_operation_eq_ok_iff _ _).mpr ⟨_, hoperands, hfold⟩
  have hunknown : evaluateSource "inf" = .error (.evaluation ⟨0, .unknownOperator "inf"⟩) := by
    have hparse : parse (tokenize "inf") = .ok (.operation (.unknown "inf") [] 0) :=
      parse_of_word "inf" [] (by decide)
    exact evaluateSource_eq_evaluation_iff.mpr ⟨_, hparse, rfl⟩
  obtain ⟨hfolds, htrees, hreals, hlines⟩ := evaluation_stays_finite
  obtain ⟨-, haccumulators⟩ := htrees quotient quotient quotient.mem_postorder_self
  have hfinite : (Value.real number).IsFinite :=
    haccumulators .div _ 0 _ rfl hoperands _ _ (List.prefix_refl _) hheld
  have hvalues : ∀ value ∈ ([.real number, .integer 2] : List Value), value.IsFinite :=
    List.forall_mem_cons.mpr ⟨hfinite, List.forall_mem_singleton.mpr trivial⟩
  obtain ⟨-, hresult⟩ := hfolds .mul _ hvalues
  obtain ⟨hnan, -⟩ := hreals quotient number hvalue
  obtain ⟨shown, hline, hne, hmarks⟩ := hlines "inf"
  have hshown : "value:    " ++ shown =
      "value:    error: Error at token 0: Unknown operator 'inf'." := by
    rw [valueLine_eq, hunknown] at hline
    exact (Option.some.inj hline).symm
  obtain ⟨position, name, -, hname, hmark⟩ := hmarks "inf" (by decide) (by rw [hshown]; decide)
  exact ⟨⟨hheld, hfinite⟩, ⟨hvalue, hnan⟩, ⟨_, hproduct, hresult _ hproduct⟩, shown, hline,
    hne (.infinite false) rfl, name, hname, hmark⟩

end PrefixArithmetic
