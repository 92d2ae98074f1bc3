import PrefixArithmetic.Proofs.Blame
import PrefixArithmetic.Proofs.Parsing.Image
import PrefixArithmetic.Proofs.Report
import PrefixArithmetic.Proofs.Text.Lines
import PrefixArithmetic.Proofs.Text.Trim

/-!
# Reports in lines

Source text comes into a report in two ways: quoted, where every blank but the
space is hidden, and as it is, in the messages of some faults. What is shown as
it is are tokens, and no token has a blank. So whatever the source is, the
lines of its report are the four that are meant.
-/
namespace PrefixArithmetic
open Text

/-- A token has no blank in it. -/
theorem isBlank_of_mem_tokenize {source token : String} (h : token ∈ tokenize source) :
    ∀ c ∈ token.toList, isBlank c = false := by
  obtain ⟨word, hword, rfl⟩ := List.mem_map.mp h
  rw [String.toList_ofList]
  exact isBlank_of_mem_words hword

section Numbers

theorem Integer64.spaced_text (word : Int64) : Spaced (text word) := spaced_intRepr word.toInt

/-- A magnitude is written in digits, with a point at most. -/
theorem Binary64.forall_mem_unitsText {p : Char → Prop} (hdigit : ∀ c : Char, c.isDigit = true → p c)
    (hpoint : p '.') (units : ℕ) : ∀ c ∈ (unitsText units).toList, p c := by
  have hwhole : ∀ n : ℕ, ∀ c ∈ n.repr.toList, p c := by
    intro n c hc
    rw [Nat.toList_repr] at hc
    exact hdigit c (Nat.isDigit_of_mem_toDigits (by decide) (by decide) hc)
  unfold unitsText
  rw [String.toList_append]
  refine List.forall_mem_append.mpr ⟨hwhole _, ?_⟩
  split_ifs
  · exact List.forall_mem_nil p
  · have hchars : ".".toList = ['.'] := rfl
    rw [String.toList_append, hchars, String.toList_ofList]
    refine List.forall_mem_cons.mpr ⟨hpoint, fun c hc => hdigit c ?_⟩
    have hpadded := (List.dropWhile_sublist _).subset (List.mem_reverse.mp hc)
    rw [List.mem_reverse, List.mem_append] at hpadded
    rcases hpadded with hzero | hmem
    · rw [List.eq_of_mem_replicate hzero]
      decide
    · exact Nat.isDigit_of_mem_toDigits (by decide) (by decide) hmem

theorem Binary64.spaced_unitsText (units : ℕ) : Spaced (unitsText units) :=
  spaced_of_noBlank
    (forall_mem_unitsText (fun _ hdigit => isBlank_of_isDigit hdigit) (by decide) units)

theorem Binary64.spaced_text (number : Binary64) : Spaced number.text := by
  have hsign : ∀ negative, Spaced (signText negative) := by decide
  cases number with
  | finite negative magnitude =>
    exact (hsign negative).append (spaced_unitsText magnitude.shortest)
  | infinite negative => exact (hsign negative).append (by decide)
  | nan => decide

theorem Value.spaced_text (value : Value) : Spaced value.text := by
  cases value with
  | integer word => exact Integer64.spaced_text word
  | real number => exact number.spaced_text

end Numbers

section Dumps

theorem spaced_dumpNode {name : String} {fields : List (String × String)} (hname : Spaced name)
    (hfields : ∀ field ∈ fields, Spaced field.1 ∧ Spaced field.2) :
    Spaced (dumpNode name fields) := by
  have hinner : Spaced (", ".intercalate (fields.map fun field => field.1 ++ ": " ++ field.2)) := by
    refine spaced_intercalate (by decide) (List.forall_mem_map.mpr fun field hfield => ?_)
    obtain ⟨hkey, hvalue⟩ := hfields field hfield
    exact (hkey.append (by decide)).append hvalue
  exact hinner.enclosed (hname.append (by decide)) (by decide)

theorem Head.spaced_dump (head : Head) : Spaced head.dump := by
  cases head with
  | known op => cases op <;> decide
  | unknown name => exact (spaced_quoted name).enclosed (by decide) (by decide)

/-- A dump shows the names in it quoted. -/
theorem Expr.spaced_dump (expr : Expr) : Spaced expr.dump := by
  induction expr with
  | literal value position =>
    rw [dump_literal]
    refine spaced_dumpNode (by decide) ?_
    simp only [List.forall_mem_cons]
    exact ⟨⟨by decide, Integer64.spaced_text value⟩, ⟨by decide, spaced_natRepr position⟩, nofun⟩
  | operation head operands position ih =>
    have hoperands : Spaced (listed (operands.map dump)) :=
      spaced_listed (List.forall_mem_map.mpr ih)
    rw [dump_operation]
    refine spaced_dumpNode (by decide) ?_
    simp only [List.forall_mem_cons]
    exact ⟨⟨by decide, head.spaced_dump⟩, ⟨by decide, hoperands⟩,
      ⟨by decide, spaced_natRepr position⟩, nofun⟩

end Dumps

/-- Code is made of numerals, symbols and brackets. -/
theorem Expr.spaced_code {expr : Expr} {code : String} (h : expr.code = .ok code) :
    Spaced code := by
  induction expr generalizing code with
  | literal value position =>
    rw [code_literal] at h
    cases h
    exact Integer64.spaced_text value
  | operation head operands position ih =>
    rw [code_eq_walk] at h
    obtain ⟨parts, hparts, hjoin⟩ := (walk_operation_eq_ok_iff _ _).mp h
    cases head with
    | unknown name => cases hjoin
    | known op =>
      cases hjoin
      have hsymbol : Spaced (" " ++ op.symbol ++ " ") := by cases op <;> decide
      have hspaced : ∀ part ∈ parts, Spaced part := by
        intro part hpart
        obtain ⟨operand, hoperand, hcode⟩ := exists_mem_of_forall₂ hparts.flip hpart
        exact ih operand hoperand hcode
      exact (spaced_intercalate hsymbol hspaced).enclosed (by decide) (by decide)

section Messages

theorem Fault.spaced_message {Cause : Type} [HasMessage Cause] {fault : Fault Cause}
    (h : Spaced (HasMessage.message fault.cause)) : Spaced fault.message :=
  ((spaced_natRepr fault.position).enclosed (by decide) (by decide)).append h

/-- What is written in place of a result. -/
theorem Fault.spaced_refusal {Cause : Type} [HasMessage Cause] {fault : Fault Cause}
    (h : Spaced fault.message) : Spaced ("error: " ++ fault.message) := by
  have hmark : Spaced "error: " := by decide
  exact hmark.append h

theorem spaced_unknownOperatorMessage {name : String} (h : Spaced name) :
    Spaced (unknownOperatorMessage name) :=
  h.enclosed (by decide) (by decide)

/-- A message of parsing shows at most a literal. -/
theorem ParseCause.spaced_message {cause : ParseCause}
    (h : ∀ token, cause = .literalTooLarge token → Spaced token) :
    Spaced (HasMessage.message cause) := by
  cases cause with
  | endOfInput => exact (by decide : Spaced "Unexpected end of input.")
  | literalTooLarge token => exact (h token rfl).enclosed (by decide) (by decide)
  | nestingTooDeep limit => exact (spaced_natRepr limit).enclosed (by decide) (by decide)

/-- A message of evaluation shows at most the name of an unknown operator. -/
theorem EvalCause.spaced_message {cause : EvalCause}
    (h : ∀ name, cause = .unknownOperator name → Spaced name) :
    Spaced (HasMessage.message cause) := by
  have hkeyword : ∀ op : Operator, Spaced op.keyword := by
    intro op
    cases op <;> decide
  cases cause with
  | unknownOperator name => exact spaced_unknownOperatorMessage (h name rfl)
  | missingOperand op => exact (hkeyword op).enclosed (by decide) (by decide)
  | divisionByZero => exact (by decide : Spaced "Division by zero.")
  | overflow op => exact (hkeyword op).enclosed (by decide) (by decide)
  | underflow op => exact (hkeyword op).enclosed (by decide) (by decide)
  | precisionLoss value => exact (Integer64.spaced_text value).append (by decide)

end Messages

section Parsing
variable {tokens : List String} {fault : Fault ParseCause} {token : String}

/-- Only literals are refused for being too large. -/
theorem Parsing.isLiteral_of_flatOperands {position depth : ℕ}
    (hcause : fault.cause = .literalTooLarge token)
    (h : flatOperands position depth tokens = .error fault) : Token.isLiteral token = true := by
  induction tokens generalizing position depth with
  | nil => cases h
  | cons first rest ih =>
    rw [flatOperands] at h
    split_ifs at h with hliteral hrange hdepth
    · exact ih (map_eq_error_iff.mp h)
    · cases h
      cases hcause
      exact hliteral
    · cases h
      cases hcause
    · exact ih (map_eq_error_iff.mp h)

theorem isLiteral_of_parse (hcause : fault.cause = .literalTooLarge token)
    (h : parse tokens = .error fault) : Token.isLiteral token = true := by
  cases tokens with
  | nil =>
    rw [parse_nil] at h
    cases h
    cases hcause
  | cons first rest =>
    cases hliteral : Token.isLiteral first with
    | true =>
      rw [parse_of_literal first rest hliteral] at h
      split_ifs at h
      cases h
      cases hcause
      exact hliteral
    | false =>
      rw [parse_of_word first rest hliteral] at h
      exact Parsing.isLiteral_of_flatOperands hcause (map_eq_error_iff.mp h)

theorem spaced_message_of_parse (h : parse tokens = .error fault) : Spaced fault.message := by
  refine Fault.spaced_message (ParseCause.spaced_message ?_)
  intro token hcause
  obtain ⟨-, hblank⟩ := Token.noBlank_of_isLiteral (isLiteral_of_parse hcause h)
  exact spaced_of_noBlank hblank

end Parsing

section Outcomes

theorem spaced_outcomeText {Cause α : Type} [HasMessage Cause] {text : α → String}
    {found : Except (Fault Cause) α} (hok : ∀ a, found = .ok a → Spaced (text a))
    (herror : ∀ fault, found = .error fault → Spaced fault.message) :
    Spaced (outcomeText text found) := by
  cases found with
  | ok a => exact hok a rfl
  | error fault => exact Fault.spaced_refusal (herror fault rfl)

variable {source : String} {tree : Expr} (hparse : parse (tokenize source) = .ok tree)
include hparse

/-- The name that evaluation refuses is a token. -/
theorem spaced_valueText : Spaced tree.analyse.valueText := by
  refine spaced_outcomeText (fun value _ => value.spaced_text) ?_
  intro fault hfault
  obtain ⟨word, hword, -, hconcerns⟩ := concerns_of_evaluate hparse hfault
  refine Fault.spaced_message (EvalCause.spaced_message ?_)
  intro name hname
  -- an unknown name is the word at the position of the fault
  rw [hname] at hconcerns
  obtain ⟨rfl, -⟩ := hconcerns
  exact spaced_of_noBlank (isBlank_of_mem_tokenize (List.mem_of_getElem? hword))

/-- The name that coding refuses is a token. -/
theorem spaced_codeText : Spaced tree.analyse.codeText := by
  refine spaced_outcomeText (fun _ => Expr.spaced_code) ?_
  intro fault hfault
  obtain ⟨position, ⟨name⟩⟩ := fault
  obtain ⟨-, -, hname⟩ := (code_eq_error_iff_isGreatest hparse).mp hfault
  refine Fault.spaced_message (spaced_unknownOperatorMessage ?_)
  exact spaced_of_noBlank (isBlank_of_mem_tokenize (List.mem_of_getElem? hname))

end Outcomes

namespace Report

theorem spaced_summary (source : String) : Spaced (report source).summary := by
  cases hparse : parse (tokenize source) with
  | error fault =>
    rw [report_of_parse_error hparse]
    exact Fault.spaced_refusal (spaced_message_of_parse hparse)
  | ok tree =>
    have hcode := spaced_codeText hparse
    rw [report_of_parse_ok hparse]
    exact (hcode.append (by decide)).append (spaced_valueText hparse)

/-- What the four lines say stands in one line each. -/
theorem spaced_entries (source : String) : ∀ entry ∈ (report source).entries, Spaced entry := by
  have htokens : Spaced (listed ((tokenize source).map quoted)) :=
    spaced_listed (List.forall_mem_map.mpr fun token _ => spaced_quoted token)
  cases hparse : parse (tokenize source) with
  | error fault =>
    have hmessage := Fault.spaced_refusal (spaced_message_of_parse hparse)
    rw [report_of_parse_error hparse]
    simp only [entries, List.forall_mem_cons]
    exact ⟨htokens, hmessage, by decide, by decide, nofun⟩
  | ok tree =>
    rw [report_of_parse_ok hparse]
    simp only [entries, List.forall_mem_cons]
    exact ⟨htokens, tree.spaced_dump, spaced_valueText hparse, spaced_codeText hparse, nofun⟩

theorem spaced_lines (source : String) : ∀ line ∈ (report source).lines, Spaced line := by
  have hlabels : ∀ label ∈ labels, Spaced label := by decide
  intro line hline
  rw [lines, ← List.map_uncurry_zip_eq_zipWith, List.mem_map] at hline
  obtain ⟨⟨label, entry⟩, hpair, rfl⟩ := hline
  obtain ⟨hlabel, hentry⟩ := List.of_mem_zip hpair
  exact (hlabels label hlabel).append (spaced_entries source entry hentry)

/-- Each line starts with its own name. -/
theorem forall₂_labels_lines (report : Report) :
    List.Forall₂ (fun label line => label.toList <+: line.toList) labels report.lines := by
  rw [lines, entries]
  cases report.parsed with
  | ok analysis => simp [labels]
  | error fault => simp [labels]

/-- The lines that are printed are the four lines that are meant. -/
theorem printedLines_text (source : String) :
    printedLines (report source).text = (report source).lines := by
  have hlength := (forall₂_labels_lines (report source)).length_eq
  have hne : (report source).lines ≠ [] := by
    intro hnil
    rw [hnil] at hlength
    cases hlength
  exact printedLines_intercalate hne (spaced_lines source)

end Report

end PrefixArithmetic
