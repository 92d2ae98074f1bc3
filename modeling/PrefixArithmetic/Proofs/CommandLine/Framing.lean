import PrefixArithmetic.Proofs.CommandLine.Batches
import PrefixArithmetic.Proofs.Framing

/-!
# Output in lines

The lines of the output are those of the reports that were asked for, whatever
is in the expressions: a summary is one line, and a full report is four lines
with text in each, so that an empty line always stands between two reports.
-/
namespace PrefixArithmetic.CommandLine
open Text

/-- The blanks of a report are spaces and the ends of its lines. -/
theorem blank_of_mem_text {source : String} :
    ∀ c ∈ (report source).text.toList, isBlank c = true → c = '\n' ∨ c = ' ' := by
  refine forall_mem_intercalate ?_ ?_
  · intro c hc _
    rw [Script.newline_toList, List.mem_singleton] at hc
    exact .inl hc
  · intro line hline c hc hblank
    exact .inr (Report.spaced_lines source line hline c hc hblank)

/-- The four lines of a report start with their names, so none of them is empty. -/
theorem fourLines_text (source : String) :
    (printedLines (report source).text).length = 4 ∧ "" ∉ printedLines (report source).text := by
  have hlabels : ∀ label ∈ Report.labels, label.toList ≠ [] := by decide
  have hlines := Report.forall₂_labels_lines (report source)
  rw [Report.printedLines_text]
  refine ⟨hlines.length_eq.symm, ?_⟩
  intro hempty
  obtain ⟨label, hlabel, hprefix⟩ := exists_mem_of_forall₂ hlines.flip hempty
  exact hlabels label hlabel (List.prefix_nil.mp hprefix)

section Transcript
variable (expressions : List String)

/-- Quiet output is one line for each expression. -/
theorem printedLines_transcript_quiet :
    printedLines (transcript true (expressions.map report)) =
      expressions.map (fun expression => (report expression).summary) ++ [""] := by
  have hspaced : ∀ text ∈ expressions.map (fun expression => (report expression).summary),
      Spaced text :=
    List.forall_mem_map.mpr fun expression _ => Report.spaced_summary expression
  have hlines := printedLines_join hspaced
  rw [List.map_map] at hlines
  rw [transcript_quiet, List.map_map]
  exact hlines

/-- Full output is the lines of the reports, with an empty line between two of them. -/
theorem printedLines_transcript_full :
    printedLines (transcript false (expressions.map report)) =
      [""].intercalate (expressions.map fun expression => printedLines (report expression).text) ++
        [""] := by
  have hlines := printedLines_separated (expressions.map fun expression => (report expression).text)
  rw [List.map_map, List.map_map] at hlines
  rw [transcript_full, List.map_map]
  exact hlines

end Transcript

/-- What is in an expression cannot break the lines of the output. -/
theorem output_framed :
    (∀ source : String,
      let text := (report source).text
      text.toList.count '\n' = 3 ∧
        (∀ c ∈ text.toList, isBlank c = true → c = '\n' ∨ c = ' ') ∧
        List.Forall₂ (fun label line => label.toList <+: line.toList)
          ["tokens:   ", "ast:      ", "value:    ", "compiled: "] (printedLines text) ∧
        ∀ c ∈ (report source).summary.toList, isBlank c = true → c = ' ') ∧
    ∀ (run : Invocation) (source : Source) (expressions : List String),
      run.expressions? source = some expressions →
        (run.Accepts true source → printedLines run.answer.output =
          expressions.map (fun expression => (report expression).summary) ++ [""]) ∧
        (run.Accepts false source → printedLines run.answer.output =
            [""].intercalate
              (expressions.map fun expression => printedLines (report expression).text) ++ [""] ∧
          ∀ expression ∈ expressions, (printedLines (report expression).text).length = 4 ∧
            "" ∉ printedLines (report expression).text) := by
  constructor
  · intro source text
    have hlength := (fourLines_text source).1
    rw [length_printedLines] at hlength
    refine ⟨Nat.succ.inj hlength, blank_of_mem_text, ?_, Report.spaced_summary source⟩
    rw [Report.printedLines_text]
    exact Report.forall₂_labels_lines (report source)
  · intro run source expressions hexpressions
    constructor
    · intro haccepts
      rw [Invocation.answer_of_accepts haccepts, hexpressions]
      exact printedLines_transcript_quiet expressions
    · intro haccepts
      rw [Invocation.answer_of_accepts haccepts, hexpressions]
      exact ⟨printedLines_transcript_full expressions, fun expression _ => fourLines_text expression⟩

/-- An operand with line separators in it, and a script. -/
theorem output_framed_separators :
    let operand := "pow\r\u2028\n2"
    let byOperand : Invocation := ⟨["-q", "--", operand], .empty, fun _ => none⟩
    let byStream : Invocation := ⟨[], "1\n# note\nsum\t2 3".toUTF8, fun _ => none⟩
    printedLines byOperand.answer.output = [(report operand).summary, ""] ∧
      printedLines byStream.answer.output =
        printedLines (report "1").text ++ [""] ++ printedLines (report "sum\t2 3").text ++ [""] := by
  intro operand byOperand byStream
  have hoperand : byOperand.Accepts true (.argument operand) := ⟨_, rfl, rfl, rfl⟩
  have hstream : byStream.Accepts false .standardInput := ⟨_, rfl, rfl, rfl⟩
  have hexpressions : byStream.expressions? .standardInput = some ["1", "sum\t2 3"] := by
    rw [Invocation.expressions?, Script.ofStream?_eq_ofFile?, Script.ofFile?_toUTF8]
    decide
  obtain ⟨-, houtput⟩ := output_framed
  obtain ⟨hquiet, -⟩ := houtput byOperand (.argument operand) [operand] rfl
  obtain ⟨-, hfull⟩ := houtput byStream .standardInput ["1", "sum\t2 3"] hexpressions
  obtain ⟨hlines, -⟩ := hfull hstream
  simp only [List.map_cons, List.map_nil, List.intercalate_cons_cons,
    List.intercalate_singleton] at hlines
  exact ⟨hquiet hoperand, hlines⟩

end PrefixArithmetic.CommandLine
