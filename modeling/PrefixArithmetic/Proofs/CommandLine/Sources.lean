import PrefixArithmetic.CommandLine
import PrefixArithmetic.Proofs.Script.Kept

/-!
# Ways of giving expressions

What is answered depends only on the expressions that are read. A file and
standard input hold the same expressions if they hold the same bytes, and an
expression in a file of its own is reported as it is reported as an argument,
although only the file has it trimmed.
-/
namespace PrefixArithmetic

/-- A report is made of tokens, so blanks at the ends of the source leave it unchanged. -/
theorem report_trim (source : String) :
    report (String.ofList (Text.trim source.toList)) = report source := by
  have htokens : tokenize (String.ofList (Text.trim source.toList)) = tokenize source := by
    rw [tokenize, tokenize, String.toList_ofList, Text.words_trim]
  rw [report, report, htokens]

namespace CommandLine

/-- One run of the program: its arguments, standard input, and the files that it can read. -/
structure Invocation where
  arguments : List String
  standardInput : ByteArray
  readFile : String → Option ByteArray

namespace Invocation
variable {run other : Invocation} {quiet : Bool} {bytes : ByteArray} {text expression : String}

def answer (run : Invocation) : Response :=
  CommandLine.answer run.arguments run.standardInput run.readFile

/-- The arguments are accepted, and ask for the expressions of a source in one line each or
in full. -/
def Accepts (run : Invocation) (quiet : Bool) (source : Source) : Prop :=
  ∃ options, Options.ofArguments run.arguments = .ok options ∧
    options.quiet = quiet ∧ options.source = source

/-- The expressions of a source, if it can be read. -/
def expressions? (run : Invocation) : Source → Option (List String)
  | .argument expression => some [expression]
  | .file path => (run.readFile path).bind Script.ofFile?
  | .standardInput => Script.ofStream? run.standardInput

theorem answer_of_accepts {source : Source} (h : run.Accepts quiet source) :
    run.answer = respond quiet (run.expressions? source) := by
  obtain ⟨options, hoptions, rfl, rfl⟩ := h
  rw [answer, CommandLine.answer, hoptions]
  dsimp only
  cases options.source <;> rfl

/-- The expression is the operand. -/
def TakesOperand (run : Invocation) (quiet : Bool) (expression : String) : Prop :=
  run.Accepts quiet (.argument expression)

/-- The operand is the name of a file that holds these bytes. -/
def ReadsFile (run : Invocation) (quiet : Bool) (bytes : ByteArray) : Prop :=
  ∃ path, run.Accepts quiet (.file path) ∧ run.readFile path = some bytes

/-- There is no operand, and standard input holds these bytes. -/
def ReadsStream (run : Invocation) (quiet : Bool) (bytes : ByteArray) : Prop :=
  run.Accepts quiet .standardInput ∧ run.standardInput = bytes

theorem answer_of_takesOperand (h : run.TakesOperand quiet expression) :
    run.answer = respond quiet (some [expression]) :=
  answer_of_accepts h

theorem answer_of_readsFile (h : run.ReadsFile quiet bytes) :
    run.answer = respond quiet (Script.ofFile? bytes) := by
  obtain ⟨path, haccepts, hbytes⟩ := h
  rw [answer_of_accepts haccepts, expressions?, hbytes]
  rfl

/-- Standard input is answered like a file of the same bytes. -/
theorem answer_of_readsStream (h : run.ReadsStream quiet bytes) :
    run.answer = respond quiet (Script.ofFile? bytes) := by
  obtain ⟨haccepts, rfl⟩ := h
  rw [answer_of_accepts haccepts, expressions?, Script.ofStream?_eq_ofFile?]

end Invocation

/-- Bytes that are no text are answered by the status alone. -/
theorem respond_of_not_isValidUTF8 {bytes : ByteArray} (h : ¬bytes.IsValidUTF8) (quiet : Bool) :
    respond quiet (Script.ofFile? bytes) = ⟨1, ""⟩ := by
  rw [Script.ofFile?, Script.fromUTF8?_eq_none_iff.mpr h]
  rfl

/-- A file of one line that is no comment holds its content, trimmed. -/
theorem ofFile?_of_line {expression : String} (hline : '\n' ∉ expression.toList)
    (hne : Text.trim expression.toList ≠ [])
    (hcomment : (Text.trim expression.toList).head? ≠ some '#') :
    Script.ofFile? expression.toUTF8 = some [String.ofList (Text.trim expression.toList)] := by
  have hkept : Script.kept ("\n".intercalate [expression]) = Script.expressions [expression] :=
    Script.kept_intercalate (List.forall_mem_singleton.mpr hline)
  rw [String.intercalate_singleton] at hkept
  rw [Script.ofFile?_toUTF8, hkept, Script.expressions, List.filterMap_cons,
    Script.expression?_of_kept hne hcomment]
  rfl

/-- The ways of giving expressions are answered alike: bytes in a file or on standard input, text
or not, and an expression in a file or as an argument. -/
theorem ways_agree (quiet : Bool) :
    (∀ (bytes : ByteArray) (byFile byStream : Invocation), byFile.ReadsFile quiet bytes →
      byStream.ReadsStream quiet bytes →
        byFile.answer = byStream.answer ∧
          (¬bytes.IsValidUTF8 → byFile.answer = ⟨1, ""⟩ ∧ byStream.answer = ⟨1, ""⟩)) ∧
    ∀ (expression : String) (byOperand byFile : Invocation), '\n' ∉ expression.toList →
      Text.trim expression.toList ≠ [] → (Text.trim expression.toList).head? ≠ some '#' →
        byOperand.TakesOperand quiet expression → byFile.ReadsFile quiet expression.toUTF8 →
          byOperand.answer = byFile.answer := by
  constructor
  · intro bytes byFile byStream hfile hstream
    rw [Invocation.answer_of_readsFile hfile, Invocation.answer_of_readsStream hstream]
    refine ⟨rfl, ?_⟩
    intro hinvalid
    have hanswer := respond_of_not_isValidUTF8 hinvalid quiet
    exact ⟨hanswer, hanswer⟩
  · intro expression byOperand byFile hline hne hcomment hoperand hfile
    rw [Invocation.answer_of_takesOperand hoperand, Invocation.answer_of_readsFile hfile,
      ofFile?_of_line hline hne hcomment, respond, respond]
    simp only [List.map_singleton, report_trim]

/-- Blanks around an expression do not count in a file, and one byte that is no text spoils the
line before it. -/
theorem ways_agree_blanks :
    let expression := " sum 1 2\t"
    let bytes : ByteArray := ⟨#[49, 10, 255]⟩
    let byOperand : Invocation := ⟨["-q", "--", expression], .empty, fun _ => none⟩
    let byFile : Invocation := ⟨["-qf", "script"], .empty, fun _ => some expression.toUTF8⟩
    let fromFile : Invocation := ⟨["--file", "--quiet", "script"], .empty, fun _ => some bytes⟩
    let fromStream : Invocation := ⟨["--quiet"], bytes, fun _ => none⟩
    byOperand.answer = byFile.answer ∧ fromFile.answer = ⟨1, ""⟩ ∧ fromStream.answer = ⟨1, ""⟩ := by
  intro expression bytes byOperand byFile fromFile fromStream
  have hoperand : byOperand.TakesOperand true expression := ⟨_, rfl, rfl, rfl⟩
  have hfile : byFile.ReadsFile true expression.toUTF8 := ⟨"script", ⟨_, rfl, rfl, rfl⟩, rfl⟩
  have hbytes : fromFile.ReadsFile true bytes := ⟨"script", ⟨_, rfl, rfl, rfl⟩, rfl⟩
  have hstream : fromStream.ReadsStream true bytes := ⟨⟨_, rfl, rfl, rfl⟩, rfl⟩
  obtain ⟨hscripts, hexpressions⟩ := ways_agree true
  obtain ⟨-, hinvalid⟩ := hscripts bytes fromFile fromStream hbytes hstream
  have hanswer := hexpressions expression byOperand byFile (by decide) (by decide) (by decide)
    hoperand hfile
  exact ⟨hanswer, hinvalid (by decide)⟩

end CommandLine

end PrefixArithmetic
