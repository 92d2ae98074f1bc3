import PrefixArithmetic.Code
import PrefixArithmetic.Evaluation
import PrefixArithmetic.Expr.Dump
import PrefixArithmetic.Parsing

/-!
# Reports

A report holds all that became of one source. Every source has tokens. If they
form an expression, its value and its code are worked out apart, so that either
may fail alone; if they do not, there is nothing to work out.
-/
namespace PrefixArithmetic

/-- An expression with its value and its code. -/
structure Analysis where
  tree : Expr
  value : Except (Fault EvalCause) Value
  code : Except (Fault CodeCause) String

structure Report where
  tokens : List String
  parsed : Except (Fault ParseCause) Analysis

/-- A fault with the stage that met it. -/
inductive StageFault where
  | parsing (fault : Fault ParseCause)
  | evaluation (fault : Fault EvalCause)
  | coding (fault : Fault CodeCause)
  deriving DecidableEq

def StageFault.message : StageFault → String
  | parsing fault => fault.message
  | evaluation fault => fault.message
  | coding fault => fault.message

def Expr.analyse (tree : Expr) : Analysis := ⟨tree, tree.evaluate, tree.code⟩

/-- Runs all stages on one source. -/
def report (source : String) : Report :=
  let tokens := tokenize source
  ⟨tokens, (parse tokens).map Expr.analyse⟩

/-- The value of a source, without its code. -/
def evaluateSource (source : String) : Except StageFault Value := do
  let tree ← (parse (tokenize source)).mapError .parsing
  tree.evaluate.mapError .evaluation

/-- The code of a source, without its value. -/
def codeSource (source : String) : Except StageFault String := do
  let tree ← (parse (tokenize source)).mapError .parsing
  tree.code.mapError .coding

/-- What became of a stage, in words. -/
def outcomeText {Cause α : Type} [HasMessage Cause] (text : α → String) :
    Except (Fault Cause) α → String
  | .ok a => text a
  | .error fault => "error: " ++ fault.message

namespace Analysis

def valueText (analysis : Analysis) : String := outcomeText Value.text analysis.value

def codeText (analysis : Analysis) : String := outcomeText id analysis.code

end Analysis

namespace Report

/-- The fault of the earliest stage that failed; evaluation comes before coding. -/
def firstFault? (report : Report) : Option StageFault :=
  match report.parsed with
  | .error fault => some (.parsing fault)
  | .ok analysis =>
    match analysis.value, analysis.code with
    | .error fault, _ => some (.evaluation fault)
    | .ok _, .error fault => some (.coding fault)
    | .ok _, .ok _ => none

/-- No stage failed. -/
def succeeded (report : Report) : Bool := report.firstFault?.isNone

/-- Code and value in one line. -/
def summary (report : Report) : String :=
  match report.parsed with
  | .ok analysis => analysis.codeText ++ " = " ++ analysis.valueText
  | .error fault => "error: " ++ fault.message

/-- What the four lines say: the tokens, the tree, the value and the code. -/
def entries (report : Report) : List String :=
  Text.listed (report.tokens.map Text.quoted) ::
    match report.parsed with
    | .ok analysis => [analysis.tree.dump, analysis.valueText, analysis.codeText]
    | .error fault => ["error: " ++ fault.message, "skipped", "skipped"]

/-- The names of the four lines, filled up to one width. -/
def labels : List String := ["tokens:   ", "ast:      ", "value:    ", "compiled: "]

def lines (report : Report) : List String := labels.zipWith (· ++ ·) report.entries

/-- The four lines as one text, without a newline at the end. -/
def text (report : Report) : String := "\n".intercalate report.lines

end Report

end PrefixArithmetic
