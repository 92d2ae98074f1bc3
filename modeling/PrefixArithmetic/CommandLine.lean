import PrefixArithmetic.Report
import PrefixArithmetic.Script

/-!
# The command line

Arguments are acted on from left to right: the first that is out of place ends
the reading, and so does a request for the version. What is left are options,
and they say where expressions come from. The answer is what is printed and the
exit status, which is zero only if every expression came through every stage.
-/
namespace PrefixArithmetic.CommandLine

structure Response where
  status : Nat
  output : String
  deriving DecidableEq

/-- The flags that are acted on. The request for help, `-h` or `--help`, is left out. -/
inductive Flag where
  | file
  | quiet
  | version
  deriving DecidableEq

namespace Flag

def ofLetter? : Char → Option Flag
  | 'f' => some file
  | 'q' => some quiet
  | 'V' => some version
  | _ => none

def ofName? (name : String) : Option Flag :=
  if name = "file" then some file
  else if name = "quiet" then some quiet
  else if name = "version" then some version
  else none

end Flag

/-- Why no expression is looked at. A request for help should end with a text on usage and status
zero. As it is left out, it is a misuse here, like any flag that is unknown. -/
inductive Halt where
  | version
  | misuse
  deriving DecidableEq

def Halt.response : Halt → Response
  | version => ⟨0, "prefixa 0.1.0\n"⟩
  | misuse => ⟨2, ""⟩

structure Options where
  fromFile : Bool
  quiet : Bool
  operand : Option String
  deriving DecidableEq

namespace Options

/-- No argument has been read. -/
def unset : Options := ⟨false, false, none⟩

/-- A flag counts once, and the version is shown as soon as it is asked for. -/
def addFlag (options : Options) : Flag → Except Halt Options
  | .file => if options.fromFile then .error .misuse else .ok { options with fromFile := true }
  | .quiet => if options.quiet then .error .misuse else .ok { options with quiet := true }
  | .version => .error .version

/-- There is one operand at most. -/
def addOperand (options : Options) (argument : String) : Except Halt Options :=
  if options.operand.isSome then .error .misuse
  else .ok { options with operand := some argument }

/-- A flag that may be known or not. -/
def addFlag? (options : Options) : Option Flag → Except Halt Options
  | some flag => options.addFlag flag
  | none => .error .misuse

/-- Two dashes and a name, or one dash and letters, are flags; a dash alone is not. -/
def addArgument (options : Options) (argument : String) : Except Halt Options :=
  match argument.toList with
  | '-' :: '-' :: name => options.addFlag? (Flag.ofName? (String.ofList name))
  | '-' :: letter :: letters =>
    (letter :: letters).foldlM (fun options letter => options.addFlag? (Flag.ofLetter? letter))
      options
  | _ => options.addOperand argument

/-- After two dashes alone every argument is an operand. A file has to be named. -/
def ofArguments (arguments : List String) : Except Halt Options := do
  let options ← (arguments.takeWhile (· != "--")).foldlM addArgument unset
  let options ← ((arguments.dropWhile (· != "--")).drop 1).foldlM addOperand options
  if options.fromFile && options.operand.isNone then .error .misuse else .ok options

end Options

/-- Where expressions come from. -/
inductive Source where
  | argument (expression : String)
  | file (path : String)
  | standardInput
  deriving DecidableEq

def Options.source (options : Options) : Source :=
  match options.operand with
  | some operand => if options.fromFile then .file operand else .argument operand
  | none => .standardInput

/-- Reports in one line each, or in full with an empty line between them. -/
def transcript (quiet : Bool) (reports : List Report) : String :=
  if quiet then String.join (reports.map (·.summary ++ "\n"))
  else "\n".intercalate (reports.map (·.text ++ "\n"))

/-- The answer to expressions, or to expressions that could not be read. -/
def respond (quiet : Bool) : Option (List String) → Response
  | none => ⟨1, ""⟩
  | some expressions =>
    let reports := expressions.map report
    ⟨if reports.all Report.succeeded then 0 else 1, transcript quiet reports⟩

/-- The answer to arguments, given standard input and the files there are. -/
def answer (arguments : List String) (standardInput : ByteArray)
    (readFile : String → Option ByteArray) : Response :=
  match Options.ofArguments arguments with
  | .error halt => halt.response
  | .ok options =>
    respond options.quiet <|
      match options.source with
      | .argument expression => some [expression]
      | .file path => (readFile path).bind Script.ofFile?
      | .standardInput => Script.ofStream? standardInput

end PrefixArithmetic.CommandLine
