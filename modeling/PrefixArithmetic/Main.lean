import PrefixArithmetic.CommandLine

/-!
# The program

Reads only the source of expressions that the arguments name, prints the answer
and exits with its status.
-/
namespace PrefixArithmetic.CommandLine

/-- The bytes of a file, if it can be read. -/
def readBytes? (path : String) : IO (Option ByteArray) := do
  try
    return some (← IO.FS.readBinFile path)
  catch _ =>
    return none

/-- The expressions of a source, if it can be read. -/
def readExpressions? : Source → IO (Option (List String))
  | .argument expression => return some [expression]
  | .file path => return (← readBytes? path).bind Script.ofFile?
  | .standardInput => return Script.ofStream? (← (← IO.getStdin).readBinToEnd)

end PrefixArithmetic.CommandLine

open PrefixArithmetic in
def main (arguments : List String) : IO UInt32 := do
  let response ← match CommandLine.Options.ofArguments arguments with
    | .error halt => pure halt.response
    | .ok options =>
      pure (CommandLine.respond options.quiet (← CommandLine.readExpressions? options.source))
  IO.print response.output
  return response.status.toUInt32
