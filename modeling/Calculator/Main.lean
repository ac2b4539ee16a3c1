import Calculator.Console.Command

/-!
# The program

Connects commands to the streams, the files and the environment of a process.
-/

open Calculator Calculator.Console

namespace Calculator.Console

/-- The variable that asks for verbose journals. -/
def debugVariable : String := "INTCALC_DEBUG"

def write (output : Output) : IO Unit := do
  IO.print output.out
  (← IO.getStdout).flush
  IO.eprint output.err

def finish (result : Result) : IO UInt32 := do
  write result.output
  return result.exit.toUInt32

def breakOff (cause : Breakdown) : IO UInt32 := do
  write (.ofErr cause.message)
  return 1

/-- The system's code for a directory that stands where a file has to be. -/
def directoryCode : UInt32 := 21

def readContent (name : String) : IO FileContent := do
  try
    return .ok (← IO.FS.readBinFile name)
  catch
    | .noFileOrDirectory .. => return .error .missing
    | .inappropriateType _ code _ =>
      return .error (if code = directoryCode then .directory else .notDirectory)
    | .invalidArgument .. => return .error .nameTooLong
    | error => throw error

/-- Answers lines until the input ends. -/
partial def converseLive (input : IO.FS.Stream) (display : Display) (s : Session) : IO Unit := do
  write (Prompt.prompt display)
  let line ← input.getLine
  if line.isEmpty then
    write (Prompt.farewell display)
  else
    let text := if line.endsWith "\n" then (line.dropEnd 1).toString else line
    let (next, output) := Prompt.respond display s (.line text)
    write output
    converseLive input display next

def execute (plan : Plan) : IO UInt32 := do
  match plan.task with
  | .prompt =>
    write (Prompt.banner plan.display)
    converseLive (← IO.getStdin) plan.display (.fresh plan.verbose)
    return 0
  | .expression text => finish (runExpression plan text)
  | .noExpression => breakOff .noExpression
  | .file name =>
    match runFile plan name (← readContent name) with
    | .ok result => finish result
    | .error cause => breakOff cause

end Calculator.Console

def main (arguments : List String) : IO UInt32 := do
  let around : Surroundings :=
    { name := Prompt.programName
      debug := ← IO.getEnv debugVariable
      outStyles := ← (← IO.getStdout).isTty
      errStyles := ← (← IO.getStderr).isTty }
  match Plan.ofArguments around arguments with
  | .error result => finish result
  | .ok plan => execute plan
