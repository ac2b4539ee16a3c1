import Calculator.Console.Output
import Calculator.Script

/-!
# The prompt

Lines are read one after the other, and each is answered before the next is asked for. A failed line
does not end the session.
-/

namespace Calculator.Console

/-- What comes back from a prompt. -/
inductive Input where
  | line (text : String)
  /-- The line was abandoned. -/
  | interrupt
  deriving DecidableEq, Repr

namespace Prompt

def programName : String := "intcalc"

def version : String := "0.1.0"

def banner (display : Display) : Output :=
  if display.quiet then .empty
  else
    .ofOut (Text.styled display.outStyles "38;2;153;221;255" programName ++ " REPL v" ++ version ++
      "\n(press ctrl-D to exit)")

/-- What asks for a line. -/
def prompt (display : Display) : Output :=
  if display.quiet then .empty
  else ⟨programName ++ " " ++ Text.bold display.outStyles ">>" ++ " ", ""⟩

/-- What follows the last prompt, when the input has ended. -/
def farewell (display : Display) : Output := if display.quiet then .empty else .ofOut ""

def showValue (display : Display) (value : Int) : Output :=
  if display.quiet then .ofOut (Decimal.text value)
  else .ofOut ("-> " ++ Text.bold display.outStyles (Decimal.text value))

/-- Answers one input. -/
def respond (display : Display) (s : Session) : Input → Session × Output
  | .interrupt => (s, .ofOut "")
  | .line text =>
    let first := s.journal.next
    match s.evaluate text with
    | (s, .error failure) =>
      (s, .ofOut (failure.headline display.outStyles) ++ report display s.journal failure first)
    | (s, .ok answer) =>
      (s, trace s.journal first ++
        match Script.given? answer with
        | some value => showValue display value
        | none => .empty)

/-- All answers to the inputs, each after its prompt, and the prompt that meets the end of the
input. -/
def converse (display : Display) (s : Session) : List Input → Session × Output
  | [] => (s, prompt display ++ farewell display)
  | input :: inputs =>
    let (next, output) := respond display s input
    let (last, outputs) := converse display next inputs
    (last, prompt display ++ output ++ outputs)

def run (display : Display) (s : Session) (inputs : List Input) : Session × Output :=
  let (last, output) := converse display s inputs
  (last, banner display ++ output)

end Prompt

end Calculator.Console
