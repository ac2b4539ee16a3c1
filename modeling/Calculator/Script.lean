import Calculator.Session
import Calculator.Text.Lines

/-!
# Scripts

The lines of a text that are neither blank nor a comment, with the numbers of their physical lines.
A script runs until a line fails, and gives out the values that no variable took.
-/

namespace Calculator

structure ScriptLine where
  /-- Counted from one. -/
  number : Nat
  text : String
  deriving DecidableEq, Repr

abbrev Script := List ScriptLine

namespace Script

/-- Lines without anything to work out. -/
def isIdle (line : List Char) : Bool := line.isEmpty || line.head? = some '#'

def ofLines (number : Nat) : List (List Char) → Script
  | [] => []
  | l :: ls =>
    let line := Text.trim l
    if isIdle line then ofLines (number + 1) ls
    else ⟨number, String.ofList line⟩ :: ofLines (number + 1) ls

def ofText (text : String) : Script := ofLines 1 (Text.lines (Text.closed text.toList))

/-- What a run leaves: the session, the values given out, and the line that failed, if one did. -/
structure Run where
  session : Session
  values : List Int
  failure : Option (Nat × Failure)

/-- The value of an answer that no variable took. -/
def given? (answer : Option Answer) : Option Int :=
  match answer with
  | some ⟨value, none⟩ => some value
  | _ => none

def run (s : Session) : Script → Run
  | [] => ⟨s, [], none⟩
  | line :: rest =>
    match s.evaluate line.text with
    | (s, .error failure) => ⟨s, [], some (line.number, failure)⟩
    | (s, .ok answer) =>
      let after := run s rest
      { after with values := (given? answer).toList ++ after.values }

end Script

end Calculator
