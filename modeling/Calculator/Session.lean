import Calculator.Journal
import Calculator.Reduction
import Calculator.Statement

/-!
# Sessions

A session works out lines one after the other. It remembers the variables, and keeps a journal of
the steps. A line that fails leaves the variables as they were; the steps it took until then stay in
the journal.
-/

namespace Calculator

/-- Why a line has no value. -/
inductive Failure where
  | rejected (line : String) (cause : Rejection)
  /-- A fault, with the number of the last step kept when it was met. -/
  | fault (cause : Fault) (step : Option Nat)
  | other (message : String)
  deriving DecidableEq, Repr

namespace Failure

def label : Failure → String
  | rejected _ _ => "CalcParseError"
  | fault cause _ => cause.label
  | other _ => "CalcError"

def message : Failure → String
  | rejected line cause => cause.describe line
  | fault cause _ => cause.message
  | other message => message

end Failure

/-- The value of a line, and the variable that took it. -/
structure Answer where
  value : Int
  assignedTo : Option String
  deriving DecidableEq, Repr

structure Session where
  vars : Variables
  journal : Journal
  deriving Repr

namespace Session

/-- Entries that the journal of a session keeps. -/
def journalCapacity : Nat := 1000

/-- A session that starts from given variables, with nothing in its journal. -/
def ofVariables (vars : Variables) (verbose : Bool) : Session :=
  ⟨vars, .empty journalCapacity verbose⟩

def fresh (verbose : Bool) : Session := ofVariables .empty verbose

/-- Enters steps that belong to the given text. The variables do not change between them. -/
def enter (s : Session) (statement : Option String) (steps : List Step) : Session :=
  let snapshot := if s.journal.verbose then some s.vars.snapshot else none
  let enterStep (j : Journal) (step : Step) : Journal :=
    j.record step.rule statement step.detail snapshot
  { s with journal := steps.foldl enterStep s.journal }

def fail (s : Session) (f : Fault) : Failure := .fault f s.journal.lastStep?

/-- The statement of a text and its value, found without any change to the variables. Blank lines
have none. -/
def workOut (s : Session) (text : String) : Session × Except Failure (Option (Statement × Int)) :=
  match Statement.ofText text with
  | .error (.rejected cause) => (s, .error (.rejected text cause))
  | .error (.fault cause) => (s, .error (s.fail cause))
  | .ok none => (s, .ok none)
  | .ok (some statement) =>
    let outcome := (statement.body.reduce s.vars).outcome
    let s := s.enter (some (String.ofList (Text.trim text.toList))) outcome.steps
    match outcome.result with
    | .error cause => (s, .error (s.fail cause))
    | .ok value => (s, .ok (some (statement, value)))

/-- The name that a statement really assigns to: assigning to the last value has no effect. -/
def target? (statement : Statement) : Option String :=
  statement.assigned?.filter fun name => name != Variables.lastName

/-- Stores a value under the target if there is one, and then as the last value. -/
def store (s : Session) (text : String) (target : Option String) (value : Int) :
    Session × Except Failure Answer :=
  match target with
  | none => ({ s with vars := s.vars.setLast value }, .ok ⟨value, none⟩)
  | some name =>
    match s.vars.set name value with
    | .error cause => (s, .error (s.fail cause))
    | .ok vars =>
      let s := enter { s with vars := vars } (some text) [.assignment name value]
      ({ s with vars := s.vars.setLast value }, .ok ⟨value, some name⟩)

/-- Works out a line and stores its value. -/
def evaluate (s : Session) (text : String) : Session × Except Failure (Option Answer) :=
  match s.workOut text with
  | (s, .error failure) => (s, .error failure)
  | (s, .ok none) => (s, .ok none)
  | (s, .ok (some (statement, value))) =>
    match s.store text (target? statement) value with
    | (s, result) => (s, result.map some)

/-- Works out a line without storing its value. -/
def inspect (s : Session) (text : String) : Session × Except Failure (Option Int) :=
  match s.workOut text with
  | (s, result) => (s, result.map (·.map Prod.snd))

end Session

end Calculator
