import Calculator.Json
import Calculator.Session
import Calculator.Text.Quoted
import Calculator.Text.Style

/-!
# Reports

A failed line is told in three ways: a headline for the reader at a terminal, a text that lists the
last steps before the failure, and the same as JSON.
-/

namespace Calculator

/-! ## Headlines -/

namespace Failure

/-- What a headline says: the kind of failure, and what it is about. -/
def headlineParts : Failure → String × String
  | fault (.unbound name) _ => ("variable not found:", " '" ++ name ++ "'")
  | fault (.invalidName name) _ => ("invalid variable name:", " '" ++ name ++ "'")
  | rejected line cause => ("failed to parse expression:", "\n" ++ cause.describe line)
  | failure => ("unexpected error:", "\n" ++ failure.message)

def headline (styles : Bool) (failure : Failure) : String :=
  let (kind, subject) := failure.headlineParts
  Text.styled styles "1;31" "ERROR" ++ " " ++ Text.bold styles kind ++ subject

end Failure

/-! ## Reports with steps -/

namespace Report

/-- Steps shown unless another number is asked for. -/
def defaultDepth : Int := 5

/-- The last `depth` elements; a negative depth leaves out that many at the beginning. -/
def lastOf {α : Type} (depth : Int) (xs : List α) : List α :=
  if depth < 0 then xs.drop depth.natAbs
  else xs.drop (xs.length - depth.toNat)

/-- The steps that a report shows, none of them older than `first`. -/
def recent (j : Journal) (first depth : Int) : List Entry := lastOf depth (j.since first)

def assignments (sep : String) (pairs : Table String) : String :=
  sep.intercalate (pairs.map fun p => p.1 ++ "=" ++ p.2)

def trimEnd (text : String) : String := String.ofList (Text.trimEnd text.toList)

/-- The line of a step. -/
def stepLine (e : Entry) : String :=
  trimEnd ("  [" ++ e.step.repr ++ "] " ++ e.rule ++ " " ++ assignments " " e.detail)

/-- The rule of a fault that names none. -/
def generalRule : String := "runtime"

def shownRule (rule : Option String) : String :=
  match rule with
  | none | some "" => generalRule
  | some rule => rule

def failureLines (f : Failure) : List String :=
  match f with
  | .fault cause _ =>
    [f.label ++ ": " ++ cause.message ++ " (rule: " ++ shownRule cause.rule ++ ")"]
  | .rejected line cause => [f.label ++ ": " ++ Text.quoted line, cause.describe line]
  | .other message => [f.label ++ ": " ++ message]

def stepLines (steps : List Entry) : List String :=
  match steps.getLast? with
  | none => []
  | some last =>
    "Reduction steps (most recent last):" :: steps.map stepLine ++
      match last.snapshot with
      | some vars => ["  Env snapshot: " ++ assignments ", " vars]
      | none => []

/-- The failure, and above it the steps before it if they are asked for. -/
def text (j : Journal) (f : Failure) (withSteps : Bool) (first depth : Int) : String :=
  "\n".intercalate ((if withSteps then stepLines (recent j first depth) else []) ++ failureLines f)

/-! ## JSON -/

def jsonPairs (pairs : Table String) : Json := .object (pairs.map fun p => (p.1, .string p.2))

def jsonOption {α : Type} (f : α → Json) : Option α → Json
  | some a => f a
  | none => .null

/-- A field that is left out where it has no value. -/
def optionalField {α : Type} (key : String) (f : α → Json) : Option α → List (String × Json)
  | some a => [(key, f a)]
  | none => []

def jsonStep (e : Entry) : Json :=
  .object <|
    [("step_index", .number e.step), ("rule", .string e.rule), ("detail", jsonPairs e.detail)] ++
    optionalField "statement" .string e.statement ++
    optionalField "env_snapshot" jsonPairs e.snapshot

def jsonFailure (f : Failure) : Json :=
  .object <| ("type", .string f.label) ::
    match f with
    | .fault cause step =>
      [("message", .string cause.message), ("rule", jsonOption .string cause.rule),
        ("failing_step_index", jsonOption .number step)]
    | .rejected line cause => [("line", .string line), ("message", .string (cause.describe line))]
    | .other message => [("message", .string message)]

def toJson (j : Journal) (f : Failure) (first depth : Int) : Json :=
  .object [("error", jsonFailure f), ("steps", .array ((recent j first depth).map jsonStep))]

end Report

end Calculator
