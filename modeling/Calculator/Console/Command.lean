import Calculator.Console.Options
import Calculator.Console.Prompt

/-!
# Commands

What a command line asks for, and what comes of it: an exit code and the text on both streams.
-/

namespace Calculator.Console

/-- What is known of the surroundings of a command. -/
structure Surroundings where
  /-- The name under which the program is called. -/
  name : String
  /-- A setting that asks for verbose journals, if it is there and not empty. -/
  debug : Option String
  outStyles : Bool
  errStyles : Bool
  deriving DecidableEq, Repr

/-- Why nothing can be read under the name of a file. -/
inductive Unreadable where
  | missing
  | directory
  /-- A part of the name that has to lead on is no directory. -/
  | notDirectory
  | nameTooLong
  deriving DecidableEq, Repr

def Unreadable.message : Unreadable → String
  | missing => "[Errno 2] No such file or directory"
  | directory => "[Errno 21] Is a directory"
  | notDirectory => "[Errno 20] Not a directory"
  | nameTooLong => "[Errno 36] File name too long"

/-- What is found under the name of a file. -/
abbrev FileContent := Except Unreadable ByteArray

/-- The work that a command line asks for. -/
inductive Task where
  | prompt
  | expression (text : String)
  /-- An expression without a text. -/
  | noExpression
  | file (name : String)
  deriving DecidableEq, Repr

structure Plan where
  task : Task
  verbose : Bool
  display : Display
  deriving DecidableEq, Repr

structure Result where
  exit : Nat
  output : Output
  deriving DecidableEq, Repr

/-- Why a command breaks off without a result. -/
inductive Breakdown where
  | noExpression
  /-- The name of the script file contains a null character. -/
  | invalidName
  /-- The content of the script file is no text. -/
  | notText
  deriving DecidableEq, Repr

def Breakdown.message : Breakdown → String
  | noExpression => "no expression to evaluate"
  | invalidName => "null character in a file name"
  | notText => "script file is not text"

/-! ## Planning -/

/-- The result of a command line that asks for no work. -/
def Stop.result (name : String) : Stop → Result
  | .help => ⟨0, ⟨helpText name, ""⟩⟩
  | .misuse cause => ⟨2, ⟨"", usage name ++ name ++ ": error: " ++ cause.message ++ "\n"⟩⟩

def conflict : Result := ⟨2, .ofErr "a script file and --expr cannot be combined"⟩

/-- A file and an expression exclude each other; without either, lines are prompted for. -/
def Options.task? (o : Options) : Option Task :=
  match o.program, o.expr with
  | some _, some _ => none
  | none, none => some .prompt
  | none, some (some text) => some (.expression text)
  | none, some none => some .noExpression
  | some name, none => some (.file name)

def Plan.ofOptions (around : Surroundings) (o : Options) : Except Result Plan :=
  match o.task? with
  | none => .error conflict
  | some task =>
    .ok
      { task := task
        verbose := o.verbose || around.debug.getD "" != ""
        display := ⟨o.quiet, o.tracebackJson, around.outStyles, around.errStyles⟩ }

def Plan.ofArguments (around : Surroundings) (arguments : List String) : Except Result Plan :=
  match Options.ofArguments arguments with
  | .error stop => .error (stop.result around.name)
  | .ok o => Plan.ofOptions around o

/-! ## Scripts -/

/-- Runs a script from a fresh session; `source` names it where it fails. -/
def runScript (plan : Plan) (source : String) (script : Script) : Result :=
  let run := script.run (.fresh plan.verbose)
  let values := Output.concat (run.values.map fun v => .ofOut (Decimal.text v))
  let journal := run.session.journal
  match run.failure with
  | none => ⟨0, values ++ trace journal 0⟩
  | some (number, failure) =>
    ⟨1, values ++ .ofErr (source ++ ", line " ++ number.repr ++ ":") ++
      .ofErr (failure.headline plan.display.errStyles) ++ report plan.display journal failure 0⟩

def runExpression (plan : Plan) (text : String) : Result := runScript plan "<expr>" (.ofText text)

def unreadable (name : String) (cause : Unreadable) : Result :=
  ⟨1, .ofErr ("Failed to read " ++ name ++ ": " ++ cause.message ++ ": " ++ Text.quoted name)⟩

/-- The text of a file, with plain newlines, if it is one. -/
def decode? (content : ByteArray) : Option String :=
  (String.fromUTF8? content).map fun text => String.ofList (Text.plainNewlines text.toList)

def runFile (plan : Plan) (name : String) (content : FileContent) : Except Breakdown Result :=
  if '\x00' ∈ name.toList then .error .invalidName
  else
    match content with
    | .error cause => .ok (unreadable name cause)
    | .ok content =>
      match decode? content with
      | none => .error .notText
      | some text => .ok (runScript plan name (.ofText text))

/-! ## Whole commands -/

/-- Carries out a plan whose inputs and files are all known. -/
def Plan.run (plan : Plan) (files : String → FileContent) (inputs : List Input) :
    Except Breakdown Result :=
  match plan.task with
  | .prompt => .ok ⟨0, (Prompt.run plan.display (.fresh plan.verbose) inputs).2⟩
  | .expression text => .ok (runExpression plan text)
  | .noExpression => .error .noExpression
  | .file name => runFile plan name (files name)

/-- The result of a command line. -/
def run (around : Surroundings) (files : String → FileContent) (inputs : List Input)
    (arguments : List String) : Except Breakdown Result :=
  match Plan.ofArguments around arguments with
  | .error result => .ok result
  | .ok plan => plan.run files inputs

end Calculator.Console
