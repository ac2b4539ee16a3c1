import Calculator.Text.DecimalDigit
import Calculator.Text.Quoted

/-!
# Options

The command line: one optional script file, and five flags in short and long spellings. A long
spelling may be cut short as long as it fits one flag only; short ones may share a dash; a value
follows as the next argument, after an equals sign, or directly after the short spelling. All
arguments after `--` are plain, and the value `--` is dropped.

Flags take effect in the order in which they are given. Arguments without any meaning are refused at
the end, so that asking for help comes first.
-/

namespace Calculator.Console

inductive Flag where
  | help
  | expr
  | quiet
  | verbose
  | tracebackJson
  deriving DecidableEq, Repr

namespace Flag

def all : List Flag := [help, expr, quiet, verbose, tracebackJson]

def spellings : Flag → List String
  | help => ["-h", "--help"]
  | expr => ["-e", "--expr"]
  | quiet => ["-q", "--quiet"]
  | verbose => ["-verbose", "--verbose"]
  | tracebackJson => ["--traceback-json"]

def takesValue : Flag → Bool
  | expr => true
  | _ => false

def purpose : Flag → String
  | help => "show this help message and exit"
  | expr => "Evaluate a single line and print its value"
  | quiet => "Print bare values with no banner or prompt"
  | verbose => "Trace reduction steps on stderr"
  | tracebackJson => "Also emit a JSON error report"

/-- All spellings with their flags, in the order in which they are offered. -/
def table : List (String × Flag) := all.flatMap fun f => f.spellings.map fun s => (s, f)

def ofSpelling? (s : String) : Option Flag := (table.find? fun p => p.1 == s).map Prod.snd

end Flag

/-! ## Misuse -/

inductive Misuse where
  | ambiguous (given : String) (spellings : List String)
  | missingValue (flag : Flag)
  | needlessValue (flag : Flag) (value : String)
  | unrecognized (arguments : List String)
  deriving DecidableEq, Repr

namespace Misuse

def aboutFlag (flag : Flag) (what : String) : String :=
  "argument " ++ "/".intercalate flag.spellings ++ ": " ++ what

def message : Misuse → String
  | ambiguous given spellings =>
    "ambiguous option: " ++ given ++ " could match " ++ ", ".intercalate spellings
  | missingValue flag => aboutFlag flag "expected one argument"
  | needlessValue flag value => aboutFlag flag ("ignored explicit argument " ++ Text.quoted value)
  | unrecognized arguments => "unrecognized arguments: " ++ " ".intercalate arguments

end Misuse

/-! ## Single arguments -/

inductive Argument where
  | plain (text : String)
  /-- A flag, whose spelling begins with two dashes if `longDashes` holds, and the text that follows
  the spelling in the same argument. -/
  | flag (flag : Flag) (longDashes : Bool) (attached : Option (List Char))
  /-- Looks like a flag, and is none. -/
  | unknown (text : String)
  /-- The `--` before arguments that are all plain. -/
  | divider
  deriving DecidableEq, Repr

namespace Argument

/-- The text before the first equals sign, and the text after it if there is one. -/
def splitEquals (cs : List Char) : List Char × Option (List Char) :=
  match cs.dropWhile (· ≠ '=') with
  | [] => (cs, none)
  | _ :: value => (cs.takeWhile (· ≠ '='), some value)

def isLong (spelling : String) : Bool := spelling.startsWith "--"

/-- A spelling as it stands, with a value after an equals sign. -/
def withEquals (spelling : String) (flag : Flag) (value : Option (List Char)) : Argument :=
  .flag flag (isLong spelling) value

/-- What an argument may mean that spells no flag in full, with the spellings that it fits. -/
def guesses (cs : List Char) : List (String × Argument) :=
  match cs with
  | '-' :: '-' :: _ =>
    let (name, value) := splitEquals cs
    Flag.table.filterMap fun (s, f) =>
      if name.isPrefixOf s.toList then some (s, withEquals s f value) else none
  | _ =>
    Flag.table.filterMap fun (s, f) =>
      if s.toList = cs.take 2 then some (s, .flag f false (some (cs.drop 2)))
      else if cs.isPrefixOf s.toList then some (s, .flag f (isLong s) none)
      else none

/-- A minus sign before digits, which may contain a point; one newline at the end does not count. -/
def isNegativeNumber (cs : List Char) : Bool :=
  match cs with
  | '-' :: rest =>
    let body := if rest.getLast? = some '\n' then rest.dropLast else rest
    let fraction := (body.dropWhile Text.isDecimalDigit)
    match fraction with
    | [] => !body.isEmpty
    | '.' :: digits => !digits.isEmpty && digits.all Text.isDecimalDigit
    | _ => false
  | _ => false

/-- Reads an argument that stands before any `--`. -/
def ofString (text : String) : Except Misuse Argument :=
  let cs := text.toList
  match cs with
  | '-' :: _ :: _ =>
    match Flag.ofSpelling? text with
    | some f => .ok (withEquals text f none)
    | none =>
      let (name, value) := splitEquals cs
      match value, Flag.ofSpelling? (String.ofList name) with
      | some v, some f => .ok (withEquals text f (some v))
      | _, _ =>
        match guesses cs with
        | [(_, argument)] => .ok argument
        | [] => .ok (if isNegativeNumber cs || ' ' ∈ cs then plain text else unknown text)
        | several => .error (.ambiguous text (several.map Prod.fst))
  | _ => .ok (plain text)

/-- Reads the arguments up to `--`; all after it are plain. -/
def ofStrings : List String → Except Misuse (List Argument)
  | [] => .ok []
  | "--" :: rest => .ok (divider :: rest.map plain)
  | text :: rest => do
    let argument ← ofString text
    let arguments ← ofStrings rest
    pure (argument :: arguments)

end Argument

/-! ## Flags that share an argument -/

/-- How an argument ends after the flags that stand in it without a value. -/
inductive Ending where
  | complete
  | value (flag : Flag) (text : String)
  /-- The value is the next argument. -/
  | wants (flag : Flag)
  deriving DecidableEq, Repr

structure Cluster where
  flags : List Flag
  ending : Ending
  deriving DecidableEq, Repr

namespace Cluster

/-- A flag without anything attached. -/
def bare (flag : Flag) : Cluster :=
  if flag.takesValue then ⟨[], .wants flag⟩ else ⟨[flag], .complete⟩

/-- The same with a flag before it. -/
def cons (flag : Flag) (c : Cluster) : Cluster := { c with flags := flag :: c.flags }

/-- A flag of one dash with a text attached to it, with or without an equals sign between them.
Unless the flag takes the text as its value, every character of the text has to be a short flag in
turn. -/
def ofShort (flag : Flag) (text : List Char) : Except Misuse Cluster :=
  if flag.takesValue then .ok ⟨[], .value flag (String.ofList text)⟩
  else
    match text with
    | [] => .error (.needlessValue flag "")
    | c :: cs =>
      match Flag.ofSpelling? (String.ofList ['-', c]) with
      | none => .error (.needlessValue flag (String.ofList text))
      | some next =>
        if cs.isEmpty then .ok (cons flag (bare next)) else (ofShort next cs).map (cons flag)

def ofFlag (flag : Flag) (longDashes : Bool) (attached : Option (List Char)) :
    Except Misuse Cluster :=
  match attached with
  | none => .ok (bare flag)
  | some text =>
    if longDashes && !flag.takesValue then .error (.needlessValue flag (String.ofList text))
    else ofShort flag text

end Cluster

/-! ## The whole command line -/

structure Options where
  program : Option String
  /-- Where an expression is asked for: its text, unless that was dropped. -/
  expr : Option (Option String)
  quiet : Bool
  verbose : Bool
  tracebackJson : Bool
  deriving DecidableEq, Repr

/-- Why a command line leads to no work. -/
inductive Stop where
  | help
  | misuse (cause : Misuse)
  deriving DecidableEq, Repr

namespace Options

def unset : Options := ⟨none, none, false, false, false⟩

/-- Where the script file is concerned: not given yet, given by the argument just before, or given
earlier. -/
inductive Place where
  | free
  | justFilled
  | filled
  deriving DecidableEq, Repr

structure Progress where
  options : Options
  place : Place
  /-- Arguments without meaning. -/
  extra : List String
  deriving DecidableEq, Repr

namespace Progress

def start : Progress := ⟨.unset, .free, []⟩

/-- Leaves the place directly after the script file. -/
def moveOn (p : Progress) : Progress :=
  { p with place := if p.place = .free then .free else .filled }

def addExtra (p : Progress) (text : String) : Progress := { p with extra := p.extra ++ [text] }

def addPlain (p : Progress) (text : String) : Progress :=
  if p.place = .free then
    { p with options := { p.options with program := some text }, place := .justFilled }
  else p.moveOn.addExtra text

/-- A divider is dropped if the script file is still to come, or has just come. -/
def addDivider (p : Progress) : Progress := if p.place = .filled then p.addExtra "--" else p.moveOn

def setFlag (p : Progress) : Flag → Except Stop Progress
  | .help => .error .help
  | .quiet => .ok { p with options := { p.options with quiet := true } }
  | .verbose => .ok { p with options := { p.options with verbose := true } }
  | .tracebackJson => .ok { p with options := { p.options with tracebackJson := true } }
  | .expr => .ok p

def setFlags (p : Progress) : List Flag → Except Stop Progress
  | [] => .ok p
  | f :: fs =>
    match p.setFlag f with
    | .ok next => next.setFlags fs
    | .error stop => .error stop

/-- What a text gives to a flag as its value. -/
def kept? (text : String) : Option String := if text = "--" then none else some text

def setValue (p : Progress) (flag : Flag) (text : String) : Progress :=
  match flag with
  | .expr => { p with options := { p.options with expr := some (kept? text) } }
  | _ => p

end Progress

def add (p : Progress) : List Argument → Except Stop Progress
  | [] => .ok p
  | .plain text :: rest => add (p.addPlain text) rest
  | .divider :: rest => add p.addDivider rest
  | .unknown text :: rest => add (p.moveOn.addExtra text) rest
  | .flag flag longDashes attached :: rest =>
    match Cluster.ofFlag flag longDashes attached with
    | .error cause => .error (.misuse cause)
    | .ok cluster =>
      match cluster.ending, rest with
      | .wants last, .plain text :: rest => do
        let p ← p.moveOn.setFlags cluster.flags
        add (p.setValue last text) rest
      | .wants last, _ => .error (.misuse (.missingValue last))
      | .value last text, rest => do
        let p ← p.moveOn.setFlags cluster.flags
        add (p.setValue last text) rest
      | .complete, rest => do
        let p ← p.moveOn.setFlags cluster.flags
        add p rest

def ofArguments (arguments : List String) : Except Stop Options :=
  match Argument.ofStrings arguments with
  | .error cause => .error (.misuse cause)
  | .ok arguments =>
    match add .start arguments with
    | .error stop => .error stop
    | .ok p => if p.extra.isEmpty then .ok p.options else .error (.misuse (.unrecognized p.extra))

end Options

/-! ## Usage -/

/-- A spelling with a stand-in for the value. -/
def Flag.form (f : Flag) (spelling : String) : String :=
  if f.takesValue then spelling ++ " EXPR" else spelling

/-- A flag by its first spelling. -/
def Flag.usage (f : Flag) : String := "[" ++ f.form (f.spellings.headD "") ++ "]"

/-- The form of a command line, for a program of the given name. -/
def usage (name : String) : String :=
  "usage: " ++ name ++ " " ++ " ".intercalate (Flag.all.map Flag.usage) ++ " [program]\n"

/-- The column in which explanations begin. -/
def helpColumn : Nat := 24

def helpLine (name purpose : String) : String :=
  let start := "  " ++ name
  start ++ String.ofList (List.replicate (helpColumn - start.length) ' ') ++ purpose ++ "\n"

def Flag.helpLine (f : Flag) : String :=
  Console.helpLine (", ".intercalate (f.spellings.map f.form)) f.purpose

def helpText (name : String) : String :=
  usage name ++ "\nArbitrary-precision integer calculator\n\npositional arguments:\n" ++
    helpLine "program" "Script file to run; starts a REPL when omitted" ++ "\noptions:\n" ++
    String.join (Flag.all.map Flag.helpLine)

end Calculator.Console
