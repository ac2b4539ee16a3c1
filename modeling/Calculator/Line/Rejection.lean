import Calculator.Text.Blank
import Calculator.Tokens

/-!
# Rejections

Why a text is no line: the first place where it goes wrong and what could have stood there.
`Rejection.describe` tells it in words, below an excerpt of the text with a mark under the place.
-/

namespace Calculator

inductive Rejection where
  /-- A character that begins no lexeme. -/
  | stray (found : Stray) (expected : List Terminal) (previous : Option Token)
  /-- A lexeme that cannot follow the tokens before it. -/
  | unexpected (found : Token) (expected : List Terminal) (previous : Option Token)
  /-- A closing parenthesis without its opening one. -/
  | unopened (start : Nat)
  /-- The line ends inside parentheses. -/
  | unclosed (start : Nat)
  /-- The tokens end before the line does. -/
  | unfinished (start : Nat) (expected : List Terminal) (previous : Option Token)
  deriving DecidableEq, Repr

namespace Rejection

/-- The position of the first character that is out of place. -/
def start : Rejection → Nat
  | stray found _ _ => found.start
  | unexpected found _ _ => found.start
  | unopened start => start
  | unclosed start => start
  | unfinished start _ _ => start

def expected : Rejection → List Terminal
  | stray _ expected _ => expected
  | unexpected _ expected _ => expected
  | unopened _ => [.newline]
  | unclosed _ => [.closing]
  | unfinished _ expected _ => expected

/-! ## Places in a text -/

/-- Lines are counted from one. -/
def lineNumber (cs : List Char) (pos : Nat) : Nat := (cs.take pos).count '\n' + 1

/-- What stands before a position on its own line. -/
def beforeOnLine (cs : List Char) (pos : Nat) : List Char :=
  ((cs.take pos).reverse.takeWhile (· ≠ '\n')).reverse

/-- Columns are counted from one. -/
def column (cs : List Char) (pos : Nat) : Nat := (beforeOnLine cs pos).length + 1

def tabWidth : Nat := 8

/-- The width of a text whose first character stands in the given column. A tab reaches to the next
multiple of `tabWidth`; a carriage return counts one, and columns restart after it. -/
def widthFrom (col : Nat) : List Char → Nat
  | [] => 0
  | '\t' :: cs =>
    let step := tabWidth - col % tabWidth
    step + widthFrom (col + step) cs
  | '\r' :: cs => 1 + widthFrom 0 cs
  | _ :: cs => 1 + widthFrom (col + 1) cs

/-- Characters shown on either side of a place. -/
def span : Nat := 40

/-- The surroundings of a place on its line, and below them a mark under the place. -/
def excerpt (cs : List Char) (pos : Nat) : List Char :=
  let before := (beforeOnLine cs pos).drop ((beforeOnLine cs pos).length - span)
  let after := ((cs.drop pos).take span).takeWhile (· ≠ '\n')
  before ++ after ++ '\n' :: List.replicate (widthFrom 0 before) ' ' ++ ['^']

/-! ## Wording -/

def showExpected (labels : List String) : String :=
  "Expected one of: \n" ++ String.join (labels.map fun label => "\t* " ++ label ++ "\n")

def showPrevious (previous : Option Token) : String :=
  let last :=
    match previous with
    | some t => t.lexeme.shown
    | none => "None"
  "Previous tokens: [" ++ last ++ "]\n"

/-- Where only the end of the input may follow, no class of lexemes is looked for. -/
def scanLabel : Terminal → String
  | .finish => "<END-OF-FILE>"
  | t => t.label

/-- The opening words of a rejection that is about a token. -/
def headline (cs : List Char) (token : String) (start : Nat) : String :=
  "Unexpected token " ++ token ++ " at line " ++ (lineNumber cs start).repr ++ ", column " ++
    (column cs start).repr ++ ".\n"

def message (cs : List Char) (r : Rejection) : String :=
  match r with
  | stray found expected previous =>
    "No terminal matches '" ++ found.char.toString ++ "' in the current parser context, at line " ++
      (lineNumber cs found.start).repr ++ " col " ++ (column cs found.start).repr ++ "\n\n" ++
      String.ofList (excerpt cs found.start) ++ "\n" ++ showExpected (expected.map scanLabel) ++
      (match previous with
        | some t => "\nPrevious tokens: " ++ t.lexeme.shown ++ "\n"
        | none => "")
  | unexpected found expected previous =>
    headline cs found.lexeme.shown found.start ++
      showExpected (expected.map Terminal.label) ++ showPrevious previous
  | unopened start =>
    headline cs (Lexeme.shown .closing) start ++ showExpected (r.expected.map Terminal.label)
  | unclosed start =>
    headline cs (Lexeme.shown .newline) start ++ showExpected (r.expected.map Terminal.label)
  | unfinished start expected previous =>
    headline cs (showToken Terminal.finish.label "") start ++
      showExpected (expected.map Terminal.label) ++ showPrevious previous

/-- The excerpt and the message, without blanks at the end. -/
def describe (text : String) (r : Rejection) : String :=
  let cs := text.toList
  String.ofList (Text.trimEnd (excerpt cs r.start ++ '\n' :: (r.message cs).toList))

end Rejection

end Calculator
