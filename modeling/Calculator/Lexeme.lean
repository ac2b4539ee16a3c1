import Calculator.Operator
import Calculator.Text.Quoted

/-!
# Lexemes

The smallest meaningful pieces of a line, the terminals that classify them, and tokens: lexemes with
the place where they start. `Lexeme.ofHead?` takes the longest lexeme at the head of a text.
-/

namespace Calculator

/-- Classes of lexemes; `finish` stands for the end of the input. -/
inductive Terminal where
  | operator (op : Operator)
  | digits
  | equal
  | opening
  | closing
  | name
  | newline
  | finish
  deriving DecidableEq, Repr

namespace Terminal

def label : Terminal → String
  | operator .add => "PLUS"
  | operator .subtract => "MINUS"
  | operator .multiply => "STAR"
  | operator .divide => "SLASH"
  | operator .exponent => "CIRCUMFLEX"
  | digits => "DIGITS"
  | equal => "EQUAL"
  | opening => "LPAR"
  | closing => "RPAR"
  | name => "NAME"
  | newline => "_NL"
  | finish => "$END"

/-- All terminals, in the order of their labels. -/
def all : List Terminal :=
  [finish, operator .exponent, digits, equal, opening, operator .subtract, name, operator .add,
    closing, operator .divide, operator .multiply, newline]

theorem mem_all (t : Terminal) : t ∈ all := by
  cases t with
  | operator op => cases op <;> decide
  | _ => decide

/-- The terminals of a class, in the order of their labels. -/
def list (p : Terminal → Bool) : List Terminal := all.filter p

@[simp] theorem mem_list {p : Terminal → Bool} {t : Terminal} : t ∈ list p ↔ p t := by
  simp [list, mem_all]

end Terminal

inductive Lexeme where
  | digits (text : String)
  | name (text : String)
  | operator (op : Operator)
  | equal
  | opening
  | closing
  | newline
  deriving DecidableEq, Repr

/-- Letters and the underscore begin a name. -/
def isNameStart (c : Char) : Bool := c.isAlpha || c = '_'

def isNamePart (c : Char) : Bool := isNameStart c || c.isDigit

namespace Lexeme

def terminal : Lexeme → Terminal
  | digits _ => .digits
  | name _ => .name
  | operator op => .operator op
  | equal => .equal
  | opening => .opening
  | closing => .closing
  | newline => .newline

/-- The characters that spell a lexeme. -/
def text : Lexeme → String
  | digits text => text
  | name text => text
  | operator op => op.symbol.toString
  | equal => "="
  | opening => "("
  | closing => ")"
  | newline => "\n"

/-- Lexemes of one character. -/
def ofChar? : Char → Option Lexeme
  | '+' => some (operator .add)
  | '-' => some (operator .subtract)
  | '*' => some (operator .multiply)
  | '/' => some (operator .divide)
  | '^' => some (operator .exponent)
  | '=' => some equal
  | '(' => some opening
  | ')' => some closing
  | '\n' => some newline
  | _ => none

/-- The longest lexeme that the text begins with. -/
def ofHead? : List Char → Option Lexeme
  | [] => none
  | c :: cs =>
    if c.isDigit then some (digits (String.ofList (c :: cs.takeWhile Char.isDigit)))
    else if isNameStart c then some (name (String.ofList (c :: cs.takeWhile isNamePart)))
    else ofChar? c

end Lexeme

/-- How messages show a token: its class and its spelling. -/
def showToken (label text : String) : String :=
  "Token(" ++ Text.quoted label ++ ", " ++ Text.quoted text ++ ")"

def Lexeme.shown (l : Lexeme) : String := showToken l.terminal.label l.text

/-- A lexeme and the number of characters before it. -/
structure Token where
  lexeme : Lexeme
  start : Nat
  deriving DecidableEq, Repr

end Calculator
