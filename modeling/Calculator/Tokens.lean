import Calculator.Lexeme
import Calculator.Text.Lines

/-!
# Tokens of a text

A text is cut into tokens from the left, longest lexeme first. Blanks and comments between them are
passed over, and the first character that begins no lexeme ends the cutting.
-/

namespace Calculator

/-- Blanks that separate lexemes. -/
def isSeparator (c : Char) : Bool := c ∈ [' ', '\t', '\x0c', '\r']

/-- How many characters to pass over at the head of a text: one separator, or a comment up to its
line's end. -/
def ignoredLength : List Char → Nat
  | [] => 0
  | c :: cs =>
    if c = '#' then 1 + (cs.takeWhile (· ≠ '\n')).length
    else if isSeparator c then 1
    else 0

/-- A character that begins no lexeme. -/
structure Stray where
  char : Char
  start : Nat
  deriving DecidableEq, Repr

/-- What cutting a text yields: its tokens, up to the stray character if there is one. -/
structure Tokens where
  list : List Token
  stray : Option Stray
  deriving DecidableEq, Repr

namespace Tokens

/-- The text begins at position `start`, and its first `skip` characters are done with. -/
def scan (start skip : Nat) : List Char → Tokens
  | [] => ⟨[], none⟩
  | c :: cs =>
    match skip with
    | k + 1 => scan (start + 1) k cs
    | 0 =>
      match ignoredLength (c :: cs) with
      | k + 1 => scan (start + 1) k cs
      | 0 =>
        match Lexeme.ofHead? (c :: cs) with
        | none => ⟨[], some ⟨c, start⟩⟩
        | some l =>
          let rest := scan (start + 1) (l.text.length - 1) cs
          ⟨⟨l, start⟩ :: rest.list, rest.stray⟩

/-- The tokens of a text that ends in a newline, written or not. -/
def ofText (text : String) : Tokens := scan 0 0 (Text.closed text.toList)

end Tokens

end Calculator
