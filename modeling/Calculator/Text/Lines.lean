import Calculator.Text.Blank

/-!
# Physical lines

A text cut at its line breaks, where a carriage return and the newline after it are one break; and
the text in which every line ends in a plain newline.
-/

namespace Calculator.Text

/-- Puts a character before the first line. -/
def prepend (c : Char) : List (List Char) → List (List Char)
  | [] => [[c]]
  | l :: ls => (c :: l) :: ls

/-- The lines of a text without their breaks. Nothing after the last break is no line. -/
def lines : List Char → List (List Char)
  | [] => []
  | '\r' :: '\n' :: cs => [] :: lines cs
  | c :: cs => if isLineBreak c then [] :: lines cs else prepend c (lines cs)

/-- A text counts as ending in a newline whether it is written or not. -/
def closed (cs : List Char) : List Char :=
  if cs.getLast? = some '\n' then cs else cs ++ ['\n']

/-- Writes every carriage return, with the newline after it if there is one, as one newline. -/
def plainNewlines : List Char → List Char
  | [] => []
  | '\r' :: '\n' :: cs => '\n' :: plainNewlines cs
  | c :: cs => (if c = '\r' then '\n' else c) :: plainNewlines cs

end Calculator.Text
