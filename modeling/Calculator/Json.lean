import Calculator.Text.Hex

/-!
# JSON text

The values that reports are made of, and their text: printable ASCII in indented lines.
-/

namespace Calculator

inductive Json where
  | null
  | number (n : Nat)
  | string (text : String)
  | array (items : List Json)
  | object (fields : List (String × Json))
  deriving Repr

namespace Json

/-- One unit of a text that is written in units of 16 bits. -/
def unitEscape (n : Nat) : List Char := '\\' :: 'u' :: Text.hex 4 n

def escapeChar (c : Char) : List Char :=
  if c = '"' || c = '\\' then ['\\', c]
  else if c = '\n' then ['\\', 'n']
  else if c = '\r' then ['\\', 'r']
  else if c = '\t' then ['\\', 't']
  else if c = '\x0c' then ['\\', 'f']
  else if c = '\x08' then ['\\', 'b']
  else if ' ' ≤ c && c ≤ '~' then [c]
  else
    let n := c.toNat
    if n < 0x10000 then unitEscape n
    else
      -- Beyond 16 bits a character is written as a pair of units that carry ten bits each.
      unitEscape (0xd800 + (n - 0x10000) / 0x400) ++ unitEscape (0xdc00 + (n - 0x10000) % 0x400)

def escape (text : String) : List Char := '"' :: text.toList.flatMap escapeChar ++ ['"']

/-- Spaces by which a nested value is set in. -/
def indentWidth : Nat := 2

def newline (depth : Nat) : List Char := '\n' :: List.replicate (indentWidth * depth) ' '

mutual

/-- The text of a value whose own line is set in by `depth` levels. -/
def print (depth : Nat) : Json → List Char
  | null => ['n', 'u', 'l', 'l']
  | number n => n.repr.toList
  | string text => escape text
  | array [] => ['[', ']']
  | array (item :: items) =>
    '[' :: newline (depth + 1) ++ print (depth + 1) item ++ printItems (depth + 1) items ++
      newline depth ++ [']']
  | object [] => ['\x7b', '\x7d']
  | object ((key, value) :: fields) =>
    '\x7b' :: newline (depth + 1) ++ escape key ++ ':' :: ' ' :: print (depth + 1) value ++
      printFields (depth + 1) fields ++ newline depth ++ ['\x7d']

/-- Further items, each after a comma on a line of its own. -/
def printItems (depth : Nat) : List Json → List Char
  | [] => []
  | item :: items => ',' :: newline depth ++ print depth item ++ printItems depth items

def printFields (depth : Nat) : List (String × Json) → List Char
  | [] => []
  | (key, value) :: fields =>
    ',' :: newline depth ++ escape key ++ ':' :: ' ' :: print depth value ++
      printFields depth fields

end

def text (j : Json) : String := String.ofList (print 0 j)

end Json

end Calculator
