/-!
# Blank characters

Which characters count as blank, which of them end a line, and texts without the blanks at their
ends.
-/

namespace Calculator.Text

/-- Characters that end a physical line. -/
def isLineBreak (c : Char) : Bool :=
  c ∈ ['\n', '\x0b', '\x0c', '\r', '\x1c', '\x1d', '\x1e', '\u0085', '\u2028', '\u2029']

/-- Characters that show as empty space: line breaks, tabs, separators and spaces of any width. -/
def isBlank (c : Char) : Bool :=
  isLineBreak c || c ∈ ['\t', '\x1f', ' ', '\u00a0', '\u1680', '\u202f', '\u205f', '\u3000'] ||
    ('\u2000' ≤ c && c ≤ '\u200a')

def trimStart (cs : List Char) : List Char := cs.dropWhile isBlank

def trimEnd (cs : List Char) : List Char := (cs.reverse.dropWhile isBlank).reverse

/-- The text without the blanks at either end. -/
def trim (cs : List Char) : List Char := trimEnd (trimStart cs)

end Calculator.Text
