import Calculator.Statement

/-!
# Statements in writing

The plainest text that says what a statement says: numbers without leading zeros and no blanks but
those around the equals sign. Reading it gives the statement back.
-/

namespace Calculator

namespace Node

mutual

def print : Node → List Char
  | literal v => (Decimal.text v).toList
  | identifier name => name.toList
  | operator (.known op) => [op.symbol]
  | operator (.unknown tag) => tag.toList
  | parenthetical inner => '(' :: inner.print ++ [')']
  | negation inner => '-' :: inner.print
  | expression slots => printSlots slots
  | line hole body => body.print
  | line target body => target.print ++ [' ', '=', ' '] ++ body.print
  | bare => []
  | hole => []

def printSlots : List Node → List Char
  | [] => []
  | n :: ns => n.print ++ printSlots ns

end

end Node

/-- The text of a statement. -/
def Statement.text (s : Statement) : String := String.ofList s.toNode.print

end Calculator
