import Calculator.Decimal
import Calculator.Operator

/-!
# Nodes

What a calculation works on. A node need not come from a line: any node may stand in any place, and
`hole` is a place that holds nothing.
-/

namespace Calculator

inductive Node where
  | literal (value : Int)
  | identifier (name : String)
  | operator (kind : OperatorKind)
  | parenthetical (inner : Node)
  | negation (inner : Node)
  | expression (slots : List Node)
  /-- A whole line; `target` is a hole where nothing is assigned. -/
  | line (target : Node) (body : Node)
  /-- A node without any meaning. -/
  | bare
  | hole
  deriving Repr

namespace Node

/-- The name of a node's form, as faults print it. -/
def shape : Node → String
  | literal _ => "Literal"
  | identifier _ => "Identifier"
  | operator _ => "Operator"
  | parenthetical _ => "Parenthetical"
  | negation _ => "Negation"
  | expression _ => "Expression"
  | line _ _ => "Main"
  | bare => "Node"
  | hole => "NoneType"

/-- What one pair of parentheses and one minus sign add to the depth of a node. -/
def groupDepth : Nat := 3
def signDepth : Nat := 1

mutual

/-- The largest depth on a path into the node. -/
def depth : Node → Nat
  | parenthetical inner => groupDepth + inner.depth
  | negation inner => signDepth + inner.depth
  | expression slots => depthOfSlots slots
  | line _ body => body.depth
  | _ => 0

def depthOfSlots : List Node → Nat
  | [] => 0
  | n :: ns => max n.depth (depthOfSlots ns)

end

/-- Nodes that are deeper than this are not worked on. -/
def depthLimit : Nat := 1000

end Node

end Calculator
