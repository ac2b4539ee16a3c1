import Calculator.Line.Reading
import Calculator.Node
import Calculator.Numeral
import Calculator.Tree

/-!
# Statements

A statement is what a line says: a formula, and the name that takes its value if there is one. It is
built from the line's tree. Building is defined on all trees, and says what is wrong with one that
belongs to no line.
-/

namespace Calculator

/-! ## Building nodes -/

namespace Tree

/-- The text of the first child. -/
def firstText (rule : String) : List Tree → Except Defect String
  | [] => .error (.missingPart rule)
  | child :: _ => .ok child.text

mutual

def toNode : Tree → Except Defect Node
  | token terminal _ _ => .error (.bareToken terminal)
  | branch rule children =>
    match rule with
    | "line" => lineNode children
    | "target" | "variable" => (firstText rule children).map .identifier
    | "operator" => do
      let symbol ← firstText rule children
      match Operator.ofSymbol? symbol with
      | some op => pure (.operator (.known op))
      | none => throw (.unknownSymbol symbol)
    | "parenthetical" => (firstNode rule children).map .parenthetical
    | "negation" => (firstNode rule children).map .negation
    | "literal" => do
      let numeral ← firstText rule children
      match Numeral.read? numeral.toList with
      | some value => pure (.literal value)
      | none => throw (.notNumeral numeral)
    | "expression" => (nodes children).map .expression
    | _ => .error (.unknownRule rule)

/-- The node of the first child. -/
def firstNode (rule : String) : List Tree → Except Defect Node
  | [] => .error (.missingPart rule)
  | child :: _ => child.toNode

def nodes : List Tree → Except Defect (List Node)
  | [] => .ok []
  | child :: rest => do
    let n ← child.toNode
    let ns ← nodes rest
    pure (n :: ns)

/-- A line is told by its first child. -/
def lineNode : List Tree → Except Defect Node
  | [] => .error (.missingPart "line")
  | branch "assignment" [target, body] :: _ => do
    let t ← target.toNode
    let b ← body.toNode
    pure (.line t b)
  | branch "assignment" parts :: _ => .error (.assignmentParts parts.length)
  | child :: _ => child.toNode.map (.line .hole)

end

end Tree

/-! ## Statements -/

structure Statement where
  /-- A hole if nothing is assigned. -/
  target : Node
  body : Node

namespace Statement

def toNode (s : Statement) : Node := .line s.target s.body

/-- The name that takes the value. -/
def assigned? (s : Statement) : Option String :=
  match s.target with
  | .identifier name => some name
  | _ => none

/-- A tree is a statement if it builds into a line. -/
def ofTree (t : Tree) : Except Defect Statement := do
  match ← t.toNode with
  | .line target body => pure ⟨target, body⟩
  | n => throw (.notLine n.shape)

/-- Why a text has no statement. -/
inductive Refusal where
  | rejected (cause : Rejection)
  | fault (cause : Fault)
  deriving DecidableEq, Repr

/-- The statement of a text; blank lines have none. -/
def ofText (text : String) : Except Refusal (Option Statement) :=
  match Line.ofText text with
  | .error r => .error (.rejected r)
  | .ok line =>
    match Tree.ofLine? line with
    | none => .ok none
    | some tree =>
      match ofTree tree with
      | .error d => .error (.fault (.malformed d))
      | .ok s => if s.body.depth > Node.depthLimit then .error (.fault .tooDeep) else .ok (some s)

end Statement

end Calculator
