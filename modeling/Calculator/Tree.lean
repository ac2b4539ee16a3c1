import Calculator.Line

/-!
# Rule trees

A tree whose branches are labelled with the name of a rule and whose leaves are tokens. The tree of
a line keeps the tokens that carry meaning (digits, names, binary operators); parentheses, minus
signs, the equals sign and the newline are told by the rules.
-/

namespace Calculator

inductive Tree where
  | token (terminal : String) (text : String) (start : Nat)
  | branch (rule : String) (children : List Tree)
  deriving Repr

namespace Tree

def ofToken (t : Token) : Tree := token t.lexeme.terminal.label t.lexeme.text t.start

/-- A branch over a single token. -/
def leaf (rule : String) (lexeme : Lexeme) (start : Nat) : Tree :=
  branch rule [ofToken ⟨lexeme, start⟩]

mutual

def ofOperand : Operand → Tree
  | .number digits start => leaf "literal" (.digits digits) start
  | .name name start => leaf "variable" (.name name) start
  | .negated _ inner => branch "negation" [ofOperand inner]
  | .grouped _ inner _ => branch "parenthetical" [branch "expression" (runOfFormula inner)]

/-- The operands and operators of a formula, in order. -/
def runOfFormula : Formula → List Tree
  | .single operand => [ofOperand operand]
  | .chain operand op start rest =>
    ofOperand operand :: leaf "operator" (.operator op) start :: runOfFormula rest

end

def ofFormula (f : Formula) : Tree := branch "expression" (runOfFormula f)

/-- A blank line has no tree. -/
def ofLine? : Line → Option Tree
  | .blank _ => none
  | .formula none body _ => some (branch "line" [ofFormula body])
  | .formula (some t) body _ =>
    let target := leaf "target" (.name t.name) t.start
    some (branch "line" [branch "assignment" [target, ofFormula body]])

/-! ## Texts -/

mutual

/-- A tree on one line: tokens as messages show them, branches by their rule and their children. -/
def shown : Tree → String
  | token terminal text _ => showToken terminal text
  | branch rule children =>
    "Tree(" ++ Text.quoted rule ++ ", [" ++ ", ".intercalate (shownAll children) ++ "])"

def shownAll : List Tree → List String
  | [] => []
  | child :: rest => child.shown :: shownAll rest

end

/-- What a tree reads as where a text is called for. -/
def text : Tree → String
  | token _ text _ => text
  | branch rule children => (branch rule children).shown

end Tree

end Calculator
