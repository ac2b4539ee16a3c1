import Calculator.Decimal

/-!
# Faults

The causes that stop a calculation. Each has one message, and most name the rule they break; only
`Fault.label` and `Fault.message` hold wording.
-/

namespace Calculator

/-- Shapes that no parsed line has, met in a tree built by other means. -/
inductive Defect where
  | bareToken (terminal : String)
  | unknownSymbol (symbol : String)
  | unknownRule (rule : String)
  /-- A branch of this rule lacks a part that the rule always has. -/
  | missingPart (rule : String)
  /-- An assignment has other parts than its two. -/
  | assignmentParts (count : Nat)
  | notNumeral (text : String)
  | notLine (shape : String)
  | strayOperator (tag : String)
  | irreducible (shape : String)
  | noLeftOperand
  | noRightOperand
  | leftover (count : Nat)
  | notLiteral (shape : String)
  | unknownOperator (tag : String)
  | described (detail : String)
  deriving DecidableEq, Repr

def Defect.detail : Defect → String
  | bareToken terminal => "unexpected bare token " ++ terminal
  | unknownSymbol symbol => "unknown operator symbol '" ++ symbol ++ "'"
  | unknownRule rule => "unknown parse rule '" ++ rule ++ "'"
  | missingPart rule => "incomplete parse rule '" ++ rule ++ "'"
  | assignmentParts count => "assignment of " ++ count.repr ++ " parts"
  | notNumeral text => "not a numeral: '" ++ text ++ "'"
  | notLine shape => "line built into " ++ shape
  | strayOperator tag => "operator " ++ tag ++ " reached outside an expression"
  | irreducible shape => "cannot reduce " ++ shape
  | noLeftOperand => "operator has no left operand"
  | noRightOperand => "operator has no right operand"
  | leftover count => "expression reduced to " ++ count.repr ++ " values"
  | notLiteral shape => "expression reduced to " ++ shape
  | unknownOperator tag => "unknown operator " ++ tag
  | described detail => detail

/-- Said of a malformed tree when nothing more is known. -/
def Defect.unspecified : Defect := .described "malformed expression tree"

inductive Fault where
  /-- A name without a value. -/
  | unbound (name : String)
  /-- A name that cannot be given a value. -/
  | invalidName (name : String)
  | exponentOutOfRange (exponent : Int)
  /-- A zero divisor, met under the given rule. -/
  | divisionByZero (rule : String)
  | malformed (defect : Defect)
  | tooDeep
  /-- Any other fault; without a rule it counts as one of the running calculation. -/
  | other (message : String) (rule : Option String)
  deriving DecidableEq, Repr

namespace Fault

/-- The name of the kind of fault, as reports print it. -/
def label : Fault → String
  | unbound _ => "VarNotFound"
  | invalidName _ => "NotValidVar"
  | exponentOutOfRange _ => "ExponentOverflow"
  | divisionByZero _ => "DivideByZero"
  | malformed _ => "InternalAstFailure"
  | tooDeep => "NestingTooDeep"
  | other _ _ => "CalcRuntimeError"

/-- The step rule that the fault belongs to. -/
def rule : Fault → Option String
  | unbound _ => some "IDENT"
  | invalidName _ => some "ASSIGN"
  | exponentOutOfRange _ => some "EXPONENT"
  | divisionByZero rule => some rule
  | malformed _ => some "internal"
  | tooDeep => some "NESTING"
  | other _ rule => rule

def message : Fault → String
  | unbound name => "'" ++ name ++ "' not in variable table"
  | invalidName name => "'" ++ name ++ "' not valid variable name"
  | exponentOutOfRange exponent => "exponent " ++ Decimal.short exponent ++ " is out of range"
  | divisionByZero _ => "Division by zero"
  | malformed defect => "internal AST failure: " ++ defect.detail
  | tooDeep => "expression nested too deeply"
  | other message _ => message

end Fault

end Calculator
