import Calculator.Fault

/-!
# Binary operators

The five operators, their symbols and tags, and what they compute. All results are integers: a
quotient drops its fraction, and so does a power with a negative exponent.
-/

namespace Calculator

inductive Operator where
  | add
  | subtract
  | multiply
  | divide
  | exponent
  deriving DecidableEq, Repr

namespace Operator

def symbol : Operator → Char
  | add => '+'
  | subtract => '-'
  | multiply => '*'
  | divide => '/'
  | exponent => '^'

/-- The name under which steps, trees and faults speak of an operator. -/
def tag : Operator → String
  | add => "ADD"
  | subtract => "SUBTRACT"
  | multiply => "MULTIPLY"
  | divide => "DIVIDE"
  | exponent => "EXPONENT"

def all : List Operator := [add, subtract, multiply, divide, exponent]

def ofSymbol? (symbol : String) : Option Operator :=
  all.find? fun op => symbol == op.symbol.toString

def ofTag? (tag : String) : Option Operator := all.find? fun op => tag == op.tag

/-- Tiers in the order in which an expression applies them, tightest first. -/
def tiers : List (List Operator) := [[exponent], [multiply, divide], [add, subtract]]

/-- The largest magnitude of an exponent: what 32 bits can hold. -/
def exponentLimit : Nat := Nat.pow 2 32 - 1

/-- The quotient without its fraction. A zero divisor breaks the given rule. -/
def quotient (rule : String) (lhs rhs : Int) : Except Fault Int :=
  if rhs = 0 then .error (.divisionByZero rule) else .ok (lhs.tdiv rhs)

/-- A negative exponent asks for the reciprocal of a power, which is zero unless the base is `1` or
`-1`. -/
def power (base e : Int) : Except Fault Int :=
  if e.natAbs > exponentLimit then .error (.exponentOutOfRange e)
  else if e < 0 then quotient exponent.tag 1 (Int.pow base e.natAbs)
  else .ok (Int.pow base e.natAbs)

def apply (op : Operator) (lhs rhs : Int) : Except Fault Int :=
  match op with
  | add => .ok (lhs + rhs)
  | subtract => .ok (lhs - rhs)
  | multiply => .ok (lhs * rhs)
  | divide => quotient divide.tag lhs rhs
  | exponent => power lhs rhs

@[simp] theorem ofSymbol?_symbol (op : Operator) : ofSymbol? op.symbol.toString = some op := by
  cases op <;> decide

@[simp] theorem ofTag?_tag (op : Operator) : ofTag? op.tag = some op := by
  cases op <;> decide

end Operator

/-- What stands in an operator's place of a tree: one of the five, or a tag that names none of them.
-/
inductive OperatorKind where
  | known (op : Operator)
  | unknown (tag : String)
  deriving DecidableEq, Repr

namespace OperatorKind

def ofTag (tag : String) : OperatorKind :=
  match Operator.ofTag? tag with
  | some op => known op
  | none => unknown tag

def tag : OperatorKind → String
  | known op => op.tag
  | unknown tag => tag

def apply (kind : OperatorKind) (lhs rhs : Int) : Except Fault Int :=
  match kind with
  | known op => op.apply lhs rhs
  | unknown tag => .error (.malformed (.unknownOperator tag))

end OperatorKind

end Calculator
