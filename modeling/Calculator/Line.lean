import Calculator.Lexeme

/-!
# Lines

The shape of one line of input: nothing, a formula, or a name that takes the value of a formula. A
formula is a flat run of operands with operators between them; which operator binds tighter is no
matter of shape.

Every piece keeps the positions of its tokens, so that `Line.tokens` gives back exactly the tokens
of the line.
-/

namespace Calculator

mutual

inductive Operand where
  | number (digits : String) (start : Nat)
  | name (name : String) (start : Nat)
  | negated (sign : Nat) (inner : Operand)
  | grouped (opened : Nat) (inner : Formula) (closed : Nat)
  deriving DecidableEq, Repr

inductive Formula where
  | single (operand : Operand)
  | chain (operand : Operand) (op : Operator) (start : Nat) (rest : Formula)
  deriving DecidableEq, Repr

end

/-- The name on the left of an assignment, with its position and that of the equals sign. -/
structure Target where
  name : String
  start : Nat
  equal : Nat
  deriving DecidableEq, Repr

/-- The last field of each form is the position of the newline. -/
inductive Line where
  | blank (stop : Nat)
  | formula (target : Option Target) (body : Formula) (stop : Nat)
  deriving DecidableEq, Repr

mutual

def Operand.tokens : Operand → List Token
  | .number digits start => [⟨.digits digits, start⟩]
  | .name name start => [⟨.name name, start⟩]
  | .negated sign inner => ⟨.operator .subtract, sign⟩ :: inner.tokens
  | .grouped opened inner closed => ⟨.opening, opened⟩ :: (inner.tokens ++ [⟨.closing, closed⟩])

def Formula.tokens : Formula → List Token
  | .single operand => operand.tokens
  | .chain operand op start rest => operand.tokens ++ ⟨.operator op, start⟩ :: rest.tokens

end

def Target.tokens (t : Target) : List Token := [⟨.name t.name, t.start⟩, ⟨.equal, t.equal⟩]

def Line.tokens : Line → List Token
  | .blank stop => [⟨.newline, stop⟩]
  | .formula target body stop =>
    (match target with
      | some t => t.tokens
      | none => []) ++ body.tokens ++ [⟨.newline, stop⟩]

end Calculator
