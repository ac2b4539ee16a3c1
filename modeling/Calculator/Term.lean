import Calculator.Decimal
import Calculator.Line
import Calculator.Variables

/-!
# Terms

A formula read by precedence: every operator has its two operands below it, and parentheses are told
by the shape. A minus sign binds tighter than any operator, the tiers bind as `Operator.tiers` lists
them, and the operators of one tier are taken from the left.

The value of a term is found by recursion on it. It is the plain meaning of a formula, against which
the work on slots can be held.
-/

namespace Calculator

inductive Term where
  | number (n : Nat)
  | name (name : String)
  | negated (inner : Term)
  | applied (op : Operator) (lhs rhs : Term)
  deriving DecidableEq, Repr

namespace Term

/-- The operators after a term, each with its right operand. -/
abbrev Links := List (Operator × Term)

/-- Joins the operands of every operator of a tier, from the left. Other operators stay between the
joined terms. -/
def join (tier : List Operator) (t : Term) : Links → Term × Links
  | [] => (t, [])
  | (op, u) :: links =>
    if op ∈ tier then join tier (applied op t u) links
    else
      let (v, rest) := join tier u links
      (t, (op, v) :: rest)

/-- Joins tier after tier. As every operator belongs to one, no links are left. -/
def joinAll (t : Term) (links : Links) : Term :=
  (Operator.tiers.foldl (fun (t, links) tier => join tier t links) (t, links)).1

mutual

def ofOperand : Operand → Term
  | .number digits _ => number (Decimal.value digits.toList)
  | .name n _ => name n
  | .negated _ inner => negated (ofOperand inner)
  | .grouped _ inner _ =>
    let (t, links) := linksOf inner
    joinAll t links

/-- The first operand of a formula, and the operators after it. -/
def linksOf : Formula → Term × Links
  | .single v => (ofOperand v, [])
  | .chain v op _ rest =>
    let (t, links) := linksOf rest
    (ofOperand v, (op, t) :: links)

end

def ofFormula (f : Formula) : Term := joinAll (linksOf f).1 (linksOf f).2

/-- No value if a name has none, or if an operator does not apply. -/
def value? (vars : Variables) : Term → Option Int
  | number n => some n
  | name n => vars.get? n
  | negated inner => (inner.value? vars).map (- ·)
  | applied op lhs rhs => do
    let x ← lhs.value? vars
    let y ← rhs.value? vars
    (op.apply x y).toOption

end Term

end Calculator
