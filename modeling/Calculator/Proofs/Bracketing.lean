import Mathlib.Data.List.Basic
import Calculator.Proofs.Precedence

/-!
# Bracketings

A formula with every operator between the two sides that it binds. Parentheses are kept, as they are
worked out before any operator beside them; what they hold is bracketed in its turn.

A bracketing is right (`Bracketing.Binds`) if no side of an operator binds looser than the operator
does, and the right side binds tighter: so the operators of one tier are taken from the left. Every
formula has a right bracketing (`exists_bracketing`): a further operand joins the left edge of what
comes after it, as high up as its operator binds (`Bracketing.before`).
-/

namespace Calculator

mutual

inductive Bracketing.Operand where
  | number (digits : String) (start : Nat)
  | name (name : String) (start : Nat)
  | negated (sign : Nat) (inner : Bracketing.Operand)
  | grouped (opened : Nat) (inner : Bracketing) (closed : Nat)

inductive Bracketing where
  | operand (v : Bracketing.Operand)
  | applied (op : Operator) (start : Nat) (lhs rhs : Bracketing)

end

namespace Bracketing

mutual

def Operand.tokens : Bracketing.Operand → List Token
  | .number digits start => [⟨.digits digits, start⟩]
  | .name name start => [⟨.name name, start⟩]
  | .negated sign inner => ⟨.operator .subtract, sign⟩ :: inner.tokens
  | .grouped opened inner closed => ⟨.opening, opened⟩ :: (inner.tokens ++ [⟨.closing, closed⟩])

def tokens : Bracketing → List Token
  | operand v => v.tokens
  | applied op start lhs rhs => lhs.tokens ++ ⟨.operator op, start⟩ :: rhs.tokens

end

/-- How loose a bracketing binds: as its outermost operator does. -/
def level : Bracketing → Nat
  | operand _ => 0
  | applied op _ _ _ => op.level

mutual

def Operand.Binds : Bracketing.Operand → Prop
  | .number _ _ => True
  | .name _ _ => True
  | .negated _ inner => inner.Binds
  | .grouped _ inner _ => inner.Binds

def Binds : Bracketing → Prop
  | operand v => v.Binds
  | applied op _ lhs rhs => lhs.level ≤ op.level ∧ rhs.level < op.level ∧ lhs.Binds ∧ rhs.Binds

end

mutual

/-- What is left of an operand when parentheses are told by the shape alone. -/
def Operand.term : Bracketing.Operand → Term
  | .number digits _ => .number (Decimal.value digits.toList)
  | .name name _ => .name name
  | .negated _ inner => .negated inner.term
  | .grouped _ inner _ => inner.term

def term : Bracketing → Term
  | operand v => v.term
  | applied op _ lhs rhs => .applied op lhs.term rhs.term

end

/-- The slots that a bracketing takes up: one for every operand and every operator. -/
def width : Bracketing → Nat
  | operand _ => 1
  | applied _ _ lhs rhs => lhs.width + 1 + rhs.width

theorem level_le (b : Bracketing) : b.level ≤ 3 := by
  cases b with
  | operand v => exact Nat.zero_le 3
  | applied op start lhs rhs => exact Term.level_le op

/-! ## The formula of a bracketing -/

mutual

def Operand.flat : Bracketing.Operand → Calculator.Operand
  | .number digits start => .number digits start
  | .name name start => .name name start
  | .negated sign inner => .negated sign inner.flat
  | .grouped opened inner closed => .grouped opened inner.flat closed

/-- The formula, in which all operators stand side by side again. -/
def flat : Bracketing → Formula
  | operand v => .single v.flat
  | applied op start lhs rhs => lhs.flat.append op start rhs.flat

end

mutual

theorem Operand.tokens_flat : ∀ v : Bracketing.Operand, v.flat.tokens = v.tokens
  | .number _ _ => rfl
  | .name _ _ => rfl
  | .negated _ inner => by
    rw [Operand.flat, Calculator.Operand.tokens, inner.tokens_flat, Operand.tokens]
  | .grouped _ inner _ => by
    rw [Operand.flat, Calculator.Operand.tokens, inner.tokens_flat, Operand.tokens]

theorem tokens_flat : ∀ b : Bracketing, b.flat.tokens = b.tokens
  | operand v => v.tokens_flat
  | applied op start lhs rhs => by
    rw [flat, Formula.tokens_append, lhs.tokens_flat, rhs.tokens_flat, tokens]

end

/-- The tokens of a formula leave no choice but for the brackets. -/
theorem flat_eq {b : Bracketing} {f : Formula} (h : b.tokens = f.tokens) : b.flat = f :=
  Formula.tokens_injective (b.tokens_flat.trans h)

/-! ## Every formula is bracketed -/

/-- Puts an operand and an operator before a bracketing. -/
def before (v : Bracketing.Operand) (op : Operator) (start : Nat) : Bracketing → Bracketing
  | operand w => applied op start (operand v) (operand w)
  | applied op' start' lhs rhs =>
    if op'.level < op.level then applied op start (operand v) (applied op' start' lhs rhs)
    else applied op' start' (before v op start lhs) rhs

theorem tokens_before (v : Bracketing.Operand) (op : Operator) (start : Nat) (b : Bracketing) :
    (before v op start b).tokens = v.tokens ++ ⟨.operator op, start⟩ :: b.tokens := by
  induction b using Bracketing.before.induct op with
  | case1 w => rfl
  | case2 op' start' lhs rhs hlt =>
    rw [before, if_pos hlt]
    rfl
  | case3 op' start' lhs rhs hlt ih =>
    rw [before, if_neg hlt, tokens, ih, tokens, List.append_assoc, List.cons_append]

/-- The operator does not get below one that binds tighter. -/
theorem level_before (v : Bracketing.Operand) (op : Operator) (start : Nat) (b : Bracketing) :
    (before v op start b).level = max op.level b.level := by
  cases b with
  | operand w => exact (Nat.max_eq_left (Nat.zero_le _)).symm
  | applied op' start' lhs rhs =>
    rw [before]
    split_ifs with hlt
    · exact (Nat.max_eq_left (Nat.le_of_lt hlt)).symm
    · exact (Nat.max_eq_right (Nat.le_of_not_lt hlt)).symm

theorem binds_before {v : Bracketing.Operand} (hv : v.Binds) (op : Operator) (start : Nat)
    {b : Bracketing} (hb : b.Binds) : (before v op start b).Binds := by
  have hpos : 0 < op.level := by cases op <;> decide
  induction b using Bracketing.before.induct op with
  | case1 w => exact ⟨Nat.zero_le _, hpos, hv, hb⟩
  | case2 op' start' lhs rhs hlt =>
    rw [before, if_pos hlt]
    exact ⟨Nat.zero_le _, hlt, hv, hb⟩
  | case3 op' start' lhs rhs hlt ih =>
    obtain ⟨hleft, hright, hlhs, hrhs⟩ := hb
    rw [before, if_neg hlt]
    refine ⟨?_, hright, ih hlhs, hrhs⟩
    rw [level_before]
    exact Nat.max_le.2 ⟨Nat.le_of_not_lt hlt, hleft⟩

end Bracketing

mutual

theorem exists_bracketed_operand : ∀ v : Operand, ∃ w : Bracketing.Operand,
    w.tokens = v.tokens ∧ w.Binds
  | .number digits start => ⟨.number digits start, rfl, trivial⟩
  | .name n start => ⟨.name n start, rfl, trivial⟩
  | .negated sign inner => by
    obtain ⟨w, htokens, hbinds⟩ := exists_bracketed_operand inner
    refine ⟨.negated sign w, ?_, hbinds⟩
    rw [Bracketing.Operand.tokens, htokens, Operand.tokens]
  | .grouped opened inner closed => by
    obtain ⟨b, htokens, hbinds⟩ := exists_bracketing inner
    refine ⟨.grouped opened b closed, ?_, hbinds⟩
    rw [Bracketing.Operand.tokens, htokens, Operand.tokens]

/-- Every formula has a right bracketing. -/
theorem exists_bracketing : ∀ f : Formula, ∃ b : Bracketing, b.tokens = f.tokens ∧ b.Binds
  | .single v => by
    obtain ⟨w, htokens, hbinds⟩ := exists_bracketed_operand v
    exact ⟨.operand w, htokens, hbinds⟩
  | .chain v op start rest => by
    obtain ⟨w, hw, hbindsw⟩ := exists_bracketed_operand v
    obtain ⟨b, hb, hbindsb⟩ := exists_bracketing rest
    refine ⟨b.before w op start, ?_, Bracketing.binds_before hbindsw op start hbindsb⟩
    rw [Bracketing.tokens_before, hw, hb, Formula.tokens]

end

end Calculator
