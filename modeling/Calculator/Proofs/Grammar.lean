import Mathlib.Tactic.Common
import Calculator.Tree

/-!
# The grammar of lines

The rules by which tokens form a line, and the tree that every derivation stands for: a branch for
every rule whose name is no mere grouping, over the digits, names and binary operators. Parentheses,
minus signs, the equals sign and the newline leave no leaf.

`derives_line_iff`: what the rule `line` derives are the token lists of lines, each with the tree of
its line.
-/

namespace Calculator

/-- The names of the rules. `value` groups the four kinds of operands and `tail` is the repeated
part of an expression; both add no branch of their own. -/
inductive Rule where
  | line
  | assignment
  | target
  | expression
  | tail
  | value
  | negation
  | parenthetical
  | literal
  | named
  | operator
  deriving DecidableEq, Repr

/-- `Derives r ts trees`: by rule `r` the tokens `ts` form `trees`. -/
inductive Derives : Rule → List Token → List Tree → Prop where
  -- line: assignment newline | expression newline | newline
  | lineAssignment {ts trees pos} : Derives .assignment ts trees →
      Derives .line (ts ++ [⟨.newline, pos⟩]) [.branch "line" trees]
  | lineExpression {ts trees pos} : Derives .expression ts trees →
      Derives .line (ts ++ [⟨.newline, pos⟩]) [.branch "line" trees]
  | lineBlank {pos} : Derives .line [⟨.newline, pos⟩] [.branch "line" []]
  -- assignment: target "=" expression
  | assignment {ts us left right pos} : Derives .target ts left → Derives .expression us right →
      Derives .assignment (ts ++ ⟨.equal, pos⟩ :: us) [.branch "assignment" (left ++ right)]
  -- target: name
  | target {n pos} :
      Derives .target [⟨.name n, pos⟩] [.branch "target" [.ofToken ⟨.name n, pos⟩]]
  -- expression: value tail
  | expression {ts us first more} : Derives .value ts first → Derives .tail us more →
      Derives .expression (ts ++ us) [.branch "expression" (first ++ more)]
  -- tail: nothing | operator value tail
  | tailNil : Derives .tail [] []
  | tailCons {ts us vs op right more} : Derives .operator ts op → Derives .value us right →
      Derives .tail vs more → Derives .tail (ts ++ us ++ vs) (op ++ right ++ more)
  -- value: negation | parenthetical | literal | named
  | valueNegation {ts trees} : Derives .negation ts trees → Derives .value ts trees
  | valueParenthetical {ts trees} : Derives .parenthetical ts trees → Derives .value ts trees
  | valueLiteral {ts trees} : Derives .literal ts trees → Derives .value ts trees
  | valueNamed {ts trees} : Derives .named ts trees → Derives .value ts trees
  -- negation: "-" value
  | negation {ts trees pos} : Derives .value ts trees →
      Derives .negation (⟨.operator .subtract, pos⟩ :: ts) [.branch "negation" trees]
  -- parenthetical: "(" expression ")"
  | parenthetical {ts trees opened closed} : Derives .expression ts trees →
      Derives .parenthetical (⟨.opening, opened⟩ :: ts ++ [⟨.closing, closed⟩])
        [.branch "parenthetical" trees]
  -- literal: digits
  | literal {ds pos} :
      Derives .literal [⟨.digits ds, pos⟩] [.branch "literal" [.ofToken ⟨.digits ds, pos⟩]]
  -- named: name
  | named {n pos} :
      Derives .named [⟨.name n, pos⟩] [.branch "variable" [.ofToken ⟨.name n, pos⟩]]
  -- operator: "+" | "-" | "*" | "/" | "^"
  | operator {op pos} :
      Derives .operator [⟨.operator op, pos⟩] [.branch "operator" [.ofToken ⟨.operator op, pos⟩]]

namespace Tree

def children : Tree → List Tree
  | token _ _ _ => []
  | branch _ children => children

/-- A tree without children says nothing. -/
def grown? (t : Tree) : Option Tree := if t.children.isEmpty then none else some t

/-- The tree of a line, which for a blank line has no children. -/
def root : Line → Tree
  | .blank _ => branch "line" []
  | .formula none body _ => branch "line" [ofFormula body]
  | .formula (some t) body _ =>
    branch "line" [branch "assignment" [leaf "target" (.name t.name) t.start, ofFormula body]]

theorem grown?_root (line : Line) : (root line).grown? = ofLine? line := by
  match line with
  | .blank _ => rfl
  | .formula none _ _ => rfl
  | .formula (some _) _ _ => rfl

end Tree

/-! ## Lines are derived -/

/-- The tokens and the run of a formula are those of an operand and of a tail. -/
def Formula.Splits (f : Formula) : Prop :=
  ∃ ts us first more, Derives .value ts first ∧ Derives .tail us more ∧ f.tokens = ts ++ us ∧
    Tree.runOfFormula f = first ++ more

theorem Formula.Splits.derives {f : Formula} (h : f.Splits) :
    Derives .expression f.tokens [Tree.ofFormula f] := by
  obtain ⟨ts, us, first, more, hfirst, hmore, htokens, hrun⟩ := h
  rw [htokens, Tree.ofFormula, hrun]
  exact .expression hfirst hmore

mutual

theorem derives_operand : ∀ v : Operand, Derives .value v.tokens [Tree.ofOperand v]
  | .number _ _ => .valueLiteral .literal
  | .name _ _ => .valueNamed .named
  | .negated _ inner => .valueNegation (.negation (derives_operand inner))
  | .grouped _ inner _ => .valueParenthetical (.parenthetical (splits_formula inner).derives)

theorem splits_formula : ∀ f : Formula, f.Splits
  | .single v => ⟨_, _, _, _, derives_operand v, .tailNil, (List.append_nil _).symm, rfl⟩
  | .chain v op pos rest => by
    obtain ⟨ts, us, first, more, hfirst, hmore, htokens, hrun⟩ := splits_formula rest
    refine ⟨_, _, _, _, derives_operand v,
      .tailCons (@Derives.operator op pos) hfirst hmore, ?_, ?_⟩
    · rw [Formula.tokens, htokens]
      rfl
    · rw [Tree.runOfFormula, hrun]
      rfl

end

theorem derives_formula (f : Formula) : Derives .expression f.tokens [Tree.ofFormula f] :=
  (splits_formula f).derives

theorem derives_line : ∀ line : Line, Derives .line line.tokens [Tree.root line]
  | .blank _ => .lineBlank
  | .formula none body _ => .lineExpression (derives_formula body)
  | .formula (some _) body _ => .lineAssignment (.assignment .target (derives_formula body))

/-! ## Nothing else is derived -/

/-- What a derivation by each rule stands for. -/
def Rule.Sense : Rule → List Token → List Tree → Prop
  | line, ts, trees => ∃ l : Line, l.tokens = ts ∧ trees = [Tree.root l]
  | assignment, ts, trees => ∃ (t : Target) (body : Formula), ts = t.tokens ++ body.tokens ∧
      trees = [.branch "assignment" [.leaf "target" (.name t.name) t.start, .ofFormula body]]
  | target, ts, trees => ∃ n pos, ts = [⟨.name n, pos⟩] ∧ trees = [.leaf "target" (.name n) pos]
  | expression, ts, trees => ∃ f : Formula, f.tokens = ts ∧ trees = [.ofFormula f]
  -- a tail stands for what it makes of the operand before it
  | tail, ts, trees => ∀ v : Operand, ∃ f : Formula, f.tokens = v.tokens ++ ts ∧
      Tree.runOfFormula f = .ofOperand v :: trees
  | operator, ts, trees =>
      ∃ op pos, ts = [⟨.operator op, pos⟩] ∧ trees = [.leaf "operator" (.operator op) pos]
  | _, ts, trees => ∃ v : Operand, v.tokens = ts ∧ trees = [.ofOperand v]

theorem Derives.sense {r : Rule} {ts : List Token} {trees : List Tree} (h : Derives r ts trees) :
    r.Sense ts trees := by
  induction h with
  | @lineAssignment ts trees pos _ ih =>
    obtain ⟨t, body, rfl, rfl⟩ := ih
    exact ⟨.formula (some t) body pos, rfl, rfl⟩
  | @lineExpression ts trees pos _ ih =>
    obtain ⟨f, rfl, rfl⟩ := ih
    exact ⟨.formula none f pos, rfl, rfl⟩
  | @lineBlank pos => exact ⟨.blank pos, rfl, rfl⟩
  | @assignment ts us left right pos _ _ ihLeft ihRight =>
    obtain ⟨n, start, rfl, rfl⟩ := ihLeft
    obtain ⟨f, rfl, rfl⟩ := ihRight
    exact ⟨⟨n, start, pos⟩, f, rfl, rfl⟩
  | @target n pos => exact ⟨n, pos, rfl, rfl⟩
  | expression _ _ ihFirst ihMore =>
    obtain ⟨v, rfl, rfl⟩ := ihFirst
    obtain ⟨f, htokens, hrun⟩ := ihMore v
    exact ⟨f, htokens, by rw [Tree.ofFormula, hrun]; rfl⟩
  | tailNil => exact fun v => ⟨.single v, (List.append_nil _).symm, rfl⟩
  | tailCons _ _ _ ihOp ihRight ihMore =>
    intro u
    obtain ⟨op, pos, rfl, rfl⟩ := ihOp
    obtain ⟨v, rfl, rfl⟩ := ihRight
    obtain ⟨f, htokens, hrun⟩ := ihMore v
    refine ⟨.chain u op pos f, ?_, ?_⟩
    · rw [Formula.tokens, htokens]
      rfl
    · rw [Tree.runOfFormula, hrun]
      rfl
  | valueNegation _ ih => exact ih
  | valueParenthetical _ ih => exact ih
  | valueLiteral _ ih => exact ih
  | valueNamed _ ih => exact ih
  | @negation ts trees pos _ ih =>
    obtain ⟨v, rfl, rfl⟩ := ih
    exact ⟨.negated pos v, rfl, rfl⟩
  | @parenthetical ts trees opened closed _ ih =>
    obtain ⟨f, rfl, rfl⟩ := ih
    exact ⟨.grouped opened f closed, rfl, rfl⟩
  | @literal ds pos => exact ⟨.number ds pos, rfl, rfl⟩
  | @named n pos => exact ⟨.name n pos, rfl, rfl⟩
  | @operator op pos => exact ⟨op, pos, rfl, rfl⟩

theorem derives_line_iff {ts : List Token} {trees : List Tree} :
    Derives .line ts trees ↔ ∃ l : Line, l.tokens = ts ∧ trees = [Tree.root l] := by
  constructor
  · exact Derives.sense
  · rintro ⟨l, rfl, rfl⟩
    exact derives_line l

end Calculator
