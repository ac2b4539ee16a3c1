import Mathlib.Data.List.Basic
import Calculator.Node.Printer
import Calculator.Proofs.Acceptance

/-!
# What lines build

The node of a line, said of the line itself (`Operand.node`, `Formula.slots`), and the shape that
such nodes have.

1. The tree of a line builds into its node (`Tree.toNode_root`), so an accepted text has a statement
   unless it is too deep (`Statement.ofText_of_line`).
2. The operands of a line build into operand nodes and its formulas into slots that alternate
   (`isOperand_node`, `alternates_slots`); `alternates_iff` says this by positions.
3. Every alternating row of slots is that of a formula, which is spelled as the row is printed
   (`exists_formula`).
-/

namespace Calculator

/-! ## The node of a line -/

mutual

def Operand.node : Operand → Node
  | .number digits _ => .literal (Decimal.value digits.toList)
  | .name n _ => .identifier n
  | .negated _ inner => .negation inner.node
  | .grouped _ inner _ => .parenthetical (.expression inner.slots)

def Formula.slots : Formula → List Node
  | .single v => [v.node]
  | .chain v op _ rest => v.node :: .operator (.known op) :: rest.slots

end

def Formula.node (f : Formula) : Node := .expression f.slots

def Target.node? : Option Target → Node
  | none => .hole
  | some t => .identifier t.name

/-- All lexemes of a piece are spelled as their class demands. -/
def Operand.IsProper (v : Operand) : Prop := ∀ t ∈ v.tokens, t.lexeme.isProper

def Formula.IsProper (f : Formula) : Prop := ∀ t ∈ f.tokens, t.lexeme.isProper

theorem Operand.IsProper.of_grouped {opened closed : Nat} {f : Formula}
    (h : (Operand.grouped opened f closed).IsProper) : f.IsProper :=
  fun t ht => h t (by simp [Operand.tokens, ht])

theorem Operand.IsProper.of_negated {pos : Nat} {v : Operand}
    (h : (Operand.negated pos v).IsProper) : v.IsProper :=
  fun t ht => h t (by simp [Operand.tokens, ht])

theorem Formula.IsProper.first {v : Operand} {op : Operator} {pos : Nat} {rest : Formula}
    (h : (Formula.chain v op pos rest).IsProper) : v.IsProper :=
  fun t ht => h t (by simp [Formula.tokens, ht])

theorem Formula.IsProper.rest {v : Operand} {op : Operator} {pos : Nat} {rest : Formula}
    (h : (Formula.chain v op pos rest).IsProper) : rest.IsProper :=
  fun t ht => h t (by simp [Formula.tokens, ht])

/-! ## Building -/

theorem Tree.toNode_literal {digits : String} {pos : Nat}
    (h : (Operand.number digits pos).IsProper) :
    (Tree.leaf "literal" (.digits digits) pos).toNode =
      .ok (.literal (Decimal.value digits.toList)) := by
  have hproper := h _ (List.mem_singleton.2 rfl)
  simp only [Lexeme.isProper, isDigits, Bool.and_eq_true, List.all_eq_true] at hproper
  have hread := Numeral.read?_digits hproper.2
  simp only [Tree.leaf, Tree.toNode, Tree.firstText, Tree.ofToken, Tree.text, Lexeme.text, bind,
    Except.bind, hread]
  rfl

theorem Tree.toNode_operator (op : Operator) (pos : Nat) :
    (Tree.leaf "operator" (.operator op) pos).toNode = .ok (.operator (.known op)) := by
  simp only [Tree.leaf, Tree.toNode, Tree.firstText, Tree.ofToken, Tree.text, Lexeme.text, bind,
    Except.bind, Operator.ofSymbol?_symbol]
  rfl

mutual

theorem toNode_ofOperand : ∀ v : Operand, v.IsProper → (Tree.ofOperand v).toNode = .ok v.node
  | .number _ _, h => Tree.toNode_literal h
  | .name _ _, _ => rfl
  | .negated _ inner, h => by
    rw [Tree.ofOperand, Tree.toNode, Tree.firstNode, toNode_ofOperand inner h.of_negated]
    rfl
  | .grouped _ inner _, h => by
    rw [Tree.ofOperand, Tree.toNode, Tree.firstNode, Tree.toNode,
      nodes_runOfFormula inner h.of_grouped]
    rfl

theorem nodes_runOfFormula : ∀ f : Formula, f.IsProper →
    Tree.nodes (Tree.runOfFormula f) = .ok f.slots
  | .single v, h => by
    rw [Tree.runOfFormula, Tree.nodes, toNode_ofOperand v h]
    rfl
  | .chain v op pos rest, h => by
    rw [Tree.runOfFormula, Tree.nodes, toNode_ofOperand v h.first, Tree.nodes, Tree.toNode_operator,
      nodes_runOfFormula rest h.rest]
    rfl

end

theorem Tree.toNode_target (t : Target) :
    (Tree.leaf "target" (.name t.name) t.start).toNode = .ok (.identifier t.name) := rfl

theorem Tree.toNode_formula {f : Formula} (h : f.IsProper) :
    (Tree.ofFormula f).toNode = .ok f.node := by
  rw [Tree.ofFormula, Tree.toNode, nodes_runOfFormula f h]
  rfl

/-- The tree of a line that is not blank builds into its target, if there is one, and its formula.
-/
theorem Tree.toNode_root {target : Option Target} {body : Formula} (stop : Nat)
    (h : body.IsProper) :
    (Tree.root (.formula target body stop)).toNode =
      .ok (.line (Target.node? target) body.node) := by
  cases target with
  | none =>
    -- the one child of the line is no assignment
    rw [Tree.root, Tree.toNode, Tree.ofFormula, Tree.lineNode, ← Tree.ofFormula,
      Tree.toNode_formula h]
    · rfl
    · simp
    · simp
  | some t =>
    rw [Tree.root, Tree.toNode, Tree.lineNode, Tree.toNode_target, Tree.toNode_formula h]
    rfl

theorem Tree.ofLine?_formula (target : Option Target) (body : Formula) (stop : Nat) :
    Tree.ofLine? (.formula target body stop) = some (Tree.root (.formula target body stop)) := by
  cases target <;> rfl

theorem Statement.ofTree_root {target : Option Target} {body : Formula} (stop : Nat)
    (h : body.IsProper) :
    Statement.ofTree (Tree.root (.formula target body stop)) =
      .ok ⟨Target.node? target, body.node⟩ := by
  rw [Statement.ofTree, Tree.toNode_root stop h]
  rfl

/-! ## Depth -/

mutual

/-- What parentheses and minus signs add up to on the deepest path. -/
def Operand.depth : Operand → Nat
  | .number _ _ => 0
  | .name _ _ => 0
  | .negated _ inner => Node.signDepth + inner.depth
  | .grouped _ inner _ => Node.groupDepth + inner.depth

def Formula.depth : Formula → Nat
  | .single v => v.depth
  | .chain v _ _ rest => max v.depth rest.depth

end

mutual

theorem depth_node : ∀ v : Operand, v.node.depth = v.depth
  | .number _ _ => rfl
  | .name _ _ => rfl
  | .negated _ inner => by rw [Operand.node, Node.depth, depth_node inner, Operand.depth]
  | .grouped _ inner _ => by
    rw [Operand.node, Node.depth, Node.depth, depthOfSlots_slots inner, Operand.depth]

theorem depthOfSlots_slots : ∀ f : Formula, Node.depthOfSlots f.slots = f.depth
  | .single v => by
    rw [Formula.slots, Node.depthOfSlots, Node.depthOfSlots, depth_node v, Formula.depth,
      Nat.max_zero]
  | .chain v op pos rest => by
    have hop : (Node.operator (.known op)).depth = 0 := rfl
    rw [Formula.slots, Node.depthOfSlots, Node.depthOfSlots, depth_node v, depthOfSlots_slots rest,
      Formula.depth, hop, Nat.zero_max]

end

theorem Formula.depth_node (f : Formula) : f.node.depth = f.depth := depthOfSlots_slots f

/-! ## Accepted texts -/

/-- The lexemes of an accepted text are spelled as their classes demand. -/
theorem Formula.isProper_of_ofText {text : String} {target : Option Target} {body : Formula}
    {stop : Nat} (h : Line.ofText text = .ok (.formula target body stop)) : body.IsProper := by
  intro t ht
  refine (Line.ofText_eq_ok.1 h).isProper t ?_
  rw [Line.tokens_formula]
  simp [ht]

theorem Target.isName_of_ofText {text : String} {t : Target} {body : Formula} {stop : Nat}
    (h : Line.ofText text = .ok (.formula (some t) body stop)) : isName t.name.toList := by
  refine (Line.ofText_eq_ok.1 h).isProper ⟨.name t.name, t.start⟩ ?_
  simp [Line.tokens, Target.tokens]

/-- The statement of an accepted text that is not blank. -/
theorem Statement.ofText_of_line {text : String} {target : Option Target} {body : Formula}
    {stop : Nat} (h : Line.ofText text = .ok (.formula target body stop)) :
    Statement.ofText text =
      if body.depth > Node.depthLimit then .error (.fault .tooDeep)
      else .ok (some ⟨Target.node? target, body.node⟩) := by
  have htree := @Statement.ofTree_root target body stop (Formula.isProper_of_ofText h)
  simp only [Statement.ofText, h, Tree.ofLine?_formula, htree, Formula.depth_node]

/-- A statement is that of an accepted text that is not blank and not too deep. -/
theorem Statement.exists_line_of_ofText {text : String} {s : Statement}
    (h : Statement.ofText text = .ok (some s)) :
    ∃ target body stop, Line.ofText text = .ok (.formula target body stop) ∧
      body.depth ≤ Node.depthLimit ∧ s = ⟨Target.node? target, body.node⟩ := by
  rcases hline : Line.ofText text with cause | ⟨stop⟩ | ⟨target, body, stop⟩
  · rw [Statement.ofText, hline] at h
    cases h
  · rw [Statement.ofText, hline] at h
    cases h
  · rw [Statement.ofText_of_line hline] at h
    split_ifs at h with hdepth
    cases h
    exact ⟨target, body, stop, rfl, by omega, rfl⟩

/-! ## The shape of nodes -/

namespace Node

mutual

/-- What an operator works on: a literal that is not negative, a name, parentheses around slots that
alternate, or a minus sign before an operand. -/
def isOperand : Node → Bool
  | literal v => 0 ≤ v
  | identifier n => isName n.toList
  | parenthetical (expression slots) => alternates slots
  | negation inner => inner.isOperand
  | _ => false

/-- Operands with one of the five operators between any two. -/
def alternates : List Node → Bool
  | [n] => n.isOperand
  | n :: operator (.known _) :: rest => n.isOperand && alternates rest
  | _ => false

end

/-- Whether a node may stand at the position of a row. -/
def Fits (i : Nat) (n : Node) : Prop :=
  if i % 2 = 0 then n.isOperand = true else ∃ op, n = operator (.known op)

theorem fits_add_two (i : Nat) (n : Node) : Fits (i + 2) n ↔ Fits i n := by
  rw [Fits, Fits, Nat.add_mod_right]

theorem alternates_cons_cons (n m : Node) (rest : List Node) :
    alternates (n :: m :: rest) ↔
      n.isOperand ∧ (∃ op, m = operator (.known op)) ∧ alternates rest := by
  constructor
  · intro h
    unfold alternates at h
    split at h
    · next heq => cases heq
    · next heq =>
      obtain ⟨rfl, rfl, rfl⟩ : _ ∧ _ ∧ _ := by simpa using heq
      rw [Bool.and_eq_true] at h
      exact ⟨h.1, ⟨_, rfl⟩, h.2⟩
    · cases h
  · rintro ⟨hn, ⟨op, rfl⟩, hrest⟩
    rw [alternates, hn, hrest]
    rfl

/-- Alternation by positions: an odd number of slots, with operands at the even positions and
operators at the odd ones. -/
theorem alternates_iff : ∀ slots : List Node, alternates slots ↔
    slots.length % 2 = 1 ∧ ∀ i n, slots[i]? = some n → Fits i n
  | [] => by simp [alternates]
  | [n] => by
    rw [alternates]
    constructor
    · intro h
      refine ⟨rfl, fun i m hm => ?_⟩
      cases i with
      | zero =>
        cases hm
        exact h
      | succ i => simp at hm
    · rintro ⟨-, h⟩
      exact h 0 n rfl
  | n :: m :: rest => by
    rw [alternates_cons_cons, alternates_iff rest, List.length_cons, List.length_cons,
      Nat.add_assoc, Nat.add_mod_right]
    constructor
    · rintro ⟨hn, hm, hlength, hrest⟩
      refine ⟨hlength, fun i u hu => ?_⟩
      match i with
      | 0 =>
        cases hu
        exact hn
      | 1 =>
        cases hu
        exact hm
      | i + 2 => exact (fits_add_two i u).2 (hrest i u hu)
    · rintro ⟨hlength, h⟩
      exact ⟨h 0 n rfl, h 1 m rfl, hlength, fun i u hu => (fits_add_two i u).1 (h (i + 2) u hu)⟩

end Node

mutual

theorem isOperand_node : ∀ v : Operand, v.IsProper → v.node.isOperand
  | .number _ _, _ => by simp [Operand.node, Node.isOperand]
  | .name _ _, h => h _ (List.mem_singleton.2 rfl)
  | .negated _ inner, h => by
    rw [Operand.node, Node.isOperand]
    exact isOperand_node inner h.of_negated
  | .grouped _ inner _, h => by
    rw [Operand.node, Node.isOperand]
    exact alternates_slots inner h.of_grouped

theorem alternates_slots : ∀ f : Formula, f.IsProper → Node.alternates f.slots
  | .single v, h => by
    rw [Formula.slots, Node.alternates]
    exact isOperand_node v h
  | .chain v op pos rest, h => by
    rw [Formula.slots, Node.alternates_cons_cons]
    exact ⟨isOperand_node v h.first, ⟨op, rfl⟩, alternates_slots rest h.rest⟩

end

/-! ## Every such node is built -/

/-- The spellings of tokens, one after the other. -/
def spelled (ts : List Token) : List Char := ts.flatMap fun t => t.lexeme.text.toList

theorem spelled_cons (t : Token) (ts : List Token) :
    spelled (t :: ts) = t.lexeme.text.toList ++ spelled ts := List.flatMap_cons

theorem spelled_singleton (t : Token) : spelled [t] = t.lexeme.text.toList := List.append_nil _

theorem spelled_append (ts us : List Token) : spelled (ts ++ us) = spelled ts ++ spelled us :=
  List.flatMap_append

theorem spelled_operator (op : Operator) (pos : Nat) (ts : List Token) :
    spelled (⟨.operator op, pos⟩ :: ts) = op.symbol :: spelled ts := by
  simp [spelled, Lexeme.text]

theorem Decimal.toList_text {v : Int} (h : 0 ≤ v) :
    (Decimal.text v).toList = Nat.toDigits 10 v.natAbs := by
  rw [Decimal.text_eq, if_neg (by omega), Nat.toList_repr]

theorem Decimal.isDigits_text {v : Int} (h : 0 ≤ v) : isDigits (Decimal.text v).toList := by
  rw [Decimal.toList_text h, isDigits, Bool.and_eq_true, List.all_eq_true]
  refine ⟨by simp, fun c hc => ?_⟩
  exact Nat.isDigit_of_mem_toDigits (by decide) (by decide) hc

theorem Decimal.value_text {v : Int} (h : 0 ≤ v) :
    (Decimal.value (Decimal.text v).toList : Int) = v := by
  rw [Decimal.toList_text h, Decimal.value_toDigits]
  omega

mutual

theorem exists_operand : ∀ n : Node, n.isOperand →
    ∃ v : Operand, v.IsProper ∧ v.node = n ∧ spelled v.tokens = n.print
  | .literal v, h => by
    have hv : 0 ≤ v := of_decide_eq_true h
    refine ⟨.number (Decimal.text v) 0, ?_, congrArg Node.literal (Decimal.value_text hv),
      spelled_singleton _⟩
    exact fun t ht => List.mem_singleton.1 ht ▸ Decimal.isDigits_text hv
  | .identifier n, h => by
    refine ⟨.name n 0, ?_, rfl, spelled_singleton _⟩
    exact fun t ht => List.mem_singleton.1 ht ▸ h
  | .negation inner, h => by
    obtain ⟨v, hproper, rfl, hspelled⟩ := exists_operand inner (by rwa [Node.isOperand] at h)
    refine ⟨.negated 0 v, ?_, rfl, ?_⟩
    · exact List.forall_mem_cons.2 ⟨rfl, hproper⟩
    · rw [Operand.tokens, spelled_operator, hspelled]
      rfl
  | .parenthetical (.expression slots), h => by
    obtain ⟨f, hproper, rfl, hspelled⟩ := exists_formula slots (by rwa [Node.isOperand] at h)
    refine ⟨.grouped 0 f 0, ?_, rfl, ?_⟩
    · refine List.forall_mem_cons.2 ⟨rfl, List.forall_mem_append.2 ⟨hproper, ?_⟩⟩
      exact List.forall_mem_singleton.2 rfl
    · rw [Operand.tokens, spelled_cons, spelled_append, hspelled]
      rfl

theorem exists_formula : ∀ slots : List Node, Node.alternates slots →
    ∃ f : Formula, f.IsProper ∧ f.slots = slots ∧ spelled f.tokens = Node.printSlots slots
  | [n], h => by
    obtain ⟨v, hproper, rfl, hspelled⟩ := exists_operand n (by rwa [Node.alternates] at h)
    refine ⟨.single v, hproper, rfl, ?_⟩
    rw [Formula.tokens, hspelled, Node.printSlots, Node.printSlots, List.append_nil]
  | n :: m :: rest, h => by
    obtain ⟨hn, ⟨op, rfl⟩, hrest⟩ := (Node.alternates_cons_cons n m rest).1 h
    obtain ⟨v, hv, rfl, hspelled⟩ := exists_operand n hn
    obtain ⟨f, hf, rfl, hspelled'⟩ := exists_formula rest hrest
    refine ⟨.chain v op 0 f, ?_, rfl, ?_⟩
    · exact List.forall_mem_append.2 ⟨hv, List.forall_mem_cons.2 ⟨rfl, hf⟩⟩
    · rw [Formula.tokens, spelled_append, spelled_operator, hspelled, hspelled', Node.printSlots,
        Node.printSlots]
      rfl

end

end Calculator
