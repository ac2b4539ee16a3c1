import Calculator.Proofs.Contraction

/-!
# Interleaving

Nothing looks at the slots of an expression as a whole before the work on them starts. All the same
an expression has a value only if its filled slots are arguments with known operators between them
(`Interleaves`). The arguments may be any nodes but operators, so this is less than what lines are
built into (`Node.alternates`).

The argument goes backwards. The last row, a literal between holes, interleaves. A contraction puts
one argument in the place of another one, or of two arguments and the operator between them; so if a
row interleaves after it then the row did so before (`Contracts.interleaves`), and by induction on
the contractions so did the first one (`Node.interleaves_of_ok`).
-/

namespace Calculator

open Relation (ReflTransGen)

namespace Node

/-- What may stand beside an operator. -/
def isArgument : Node → Bool
  | operator _ | hole => false
  | _ => true

end Node

/-- Arguments, with a known operator between each and the next. -/
inductive Interleaves : List Node → Prop where
  | single {a} : a.isArgument → Interleaves [a]
  | chain {a op rest} : a.isArgument → Interleaves rest →
      Interleaves (a :: .operator (.known op) :: rest)

namespace Node

@[simp] theorem filled_operator_cons (kind : OperatorKind) (ns : List Node) :
    filled (.operator kind :: ns) = .operator kind :: filled ns := rfl

theorem filled_argument_cons {n : Node} (hn : n.isArgument) (ns : List Node) :
    filled (n :: ns) = n :: filled ns := by
  cases n <;> first | rfl | cases hn

theorem isArgument_of_ok {vars : Variables} {n : Node} {v : Int}
    (h : (n.reduce vars).outcome.result = .ok v) : n.isArgument := by
  cases n with
  | operator => cases h
  | hole => cases h
  | _ => rfl

end Node

namespace Interleaves

/-- Any argument may stand at the head. -/
theorem head {a b : Node} {tail : List Node} (h : Interleaves (a :: tail)) (hb : b.isArgument) :
    Interleaves (b :: tail) := by
  cases h with
  | single => exact .single hb
  | chain _ hrest => exact .chain hb hrest

/-- What may stand for a row that begins with an argument may stand for it behind others. -/
theorem replace {a : Node} {tail tail' : List Node} (ha : a.isArgument)
    (htail : Interleaves (a :: tail) → Interleaves tail') :
    ∀ {before : List Node}, Interleaves (before ++ a :: tail) → Interleaves (before ++ tail')
  | [], h => htail h
  | [_], h => by
    -- after one argument there is an operator, so `a` cannot be there
    cases h with
    | chain => cases ha
  | _ :: _ :: _, h => by
    rw [List.cons_append, List.cons_append] at h
    cases h with
    | chain hb hrest => exact .chain hb (hrest.replace ha htail)

end Interleaves

open Node (filled filled_append filled_argument_cons isArgument_of_ok)

/-- A row that interleaves after a contraction did so before. -/
theorem Contracts.interleaves {vars : Variables} {ns ms : List Node} (h : Contracts vars ns ms)
    (hms : Interleaves (filled ms)) : Interleaves (filled ns) := by
  cases h with
  | @settle before n after v hv =>
    have hn := isArgument_of_ok hv
    rw [filled_append, Node.filled_literal_cons] at hms
    rw [filled_append, filled_argument_cons hn]
    exact hms.replace rfl fun h => h.head hn
  | @operate before lhs i op j rhs after x y v hx hy =>
    have hlhs := isArgument_of_ok hx
    have hrhs := isArgument_of_ok hy
    simp only [filled_append, Node.filled_hole_cons, Node.filled_holes, List.nil_append,
      Node.filled_literal_cons, Node.filled_operator_cons, filled_argument_cons hlhs,
      filled_argument_cons hrhs] at hms ⊢
    exact hms.replace rfl fun h => .chain hlhs (h.head hrhs)

theorem Node.interleaves_of_ok {vars : Variables} {slots : List Node} {v : Int}
    (h : ((expression slots).reduce vars).outcome.result = .ok v) :
    Interleaves (filled slots) := by
  obtain ⟨i, j, -, hcontracts⟩ := contracts_of_ok h
  clear h
  induction hcontracts using ReflTransGen.head_induction_on with
  | refl =>
    rw [filled_loneRow]
    exact .single rfl
  | head hfirst _ ih => exact hfirst.interleaves ih

/-- **Only rows that interleave have values.** Whatever nodes and holes the slots of an expression
are, if it has a value then its filled slots are arguments with known operators between them, and
any other row stops with a fault. -/
theorem expression_interleaves (vars : Variables) (slots : List Node) :
    (∀ v, ((Node.expression slots).reduce vars).outcome.result = .ok v →
      Interleaves (filled slots)) ∧
    (¬ Interleaves (filled slots) →
      ∃ fault, ((Node.expression slots).reduce vars).outcome.result = .error fault) := by
  refine ⟨fun v h => Node.interleaves_of_ok h, fun hrow => ?_⟩
  cases hresult : ((Node.expression slots).reduce vars).outcome.result with
  | ok v => exact absurd (Node.interleaves_of_ok hresult) hrow
  | error fault => exact ⟨fault, rfl⟩

/-- A whole line may stand beside an operator. Three arguments and two operators are not enough if
neighbours are of one kind. -/
theorem expression_interleaves_line :
    let row : List Node :=
      [.literal 7, .hole, .operator (.known .divide), .line .hole (.literal 2), .hole]
    let surplus : List Node :=
      [.literal 1, .literal 2, .operator (.known .add), .operator (.known .multiply), .literal 3]
    ((Node.expression row).reduce .empty).outcome.result = .ok 3 ∧ Interleaves (filled row) ∧
      ¬ Interleaves (filled surplus) ∧
      ∃ fault, ((Node.expression surplus).reduce .empty).outcome.result = .error fault := by
  intro row surplus
  have hrow : ((Node.expression row).reduce .empty).outcome.result = .ok 3 := by decide +kernel
  have hsurplus : ¬ Interleaves (filled surplus) := fun h => by cases h
  exact ⟨hrow, (expression_interleaves .empty row).1 3 hrow, hsurplus,
    (expression_interleaves .empty surplus).2 hsurplus⟩

end Calculator
