import Mathlib.Data.List.Perm.Basic
import Mathlib.Data.List.Forall2
import Mathlib.Algebra.Order.Group.Multiset
import Mathlib.Tactic.Abel
import Calculator.Proofs.Bracketing
import Calculator.Step
import Calculator.Variables

/-!
# Schedules

In which order a bracketing is worked out, as a list of tasks that is known before anything is
worked out: the groups of an expression from left to right, each with all that it holds before it;
then tier by tier the operators from left to right, each after the look-ups of the bare names beside
it; at the end the look-up of a name that stands alone.

1. A task has one step or one fault, given the variables (`Task.Yields`, `Task.Fails`).
2. Every operator belongs to one tier, so every operator and every name of the formula has exactly
   one task (`perm_names`, `perm_operators`).
3. An operator of the loosest tier comes last, and it is the outermost one
   (`result_of_getLast?_schedule`).
-/

namespace Calculator

/-! ## Tasks -/

/-- A piece of work that is told by one step. Operators and groups know their slots. -/
inductive Task where
  | look (name : String) (start : Nat)
  | group (index : Nat) (content : Bracketing.Operand)
  | operate (op : Operator) (start index : Nat) (lhs rhs : Bracketing)

namespace Task

/-- The step that tells of the task. -/
inductive Yields (vars : Variables) : Task → Step → Prop where
  | look {n start v} : vars.get? n = some v → Yields vars (.look n start) (.lookup n v)
  | group {index content v} : content.term.value? vars = some v →
      Yields vars (.group index content) (.group index v)
  | operate {op start index lhs rhs x y v} : lhs.term.value? vars = some x →
      rhs.term.value? vars = some y → op.apply x y = .ok v →
      Yields vars (.operate op start index lhs rhs) (.operation op index x y v)

/-- The fault that the task ends in. A group has none of its own. -/
inductive Fails (vars : Variables) : Task → Fault → Prop where
  | look {n start} : vars.get? n = none → Fails vars (.look n start) (.unbound n)
  | operate {op start index lhs rhs x y fault} : lhs.term.value? vars = some x →
      rhs.term.value? vars = some y → op.apply x y = .error fault →
      Fails vars (.operate op start index lhs rhs) fault

/-- The name that is looked up, with its position. -/
def name? : Task → Option (String × Nat)
  | look n start => some (n, start)
  | _ => none

/-- The operator that is applied, with its position. -/
def operator? : Task → Option (Operator × Nat)
  | operate op start _ _ _ => some (op, start)
  | _ => none

end Task

namespace Bracketing

/-- The look-up of a bare name. -/
def lookups : Bracketing → List Task
  | operand (.name n start) => [.look n start]
  | _ => []

/-- The operators of a tier from left to right; `index` is the first slot. -/
def operations (tier : List Operator) (index : Nat) : Bracketing → List Task
  | operand _ => []
  | applied op start lhs rhs =>
    lhs.operations tier index ++
      (if op ∈ tier then
        lhs.lookups ++ rhs.lookups ++ [.operate op start (index + lhs.width) lhs rhs]
      else []) ++
      rhs.operations tier (index + lhs.width + 1)

/-- The operators tier by tier. -/
def allOperations (index : Nat) (b : Bracketing) : List Task :=
  Operator.tiers.flatMap fun tier => b.operations tier index

/-- The tasks of an expression once its groups are worked out. -/
def passes (b : Bracketing) : List Task := b.allOperations 0 ++ b.lookups

def Operand.isGroup : Bracketing.Operand → Bool
  | .number _ _ | .name _ _ => false
  | .negated _ _ | .grouped _ _ _ => true

mutual

/-- All tasks on the way to the value of an operand. -/
def Operand.contents : Bracketing.Operand → List Task
  | .number _ _ => []
  | .name n start => [.look n start]
  | .negated _ inner => inner.contents
  | .grouped _ inner _ => inner.groups 0 ++ inner.passes

/-- The groups among the operands from left to right; `index` is the first slot. -/
def groups (index : Nat) : Bracketing → List Task
  | operand v => if v.isGroup then v.contents ++ [.group index v] else []
  | applied _ _ lhs rhs => lhs.groups index ++ rhs.groups (index + lhs.width + 1)

end

/-- All tasks of an expression. -/
def schedule (b : Bracketing) : List Task := b.groups 0 ++ b.passes

/-! ## Operators of other tiers -/

theorem operations_applied_of_mem {tier : List Operator} {op : Operator} (h : op ∈ tier)
    (start index : Nat) (lhs rhs : Bracketing) :
    (applied op start lhs rhs).operations tier index =
      lhs.operations tier index ++
        (lhs.lookups ++ rhs.lookups ++ [.operate op start (index + lhs.width) lhs rhs]) ++
        rhs.operations tier (index + lhs.width + 1) := by
  rw [operations, if_pos h]

theorem operations_applied_of_not_mem {tier : List Operator} {op : Operator} (h : op ∉ tier)
    (start index : Nat) (lhs rhs : Bracketing) :
    (applied op start lhs rhs).operations tier index =
      lhs.operations tier index ++ rhs.operations tier (index + lhs.width + 1) := by
  rw [operations, if_neg h, List.append_nil]

/-- A bracketing has no operators looser than its outermost one. -/
theorem operations_eq_nil {k : Nat} {tier : List Operator}
    (htier : Operator.tiers[k]? = some tier) :
    ∀ {b : Bracketing}, b.Binds → b.level ≤ k → ∀ index, b.operations tier index = []
  | operand _, _, _, _ => rfl
  | applied op start lhs rhs, ⟨hleft, hright, hlhs, hrhs⟩, hlevel, index => by
    have hop : op.level ≤ k := hlevel
    have hnot : op ∉ tier := by
      rw [Term.mem_tier_iff htier]
      omega
    rw [operations_applied_of_not_mem hnot, operations_eq_nil htier hlhs (by omega),
      operations_eq_nil htier hrhs (by omega), List.append_nil]

/-! ## Every task once -/

mutual

/-- The tasks in the order in which the formula is written. -/
def Operand.tasks : Bracketing.Operand → List Task
  | .number _ _ => []
  | .name n start => [.look n start]
  | .negated _ inner => inner.tasks
  | .grouped _ inner _ => inner.tasks 0

def tasks (index : Nat) : Bracketing → List Task
  | operand v => v.tasks ++ if v.isGroup then [.group index v] else []
  | applied op start lhs rhs =>
    lhs.tasks index ++ .operate op start (index + lhs.width) lhs rhs ::
      rhs.tasks (index + lhs.width + 1)

end

/-- As lists without an order: an operator is in one tier, where it comes with the look-ups of its
sides. -/
theorem coe_allOperations_applied (op : Operator) (start index : Nat) (lhs rhs : Bracketing) :
    ((applied op start lhs rhs).allOperations index : Multiset Task) =
      lhs.allOperations index + (lhs.lookups + rhs.lookups +
        {.operate op start (index + lhs.width) lhs rhs}) +
        rhs.allOperations (index + lhs.width + 1) := by
  cases op <;>
    simp only [allOperations, Operator.tiers, List.flatMap_cons, List.flatMap_nil, operations,
      List.mem_cons, List.not_mem_nil, reduceCtorEq, or_false, or_true, if_true, if_false,
      List.append_nil, ← Multiset.coe_add, ← Multiset.coe_singleton] <;>
    abel

/-- A group has its own task after those of its contents. -/
theorem coe_tasks_operand {v : Bracketing.Operand} (hv : (v.contents : Multiset Task) = v.tasks)
    (index : Nat) :
    (((operand v).groups index ++ (operand v).allOperations index ++ (operand v).lookups :
      List Task) : Multiset Task) = (operand v).tasks index := by
  have hnone : (operand v).allOperations index = [] := rfl
  rw [hnone, List.append_nil, groups, tasks]
  cases v with
  | number digits start => rfl
  | name n start => rfl
  | _ =>
    simp only [Operand.isGroup, if_true, lookups, List.append_nil, ← Multiset.coe_add]
    rw [hv]

mutual

theorem Operand.coe_contents : ∀ v : Bracketing.Operand, (v.contents : Multiset Task) = v.tasks
  | .number _ _ => rfl
  | .name _ _ => rfl
  | .negated _ inner => inner.coe_contents
  | .grouped _ inner _ => by
    have hinner := coe_tasks 0 inner
    rw [List.append_assoc] at hinner
    exact hinner

theorem coe_tasks (index : Nat) : ∀ b : Bracketing,
    ((b.groups index ++ b.allOperations index ++ b.lookups : List Task) : Multiset Task) =
      b.tasks index
  | operand v => coe_tasks_operand v.coe_contents index
  | applied op start lhs rhs => by
    have hlhs := coe_tasks index lhs
    have hrhs := coe_tasks (index + lhs.width + 1) rhs
    have hlookups : (applied op start lhs rhs).lookups = [] := rfl
    simp only [← Multiset.coe_add] at hlhs hrhs
    rw [tasks, groups, hlookups, List.append_nil, ← Multiset.coe_add, ← Multiset.coe_add,
      ← Multiset.coe_add, ← Multiset.cons_coe, ← Multiset.singleton_add, ← hlhs, ← hrhs,
      coe_allOperations_applied]
    abel

end

/-- The schedule has the tasks of the formula, each as often as it is written. -/
theorem perm_tasks (b : Bracketing) : b.schedule.Perm (b.tasks 0) := by
  have hcoe := coe_tasks 0 b
  rw [List.append_assoc] at hcoe
  exact Multiset.coe_eq_coe.1 hcoe

/-! ## Names and operators of a formula -/

end Bracketing

/-- The name that a token is, with its position. -/
def Token.name? (t : Token) : Option (String × Nat) :=
  match t.lexeme with
  | .name n => some (n, t.start)
  | _ => none

mutual

/-- The binary operators in an operand, in order. -/
def Operand.operators : Operand → List (Operator × Nat)
  | .number _ _ => []
  | .name _ _ => []
  | .negated _ inner => inner.operators
  | .grouped _ inner _ => inner.operators

def Formula.operators : Formula → List (Operator × Nat)
  | .single v => v.operators
  | .chain v op start rest => v.operators ++ (op, start) :: rest.operators

end

theorem Formula.operators_append (op : Operator) (start : Nat) (f g : Formula) :
    (f.append op start g).operators = f.operators ++ (op, start) :: g.operators := by
  induction f using Formula.append.induct with
  | case1 v => rfl
  | case2 v op' start' rest ih =>
    rw [Formula.append, Formula.operators, ih, Formula.operators, List.append_assoc,
      List.cons_append]

namespace Bracketing

mutual

theorem Operand.names_tasks : ∀ v : Bracketing.Operand,
    v.tasks.filterMap Task.name? = v.tokens.filterMap Token.name?
  | .number _ _ => rfl
  | .name _ _ => rfl
  | .negated _ inner => inner.names_tasks
  | .grouped _ inner _ => by
    rw [Operand.tasks, names_tasks 0 inner, Operand.tokens, List.filterMap_cons_none rfl,
      List.filterMap_append, List.filterMap_cons_none rfl, List.filterMap_nil, List.append_nil]

theorem names_tasks (index : Nat) : ∀ b : Bracketing,
    (b.tasks index).filterMap Task.name? = b.tokens.filterMap Token.name?
  | operand v => by
    have hgroup : (if v.isGroup then [Task.group index v] else []).filterMap Task.name? = [] := by
      split_ifs <;> rfl
    rw [tasks, List.filterMap_append, hgroup, List.append_nil, v.names_tasks, tokens]
  | applied op start lhs rhs => by
    rw [tasks, List.filterMap_append, List.filterMap_cons_none rfl, names_tasks index lhs,
      names_tasks _ rhs, tokens, List.filterMap_append, List.filterMap_cons_none rfl]

end

mutual

theorem Operand.operators_tasks : ∀ v : Bracketing.Operand,
    v.tasks.filterMap Task.operator? = v.flat.operators
  | .number _ _ => rfl
  | .name _ _ => rfl
  | .negated _ inner => inner.operators_tasks
  | .grouped _ inner _ => by
    rw [Operand.tasks, operators_tasks 0 inner, Operand.flat, Calculator.Operand.operators]

theorem operators_tasks (index : Nat) : ∀ b : Bracketing,
    (b.tasks index).filterMap Task.operator? = b.flat.operators
  | operand v => by
    have hgroup : (if v.isGroup then [Task.group index v] else []).filterMap Task.operator? =
        [] := by
      split_ifs <;> rfl
    rw [tasks, List.filterMap_append, hgroup, List.append_nil, v.operators_tasks, flat,
      Formula.operators]
  | applied op start lhs rhs => by
    have hcons : ((.operate op start (index + lhs.width) lhs rhs ::
        rhs.tasks (index + lhs.width + 1) : List Task)).filterMap Task.operator? =
        (op, start) :: (rhs.tasks (index + lhs.width + 1)).filterMap Task.operator? := rfl
    rw [tasks, List.filterMap_append, hcons, operators_tasks index lhs, operators_tasks _ rhs, flat,
      Formula.operators_append]

end

variable {b : Bracketing} {f : Formula}

theorem perm_names (h : b.tokens = f.tokens) :
    (b.schedule.filterMap Task.name?).Perm (f.tokens.filterMap Token.name?) := by
  rw [← h, ← names_tasks 0 b]
  exact b.perm_tasks.filterMap _

theorem perm_operators (h : b.tokens = f.tokens) :
    (b.schedule.filterMap Task.operator?).Perm f.operators := by
  rw [← flat_eq h, ← operators_tasks 0 b]
  exact b.perm_tasks.filterMap _

/-! ## The last task -/

/-- The outermost operator comes last: the tiers after its own are empty, and so is its own on its
right side. -/
theorem exists_allOperations_applied {op : Operator} {start : Nat} {lhs rhs : Bracketing}
    (hb : (applied op start lhs rhs).Binds) (index : Nat) :
    ∃ front, (applied op start lhs rhs).allOperations index =
      front ++ [.operate op start (index + lhs.width) lhs rhs] := by
  obtain ⟨k, hk⟩ : ∃ k, op.level = k + 1 := by cases op <;> exact ⟨_, rfl⟩
  obtain ⟨tier, htier⟩ := Term.tier_of_lt_level (show k < op.level by omega)
  obtain ⟨hlt, hget⟩ := List.getElem?_eq_some_iff.1 htier
  let operationsOf (tier : List Operator) := (applied op start lhs rhs).operations tier index
  have hsplit : (applied op start lhs rhs).allOperations index =
      (Operator.tiers.take k).flatMap operationsOf ++
        (operationsOf tier ++ (Operator.tiers.drop (k + 1)).flatMap operationsOf) := by
    rw [allOperations, ← List.flatMap_cons, ← List.flatMap_append, ← hget,
      ← List.drop_eq_getElem_cons hlt, List.take_append_drop]
  have hlater : (Operator.tiers.drop (k + 1)).flatMap operationsOf = [] := by
    refine List.flatMap_eq_nil_iff.2 fun tier' hmem => ?_
    obtain ⟨j, hj⟩ := List.mem_iff_getElem?.1 hmem
    rw [List.getElem?_drop] at hj
    exact operations_eq_nil hj hb (show op.level ≤ k + 1 + j by omega) index
  have hright : rhs.operations tier (index + lhs.width + 1) = [] :=
    operations_eq_nil htier hb.2.2.2 (by have := hb.2.1; omega) _
  have htier' : operationsOf tier = _ :=
    operations_applied_of_mem ((Term.mem_tier_iff htier op).2 hk) start index lhs rhs
  rw [hright, List.append_nil, ← List.append_assoc] at htier'
  rw [hsplit, hlater, List.append_nil, htier', ← List.append_assoc]
  exact ⟨_, rfl⟩

end Bracketing

/-- What a step comes to. -/
def Step.result : Step → Int
  | lookup _ value => value
  | group _ value => value
  | operation _ _ _ _ result => result
  | assignment _ value => value

/-- Every record of a step has its result, in short form. -/
theorem Step.get?_detail_result (s : Step) :
    s.detail.get? "result" = some (Decimal.short s.result) := by
  cases s <;> rfl

namespace Bracketing

/-- The last step tells the value of the formula. -/
theorem result_of_getLast?_schedule {vars : Variables} {b : Bracketing} (hb : b.Binds) {t : Task}
    (ht : b.schedule.getLast? = some t) {s : Step} (hs : t.Yields vars s) :
    b.term.value? vars = some s.result := by
  cases b with
  | operand v =>
    have hpasses : (operand v).passes = (operand v).lookups := rfl
    rw [schedule, hpasses, groups] at ht
    cases v with
    | number digits start => cases ht
    | name n start =>
      cases ht
      cases hs with
      | look hv => exact hv
    | _ =>
      simp only [Operand.isGroup, if_true, lookups, List.append_nil, List.getLast?_concat,
        Option.some.injEq] at ht
      subst ht
      cases hs with
      | group hv => exact hv
  | applied op start lhs rhs =>
    obtain ⟨front, hfront⟩ := exists_allOperations_applied hb 0
    have hlookups : (applied op start lhs rhs).lookups = [] := rfl
    rw [schedule, passes, hfront, hlookups, List.append_nil, ← List.append_assoc,
      List.getLast?_concat, Option.some.injEq] at ht
    subst ht
    cases hs with
    | operate hx hy hv =>
      rw [term, Term.value?, hx, hy]
      exact congrArg Except.toOption hv

end Bracketing

end Calculator
