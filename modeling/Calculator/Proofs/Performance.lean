import Mathlib.Data.List.Basic
import Calculator.Bench
import Calculator.Proofs.Bench
import Calculator.Proofs.Rows
import Calculator.Proofs.Schedule

/-!
# Keeping to the schedule

The reduction of a formula takes the steps of its schedule, in order, up to the first task that
fails.

1. A computation *performs* tasks if its steps are theirs, and if it fails then over the task that
   comes next (`Performs`). Computations in sequence perform their tasks in sequence
   (`Performs.bind`).
2. A chain *spreads* a bracketing at a level if its atoms stand for the parts that bind at this
   level or tighter (`Spread`). Settling a formula spreads it at level 0 (`performs_settle`); applying a
   tier performs the operators of the tier, and spreads the bracketing one level up
   (`performs_applyTier`).
3. At level 3 a single atom is left, which stands for the whole (`performs_finish`).
4. What is performed is written to the journal, for the statement of any accepted text
   (`steps_follow_schedule`).
-/

namespace Calculator

section Following

variable {vars : Variables} {α β : Type}

/-- The computation takes the steps of the tasks. If it has a result then all tasks are done, and
the result satisfies `P`; if it fails then it does so over the first task that is not done. -/
def Performs (vars : Variables) (tasks : List Task) (x : Traced Fault α) (P : α → Prop) : Prop :=
  match x.result with
  | .ok a => P a ∧ List.Forall₂ (Task.Yields vars) tasks x.steps
  | .error fault => ∃ done t rest, tasks = done ++ t :: rest ∧
      List.Forall₂ (Task.Yields vars) done x.steps ∧ t.Fails vars fault

theorem Performs.pure {P : α → Prop} {a : α} (h : P a) : Performs vars [] (Pure.pure a) P :=
  ⟨h, .nil⟩

theorem Performs.bind {tasks tasks' : List Task} {x : Traced Fault α} {f : α → Traced Fault β}
    {P : α → Prop} {Q : β → Prop} (hx : Performs vars tasks x P)
    (hf : ∀ a, P a → Performs vars tasks' (f a) Q) :
    Performs vars (tasks ++ tasks') (x >>= f) Q := by
  obtain ⟨steps, fault | a⟩ := x
  · obtain ⟨done, t, rest, rfl, hdone, ht⟩ := hx
    exact ⟨done, t, rest ++ tasks', by simp, hdone, ht⟩
  · obtain ⟨hP, hsteps⟩ := hx
    have htail := hf a hP
    rw [Traced.bind_ok]
    generalize f a = y at htail
    obtain ⟨steps', fault | b⟩ := y
    · obtain ⟨done, t, rest, rfl, hdone, ht⟩ := htail
      exact ⟨tasks ++ done, t, rest, by simp, List.rel_append hsteps hdone, ht⟩
    · obtain ⟨hQ, hsteps'⟩ := htail
      exact ⟨hQ, List.rel_append hsteps hsteps'⟩

theorem Performs.bind_pure {tasks : List Task} {x : Traced Fault α} {f : α → β} {P : α → Prop}
    {Q : β → Prop} (hx : Performs vars tasks x P) (hf : ∀ a, P a → Q (f a)) :
    Performs vars tasks (x >>= fun a => Pure.pure (f a)) Q := by
  rw [← List.append_nil tasks]
  exact hx.bind fun a ha => .pure (hf a ha)

theorem Performs.emit {t : Task} {s : Step} (h : t.Yields vars s) :
    Performs vars [t] (Traced.emit s) fun _ => True :=
  ⟨trivial, .cons h .nil⟩

end Following

/-! ## Atoms and parts of a bracketing -/

section Performance

variable (vars : Variables)

/-- A name stands for itself, and a value for a part that is worked out. -/
def Stands (b : Bracketing) : Atom → Prop
  | .name n => ∃ start, b = .operand (.name n start)
  | .value v => b.lookups = [] ∧ b.term.value? vars = some v

/-- The chain, whose first slot has index `n`, is the bracketing with all that binds at level `k` or
tighter worked out. -/
inductive Spread (k : Nat) : Nat → Bracketing → Chain → Prop where
  | whole {n b a} : b.level ≤ k → Stands vars b a → Spread k n b (a, [])
  | apart {n op start lhs rhs a b ls ls'} : k < op.level → Spread k n lhs (a, ls) →
      Spread k (n + lhs.width + 1) rhs (b, ls') →
      Spread k n (.applied op start lhs rhs) (a, ls ++ ⟨op, n + lhs.width, b⟩ :: ls')

variable {vars}

theorem performs_look {b : Bracketing} {a : Atom} (h : Stands vars b a) :
    Performs vars b.lookups (a.look vars) fun v => b.term.value? vars = some v := by
  cases a with
  | value v =>
    rw [h.1]
    exact .pure h.2
  | name n =>
    obtain ⟨start, rfl⟩ := h
    show Performs vars _ (Reduction.lookup vars n).outcome _
    unfold Reduction.lookup
    cases hget : vars.get? n with
    | some v => exact ⟨hget, .cons (.look hget) .nil⟩
    | none => exact ⟨[], _, [], rfl, .nil, .look hget⟩

theorem performs_operate {op : Operator} {start index : Nat} {lhs rhs : Bracketing} {a b : Atom}
    (ha : Stands vars lhs a) (hb : Stands vars rhs b) :
    Performs vars (lhs.lookups ++ rhs.lookups ++ [.operate op start index lhs rhs])
      (Chain.operate vars op index a b)
      fun v => Stands vars (.applied op start lhs rhs) (.value v) := by
  rw [List.append_assoc]
  refine (performs_look ha).bind fun x hx => (performs_look hb).bind fun y hy => ?_
  cases happly : op.apply x y with
  | error fault => exact ⟨[], _, [], rfl, .nil, .operate hx hy happly⟩
  | ok v =>
    refine ⟨⟨rfl, ?_⟩, .cons (.operate hx hy happly) .nil⟩
    rw [Bracketing.term, Term.value?, hx, hy]
    exact congrArg Except.toOption happly

/-! ## One tier -/

theorem applyTier_append_of_mem {tier : List Operator} {ls : List Link}
    (h : ∀ l ∈ ls, l.op ∈ tier) (a : Atom) (rest : List Link) :
    Chain.applyTier vars tier a (ls ++ rest) =
      (do
        let c ← Chain.applyTier vars tier a ls
        Chain.applyTier vars tier c.1 rest) := by
  induction ls generalizing a with
  | nil => rw [Chain.applyTier, pure_bind, List.nil_append]
  | cons l ls ih =>
    obtain ⟨hl, hls⟩ := List.forall_mem_cons.1 h
    rw [List.cons_append, Chain.applyTier, if_pos hl, Chain.applyTier, if_pos hl, bind_assoc]
    simp only [ih hls]

theorem applyTier_append_of_not_mem {tier : List Operator} {op : Operator} (h : op ∉ tier)
    (a b : Atom) (index : Nat) (ls rest : List Link) :
    Chain.applyTier vars tier a (ls ++ ⟨op, index, b⟩ :: rest) =
      (do
        let c ← Chain.applyTier vars tier a ls
        let d ← Chain.applyTier vars tier b rest
        pure (c.1, c.2 ++ ⟨op, index, d.1⟩ :: d.2)) := by
  induction ls generalizing a with
  | nil =>
    rw [List.nil_append, Chain.applyTier, Chain.applyTier, pure_bind]
    exact if_neg h
  | cons l ls ih =>
    rw [List.cons_append, Chain.applyTier, Chain.applyTier]
    split_ifs with hl
    · simp only [ih, bind_assoc]
    · simp only [ih, bind_assoc, pure_bind, List.cons_append]

/-- The operators that a spread bracketing still has. -/
theorem Spread.lt_level {k n : Nat} {b : Bracketing} {c : Chain} (h : Spread vars k n b c) :
    b.Binds → ∀ l ∈ c.2, k < l.op.level ∧ l.op.level ≤ b.level := by
  induction h with
  | whole _ _ => exact fun _ l hl => nomatch hl
  | @apart n op start lhs rhs a b ls ls' hop _ _ ihl ihr =>
    rintro ⟨hleft, hright, hlhs, hrhs⟩ l hl
    have hlevel : (Bracketing.applied op start lhs rhs).level = op.level := rfl
    rcases List.mem_append.1 hl with hl | hl
    · have := ihl hlhs l hl
      omega
    · rcases List.mem_cons.1 hl with rfl | hl
      · exact ⟨hop, le_rfl⟩
      · have := ihr hrhs l hl
        omega

theorem Spread.of_level_le {k n : Nat} {b : Bracketing} {c : Chain} (h : Spread vars k n b c)
    (hlevel : b.level ≤ k) : Stands vars b c.1 ∧ c.2 = [] := by
  cases h with
  | whole _ ha => exact ⟨ha, rfl⟩
  | apart hop _ _ => exact absurd hop (Nat.not_lt.2 hlevel)

/-- **One tier.** Its operators are performed, and their results stand for what they join. -/
theorem performs_applyTier {k : Nat} {tier : List Operator}
    (htier : Operator.tiers[k]? = some tier) {n : Nat} {b : Bracketing} {c : Chain}
    (h : Spread vars k n b c) : b.Binds →
    Performs vars (b.operations tier n) (Chain.applyTier vars tier c.1 c.2)
      (Spread vars (k + 1) n b) := by
  induction h with
  | @whole n b a hlevel ha =>
    intro hb
    rw [b.operations_eq_nil htier hb hlevel, Chain.applyTier]
    exact .pure (.whole (Nat.le_succ_of_le hlevel) ha)
  | @apart n op start lhs rhs a b ls ls' hop hl hr ihl ihr =>
    rintro ⟨hleft, hright, hlhs, hrhs⟩
    by_cases hmem : op ∈ tier
    · -- the right side is worked out, and what is left of the left side is all in this tier
      have hlevel : op.level = k + 1 := (Term.mem_tier_iff htier op).1 hmem
      have hin : ∀ l ∈ ls, l.op ∈ tier := fun l hmem => by
        have := hl.lt_level hlhs l hmem
        rw [Term.mem_tier_iff htier]
        omega
      obtain ⟨hb, rfl⟩ := hr.of_level_le (by omega)
      have hright' : rhs.operations tier (n + lhs.width + 1) = [] :=
        Bracketing.operations_eq_nil htier hrhs (by omega) _
      rw [Bracketing.operations_applied_of_mem hmem, hright', List.append_nil,
        applyTier_append_of_mem hin]
      refine (ihl hlhs).bind fun c hc => ?_
      obtain ⟨ha, -⟩ := hc.of_level_le (by omega)
      have hone : Chain.applyTier vars tier c.1 [⟨op, n + lhs.width, b⟩] =
          Chain.operate vars op (n + lhs.width) c.1 b >>= fun v => pure (.value v, []) := by
        rw [Chain.applyTier]
        exact if_pos hmem
      rw [hone]
      exact (performs_operate ha hb).bind_pure fun v hv => .whole hlevel.le hv
    · rw [Bracketing.operations_applied_of_not_mem hmem, applyTier_append_of_not_mem hmem]
      refine (ihl hlhs).bind fun c hc => (ihr hrhs).bind_pure fun d hd => ?_
      rw [Term.mem_tier_iff htier] at hmem
      exact .apart (by omega) hc hd

/-! ## All tiers -/

/-- What the settled formula comes to. -/
theorem performs_finish {b : Bracketing} (hb : b.Binds) {c : Chain} (h : Spread vars 0 0 b c) :
    Performs vars b.passes (Chain.finish vars c) fun v => b.term.value? vars = some v := by
  have htiers : Chain.finish vars c = (do
      let c ← Chain.applyTier vars [.exponent] c.1 c.2
      let c ← Chain.applyTier vars [.multiply, .divide] c.1 c.2
      let c ← Chain.applyTier vars [.add, .subtract] c.1 c.2
      c.1.look vars) := by
    simp only [Chain.finish, Chain.applyTiers, Operator.tiers, List.foldlM_cons, List.foldlM_nil,
      bind_pure, bind_assoc]
  have hpasses : b.passes = b.operations [.exponent] 0 ++ (b.operations [.multiply, .divide] 0 ++
      (b.operations [.add, .subtract] 0 ++ b.lookups)) := by
    simp only [Bracketing.passes, Bracketing.allOperations, Operator.tiers, List.flatMap_cons,
      List.flatMap_nil, List.append_nil, List.append_assoc]
  rw [htiers, hpasses]
  refine (performs_applyTier rfl h hb).bind fun c hc => ?_
  refine (performs_applyTier rfl hc hb).bind fun c hc => ?_
  refine (performs_applyTier rfl hc hb).bind fun c hc => ?_
  exact performs_look (hc.of_level_le b.level_le).1

/-! ## Settling -/

theorem slots_append (op : Operator) (start : Nat) (f g : Formula) :
    (f.append op start g).slots = f.slots ++ .operator (.known op) :: g.slots := by
  induction f using Formula.append.induct with
  | case1 v => rfl
  | case2 v op' start' rest ih =>
    rw [Formula.append, Formula.slots, ih, Formula.slots]
    rfl

theorem length_slots_flat (b : Bracketing) : b.flat.slots.length = b.width := by
  induction b using Bracketing.width.induct with
  | case1 v => rfl
  | case2 op start lhs rhs ihl ihr =>
    rw [Bracketing.flat, slots_append, List.length_append, List.length_cons, ihl, ihr,
      Bracketing.width]
    omega

theorem settle_append (op : Operator) (start : Nat) (g : Formula) : ∀ (f : Formula) (index : Nat),
    (f.append op start g).settle vars index =
      (do
        let c ← f.settle vars index
        let d ← g.settle vars (index + f.slots.length + 1)
        pure (c.1, c.2 ++ ⟨op, index + f.slots.length, d.1⟩ :: d.2))
  | .single v, index => by
    simp only [Formula.append, Formula.settle, bind_assoc, pure_bind]
    rfl
  | .chain v op' start' rest, index => by
    have hfirst : index + (Formula.chain v op' start' rest).slots.length =
        index + 2 + rest.slots.length := by
      rw [Formula.slots, List.length_cons, List.length_cons]
      omega
    simp only [Formula.append, Formula.settle, settle_append op start g rest, hfirst, bind_assoc,
      pure_bind, List.cons_append]

theorem performs_group {v : Bracketing.Operand} {work : Traced Fault Int}
    (h : Performs vars v.contents work fun x => v.term.value? vars = some x) (index : Nat)
    (hv : v.isGroup) :
    Performs vars (v.contents ++ [.group index v])
      (do
        let x ← work
        Traced.emit (.group index x)
        pure (Atom.value x)) (Stands vars (.operand v)) := by
  refine h.bind fun x hx => (Performs.emit (.group hx)).bind_pure fun _ _ => ⟨?_, hx⟩
  cases v with
  | number digits start => rfl
  | name n start => cases hv
  | negated sign inner => rfl
  | grouped opened inner closed => rfl

/-- A group is worked out at once, and a bare name is left. -/
theorem performs_atom {v : Bracketing.Operand} {work : Traced Fault Int}
    (h : Performs vars v.contents work fun x => v.term.value? vars = some x) (index : Nat) :
    Performs vars ((Bracketing.operand v).groups index) (v.flat.atom index work)
      (Stands vars (.operand v)) := by
  cases v with
  | number digits start => exact .pure ⟨rfl, rfl⟩
  | name n start => exact .pure ⟨start, rfl⟩
  | negated sign inner => exact performs_group h index rfl
  | grouped opened inner closed => exact performs_group h index rfl

mutual

theorem performs_contents : ∀ v : Bracketing.Operand, v.Binds →
    Performs vars v.contents (v.flat.work vars) fun x => v.term.value? vars = some x
  | .number _ _, _ => .pure rfl
  | .name n start, _ => performs_look (b := .operand (.name n start)) ⟨start, rfl⟩
  | .negated sign inner, h => by
    have hinner := performs_contents inner h
    rw [Bracketing.Operand.flat, Operand.work, map_eq_pure_bind, Bracketing.Operand.contents]
    refine hinner.bind_pure fun x hx => ?_
    rw [Bracketing.Operand.term, Term.value?, hx]
    rfl
  | .grouped opened inner closed, h =>
    (performs_settle 0 inner h).bind fun c hc => performs_finish h hc

/-- Settling works the groups out, and leaves the operands spread. -/
theorem performs_settle (index : Nat) : ∀ b : Bracketing, b.Binds →
    Performs vars (b.groups index) (b.flat.settle vars index) (Spread vars 0 index b)
  | .operand v, h => (performs_atom (performs_contents v h) index).bind_pure fun _ ha =>
    .whole (Nat.zero_le _) ha
  | .applied op start lhs rhs, ⟨hleft, hright, hlhs, hrhs⟩ => by
    rw [Bracketing.groups, Bracketing.flat, settle_append, length_slots_flat]
    refine (performs_settle index lhs hlhs).bind fun c hc =>
      (performs_settle (index + lhs.width + 1) rhs hrhs).bind_pure fun d hd => ?_
    exact .apart (by omega) hc hd

end

/-- The work on a formula performs the schedule of any right bracketing of it. -/
theorem performs_work {b : Bracketing} (hb : b.Binds) {f : Formula} (hf : b.tokens = f.tokens) :
    Performs vars b.schedule (f.work vars) fun v => b.term.value? vars = some v := by
  rw [← Bracketing.flat_eq hf]
  exact (performs_settle 0 b hb).bind fun c hc => performs_finish hb hc

end Performance

/-! ## The steps of a line -/

/-- Where there is a last step, there is a last task, and the step is its own. -/
theorem exists_last_task {vars : Variables} {tasks : List Task} {steps : List Step}
    (h : List.Forall₂ (Task.Yields vars) tasks steps) {last : Step}
    (hlast : steps.getLast? = some last) : ∃ t, tasks.getLast? = some t ∧ t.Yields vars last := by
  have hreverse := List.forall₂_reverse_iff.2 h
  rw [← List.head?_reverse] at hlast
  obtain ⟨earlier, hearlier⟩ := List.head?_eq_some_iff.1 hlast
  rw [hearlier] at hreverse
  obtain ⟨t, others, ht, -, htasks⟩ := List.forall₂_cons_right_iff.1 hreverse
  refine ⟨t, ?_, ht⟩
  rw [← List.head?_reverse, htasks, List.head?_cons]

/-- **Schedule.** The reduction of an accepted line takes the steps of the schedule of its right
bracketing, and writes just these to the journal: all of them if it has a value, of which the last
step then tells, and those before the first task that fails if it fails. Every name and every
operator of the line has one task. -/
theorem steps_follow_schedule {text : String} {target : Option Target} {body : Formula} {stop : Nat}
    (hline : Line.ofText text = .ok (.formula target body stop))
    (hdepth : body.depth ≤ Node.depthLimit) (vars : Variables) :
    ∃ s, Statement.ofText text = .ok (some s) ∧
      (∀ statement j, (s.body.work ⟨vars, statement⟩ j).journal =
        Recorder.enter ⟨vars, statement⟩ j (s.body.reduce vars).outcome.steps) ∧
      (∃ b : Bracketing, b.tokens = body.tokens ∧ b.Binds) ∧
      ∀ b : Bracketing, b.tokens = body.tokens → b.Binds →
        (∀ v, (s.body.reduce vars).outcome.result = .ok v →
          List.Forall₂ (Task.Yields vars) b.schedule (s.body.reduce vars).outcome.steps ∧
          ∀ last, (s.body.reduce vars).outcome.steps.getLast? = some last →
            last.detail.get? "result" = some (Decimal.short v)) ∧
        (∀ fault, (s.body.reduce vars).outcome.result = .error fault →
          ∃ done t rest, b.schedule = done ++ t :: rest ∧
            List.Forall₂ (Task.Yields vars) done (s.body.reduce vars).outcome.steps ∧
            t.Fails vars fault) ∧
        (b.schedule.filterMap Task.name?).Perm (body.tokens.filterMap Token.name?) ∧
        (b.schedule.filterMap Task.operator?).Perm body.operators := by
  have hstatement := Statement.ofText_of_line hline
  rw [if_neg (by omega)] at hstatement
  refine ⟨_, hstatement, fun statement j => ?_, exists_bracketing body, fun b hb hbinds => ?_⟩
  · rw [Node.work_eq]
    rfl
  have hperforms : Performs vars b.schedule (body.node.reduce vars).outcome
      fun v => b.term.value? vars = some v := by
    rw [body.outcome_reduce]
    exact performs_work hbinds hb
  dsimp only
  generalize (body.node.reduce vars).outcome = outcome at hperforms
  obtain ⟨steps, fault | v⟩ := outcome
  · refine ⟨fun _ h => (nomatch h), fun _ h => ?_, b.perm_names hb, b.perm_operators hb⟩
    cases h
    exact hperforms
  · obtain ⟨hvalue, hsteps⟩ := hperforms
    refine ⟨fun _ h => ?_, fun _ h => (nomatch h), b.perm_names hb, b.perm_operators hb⟩
    cases h
    refine ⟨hsteps, fun last hlast => ?_⟩
    obtain ⟨t, ht, hyields⟩ := exists_last_task hsteps hlast
    have hresult := Bracketing.result_of_getLast?_schedule hbinds ht hyields
    rw [Step.get?_detail_result, Option.some.inj (hresult.symm.trans hvalue)]

/-- `a - -(2 ^ b) * c` without an `a` and a `c`: the group is worked out, and the product then fails
over `c` before any look at `a`. -/
theorem steps_follow_schedule_unbound :
    let body : Formula := .chain (.name "a" 0) .subtract 2 (.chain (.negated 4 (.grouped 5
      (.chain (.number "2" 6) .exponent 8 (.single (.name "b" 10))) 11)) .multiply 13
      (.single (.name "c" 15)))
    let vars : Variables := ⟨[("b", 3)], 0⟩
    Line.ofText "a - -(2 ^ b) * c" = .ok (.formula none body 16) ∧
      body.depth ≤ Node.depthLimit ∧
      ∃ s, Statement.ofText "a - -(2 ^ b) * c" = .ok (some s) ∧
        (s.body.reduce vars).outcome =
          ⟨[.lookup "b" 3, .operation .exponent 1 2 3 8, .group 2 (-8)], .error (.unbound "c")⟩ ∧
        ∃ (b : Bracketing) (done : List Task) (t : Task) (rest : List Task),
          b.tokens = body.tokens ∧ b.Binds ∧ b.schedule = done ++ t :: rest ∧
          List.Forall₂ (Task.Yields vars) done (s.body.reduce vars).outcome.steps ∧
          t.Fails vars (.unbound "c") := by
  intro body vars
  have hline : Line.ofText "a - -(2 ^ b) * c" = .ok (.formula none body 16) := by decide
  have hdepth : body.depth ≤ Node.depthLimit := by decide
  refine ⟨hline, hdepth, ?_⟩
  obtain ⟨s, hs, -, ⟨b, htokens, hbinds⟩, hschedule⟩ := steps_follow_schedule hline hdepth vars
  obtain ⟨-, hfault, -⟩ := hschedule b htokens hbinds
  have hs' := hs.symm.trans (Statement.ofText_of_line hline)
  rw [if_neg (by omega)] at hs'
  cases hs'
  have hreduce : (body.node.reduce vars).outcome =
      ⟨[.lookup "b" 3, .operation .exponent 1 2 3 8, .group 2 (-8)], .error (.unbound "c")⟩ := by
    rw [body.outcome_reduce]
    rfl
  obtain ⟨done, t, rest, hdone, hsteps, ht⟩ := hfault (.unbound "c") (by rw [hreduce])
  exact ⟨_, hs, hreduce, b, done, t, rest, htokens, hbinds, hdone, hsteps, ht⟩

end Calculator
