import Mathlib.Data.List.Basic
import Calculator.Proofs.Precedence
import Calculator.Proofs.Rows

/-!
# Values

The reduction of a formula finds the value of its term. Applying a tier to a chain and joining a
tier of terms go hand in hand: as long as the work goes well the atoms have the values of the terms
(`Agrees`), and once it fails some term has no value, now and after all joins (`Lost`).
-/

namespace Calculator

def Atom.value? (vars : Variables) : Atom → Option Int
  | value v => some v
  | name n => vars.get? n

/-- The computation finds the value if there is one, and otherwise fails. -/
def Finds (x : Traced Fault Int) (v? : Option Int) : Prop :=
  x.Ends (fun v => v? = some v) fun _ => v? = none

theorem Finds.ok_iff {x : Traced Fault Int} {v? : Option Int} (h : Finds x v?) (v : Int) :
    x.result = .ok v ↔ v? = some v := by
  constructor
  · exact h.ok
  · intro hv
    rcases hx : x.result with fault | w
    · have hnone := h.error hx
      rw [hv] at hnone
      cases hnone
    · have hw := h.ok hx
      rw [hv] at hw
      cases hw
      rfl

theorem Finds.error_iff {x : Traced Fault Int} {v? : Option Int} (h : Finds x v?) :
    (∃ fault, x.result = .error fault) ↔ v? = none := by
  constructor
  · rintro ⟨fault, hx⟩
    exact h.error hx
  · intro hnone
    rcases hx : x.result with fault | v
    · exact ⟨fault, rfl⟩
    · have hv := h.ok hx
      rw [hnone] at hv
      cases hv

section Values

variable {vars : Variables}

theorem finds_look (a : Atom) : Finds (a.look vars) (a.value? vars) := by
  cases a with
  | value v => exact rfl
  | name n =>
    show Finds (Reduction.lookup vars n).outcome (vars.get? n)
    unfold Reduction.lookup
    cases vars.get? n with
    | some v => exact rfl
    | none => exact rfl

theorem finds_operate (op : Operator) (index : Nat) {a b : Atom} {t u : Term}
    (ha : a.value? vars = t.value? vars) (hb : b.value? vars = u.value? vars) :
    Finds (Chain.operate vars op index a b) ((Term.applied op t u).value? vars) := by
  simp only [Term.value?, ← ha, ← hb]
  unfold Chain.operate
  refine ((finds_look a).mono (fun _ => id) fun _ hnone => ?_).bind fun x hx => ?_
  · rw [hnone]
    rfl
  refine ((finds_look b).mono (fun _ => id) fun _ hnone => ?_).bind fun y hy => ?_
  · rw [hx, hnone]
    rfl
  rw [hx, hy]
  show Finds _ (op.apply x y).toOption
  cases op.apply x y with
  | ok v => exact rfl
  | error fault => exact rfl

/-! ## Chains and terms -/

/-- The atoms of the chain have the values of the terms, and the operators are the same. -/
inductive Agrees (vars : Variables) : Chain → Term × Term.Links → Prop where
  | last {a t} : a.value? vars = t.value? vars → Agrees vars (a, []) (t, [])
  | link {a t op index b ls u links} : a.value? vars = t.value? vars →
      Agrees vars (b, ls) (u, links) → Agrees vars (a, ⟨op, index, b⟩ :: ls) (t, (op, u) :: links)

/-- Some term has no value. -/
def Lost (vars : Variables) (p : Term × Term.Links) : Prop :=
  p.1.value? vars = none ∨ ∃ l ∈ p.2, l.2.value? vars = none

theorem lost_cons (t : Term) (op : Operator) (u : Term) (links : Term.Links) :
    Lost vars (t, (op, u) :: links) ↔ t.value? vars = none ∨ Lost vars (u, links) := by
  simp only [Lost, List.exists_mem_cons_iff]

theorem lost_last (t : Term) : Lost vars (t, []) ↔ t.value? vars = none := by simp [Lost]

theorem value?_applied_of_left (op : Operator) {t : Term} (u : Term) (ht : t.value? vars = none) :
    (Term.applied op t u).value? vars = none := by
  simp [Term.value?, ht]

theorem value?_applied_of_right (op : Operator) (t : Term) {u : Term} (hu : u.value? vars = none) :
    (Term.applied op t u).value? vars = none := by
  cases ht : t.value? vars <;> simp [Term.value?, ht, hu]

theorem Lost.join {tier : List Operator} {t : Term} {links : Term.Links}
    (h : Lost vars (t, links)) : Lost vars (Term.join tier t links) := by
  induction links generalizing t with
  | nil => exact h
  | cons l links ih =>
    obtain ⟨op, u⟩ := l
    rw [lost_cons] at h
    by_cases hop : op ∈ tier
    · rw [Term.join_cons_of_mem hop]
      apply ih
      rcases h with ht | hu | hrest
      · exact .inl (value?_applied_of_left op u ht)
      · exact .inl (value?_applied_of_right op t hu)
      · exact .inr hrest
    · rw [Term.join_cons_of_not_mem hop, lost_cons]
      exact h.imp_right ih

theorem Agrees.join {tier : List Operator} {a : Atom} {ls : List Link} {t : Term}
    {links : Term.Links} (h : Agrees vars (a, ls) (t, links)) :
    (Chain.applyTier vars tier a ls).Ends (fun c => Agrees vars c (Term.join tier t links))
      fun _ => Lost vars (Term.join tier t links) := by
  induction ls generalizing a t links with
  | nil =>
    cases h with
    | last h => exact Agrees.last h
  | cons l ls ih =>
    cases h with
    | @link _ _ op index b _ u links ha hrest =>
      rw [Chain.applyTier]
      by_cases hop : op ∈ tier
      · have hb : b.value? vars = u.value? vars := by
          cases hrest with
          | last hb => exact hb
          | link hb _ => exact hb
        rw [if_pos hop, Term.join_cons_of_mem hop]
        refine ((finds_operate op index ha hb).mono (fun _ => id) fun _ hnone => ?_).bind
          fun v hv => ih ?_
        · exact Lost.join (.inl hnone)
        · cases hrest with
          | last _ => exact .last hv.symm
          | link _ hlinks => exact .link hv.symm hlinks
      · rw [if_neg hop, Term.join_cons_of_not_mem hop]
        refine ((ih hrest).mono (fun _ => id) fun _ hlost => ?_).bind fun c hc => .link ha hc
        exact (lost_cons _ _ _ _).2 (.inr hlost)

theorem Lost.foldl {p : Term × Term.Links} (h : Lost vars p) (tiers : List (List Operator)) :
    Lost vars (tiers.foldl (fun p tier => Term.join tier p.1 p.2) p) := by
  induction tiers generalizing p with
  | nil => exact h
  | cons tier tiers ih => exact ih h.join

theorem Agrees.foldlM {c : Chain} {p : Term × Term.Links} (h : Agrees vars c p)
    (tiers : List (List Operator)) :
    (tiers.foldlM (fun c tier => Chain.applyTier vars tier c.1 c.2) c).Ends
      (fun c => Agrees vars c (tiers.foldl (fun p tier => Term.join tier p.1 p.2) p))
      fun _ => Lost vars (tiers.foldl (fun p tier => Term.join tier p.1 p.2) p) := by
  induction tiers generalizing c p with
  | nil => exact h
  | cons tier tiers ih =>
    rw [List.foldlM_cons]
    refine (h.join.mono (fun _ => id) fun _ hlost => ?_).bind fun c hc => ih hc
    exact hlost.foldl tiers

/-- When all tiers are joined a single term is left. -/
theorem joinFirst_three_eq (t : Term) (links : Term.Links) :
    Term.joinFirst 3 (t, links) = (Term.joinAll t links, []) :=
  Prod.ext rfl (Term.joinFirst_three _)

theorem Lost.joinAll {t : Term} {links : Term.Links} (h : Lost vars (t, links)) :
    (Term.joinAll t links).value? vars = none := by
  have hlost : Lost vars (Term.joinFirst 3 (t, links)) := h.foldl Operator.tiers
  rw [joinFirst_three_eq, lost_last] at hlost
  exact hlost

theorem Agrees.finish {c : Chain} {t : Term} {links : Term.Links} (h : Agrees vars c (t, links)) :
    Finds (Chain.finish vars c) ((Term.joinAll t links).value? vars) := by
  have htiers : (Chain.applyTiers vars c).Ends
      (fun c => Agrees vars c (Term.joinFirst 3 (t, links)))
      fun _ => Lost vars (Term.joinFirst 3 (t, links)) := h.foldlM Operator.tiers
  rw [joinFirst_three_eq] at htiers
  unfold Chain.finish
  refine (htiers.mono (fun _ => id) fun _ hlost => (lost_last _).1 hlost).bind fun c hc => ?_
  cases hc with
  | last ha =>
    rw [← ha]
    exact finds_look _

/-- What a settled formula comes to. -/
theorem finds_finish {x : Traced Fault Chain} {t : Term} {links : Term.Links}
    (h : x.Ends (fun c => Agrees vars c (t, links)) fun _ => Lost vars (t, links)) :
    Finds (x >>= Chain.finish vars) ((Term.joinAll t links).value? vars) :=
  (h.mono (fun _ => id) fun _ hlost => hlost.joinAll).bind fun _ hagrees => hagrees.finish

/-! ## Formulas and terms -/

/-- The atom of an operand has the value of the operand's term. -/
theorem ends_atom {v : Operand} (hv : Finds (v.work vars) ((Term.ofOperand v).value? vars))
    (index : Nat) :
    (v.atom index (v.work vars)).Ends (fun a => a.value? vars = (Term.ofOperand v).value? vars)
      fun _ => (Term.ofOperand v).value? vars = none := by
  cases v with
  | number digits start => exact rfl
  | name n start => exact rfl
  | negated sign inner => exact hv.bind fun _ hvalue => hvalue.symm
  | grouped opened inner closed => exact hv.bind fun _ hvalue => hvalue.symm

mutual

theorem Operand.finds_work : ∀ v : Operand, Finds (v.work vars) ((Term.ofOperand v).value? vars)
  | .number _ _ => rfl
  | .name n _ => finds_look (.name n)
  | .negated _ inner => by
    have hinner := Operand.finds_work inner
    rw [Operand.work, Term.ofOperand, Term.value?]
    refine (hinner.mono (fun _ => id) fun _ hnone => ?_).map fun v hv => ?_
    · rw [hnone]
      rfl
    · rw [hv]
      rfl
  | .grouped _ inner _ => finds_finish (Formula.ends_settle 0 inner)

/-- The chain of a formula has the values of its operands' terms. -/
theorem Formula.ends_settle (index : Nat) : ∀ f : Formula,
    (f.settle vars index).Ends (fun c => Agrees vars c (Term.linksOf f))
      fun _ => Lost vars (Term.linksOf f)
  | .single v => by
    have hatom := ends_atom (Operand.finds_work v) index
    rw [Formula.settle, Term.linksOf]
    exact (hatom.mono (fun _ => id) fun _ hnone => .inl hnone).bind fun _ ha => .last ha
  | .chain v op start rest => by
    have hatom := ends_atom (Operand.finds_work v) index
    have hrest := Formula.ends_settle (index + 2) rest
    rw [Formula.settle, Term.linksOf]
    refine (hatom.mono (fun _ => id) fun _ hnone => .inl hnone).bind fun a ha => ?_
    refine (hrest.mono (fun _ => id) fun _ hlost => ?_).bind fun c hc => .link ha hc
    exact (lost_cons _ _ _ _).2 (.inr hlost)

end

theorem Formula.finds_work (f : Formula) : Finds (f.work vars) ((Term.ofFormula f).value? vars) :=
  finds_finish (Formula.ends_settle 0 f)

end Values

/-- **Values.** The statement of an accepted text has a body whose reduction finds the value of the
formula's only reading by precedence, and fails exactly if that reading has no value. -/
theorem reduce_eq_value? {text : String} {target : Option Target} {body : Formula} {stop : Nat}
    (hline : Line.ofText text = .ok (.formula target body stop))
    (hdepth : body.depth ≤ Node.depthLimit) (vars : Variables) :
    ∃ s, Statement.ofText text = .ok (some s) ∧
      ∃ t, Term.Reads 3 body.tokens t ∧ (∀ u, Term.Reads 3 body.tokens u → u = t) ∧
        (∀ v, (s.body.reduce vars).outcome.result = .ok v ↔ t.value? vars = some v) ∧
        ((∃ fault, (s.body.reduce vars).outcome.result = .error fault) ↔ t.value? vars = none) := by
  have hstatement := Statement.ofText_of_line hline
  rw [if_neg (by omega)] at hstatement
  have hfinds : Finds (body.node.reduce vars).outcome ((Term.ofFormula body).value? vars) := by
    rw [body.outcome_reduce]
    exact body.finds_work
  refine ⟨_, hstatement, Term.ofFormula body, Term.reads_ofFormula body, fun u hu => ?_, ?_, ?_⟩
  · exact hu.unique (Term.reads_ofFormula body)
  · exact hfinds.ok_iff
  · exact hfinds.error_iff

/-- `-2 ^ 2 - x`: the minus sign binds tighter than the power. -/
theorem reduce_eq_value?_negated_power :
    Line.ofText "-2 ^ 2 - x" = .ok (.formula none
      (.chain (.negated 0 (.number "2" 1)) .exponent 3 (.chain (.number "2" 5) .subtract 7
        (.single (.name "x" 9)))) 10) ∧
    ∃ s, Statement.ofText "-2 ^ 2 - x" = .ok (some s) ∧
      (s.body.reduce ⟨[("x", 3)], 0⟩).outcome.result = .ok 1 := by
  have hline : Line.ofText "-2 ^ 2 - x" = .ok (.formula none
      (.chain (.negated 0 (.number "2" 1)) .exponent 3 (.chain (.number "2" 5) .subtract 7
        (.single (.name "x" 9)))) 10) := by decide
  refine ⟨hline, ?_⟩
  obtain ⟨s, hs, t, ht, hunique, hok, -⟩ :=
    reduce_eq_value? hline (by decide) ⟨[("x", 3)], 0⟩
  refine ⟨s, hs, (hok 1).2 ?_⟩
  rw [← hunique _ (Term.reads_ofFormula _)]
  decide

end Calculator
