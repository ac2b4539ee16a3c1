import Mathlib.Tactic.Common
import Calculator.Line
import Calculator.Proofs.Traced

/-!
# Chains

The work on a formula told without slots. Once the groups of a formula are worked out, a *chain* is
left: an integer or a name, and the operators after it, each with its place and its right operand.
A tier is applied to a chain by recursion on its links, and no holes appear.

`Formula.work` puts the passes together. It takes the same steps, in the same order, as the
reduction of the formula's slots, and it never meets a malformed node (`Formula.sound_work`).
-/

namespace Calculator

/-- What an operand is once its groups are worked out. -/
inductive Atom where
  | value (v : Int)
  | name (n : String)
  deriving DecidableEq, Repr

/-- The value of an atom; looking a name up is a step. -/
def Atom.look (vars : Variables) : Atom → Traced Fault Int
  | value v => pure v
  | name n => (Reduction.lookup vars n).outcome

/-- An operator, the index of its slot, and the operand after it. -/
structure Link where
  op : Operator
  index : Nat
  atom : Atom
  deriving DecidableEq, Repr

abbrev Chain := Atom × List Link

namespace Chain

variable (vars : Variables)

def operate (op : Operator) (index : Nat) (a b : Atom) : Traced Fault Int := do
  let lhs ← a.look vars
  let rhs ← b.look vars
  let v ← Traced.lift (op.apply lhs rhs)
  Traced.emit (.operation op index lhs rhs v)
  pure v

/-- Applies the operators of a tier from left to right. -/
def applyTier (tier : List Operator) (a : Atom) : List Link → Traced Fault Chain
  | [] => pure (a, [])
  | l :: ls =>
    if l.op ∈ tier then do
      let v ← operate vars l.op l.index a l.atom
      applyTier tier (.value v) ls
    else do
      let c ← applyTier tier l.atom ls
      pure (a, { l with atom := c.1 } :: c.2)

def applyTiers (c : Chain) : Traced Fault Chain :=
  Operator.tiers.foldlM (fun c tier => applyTier vars tier c.1 c.2) c

/-- Applies all tiers, after which the first atom is the only one. -/
def finish (c : Chain) : Traced Fault Int := do
  let c ← applyTiers vars c
  c.1.look vars

end Chain

/-- The atom of an operand in the slot `index`, given the work on the operand. Groups are worked out
at once. -/
def Operand.atom (index : Nat) (work : Traced Fault Int) : Operand → Traced Fault Atom
  | .number digits _ => pure (.value (Decimal.value digits.toList))
  | .name n _ => pure (.name n)
  | .negated _ _ | .grouped _ _ _ => do
    let v ← work
    Traced.emit (.group index v)
    pure (.value v)

mutual

def Operand.work (vars : Variables) : Operand → Traced Fault Int
  | .number digits _ => pure (Decimal.value digits.toList)
  | .name n _ => Atom.look vars (.name n)
  | .negated _ inner => (- ·) <$> inner.work vars
  | .grouped _ inner _ => do
    let c ← inner.settle vars 0
    Chain.finish vars c

/-- The chain of a formula whose first slot has the given index. -/
def Formula.settle (vars : Variables) (index : Nat) : Formula → Traced Fault Chain
  | .single v => do
    let a ← v.atom index (v.work vars)
    pure (a, [])
  | .chain v op _ rest => do
    let a ← v.atom index (v.work vars)
    let c ← rest.settle vars (index + 2)
    pure (a, ⟨op, index + 1, c.1⟩ :: c.2)

end

def Formula.work (vars : Variables) (f : Formula) : Traced Fault Int := do
  let c ← f.settle vars 0
  Chain.finish vars c

/-! ## Faults of the work -/

theorem not_isMalformed_of_apply {op : Operator} {lhs rhs : Int} {f : Fault}
    (h : op.apply lhs rhs = .error f) : f.isMalformed = false := by
  cases op with
  | add => cases h
  | subtract => cases h
  | multiply => cases h
  | divide =>
    simp only [Operator.apply, Operator.quotient] at h
    split_ifs at h
    cases h
    rfl
  | exponent =>
    simp only [Operator.apply, Operator.power, Operator.quotient] at h
    split_ifs at h <;> cases h <;> rfl

/-- A result satisfies `P`, and no fault speaks of the shape of a node. -/
def Sound {α : Type} (P : α → Prop) (x : Traced Fault α) : Prop :=
  x.Ends P fun f => f.isMalformed = false

theorem sound_look (vars : Variables) (a : Atom) : Sound (fun _ => True) (a.look vars) := by
  cases a with
  | value v => trivial
  | name n =>
    simp only [Sound, Atom.look, Reduction.lookup]
    split
    · trivial
    · rfl

namespace Chain

theorem sound_operate (vars : Variables) (op : Operator) (index : Nat) (a b : Atom) :
    Sound (fun _ => True) (operate vars op index a b) := by
  refine (sound_look vars a).bind fun lhs _ => (sound_look vars b).bind fun rhs _ => ?_
  cases happly : op.apply lhs rhs with
  | ok v => trivial
  | error f => exact not_isMalformed_of_apply happly

/-- The operators of a tier are gone once it is applied, and none are added. -/
theorem sound_applyTier (vars : Variables) (tier : List Operator) (a : Atom) (ls : List Link) :
    Sound (fun c => ∀ l ∈ c.2, l.op ∉ tier ∧ l.op ∈ ls.map Link.op) (applyTier vars tier a ls) := by
  induction ls generalizing a with
  | nil => exact fun l hl => nomatch hl
  | cons l ls ih =>
    rw [applyTier]
    split_ifs with hop
    · refine (sound_operate vars l.op l.index a l.atom).bind fun v _ => ?_
      refine (ih (.value v)).mono (fun c hc m hm => ?_) fun _ => id
      exact ⟨(hc m hm).1, List.mem_cons_of_mem _ (hc m hm).2⟩
    · refine (ih l.atom).bind fun c hc => ?_
      intro m hm
      rcases List.mem_cons.1 hm with rfl | hm
      · exact ⟨hop, by simp⟩
      · exact ⟨(hc m hm).1, List.mem_cons_of_mem _ (hc m hm).2⟩

theorem sound_foldlM (vars : Variables) (tiers : List (List Operator)) (c : Chain) :
    Sound (fun d => ∀ l ∈ d.2, (∀ tier ∈ tiers, l.op ∉ tier) ∧ l.op ∈ c.2.map Link.op)
      (tiers.foldlM (fun c tier => applyTier vars tier c.1 c.2) c) := by
  induction tiers generalizing c with
  | nil => exact fun l hl => ⟨by simp, List.mem_map_of_mem hl⟩
  | cons tier tiers ih =>
    rw [List.foldlM_cons]
    refine (sound_applyTier vars tier c.1 c.2).bind fun d hd => ?_
    refine (ih d).mono (fun e he l hl => ?_) fun _ => id
    obtain ⟨hrest, hmem⟩ := he l hl
    obtain ⟨m, hm, hop⟩ := List.mem_map.1 hmem
    obtain ⟨htier, hmem⟩ := hd m hm
    rw [hop] at htier hmem
    exact ⟨List.forall_mem_cons.2 ⟨htier, hrest⟩, hmem⟩

theorem exists_tier (op : Operator) : ∃ tier ∈ Operator.tiers, op ∈ tier := by
  cases op <;> decide

/-- No operator is left when all tiers are applied. -/
theorem sound_applyTiers (vars : Variables) (c : Chain) :
    Sound (fun d => d.2 = []) (applyTiers vars c) := by
  refine (sound_foldlM vars Operator.tiers c).mono (fun d hd => ?_) fun _ => id
  refine List.eq_nil_iff_forall_not_mem.2 fun l hl => ?_
  obtain ⟨tier, htier, hop⟩ := exists_tier l.op
  exact (hd l hl).1 tier htier hop

theorem sound_finish (vars : Variables) (c : Chain) : Sound (fun _ => True) (finish vars c) :=
  (sound_applyTiers vars c).bind fun d _ => sound_look vars d.1

end Chain

theorem sound_atom {index : Nat} {work : Traced Fault Int} (h : Sound (fun _ => True) work)
    (v : Operand) : Sound (fun _ => True) (v.atom index work) := by
  cases v with
  | number digits start => trivial
  | name n start => trivial
  | negated sign inner => exact h.bind fun v _ => trivial
  | grouped opened inner closed => exact h.bind fun v _ => trivial

mutual

theorem Operand.sound_work (vars : Variables) :
    ∀ v : Operand, Sound (fun _ => True) (v.work vars)
  | .number _ _ => trivial
  | .name n _ => sound_look vars (.name n)
  | .negated _ inner => (Operand.sound_work vars inner).map fun _ _ => trivial
  | .grouped _ inner _ =>
    (Formula.sound_settle vars 0 inner).bind fun c _ => Chain.sound_finish vars c

theorem Formula.sound_settle (vars : Variables) (index : Nat) :
    ∀ f : Formula, Sound (fun _ => True) (f.settle vars index)
  | .single v => (sound_atom (Operand.sound_work vars v) v).bind fun _ _ => trivial
  | .chain v _ _ rest =>
    (sound_atom (Operand.sound_work vars v) v).bind fun _ _ =>
      (Formula.sound_settle vars (index + 2) rest).bind fun _ _ => trivial

end

theorem Formula.sound_work (vars : Variables) (f : Formula) :
    Sound (fun _ => True) (f.work vars) :=
  (Formula.sound_settle vars 0 f).bind fun c _ => Chain.sound_finish vars c

end Calculator
