import Mathlib.Data.List.Basic
import Calculator.Proofs.Contraction
import Calculator.Proofs.Rows

/-!
# No malformed nodes

The faults that speak of the shape of a node tell of nodes that no line has. They are ruled out in
three places:

1. a line always has a tree that builds (`Statement.isMalformed_of_ofText`);
2. slots that alternate are those of a formula (`exists_formula`), whose reduction is free of such
   faults and leaves one literal (`isMalformed_of_reduce`, `Formula.residue_reduce`);
3. storing a value breaks no rule but the one on names (`isMalformed_of_set`).
-/

namespace Calculator

/-- A failure that speaks of the shape of a node. -/
def Failure.isMalformed : Failure → Bool
  | fault cause _ => cause.isMalformed
  | _ => false

theorem Statement.isMalformed_of_ofText {text : String} {cause : Fault}
    (h : Statement.ofText text = .error (.fault cause)) : cause.isMalformed = false := by
  rcases hline : Line.ofText text with reason | ⟨stop⟩ | ⟨target, body, stop⟩
  · rw [Statement.ofText, hline] at h
    cases h
  · rw [Statement.ofText, hline] at h
    cases h
  · rw [Statement.ofText_of_line hline] at h
    split_ifs at h
    cases h
    rfl

theorem isMalformed_of_reduce {f : Formula} {vars : Variables} {cause : Fault}
    (h : (f.node.reduce vars).outcome.result = .error cause) : cause.isMalformed = false := by
  rw [f.outcome_reduce] at h
  exact (f.sound_work vars).error h

theorem isMalformed_of_set {vars : Variables} {n : String} {v : Int} {cause : Fault}
    (h : vars.set n v = .error cause) : cause.isMalformed = false := by
  unfold Variables.set at h
  split_ifs at h
  cases h
  rfl

namespace Session

theorem isMalformed_of_workOut {s : Session} {text : String} {failure : Failure}
    (h : (s.workOut text).2 = .error failure) : failure.isMalformed = false := by
  unfold workOut at h
  split at h
  · cases h
    rfl
  · next cause hstatement =>
    cases h
    exact Statement.isMalformed_of_ofText hstatement
  · cases h
  · next statement hstatement =>
    obtain ⟨target, body, stop, -, -, rfl⟩ := Statement.exists_line_of_ofText hstatement
    simp only at h
    split at h
    · next cause hreduce =>
      cases h
      exact isMalformed_of_reduce hreduce
    · cases h

theorem isMalformed_of_store {s : Session} {text : String} {target : Option String} {v : Int}
    {failure : Failure} (h : (s.store text target v).2 = .error failure) :
    failure.isMalformed = false := by
  cases target with
  | none => cases h
  | some n =>
    unfold store at h
    simp only at h
    split at h
    · next cause hset =>
      cases h
      exact isMalformed_of_set hset
    · cases h

theorem isMalformed_of_evaluate {s : Session} {text : String} {failure : Failure}
    (h : (s.evaluate text).2 = .error failure) : failure.isMalformed = false := by
  unfold evaluate at h
  split at h
  · next hwork =>
    cases h
    exact isMalformed_of_workOut (congrArg Prod.snd hwork)
  · cases h
  · next s' statement v hwork =>
    cases hstore : (s'.store text (target? statement) v).2 with
    | error failure' =>
      simp only [hstore] at h
      cases h
      exact isMalformed_of_store hstore
    | ok answer =>
      simp only [hstore] at h
      cases h

theorem isMalformed_of_inspect {s : Session} {text : String} {failure : Failure}
    (h : (s.inspect text).2 = .error failure) : failure.isMalformed = false := by
  unfold inspect at h
  cases hwork : (s.workOut text).2 with
  | error failure' =>
    simp only [hwork] at h
    cases h
    exact isMalformed_of_workOut hwork
  | ok found =>
    simp only [hwork] at h
    cases h

end Session

/-- **No malformed nodes.** No text makes a session fail over the shape of a node. The tree of every
accepted text builds into a line whose body alternates between operands and operators, and so do the
slots of every expression in it; reducing any such expression never fails over its shape, and if it
has a value then this literal is the only filled slot left. -/
theorem never_malformed (text : String) :
    (∀ (s : Session) (d : Defect) (step : Option Nat),
      (s.evaluate text).2 ≠ .error (.fault (.malformed d) step) ∧
      (s.inspect text).2 ≠ .error (.fault (.malformed d) step)) ∧
    (∀ tree, (Line.ofText text).map Tree.ofLine? = .ok (some tree) →
      ∃ target slots, tree.toNode = .ok (.line target (.expression slots)) ∧
        (target = .hole ∨ ∃ n, target = .identifier n) ∧ Node.alternates slots) ∧
    (∀ slots, Node.alternates slots →
      slots.length % 2 = 1 ∧ (∀ i n, slots[i]? = some n → Node.Fits i n) ∧
      ∀ vars, (∀ d, ((Node.expression slots).reduce vars).outcome.result ≠ .error (.malformed d)) ∧
        ∀ v, ((Node.expression slots).reduce vars).outcome.result = .ok v →
          ∃ j k, ((Node.expression slots).reduce vars).residue =
            .expression (List.replicate j .hole ++ .literal v :: List.replicate k .hole)) := by
  refine ⟨fun s d step => ⟨fun h => ?_, fun h => ?_⟩, fun tree htree => ?_, fun slots hslots => ?_⟩
  · cases Session.isMalformed_of_evaluate h
  · cases Session.isMalformed_of_inspect h
  · rcases hline : Line.ofText text with cause | line
    · rw [hline] at htree
      cases htree
    · rw [hline] at htree
      cases line with
      | blank stop => cases htree
      | formula target body stop =>
        have hproper := Formula.isProper_of_ofText hline
        have hbuild := @Tree.toNode_root target body stop hproper
        obtain rfl : Tree.root (.formula target body stop) = tree := by
          simpa [Except.map, Tree.ofLine?_formula] using htree
        refine ⟨_, _, hbuild, ?_, alternates_slots body hproper⟩
        cases target with
        | none => exact .inl rfl
        | some t => exact .inr ⟨t.name, rfl⟩
  · obtain ⟨hlength, hfits⟩ := (Node.alternates_iff slots).1 hslots
    obtain ⟨f, -, rfl, -⟩ := exists_formula slots hslots
    refine ⟨hlength, hfits, fun vars => ⟨fun d h => ?_, fun v => Formula.residue_reduce⟩⟩
    cases isMalformed_of_reduce h

/-- `-(a) ^ 2`: a negation, an operator and a literal. -/
theorem never_malformed_negated_group :
    (∃ tree, (Line.ofText "-(a) ^ 2").map Tree.ofLine? = .ok (some tree) ∧
      ∃ target slots, tree.toNode = .ok (.line target (.expression slots)) ∧
        Node.alternates slots) ∧
    ∃ slots, slots = [.negation (.parenthetical (.expression [.identifier "a"])),
        .operator (.known .exponent), .literal 2] ∧ Node.alternates slots ∧
      ∀ vars d, ((Node.expression slots).reduce vars).outcome.result ≠ .error (.malformed d) := by
  obtain ⟨-, htree, hslots⟩ := never_malformed "-(a) ^ 2"
  have hbuild := htree _ rfl
  have halternates : Node.alternates [.negation (.parenthetical (.expression [.identifier "a"])),
      .operator (.known .exponent), .literal 2] := by decide
  refine ⟨⟨_, rfl, ?_⟩, _, rfl, halternates, fun vars => ((hslots _ halternates).2.2 vars).1⟩
  obtain ⟨target, slots, hnode, -, hshape⟩ := hbuild
  exact ⟨target, slots, hnode, hshape⟩

end Calculator
