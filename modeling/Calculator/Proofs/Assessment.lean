import Mathlib.Tactic.Common
import Calculator.Session

/-!
# Assessments

What a text comes to is a matter of the variables alone: the steps it takes, and a verdict. All else
follows from the two. A session enters the steps, whoever asks for the text (`worked`); evaluation
then settles the verdict, which may store a value (`evaluate_eq`), while inspection only tells it
(`inspect_eq`).
-/

namespace Calculator

/-- What a text comes to, before anything is stored. -/
inductive Verdict where
  | refused (cause : Statement.Refusal)
  | blank
  /-- A value that no variable takes. -/
  | given (value : Int)
  | assigned (name : String) (value : Int)
  /-- A value for a name that cannot take it. -/
  | misnamed (name : String) (value : Int)

structure Assessment where
  steps : List Step
  verdict : Verdict

/-- A value, and the name that it is for if there is one. -/
def Verdict.ofValue (target : Option String) (value : Int) : Verdict :=
  match target with
  | none => given value
  | some name => if Variables.isValidName name then assigned name value else misnamed name value

/-- The verdict speaks of the target of the text, and of whether that name can take a value. -/
def Verdict.Suits (text : String) : Verdict → Prop
  | refused _ => True
  | blank => True
  | given _ => ∃ statement, Statement.ofText text = .ok (some statement) ∧
    Session.target? statement = none
  | assigned name _ => ∃ statement, Statement.ofText text = .ok (some statement) ∧
    Session.target? statement = some name ∧ Variables.isValidName name = true
  | misnamed name _ => ∃ statement, Statement.ofText text = .ok (some statement) ∧
    Session.target? statement = some name ∧ Variables.isValidName name = false

namespace Session

def assess (vars : Variables) (text : String) : Assessment :=
  match Statement.ofText text with
  | .error cause => ⟨[], .refused cause⟩
  | .ok none => ⟨[], .blank⟩
  | .ok (some statement) =>
    let outcome := (statement.body.reduce vars).outcome
    ⟨outcome.steps,
      match outcome.result with
      | .error cause => .refused (.fault cause)
      | .ok value => .ofValue (target? statement) value⟩

/-- The text under which the steps of a line are entered. -/
def heading (text : String) : String := String.ofList (Text.trim text.toList)

/-- The session once the steps of a text are entered. -/
def worked (s : Session) (text : String) : Session :=
  s.enter (some (heading text)) (assess s.vars text).steps

def refusal (s : Session) (text : String) : Statement.Refusal → Failure
  | .rejected cause => .rejected text cause
  | .fault cause => s.fail cause

/-- The value is stored, the assignment entered, and the value becomes the last one. -/
def assign (s : Session) (text name : String) (value : Int) : Session :=
  let vars := { s.vars with table := s.vars.table.put name value }
  let s := enter { s with vars := vars } (some text) [.assignment name value]
  { s with vars := s.vars.setLast value }

/-- What evaluation does on a verdict. -/
def settle (s : Session) (text : String) : Verdict → Session × Except Failure (Option Answer)
  | .refused cause => (s, .error (s.refusal text cause))
  | .blank => (s, .ok none)
  | .given value => ({ s with vars := s.vars.setLast value }, .ok (some ⟨value, none⟩))
  | .assigned name value => (s.assign text name value, .ok (some ⟨value, some name⟩))
  | .misnamed name _ => (s, .error (s.fail (.invalidName name)))

/-- What inspection tells of a verdict. -/
def tell (s : Session) (text : String) : Verdict → Except Failure (Option Int)
  | .refused cause => .error (s.refusal text cause)
  | .blank => .ok none
  | .given value => .ok (some value)
  | .assigned _ value => .ok (some value)
  | .misnamed _ value => .ok (some value)

/-! ## The session between reduction and storing -/

@[simp] theorem enter_nil (s : Session) (statement : Option String) :
    s.enter statement [] = s := rfl

@[simp] theorem vars_enter (s : Session) (statement : Option String) (steps : List Step) :
    (s.enter statement steps).vars = s.vars := rfl

@[simp] theorem vars_worked (s : Session) (text : String) : (s.worked text).vars = s.vars := rfl

@[simp] theorem vars_assign (s : Session) (text name : String) (value : Int) :
    (s.assign text name value).vars = ⟨s.vars.table.put name value, value⟩ := rfl

theorem ne_lastName_of_target? {statement : Statement} {name : String}
    (h : target? statement = some name) : name ≠ Variables.lastName := by
  have hname := (Option.filter_eq_some_iff.1 h).2
  simpa using hname

/-- Once the steps are entered, a text is refused, or it is blank, or its statement has a value. -/
theorem workOut_cases (s : Session) (text : String) :
    (∃ cause, (assess s.vars text).verdict = .refused cause ∧
      s.workOut text = (s.worked text, .error ((s.worked text).refusal text cause))) ∨
    ((assess s.vars text).verdict = .blank ∧ s.workOut text = (s.worked text, .ok none)) ∨
    ∃ statement value, Statement.ofText text = .ok (some statement) ∧
      (assess s.vars text).verdict = .ofValue (target? statement) value ∧
      s.workOut text = (s.worked text, .ok (some (statement, value))) := by
  rcases hstatement : Statement.ofText text with cause | _ | statement
  · refine .inl ⟨cause, by simp only [assess, hstatement], ?_⟩
    cases cause <;> simp only [workOut, worked, assess, hstatement, enter_nil, refusal]
  · refine .inr (.inl ⟨by simp only [assess, hstatement], ?_⟩)
    simp only [workOut, worked, assess, hstatement, enter_nil]
  · rcases hvalue : (statement.body.reduce s.vars).outcome.result with cause | value
    · refine .inl ⟨.fault cause, by simp only [assess, hstatement, hvalue], ?_⟩
      simp only [workOut, worked, assess, hstatement, hvalue, refusal, heading]
    · refine .inr (.inr ⟨statement, value, rfl, by simp only [assess, hstatement, hvalue], ?_⟩)
      simp only [workOut, worked, assess, hstatement, hvalue, heading]

theorem suits_ofValue {text : String} {statement : Statement}
    (h : Statement.ofText text = .ok (some statement)) (value : Int) :
    (Verdict.ofValue (target? statement) value).Suits text := by
  unfold Verdict.ofValue
  split
  · next htarget => exact ⟨statement, h, htarget⟩
  · next name htarget =>
    by_cases hvalid : Variables.isValidName name
    · rw [if_pos hvalid]
      exact ⟨statement, h, htarget, hvalid⟩
    · rw [if_neg hvalid]
      exact ⟨statement, h, htarget, by simpa using hvalid⟩

theorem suits_verdict (vars : Variables) (text : String) :
    (assess vars text).verdict.Suits text := by
  unfold assess
  split
  · trivial
  · trivial
  · next statement hstatement =>
    simp only
    split
    · trivial
    · exact suits_ofValue hstatement _

/-! ## Both calls -/

theorem store_eq_settle {s : Session} {text : String} {target : Option String} {value : Int}
    (h : ∀ name, target = some name → name ≠ Variables.lastName) :
    ((s.store text target value).1, (s.store text target value).2.map some) =
      s.settle text (.ofValue target value) := by
  cases target with
  | none => rfl
  | some name =>
    simp only [store, Variables.set, if_neg (h name rfl), Verdict.ofValue]
    by_cases hvalid : Variables.isValidName name
    · rw [if_pos hvalid, if_pos hvalid]
      rfl
    · rw [if_neg hvalid, if_neg hvalid]
      rfl

theorem tell_ofValue (s : Session) (text : String) (target : Option String) (value : Int) :
    s.tell text (.ofValue target value) = .ok (some value) := by
  cases target with
  | none => rfl
  | some name =>
    simp only [Verdict.ofValue]
    split_ifs <;> rfl

theorem evaluate_eq (s : Session) (text : String) :
    s.evaluate text = (s.worked text).settle text (assess s.vars text).verdict := by
  rcases s.workOut_cases text with
    ⟨cause, hverdict, hwork⟩ | ⟨hverdict, hwork⟩ | ⟨statement, value, -, hverdict, hwork⟩
  · rw [evaluate, hwork, hverdict]
    rfl
  · rw [evaluate, hwork, hverdict]
    rfl
  · rw [evaluate, hwork, hverdict]
    exact store_eq_settle fun _ => ne_lastName_of_target?

theorem inspect_eq (s : Session) (text : String) :
    s.inspect text = (s.worked text, (s.worked text).tell text (assess s.vars text).verdict) := by
  rcases s.workOut_cases text with
    ⟨cause, hverdict, hwork⟩ | ⟨hverdict, hwork⟩ | ⟨statement, value, -, hverdict, hwork⟩
  · rw [inspect, hwork, hverdict]
    rfl
  · rw [inspect, hwork, hverdict]
    rfl
  · rw [inspect, hwork, hverdict, tell_ofValue]
    rfl

end Session

end Calculator
