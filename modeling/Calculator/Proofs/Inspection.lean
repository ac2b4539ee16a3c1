import Mathlib.Data.List.Basic
import Calculator.Proofs.Assessment

/-!
# Inspection and evaluation

Both calls enter the steps of the text and then speak of one verdict. They part only where a value
is stored: evaluation gives the value to its target, which adds one entry to the journal, or fails
because the target's name cannot take it.
-/

namespace Calculator

/-- The line of the text is for a name, other than that of the last value, that cannot take one. -/
def Misnames (text name : String) : Prop :=
  ∃ statement, Statement.ofText text = .ok (some statement) ∧ statement.assigned? = some name ∧
    name ≠ Variables.lastName ∧ Variables.isValidName name = false

theorem misnames_iff {text name : String} {statement : Statement}
    (h : Statement.ofText text = .ok (some statement)) :
    Misnames text name ↔
      Session.target? statement = some name ∧ Variables.isValidName name = false := by
  have htarget : Session.target? statement = some name ↔
      statement.assigned? = some name ∧ name ≠ Variables.lastName := by
    simp [Session.target?, Option.filter_eq_some_iff]
  constructor
  · rintro ⟨statement', h', hassigned, hname, hvalid⟩
    obtain rfl : statement = statement' := by
      rw [h] at h'
      cases h'
      rfl
    exact ⟨htarget.2 ⟨hassigned, hname⟩, hvalid⟩
  · rintro ⟨hsome, hvalid⟩
    obtain ⟨hassigned, hname⟩ := htarget.1 hsome
    exact ⟨statement, h, hassigned, hname, hvalid⟩

namespace Verdict

theorem Suits.not_misnames_of_given {text : String} {value : Int} (h : (given value).Suits text)
    (name : String) : ¬ Misnames text name := by
  obtain ⟨statement, hstatement, htarget⟩ := h
  rw [misnames_iff hstatement, htarget]
  rintro ⟨hname, -⟩
  cases hname

theorem Suits.not_misnames_of_assigned {text name : String} {value : Int}
    (h : (assigned name value).Suits text) (other : String) : ¬ Misnames text other := by
  obtain ⟨statement, hstatement, htarget, hvalid⟩ := h
  rw [misnames_iff hstatement, htarget]
  rintro ⟨hother, hinvalid⟩
  cases hother
  rw [hvalid] at hinvalid
  cases hinvalid

theorem Suits.misnames_iff_eq {text name : String} {value : Int}
    (h : (misnamed name value).Suits text) (other : String) :
    Misnames text other ↔ other = name := by
  obtain ⟨statement, hstatement, htarget, hvalid⟩ := h
  rw [misnames_iff hstatement, htarget]
  constructor
  · rintro ⟨hother, -⟩
    cases hother
    rfl
  · rintro rfl
    exact ⟨rfl, hvalid⟩

end Verdict

/-! ## Entries -/

namespace Session

/-- Steps add entries to the journal and do no more. -/
theorem exists_entries_enter (s : Session) (statement : Option String) (steps : List Step) :
    ∃ entries : List Entry,
      (s.enter statement steps).journal = entries.foldl Journal.add s.journal := by
  unfold enter
  generalize (if s.journal.verbose then some s.vars.snapshot else none) = snapshot
  generalize s.journal = j
  induction steps generalizing j with
  | nil => exact ⟨[], rfl⟩
  | cons step steps ih =>
    obtain ⟨entries, h⟩ := ih (j.record step.rule statement step.detail snapshot)
    exact ⟨j.entry step.rule statement step.detail snapshot :: entries, h⟩

/-- What an assignment adds to the journal. -/
def Assigns (text name : String) (value : Int) (before after : Journal) : Prop :=
  ∃ entry : Entry, entry.rule = "ASSIGN" ∧ entry.statement = some text ∧
    entry.detail = [("name", name), ("result", Decimal.short value)] ∧ after = before.add entry

theorem assigns_assign (s : Session) (text name : String) (value : Int) :
    Assigns text name value s.journal (s.assign text name value).journal :=
  ⟨s.journal.entry _ _ _ _, rfl, rfl, rfl, rfl⟩

/-- Only an assignment that is made adds an entry to those of the steps. -/
theorem journal_evaluate (s : Session) (text : String) :
    ((¬ ∃ value name, (s.evaluate text).2 = .ok (some ⟨value, some name⟩)) →
      (s.evaluate text).1.journal = (s.worked text).journal) ∧
    ∀ value name, (s.evaluate text).2 = .ok (some ⟨value, some name⟩) →
      Assigns text name value (s.worked text).journal (s.evaluate text).1.journal := by
  rw [s.evaluate_eq]
  cases (assess s.vars text).verdict with
  | assigned name value =>
    refine ⟨fun hnone => absurd ⟨value, name, rfl⟩ hnone, fun value' name' h => ?_⟩
    cases h
    exact assigns_assign _ _ _ _
  | _ => simp [settle]

end Session

/-- **Inspection.** Inspection and evaluation of a text in the same session agree. A text is blank
for both or for none. A value that evaluation answers with is the one that inspection tells; a value
that inspection tells is answered by evaluation, unless the line is for a name that cannot take it:
then, and then only, evaluation fails over this name. All other failures are the same, with the
number of the step. The journal gets the same entries, and one more at the end for an assignment
that was made. Inspection leaves the variables as they are. -/
theorem inspect_agrees_with_evaluate (s : Session) (text : String) :
    (((s.inspect text).2 = .ok none ↔ (s.evaluate text).2 = .ok none) ∧
      (∀ answer, (s.evaluate text).2 = .ok (some answer) →
        (s.inspect text).2 = .ok (some answer.value)) ∧
      (∀ value, (s.inspect text).2 = .ok (some value) →
        (∀ name, Misnames text name →
          ∃ step, (s.evaluate text).2 = .error (.fault (.invalidName name) step)) ∧
        ((¬ ∃ name, Misnames text name) →
          ∃ statement, Statement.ofText text = .ok (some statement) ∧
            (s.evaluate text).2 = .ok (some ⟨value, Session.target? statement⟩))) ∧
      (∀ failure, (s.inspect text).2 = .error failure → (s.evaluate text).2 = .error failure) ∧
      ∀ failure, (s.evaluate text).2 = .error failure → (s.inspect text).2 = .error failure ∨
        ∃ name step value, Misnames text name ∧ failure = .fault (.invalidName name) step ∧
          (s.inspect text).2 = .ok (some value)) ∧
    (∃ entries : List Entry, (s.inspect text).1.journal = entries.foldl Journal.add s.journal ∧
      ((¬ ∃ value name, (s.evaluate text).2 = .ok (some ⟨value, some name⟩)) →
        (s.evaluate text).1.journal = entries.foldl Journal.add s.journal) ∧
      ∀ value name, (s.evaluate text).2 = .ok (some ⟨value, some name⟩) →
        Session.Assigns text name value (entries.foldl Journal.add s.journal)
          (s.evaluate text).1.journal) ∧
    (s.inspect text).1.vars = s.vars := by
  have hsuits := Session.suits_verdict s.vars text
  have hjournal := s.journal_evaluate text
  have hinspect := s.inspect_eq text
  obtain ⟨entries, hentries⟩ : ∃ entries : List Entry,
      (s.worked text).journal = entries.foldl Journal.add s.journal :=
    s.exists_entries_enter _ _
  rw [hentries] at hjournal
  refine ⟨?_, ⟨entries, by rw [hinspect, hentries], hjournal⟩, by rw [hinspect, s.vars_worked]⟩
  rw [hinspect, s.evaluate_eq]
  cases hverdict : (Session.assess s.vars text).verdict with
  | refused cause => simp [Session.settle, Session.tell]
  | blank => simp [Session.settle, Session.tell]
  | given value =>
    rw [hverdict] at hsuits
    have hnone := hsuits.not_misnames_of_given
    obtain ⟨statement, hstatement, htarget⟩ := hsuits
    simp [Session.settle, Session.tell, hnone, hstatement, htarget]
  | assigned name value =>
    rw [hverdict] at hsuits
    have hnone := hsuits.not_misnames_of_assigned
    obtain ⟨statement, hstatement, htarget, -⟩ := hsuits
    simp [Session.settle, Session.tell, hnone, hstatement, htarget]
  | misnamed name value =>
    rw [hverdict] at hsuits
    have hname := hsuits.misnames_iff_eq
    simp [Session.settle, Session.tell, Session.fail, hname]

/-- Only evaluation minds the underscore in the name. -/
example : ((Session.fresh false).inspect "a_b = 1 + 2").2 = .ok (some 3) ∧
    ((Session.fresh false).evaluate "a_b = 1 + 2").2 =
      .error (.fault (.invalidName "a_b") (some 0)) := by
  decide +kernel

end Calculator
