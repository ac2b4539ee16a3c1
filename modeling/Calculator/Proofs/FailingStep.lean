import Calculator.Proofs.RecentSteps

/-!
# The step that failed

A report in JSON names the step that failed and lists the last steps. What it names is the step that
was recorded last in the whole journal (`Session.IsRecorded.step_eq`), and what it lists belongs to
the line. The two agree as long as the line recorded a step (`Journal.step_getLast?_rtake`); if
it did not, nothing is listed, and the step that is named belongs to an earlier line.
-/

namespace Calculator

/-! ## Reading reports -/

namespace Json

/-- The value under a key. -/
def get? (key : String) : Json → Option Json
  | object fields => Table.get? fields key
  | _ => none

def getLast? : Json → Option Json
  | array items => items.getLast?
  | _ => none

end Json

namespace Report

/-- What a report says of the step that failed. -/
def failingStep? (report : Json) : Option Json :=
  (report.get? "error").bind (Json.get? "failing_step_index")

/-- The number of the last step that a report lists. -/
def lastListed? (report : Json) : Option Json :=
  ((report.get? "steps").bind Json.getLast?).bind (Json.get? "step_index")

/-- The step that failed is the last that is listed, or none is named. -/
def IsConsistent (report : Json) : Prop :=
  failingStep? report = some .null ∨
    ∃ step, failingStep? report = some (.number step) ∧ lastListed? report = some (.number step)

theorem failingStep?_toJson (j : Journal) (cause : Fault) (step : Option Nat) (first depth : Int) :
    failingStep? (toJson j (.fault cause step) first depth) = some (jsonOption .number step) := by
  simp [failingStep?, toJson, Json.get?, jsonFailure, Table.get?]

theorem lastListed?_toJson (j : Journal) (failure : Failure) (first depth : Int) :
    lastListed? (toJson j failure first depth) =
      (recent j first depth).getLast?.map fun e => .number e.step := by
  have hsteps : (toJson j failure first depth).get? "steps" =
      some (.array ((recent j first depth).map jsonStep)) := by
    simp [toJson, Json.get?, Table.get?]
  have hstep (e : Entry) : (jsonStep e).get? "step_index" = some (.number e.step) := by
    simp [jsonStep, Json.get?, Table.get?]
  rw [lastListed?, hsteps, Option.bind_some, Json.getLast?, List.getLast?_map]
  cases (recent j first depth).getLast? with
  | none => rfl
  | some e => exact hstep e

theorem isConsistent_toJson (j : Journal) (cause : Fault) (step : Option Nat) (first depth : Int) :
    IsConsistent (toJson j (.fault cause step) first depth) ↔
      step = none ∨ step = (recent j first depth).getLast?.map Entry.step := by
  rw [IsConsistent, failingStep?_toJson, lastListed?_toJson]
  rcases step with _ | step <;> rcases (recent j first depth).getLast? with _ | e <;>
    simp [jsonOption, eq_comm]

end Report

/-! ## The step of a fault -/

/-- The last of the entries that calls make has the number that was given last. -/
theorem Journal.step_getLast?_rtake (j : Journal) {calls : List Call} (hcalls : calls ≠ []) :
    ((j.entriesOf calls).rtake 5).getLast?.map Entry.step = (j.recordAll calls).lastRecorded? := by
  have hpos : 0 < calls.length := List.length_pos_of_ne_nil hcalls
  have hnext := j.next_recordAll calls
  rw [← List.getLast?_map, map_step_rtake_entriesOf, List.getLast?_range', if_neg (by omega),
    lastRecorded?, if_neg (by omega)]
  congr 1
  omega

theorem Session.IsRecorded.step_eq {s : Session} (h : s.IsRecorded) {text : String} {cause : Fault}
    {step : Option Nat} (hfault : (s.evaluate text).2 = .error (.fault cause step)) :
    step = (s.journal.recordAll (s.lineCalls text)).lastRecorded? := by
  rw [← journal_evaluate_eq, ← (h.evaluate text).lastStep?_eq]
  exact isStampedBy_evaluate hfault cause step rfl

open Console

/-- With the flag for JSON, the report is the last that is written of a failure. -/
theorem Console.exists_err_respond {display : Display} (hjson : display.json) {s : Session}
    {text : String} {failure : Failure} (h : (s.evaluate text).2 = .error failure) :
    ∃ told, (Prompt.respond display s (.line text)).2.err = told ++
      ((Report.toJson (s.evaluate text).1.journal failure s.journal.next
        Report.defaultDepth).text ++ "\n") := by
  rw [Prompt.respond_of_error h, report, if_pos hjson]
  exact ⟨_, String.append_assoc.symm⟩

/-- **The failing step.** Whatever was done before, and whatever a prompt read before a line that
fails with a fault: if this line recorded a step, the step that its report names is the last that
the report lists, and the last that was recorded at all. If it recorded none, nothing is listed, and
the step that is named is the last of the earlier lines, or none if nothing was recorded before. So
the report is consistent in all cases but the one where only earlier lines recorded a step. -/
theorem failing_step_last_recorded (vars : Variables) (verbose : Bool) (actions : List Action)
    (display : Display) (inputs : List Input) (text : String) (cause : Fault)
    (step : Option Nat) :
    let start := (Session.ofVariables vars verbose).after actions
    let s := (Prompt.converse display start inputs).1
    let j := (s.evaluate text).1.journal
    let calls := s.lineCalls text
    let shown := Report.recent j s.journal.next Report.defaultDepth
    let report := Report.toJson j (.fault cause step) s.journal.next Report.defaultDepth
    (s.evaluate text).2 = .error (.fault cause step) →
    (calls ≠ [] → step = some (j.next - 1) ∧ step = shown.getLast?.map Entry.step) ∧
      (calls = [] → step = s.journal.lastRecorded? ∧ shown = []) ∧
      (Report.IsConsistent report ↔ calls ≠ [] ∨ s.journal.next = 0) ∧
      (display.json → ∃ told, (Prompt.respond display s (.line text)).2.err =
        told ++ (report.text ++ "\n")) := by
  intro start s j calls shown report hfault
  have hs : s.IsRecorded := Prompt.isRecorded_converse display
    ((Session.isRecorded_ofVariables vars verbose).after actions) inputs
  have hjournal : j = s.journal.recordAll calls := s.journal_evaluate_eq text
  have hstep : step = (s.journal.recordAll calls).lastRecorded? := hs.step_eq hfault
  have hshown : shown = (s.journal.entriesOf calls).rtake 5 := by
    rw [← hs.recent_recordAll, ← hjournal]
  have hnext : j.next = s.journal.next + calls.length := by
    rw [hjournal, Journal.next_recordAll]
  have hown (hcalls : calls ≠ []) : step = shown.getLast?.map Entry.step := by
    rw [hshown, s.journal.step_getLast?_rtake hcalls, hstep]
  have hearlier (hcalls : calls = []) : step = s.journal.lastRecorded? ∧ shown = [] := by
    rw [hstep, hshown, hcalls]
    exact ⟨rfl, rfl⟩
  refine ⟨fun hcalls => ⟨?_, hown hcalls⟩, hearlier, ?_, fun hjson => ?_⟩
  · have hpos : 0 < calls.length := List.length_pos_of_ne_nil hcalls
    rw [hstep, ← hjournal, Journal.lastRecorded?, if_neg (by omega)]
  · rw [Report.isConsistent_toJson]
    by_cases hcalls : calls = []
    · obtain ⟨hlast, hnone⟩ := hearlier hcalls
      rw [show Report.recent j s.journal.next Report.defaultDepth = [] from hnone, hlast,
        Journal.lastRecorded?]
      simp [hcalls]
    · exact iff_of_true (.inr (hown hcalls)) (.inl hcalls)
  · exact exists_err_respond hjson hfault

/-- The assignment is step 0, and the division of the next line fails after step 5. -/
theorem failing_step_last_recorded_division :
    let display : Display := ⟨true, true, false, false⟩
    let text := "x / (x - x)"
    let cause : Fault := .divisionByZero "DIVIDE"
    let s := (Prompt.converse display ((Session.ofVariables .empty true).after [])
      [.line "x = 1"]).1
    let j := (s.evaluate text).1.journal
    let shown := Report.recent j s.journal.next Report.defaultDepth
    let report := Report.toJson j (.fault cause (some 5)) s.journal.next Report.defaultDepth
    (s.evaluate text).2 = .error (.fault cause (some 5)) ∧ s.lineCalls text ≠ [] ∧ display.json ∧
      (some 5 = some (j.next - 1) ∧ some 5 = shown.getLast?.map Entry.step) ∧
      Report.IsConsistent report ∧
      ∃ told, (Prompt.respond display s (.line text)).2.err = told ++ (report.text ++ "\n") := by
  intro display text cause
  obtain ⟨hown, -, hconsistent, hwritten⟩ := failing_step_last_recorded .empty true [] display
    [.line "x = 1"] text cause (some 5) (by decide +kernel)
  exact ⟨by decide +kernel, by decide +kernel, rfl, hown (by decide +kernel),
    hconsistent.2 (.inl (by decide +kernel)), hwritten rfl⟩

/-- A report may be inconsistent: the second line fails before its first step, and the report names
the assignment of the first. -/
theorem not_failing_step_last_listed :
    ¬ ∀ (display : Display) (verbose : Bool) (inputs : List Input) (text : String) (cause : Fault)
      (step : Option Nat),
      let s := (Prompt.converse display (.fresh verbose) inputs).1
      (s.evaluate text).2 = .error (.fault cause step) →
      Report.IsConsistent (Report.toJson (s.evaluate text).1.journal (.fault cause step)
        s.journal.next Report.defaultDepth) := by
  intro h
  have hconsistent := h ⟨true, true, false, false⟩ false [.line "x = 1"] "y" (.unbound "y")
    (some 0) (by decide +kernel)
  -- step 0 is named, and no step is listed
  rcases (Report.isConsistent_toJson _ _ _ _ _).1 hconsistent with hnone | hlast
  · cases hnone
  · exact absurd hlast (by decide +kernel)

end Calculator
