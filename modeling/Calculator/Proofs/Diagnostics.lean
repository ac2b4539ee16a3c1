import Mathlib.Data.List.Basic
import Calculator.Console.Command
import Calculator.Proofs.Bench
import Calculator.Proofs.Bisimulation

/-!
# Diagnostics

Nothing depends on how verbose a session is, on the journal, or on what is told of failures besides
their headlines.

1. A session is muted by taking the variables out of its journal. Muted or not, it gives the same
   answers (`Session.evaluate_muted`, `Session.inspect_muted`), so sessions that are the same once
   muted cannot be told apart (`Session.bisimulation_muted`).
2. Diagnostics go to the error stream (`Output.out_report`, `Output.out_trace`), so two prompts or
   two scripts that differ in them only write the same to the output stream.
3. The work on a node is the same with and without a journal (`Node.work_eq`).
-/

namespace Calculator

/-! ## Muted sessions -/

def Entry.muted (e : Entry) : Entry := { e with snapshot := none }

def Journal.muted (j : Journal) : Journal :=
  { j with verbose := false, entries := j.entries.map Entry.muted }

/-- The session with a journal that does not keep the variables, and has not kept them. -/
def Session.muted (s : Session) : Session := { s with journal := s.journal.muted }

namespace Journal

theorem muted_record (j : Journal) (rule : String) (statement : Option String)
    (detail : Table String) (snapshot snapshot' : Option (Table String)) :
    (j.record rule statement detail snapshot).muted =
      j.muted.record rule statement detail snapshot' := by
  simp [record, add, muted, entry, Entry.muted, List.map_drop]

theorem lastStep?_muted (j : Journal) : j.muted.lastStep? = j.lastStep? := by
  simp [lastStep?, muted, List.getLast?_map, Function.comp_def, Entry.muted]

end Journal

namespace Session

theorem vars_muted (s : Session) : s.muted.vars = s.vars := rfl

theorem muted_enter (s : Session) (statement : Option String) (steps : List Step) :
    (s.enter statement steps).muted = s.muted.enter statement steps := by
  induction steps generalizing s with
  | nil => rfl
  | cons step steps ih =>
    have hstep : (s.enter statement [step]).muted = s.muted.enter statement [step] :=
      congrArg (Session.mk s.vars) (s.journal.muted_record _ _ _ _ _)
    -- Whether the variables are kept does not change from one step to the next.
    exact (ih (s.enter statement [step])).trans (congrArg (enter · statement steps) hstep)

theorem muted_worked (s : Session) (text : String) : (s.worked text).muted = s.muted.worked text :=
  s.muted_enter _ _

theorem fail_muted (s : Session) (fault : Fault) : s.muted.fail fault = s.fail fault :=
  congrArg (Failure.fault fault) s.journal.lastStep?_muted

theorem refusal_muted (s : Session) (text : String) (cause : Statement.Refusal) :
    s.muted.refusal text cause = s.refusal text cause := by
  cases cause with
  | rejected cause => rfl
  | fault cause => exact s.fail_muted cause

theorem muted_assign (s : Session) (text name : String) (value : Int) :
    (s.assign text name value).muted = s.muted.assign text name value :=
  congrArg (fun t : Session => { t with vars := t.vars.setLast value })
    (muted_enter { s with vars := { s.vars with table := s.vars.table.put name value } } _ _)

theorem settle_muted (s : Session) (text : String) (verdict : Verdict) :
    s.muted.settle text verdict =
      ((s.settle text verdict).1.muted, (s.settle text verdict).2) := by
  cases verdict with
  | refused cause => simp only [settle, refusal_muted]
  | blank => rfl
  | given value => rfl
  | assigned name value => simp only [settle, muted_assign]
  | misnamed name value => simp only [settle, fail_muted]

theorem tell_muted (s : Session) (text : String) (verdict : Verdict) :
    s.muted.tell text verdict = s.tell text verdict := by
  cases verdict with
  | refused cause => simp only [tell, refusal_muted]
  | _ => rfl

theorem evaluate_muted (s : Session) (text : String) :
    s.muted.evaluate text = ((s.evaluate text).1.muted, (s.evaluate text).2) := by
  rw [evaluate_eq, evaluate_eq, ← muted_worked]
  exact settle_muted _ _ _

theorem inspect_muted (s : Session) (text : String) :
    s.muted.inspect text = ((s.inspect text).1.muted, (s.inspect text).2) := by
  rw [inspect_eq, inspect_eq, ← muted_worked, tell_muted]
  rfl

theorem evaluate_of_muted_eq {s t : Session} (h : s.muted = t.muted) (text : String) :
    (s.evaluate text).1.muted = (t.evaluate text).1.muted ∧
      (s.evaluate text).2 = (t.evaluate text).2 := by
  have heval := congrArg (evaluate · text) h
  simpa only [evaluate_muted, Prod.mk.injEq] using heval

theorem inspect_of_muted_eq {s t : Session} (h : s.muted = t.muted) (text : String) :
    (s.inspect text).1.muted = (t.inspect text).1.muted ∧
      (s.inspect text).2 = (t.inspect text).2 := by
  have hinspect := congrArg (inspect · text) h
  simpa only [inspect_muted, Prod.mk.injEq] using hinspect

theorem bisimulation_muted : Bisimulation (fun s t => s.muted = t.muted) id where
  vars {s t} h := (vars_muted s).symm.trans ((congrArg Session.vars h).trans (vars_muted t))
  evaluate h text :=
    (evaluate_of_muted_eq h text).imp_right fun hresult => congrArg (Except.mapError id) hresult
  inspect h text :=
    (inspect_of_muted_eq h text).imp_right fun hresult => congrArg (Except.mapError id) hresult
  assign h vars := congrArg (fun s : Session => { s with vars := vars }) h
  renew _ _ _ := rfl

end Session

theorem Reply.mapFailure_id (reply : Reply) : reply.mapFailure id = reply := by
  rcases reply with (_ | _) | (_ | _) | _ | ⟨_, _ | _⟩ | _ <;> rfl

/-! ## The output stream -/

namespace Console

/-- What is seen of a result besides the error stream. -/
def Result.shown (r : Result) : Nat × String := (r.exit, r.output.out)

namespace Prompt

/-- What an evaluated line writes to the output stream. -/
def answerOut (display : Display) : Except Failure (Option Answer) → String
  | .error failure => (Output.ofOut (failure.headline display.outStyles)).out
  | .ok answer =>
    match Script.given? answer with
    | some value => (showValue display value).out
    | none => ""

theorem session_respond_line (display : Display) (s : Session) (text : String) :
    (respond display s (.line text)).1 = (s.evaluate text).1 := by
  rw [respond]
  rcases s.evaluate text with ⟨next, failure | answer⟩ <;> rfl

theorem out_respond_line (display : Display) (s : Session) (text : String) :
    (respond display s (.line text)).2.out = answerOut display (s.evaluate text).2 := by
  rw [respond]
  rcases s.evaluate text with ⟨next, failure | answer⟩
  · simp [answerOut]
  · simp only [answerOut, Output.out_append, out_trace, String.empty_append]
    cases Script.given? answer <;> rfl

theorem respond_of_muted_eq {s t : Session} (h : s.muted = t.muted) (display : Display)
    (json : Bool) (input : Input) :
    (respond { display with json := json } s input).1.muted = (respond display t input).1.muted ∧
      (respond { display with json := json } s input).2.out = (respond display t input).2.out := by
  cases input with
  | interrupt => exact ⟨h, rfl⟩
  | line text =>
    obtain ⟨hnext, hresult⟩ := Session.evaluate_of_muted_eq h text
    rw [session_respond_line, session_respond_line, out_respond_line, out_respond_line, hresult]
    exact ⟨hnext, rfl⟩

theorem out_converse_of_muted_eq {s t : Session} (h : s.muted = t.muted) (display : Display)
    (json : Bool) (inputs : List Input) :
    (converse { display with json := json } s inputs).2.out =
      (converse display t inputs).2.out := by
  induction inputs generalizing s t with
  | nil => rfl
  | cons input inputs ih =>
    obtain ⟨hnext, hout⟩ := respond_of_muted_eq h display json input
    simp only [converse, Output.out_append, hout, ih hnext]
    rfl

end Prompt

theorem shown_runScript (plan : Plan) (source : String) (script : Script) :
    (runScript plan source script).shown =
      let run := script.run (.fresh plan.verbose)
      (if run.failure.isNone then 0 else 1,
        (Output.concat (run.values.map fun v => .ofOut (Decimal.text v))).out) := by
  unfold runScript
  rcases (script.run (.fresh plan.verbose)) with ⟨last, values, _ | ⟨number, failure⟩⟩ <;>
    simp [Result.shown]

theorem shown_runScript_eq (plan plan' : Plan) (source : String) (script : Script) :
    (runScript plan source script).shown = (runScript plan' source script).shown := by
  have hfresh : (Session.fresh plan.verbose).muted = (Session.fresh plan'.verbose).muted := rfl
  obtain ⟨-, hvalues, hfailure⟩ := Session.bisimulation_muted.run hfresh script
  have hnone := congrArg Option.isNone hfailure
  rw [Option.isNone_map, Option.isNone_map] at hnone
  simp only [shown_runScript, hvalues, hnone]

theorem shown_runFile_eq (plan plan' : Plan) (name : String) (content : FileContent) :
    (runFile plan name content).map Result.shown =
      (runFile plan' name content).map Result.shown := by
  unfold runFile
  split
  · rfl
  · rcases content with cause | content
    · rfl
    · rcases hdecode : decode? content with _ | text
      · simp only [hdecode]
      · simp only [hdecode]
        exact congrArg Except.ok (shown_runScript_eq plan plan' name _)

namespace Plan

/-- The plan with other diagnostics. -/
def withDiagnostics (plan : Plan) (verbose json : Bool) : Plan :=
  { plan with verbose := verbose, display := { plan.display with json := json } }

theorem shown_run_withDiagnostics (plan : Plan) (verbose json : Bool)
    (files : String → FileContent) (inputs : List Input) :
    ((plan.withDiagnostics verbose json).run files inputs).map Result.shown =
      (plan.run files inputs).map Result.shown := by
  rcases plan with ⟨task, verbose', display⟩
  -- Only a prompt looks at the display, and only for what goes to the output stream.
  cases task with
  | prompt =>
    have hfresh : (Session.fresh verbose).muted = (Session.fresh verbose').muted := rfl
    have hout := Prompt.out_converse_of_muted_eq hfresh display json inputs
    exact congrArg (fun out => Except.ok (0, (Prompt.banner display).out ++ out)) hout
  | expression text => exact congrArg Except.ok (shown_runScript_eq _ _ _ _)
  | noExpression => rfl
  | file name => exact shown_runFile_eq _ _ name (files name)

theorem ofOptions_withDiagnostics (around : Surroundings) (debug : Option String) (o : Options)
    (verbose json : Bool) :
    ofOptions { around with debug := debug } { o with verbose := verbose, tracebackJson := json } =
      (ofOptions around o).map fun plan =>
        plan.withDiagnostics (verbose || debug.getD "" != "") json := by
  unfold ofOptions
  have htask : Options.task? { o with verbose := verbose, tracebackJson := json } = o.task? := rfl
  rw [htask]
  cases o.task? <;> rfl

end Plan

end Console

open Console

/-- **Diagnostics do not interfere.** Command lines that differ only in the flags for verbosity and
for JSON show the same, whatever the setting that asks for verbose journals. Sessions give the same
replies, with the same variables after every action, however verbose they and the sessions that
replace them are. The work on a node ends with the same result and leaves the same node with and
without a journal, as it does when lines are evaluated. -/
theorem diagnostics_do_not_interfere :
    (∀ (around : Surroundings) (debug : Option String) (files : String → FileContent)
        (inputs : List Input) (arguments arguments' : List String) (o : Options)
        (verbose json : Bool),
      Options.ofArguments arguments = .ok o →
      Options.ofArguments arguments' = .ok { o with verbose := verbose, tracebackJson := json } →
      (Console.run { around with debug := debug } files inputs arguments').map Result.shown =
        (Console.run around files inputs arguments).map Result.shown) ∧
    (∀ (vars : Variables) (verbose verbose' : Bool) (actions actions' : List Action),
      actions'.map Action.hushed = actions.map Action.hushed →
      ((Session.ofVariables vars verbose').transcript actions').map (fun e => (e.reply, e.vars)) =
        ((Session.ofVariables vars verbose).transcript actions).map fun e => (e.reply, e.vars)) ∧
    ∀ (s : Session) (statement statement' : Option String) (n : Node),
      let logged := n.work ⟨s.vars, statement⟩ (some s.journal)
      let silent := n.work ⟨s.vars, statement'⟩ none
      let reduction := n.reduce s.vars
      logged.result = silent.result ∧ logged.residue = silent.residue ∧
        silent.result = reduction.outcome.result ∧ silent.residue = reduction.residue ∧
        logged.journal = some (s.enter statement reduction.outcome.steps).journal ∧
        silent.journal = none := by
  refine ⟨?_, ?_, ?_⟩
  · intro around debug files inputs arguments arguments' o verbose json h h'
    simp only [Console.run, Plan.ofArguments, h, h', Plan.ofOptions_withDiagnostics]
    cases Plan.ofOptions around o with
    | error result => rfl
    | ok plan => exact plan.shown_run_withDiagnostics _ json files inputs
  · intro vars verbose verbose' actions actions' h
    have hstart : (Session.ofVariables vars verbose').muted =
      (Session.ofVariables vars verbose).muted := rfl
    simpa only [Reply.mapFailure_id] using Session.bisimulation_muted.transcript hstart h
  · intro s statement statement' n
    simp only [Node.work_eq, Reduction.ending, Session.enter_recorder, Recorder.enter_none,
      and_self]

/-- The third line divides by zero. One command tells only that, and the other also the steps, as
text and as JSON. Of the two dialogues, each is verbose where the other is not. -/
theorem diagnostics_do_not_interfere_division :
    let around : Surroundings := ⟨"intcalc", none, false, false⟩
    let files : String → FileContent := fun _ => .error .missing
    let text := "x = 2\n_ + 1\n3 / (x - x)"
    let plain := ["-e", text]
    let telling := ["-e", text, "-verbose", "--trace"]
    let actions (verbose : Bool) : List Action := [.script text, .renew verbose]
    Options.ofArguments plain = .ok ⟨none, some (some text), false, false, false⟩ ∧
      Options.ofArguments telling = .ok ⟨none, some (some text), false, true, true⟩ ∧
      (Console.run around files [] plain).map Result.shown = .ok (1, "3\n") ∧
      (Console.run { around with debug := some "1" } files [] telling).map Result.shown =
        .ok (1, "3\n") ∧
      (actions true).map Action.hushed = (actions false).map Action.hushed ∧
      ((Session.ofVariables .empty false).transcript (actions true)).map
          (fun e => (e.reply, e.vars)) =
        ((Session.ofVariables .empty true).transcript (actions false)).map
          fun e => (e.reply, e.vars) := by
  intro around files text plain telling actions
  have hplain : Options.ofArguments plain = .ok ⟨none, some (some text), false, false, false⟩ := by
    decide +kernel
  have htelling :
      Options.ofArguments telling = .ok ⟨none, some (some text), false, true, true⟩ := by
    decide +kernel
  have hshown : (Console.run around files [] plain).map Result.shown = .ok (1, "3\n") := by
    decide +kernel
  have hsame := diagnostics_do_not_interfere.1 around (some "1") files [] plain telling _ true true
    hplain htelling
  have hactions : (actions true).map Action.hushed = (actions false).map Action.hushed := rfl
  exact ⟨hplain, htelling, hshown, hsame.trans hshown, hactions,
    diagnostics_do_not_interfere.2.1 .empty true false _ _ hactions⟩

end Calculator
