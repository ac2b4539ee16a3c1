import Mathlib.Data.List.Forall2
import Calculator.Proofs.Diagnostics
import Calculator.Proofs.ScriptRuns

/-!
# Prompt runs

A prompt hands on each line as it was typed. A script leaves out the blanks at its ends, and the
lines that are blank or comments. Both come to the same.

1. Sessions with the same variables answer alike two texts that say the same, but for the lines,
   positions and steps that a failure tells of (`Session.evaluate_congr`), and so for lists of texts
   (`Session.results_congr`).
2. So a script of typed lines gives out the values of the lines as they were typed, and it ends with
   the same variables (`Script.run_typed_of_forall_isOk`) or fails at the same line
   (`Script.run_typed_of_error`).
3. What a quiet prompt writes is told by the results of its lines (`Prompt.out_run`), and up to the
   first failure it is what a script prints (`Plan.out_ask_of_forall_isOk`,
   `Plan.out_ask_of_error`).
-/

namespace Calculator

/-! ## Texts that say the same -/

namespace Session

/-- Two sessions with the same variables do the same on a verdict, but for the journal. -/
theorem settle_congr {s t : Session} (h : s.vars = t.vars) (a b : String) (verdict : Verdict) :
    (s.settle a verdict).1.vars = (t.settle b verdict).1.vars ∧
      (s.settle a verdict).2.mapError Failure.label =
        (t.settle b verdict).2.mapError Failure.label := by
  cases verdict with
  | refused cause => cases cause <;> exact ⟨h, rfl⟩
  | blank => exact ⟨h, rfl⟩
  | given value => exact ⟨by simp only [settle, h], rfl⟩
  | assigned name value => exact ⟨by simp only [settle, vars_assign, h], rfl⟩
  | misnamed name value => exact ⟨h, rfl⟩

theorem assess_of_rejected {text : String} {cause : Rejection}
    (h : Statement.ofText text = .error (.rejected cause)) (vars : Variables) :
    assess vars text = ⟨[], .refused (.rejected cause)⟩ := by
  rw [assess, h]

/-- Two sessions with the same variables answer texts that say the same alike, but for what a
failure tells of its line, its position and its step. -/
theorem evaluate_congr {s t : Session} (h : s.vars = t.vars) {a b : String}
    (hab : Statement.Alike a b) :
    (s.evaluate a).1.vars = (t.evaluate b).1.vars ∧
      (s.evaluate a).2.mapError Failure.label = (t.evaluate b).2.mapError Failure.label := by
  have hworked : (s.worked a).vars = (t.worked b).vars := h
  rw [evaluate_eq, evaluate_eq]
  rcases hab with hab | ⟨cause, cause', ha, hb⟩
  · have hassess : assess s.vars a = assess t.vars b := by
      rw [assess, assess, hab, h]
    rw [hassess]
    exact settle_congr hworked a b _
  · rw [assess_of_rejected ha, assess_of_rejected hb]
    exact ⟨hworked, rfl⟩

/-- Texts that say the same, one by one, come to the same one after the other. -/
theorem results_congr {s t : Session} (h : s.vars = t.vars) {as bs : List String}
    (hab : List.Forall₂ Statement.Alike as bs) :
    (s.results as).map (Except.mapError Failure.label) =
        (t.results bs).map (Except.mapError Failure.label) ∧
      (s.after (as.map .evaluate)).vars = (t.after (bs.map .evaluate)).vars := by
  induction hab generalizing s t with
  | nil => exact ⟨rfl, h⟩
  | cons hline _ ih =>
    obtain ⟨hvars, hresult⟩ := evaluate_congr h hline
    obtain ⟨hresults, hafter⟩ := ih hvars
    exact ⟨congrArg₂ List.cons hresult hresults, hafter⟩

end Session

namespace Script

variable {ε ε' α : Type}

theorem isOk_mapError (f : ε → ε') (result : Except ε α) :
    (result.mapError f).isOk = result.isOk := by
  cases result <;> rfl

theorem forall_isOk_congr {f : ε → ε'} {results results' : List (Except ε α)}
    (h : results.map (Except.mapError f) = results'.map (Except.mapError f)) :
    (∀ r ∈ results, r.isOk) ↔ ∀ r ∈ results', r.isOk := by
  have hall (rs : List (Except ε α)) :
      (∀ r ∈ rs, r.isOk) ↔ ∀ r ∈ rs.map (Except.mapError f), r.isOk := by
    simp only [List.forall_mem_map, isOk_mapError]
  rw [hall results, hall results', h]

theorem error_of_mapError_eq {f : ε → ε'} {result result' : Except ε α} {cause : ε}
    (h : result.mapError f = result'.mapError f) (hresult : result = .error cause) :
    ∃ cause', result' = .error cause' ∧ f cause' = f cause := by
  subst hresult
  cases result' with
  | ok value => cases h
  | error cause' => exact ⟨cause', rfl, (Except.error.inj h).symm⟩

theorem givenBefore_map_mapError (f : ε → ε') (results : List (Except ε (Option Answer))) :
    givenBefore (results.map (Except.mapError f)) = givenBefore results := by
  induction results with
  | nil => rfl
  | cons result results ih =>
    cases result with
    | error cause => rfl
    | ok answer =>
      rw [givenBefore_cons_ok, ← ih]
      exact givenBefore_cons_ok _ _

end Script

/-! ## Scripts of typed lines -/

/-- All characters of the lines are typed. -/
def Text.AreTyped (lines : List String) : Prop := ∀ line ∈ lines, ∀ c ∈ line.toList, isTyped c

theorem Statement.forall₂_alike_trimmed {lines : List String} (htyped : Text.AreTyped lines) :
    List.Forall₂ Alike lines (lines.map Text.trimmed) :=
  List.forall₂_map_right_iff.2 <|
    List.forall₂_same.2 fun line hline => alike_trimmed (htyped line hline)

namespace Script

theorem run_ofText_intercalate {lines : List String} (htyped : Text.AreTyped lines) (s : Session) :
    run s (ofText ("\n".intercalate lines)) =
      run s (numbered 1 (lines.map Text.trimmed)) := by
  have hlines : ∀ line ∈ lines, ∀ c ∈ line.toList, ¬ Text.isLineBreak c :=
    fun line hline c hc => Text.not_isLineBreak_of_isTyped (htyped line hline c hc)
  have hls : ∀ l ∈ lines.map String.toList, '\n' ∉ l :=
    List.forall_mem_map.2 fun line hline h => hlines line hline _ h rfl
  rw [ofText_intercalate hlines, run_ofLines s 1 hls, List.map_map]
  rfl

variable {s t : Session} (h : s.vars = t.vars)

include h

/-- A script of typed lines gives out the values of the lines as they were typed. -/
theorem values_run_typed {lines : List String} (htyped : Text.AreTyped lines) :
    (run t (ofText ("\n".intercalate lines))).values = givenBefore (s.results lines) := by
  obtain ⟨hresults, -⟩ := Session.results_congr h (Statement.forall₂_alike_trimmed htyped)
  rw [run_ofText_intercalate htyped, values_run, map_text_numbered,
    ← givenBefore_map_mapError Failure.label, ← hresults, givenBefore_map_mapError]

theorem run_typed_of_forall_isOk {lines : List String} (htyped : Text.AreTyped lines)
    (hok : ∀ r ∈ s.results lines, r.isOk) :
    (run t (ofText ("\n".intercalate lines))).failure = none ∧
      (run t (ofText ("\n".intercalate lines))).session.vars =
        (s.after (lines.map .evaluate)).vars := by
  obtain ⟨hresults, hvars⟩ := Session.results_congr h (Statement.forall₂_alike_trimmed htyped)
  obtain ⟨hfailure, hsession⟩ := run_numbered_of_forall_isOk ((forall_isOk_congr hresults).1 hok)
  rw [run_ofText_intercalate htyped, hfailure, hsession]
  exact ⟨rfl, hvars.symm⟩

theorem run_typed_of_error {before after : List String} {line : String} {failure : Failure}
    (htyped : Text.AreTyped (before ++ line :: after)) (hok : ∀ r ∈ s.results before, r.isOk)
    (hline : ((s.after (before.map .evaluate)).evaluate line).2 = .error failure) :
    ∃ failure', failure'.label = failure.label ∧
      (run t (ofText ("\n".intercalate (before ++ line :: after)))).failure =
        some (before.length + 1, failure') ∧
      (run t (ofText ("\n".intercalate (before ++ line :: after)))).session.vars =
        (s.after (before.map .evaluate)).vars := by
  obtain ⟨hbefore, hrest⟩ := List.forall_mem_append.1 htyped
  obtain ⟨hresults, hvars⟩ := Session.results_congr h (Statement.forall₂_alike_trimmed hbefore)
  have halike := Statement.alike_trimmed (hrest line (by simp))
  obtain ⟨-, hlabel⟩ := Session.evaluate_congr hvars halike
  obtain ⟨failure', hfailed, hsame⟩ := error_of_mapError_eq hlabel hline
  obtain ⟨hfailure, hsession⟩ := run_numbered_of_error ((forall_isOk_congr hresults).1 hok) hfailed
    (after.map Text.trimmed)
  rw [run_ofText_intercalate htyped, List.map_append, List.map_cons, hfailure, hsession,
    List.length_map]
  exact ⟨failure', hsame, rfl, (Session.vars_worked _ _).trans hvars.symm⟩

end Script

/-! ## What a prompt writes -/

namespace Console.Prompt

theorem converse_line (display : Display) (s : Session) (line : String) (inputs : List Input) :
    converse display s (.line line :: inputs) =
      ((converse display (s.evaluate line).1 inputs).1,
        prompt display ++ (respond display s (.line line)).2 ++
          (converse display (s.evaluate line).1 inputs).2) := by
  rw [← session_respond_line display s line]
  rfl

theorem session_run (display : Display) (s : Session) (lines : List String) :
    (run display s (lines.map .line)).1 = s.after (lines.map .evaluate) := by
  change (converse display s (lines.map .line)).1 = _
  induction lines generalizing s with
  | nil => rfl
  | cons line lines ih =>
    rw [List.map_cons, List.map_cons, converse_line]
    exact ih _

/-- A quiet prompt writes its answers, and nothing else. -/
theorem out_run {display : Display} (hquiet : display.quiet) (s : Session) (lines : List String) :
    (run display s (lines.map .line)).2.out =
      String.join ((s.results lines).map (answerOut display)) := by
  have hbanner : banner display = .empty := if_pos hquiet
  have hprompt : prompt display = .empty := if_pos hquiet
  have hfarewell : farewell display = .empty := if_pos hquiet
  suffices (converse display s (lines.map .line)).2.out =
      String.join ((s.results lines).map (answerOut display)) by
    rw [run, hbanner]
    exact String.empty_append.trans this
  induction lines generalizing s with
  | nil =>
    rw [List.map_nil, converse, hprompt, hfarewell]
    exact String.join_nil.symm
  | cons line lines ih =>
    rw [List.map_cons, converse_line, Session.results, List.map_cons, String.join_cons, ← ih,
      ← out_respond_line, hprompt]
    simp only [Output.out_append, Output.out_empty, String.empty_append]

/-- Answers without a failure are the values that a script prints. -/
theorem join_answerOut {display : Display} (hquiet : display.quiet)
    {results : List (Except Failure (Option Answer))} (h : ∀ r ∈ results, r.isOk) :
    String.join (results.map (answerOut display)) = printed (Script.givenBefore results) := by
  induction results with
  | nil => exact String.join_nil.trans printed_nil.symm
  | cons result results ih =>
    rw [List.forall_mem_cons] at h
    cases result with
    | error failure => cases h.1
    | ok answer =>
      have hvalue (value : Int) : showValue display value = .ofOut (Decimal.text value) :=
        if_pos hquiet
      rw [List.map_cons, String.join_cons, ih h.2, Script.givenBefore_cons_ok, answerOut]
      cases Script.given? answer with
      | none => exact String.empty_append
      | some value =>
        exact (congrArg (·.out ++ _) (hvalue value)).trans (printed_cons _ _).symm

end Console.Prompt

namespace Console.Plan

/-- The prompt of a plan, asked these lines from a fresh session. -/
def ask (plan : Plan) (lines : List String) : Session × Output :=
  Prompt.run plan.display (.fresh plan.verbose) (lines.map .line)

theorem run_prompt {plan : Plan} (h : plan.task = .prompt) (files : String → FileContent)
    (lines : List String) : plan.run files (lines.map .line) = .ok ⟨0, (plan.ask lines).2⟩ := by
  rw [Plan.run, h, ask]

theorem session_ask (plan : Plan) (lines : List String) :
    (plan.ask lines).1 = (Session.fresh plan.verbose).after (lines.map .evaluate) :=
  Prompt.session_run _ _ _

theorem out_ask {plan : Plan} (hquiet : plan.display.quiet) (lines : List String) :
    (plan.ask lines).2.out =
      String.join (((Session.fresh plan.verbose).results lines).map
        (Prompt.answerOut plan.display)) :=
  Prompt.out_run hquiet _ _

/-- Without a failure, a quiet prompt prints what a script prints. -/
theorem out_ask_of_forall_isOk {plan : Plan} (hquiet : plan.display.quiet) {lines : List String}
    (hok : ∀ r ∈ (Session.fresh plan.verbose).results lines, r.isOk) :
    (plan.ask lines).2.out =
      printed (Script.givenBefore ((Session.fresh plan.verbose).results lines)) := by
  rw [out_ask hquiet, Prompt.join_answerOut hquiet hok]

/-- A quiet prompt answers a line that fails with the headline of the failure, and goes on. -/
theorem out_ask_of_error {plan : Plan} (hquiet : plan.display.quiet) {before : List String}
    {line : String} {failure : Failure}
    (hline : ((plan.ask before).1.evaluate line).2 = .error failure) (after : List String) :
    ∃ rest, (plan.ask (before ++ line :: after)).2.out =
      (plan.ask before).2.out ++ (failure.headline plan.display.outStyles ++ "\n") ++ rest := by
  rw [session_ask] at hline
  obtain ⟨results, hresults⟩ := Session.results_of_error hline after
  refine ⟨String.join (results.map (Prompt.answerOut plan.display)), ?_⟩
  rw [out_ask hquiet, hresults, List.map_append, String.join_append, ← out_ask hquiet,
    List.map_cons, String.join_cons, ← String.append_assoc]
  rfl

end Console.Plan

open Console

/-- **Prompt and script agree.** Lines of typed characters, each given to a quiet prompt or all
together as a script, come to the same on fresh sessions. If no line fails, both end with the same
variables, have the same output stream and exit with 0. If one fails, the script stops there and
tells the number of the line; its output stream is what the prompt wrote for the lines before, and
the prompt answers the line with a failure of the same kind, and goes on. -/
theorem prompt_agrees_with_script {lines : List String} (htyped : Text.AreTyped lines)
    {prompted scripted : Plan} (htask : prompted.task = .prompt) (hquiet : prompted.display.quiet)
    {files : String → FileContent} {source : String}
    (hsource : scripted.source? files = some (source, "\n".intercalate lines))
    (inputs : List Input) :
    let s := Session.fresh prompted.verbose
    let script := Script.run (.fresh scripted.verbose) (.ofText ("\n".intercalate lines))
    ((∀ r ∈ s.results lines, r.isOk) →
      script.failure = none ∧ script.session.vars = (prompted.ask lines).1.vars ∧
        prompted.run files (lines.map .line) = .ok ⟨0, (prompted.ask lines).2⟩ ∧
        ∃ err, scripted.run files inputs = .ok ⟨0, ⟨(prompted.ask lines).2.out, err⟩⟩) ∧
    ∀ before line after failure, lines = before ++ line :: after →
      (∀ r ∈ s.results before, r.isOk) →
      ((prompted.ask before).1.evaluate line).2 = .error failure →
      ∃ failure' err rest, script.failure = some (before.length + 1, failure') ∧
        failure'.label = failure.label ∧
        script.session.vars = (prompted.ask before).1.vars ∧
        scripted.run files inputs =
          .ok ⟨1, ⟨(prompted.ask before).2.out,
            header source (some (before.length + 1)) ++ err⟩⟩ ∧
        (prompted.ask lines).2.out = (prompted.ask before).2.out ++
          (failure.headline prompted.display.outStyles ++ "\n") ++ rest := by
  intro s script
  have hfresh : s.vars = (Session.fresh scripted.verbose).vars := rfl
  have hvalues : script.values = Script.givenBefore (s.results lines) :=
    Script.values_run_typed hfresh htyped
  have hscript : scripted.run files inputs = .ok ⟨if script.failure.isNone then 0 else 1,
      ⟨printed script.values,
        header source (script.failure.map Prod.fst) ++ scriptErrors scripted script⟩⟩ := by
    rw [Plan.run_of_source? hsource inputs, runScript_eq]
  constructor
  · intro hok
    obtain ⟨hfailure, hvars⟩ := Script.run_typed_of_forall_isOk hfresh htyped hok
    rw [Plan.session_ask]
    refine ⟨hfailure, hvars, Plan.run_prompt htask files lines, scriptErrors scripted script, ?_⟩
    rw [hscript, hvalues, hfailure, Plan.out_ask_of_forall_isOk hquiet hok]
    rfl
  · intro before line after failure hlines hok hline
    subst hlines
    obtain ⟨rest, hout⟩ := Plan.out_ask_of_error hquiet hline after
    rw [Plan.session_ask] at hline ⊢
    obtain ⟨results, hresults⟩ := Session.results_of_error hline after
    obtain ⟨failure', hlabel, hfailure, hvars⟩ := Script.run_typed_of_error hfresh htyped hok hline
    refine ⟨failure', scriptErrors scripted script, rest, hfailure, hlabel, hvars, ?_, hout⟩
    rw [hscript, hvalues, hfailure, hresults, Script.givenBefore_append_error,
      Plan.out_ask_of_forall_isOk hquiet hok]
    rfl

/-- Three typed lines that all have an answer, with a tab, a comment and blanks at their ends, and
then a fourth that is rejected, by the prompt at another position than by the script. -/
theorem prompt_agrees_with_script_blanks :
    let display : Display := ⟨true, false, false, false⟩
    let prompted : Plan := ⟨.prompt, false, display⟩
    let scripted (lines : List String) : Plan :=
      ⟨.expression ("\n".intercalate lines), true, display⟩
    let files : String → FileContent := fun _ => .error .missing
    let before := ["\tx = 7 ", "  # seven", "x / 2 "]
    let lines := before ++ " 7 / " :: ["1"]
    let failure : Failure := .rejected " 7 / " (.unexpected ⟨.newline, 5⟩
      [.digits, .opening, .operator .subtract, .name] (some ⟨.operator .divide, 3⟩))
    let s := Session.fresh false
    (Text.AreTyped lines ∧ prompted.task = .prompt ∧ display.quiet) ∧
    ((scripted before).source? files = some ("<expr>", "\n".intercalate before) ∧
      (∀ r ∈ s.results before, r.isOk) ∧ (prompted.ask before).2.out = "3\n" ∧
      ∃ err, (scripted before).run files [] = .ok ⟨0, ⟨"3\n", err⟩⟩) ∧
    (scripted lines).source? files = some ("<expr>", "\n".intercalate lines) ∧
      ((prompted.ask before).1.evaluate " 7 / ").2 = .error failure ∧
      ∃ failure' err, failure'.label = failure.label ∧
        (Script.run (.fresh true) (.ofText ("\n".intercalate lines))).failure = some (4, failure') ∧
        (scripted lines).run files [] = .ok ⟨1, ⟨"3\n", header "<expr>" (some 4) ++ err⟩⟩ := by
  intro display prompted scripted files before lines failure s
  have htyped : Text.AreTyped lines := by
    simp [lines, before, Text.AreTyped, Text.isTyped_iff]
  have hbefore : Text.AreTyped before := (List.forall_mem_append.1 htyped).1
  have hok : ∀ r ∈ s.results before, r.isOk := by decide +kernel
  have hline : ((prompted.ask before).1.evaluate " 7 / ").2 = .error failure := by decide +kernel
  have hout : (prompted.ask before).2.out = "3\n" := by decide +kernel
  have hfirst := @prompt_agrees_with_script before hbefore prompted (scripted before) rfl rfl files
    "<expr>" rfl []
  have hall := @prompt_agrees_with_script lines htyped prompted (scripted lines) rfl rfl files
    "<expr>" rfl []
  obtain ⟨-, -, -, hsame⟩ := hfirst.1 hok
  obtain ⟨failure', err, -, hfailure, hlabel, -, hscript, -⟩ :=
    hall.2 before " 7 / " ["1"] failure rfl hok hline
  rw [hout] at hsame hscript
  exact ⟨⟨htyped, rfl, rfl⟩, ⟨rfl, hok, hout, hsame⟩, rfl, hline, failure', err, hlabel, hfailure,
    hscript⟩

end Calculator
